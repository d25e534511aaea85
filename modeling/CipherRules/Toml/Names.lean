import CipherRules.Text

/-!
# TOML — Names in use

What the keys of a document stand for.  Tables may be written in several places, and which of them
may still grow depends on how each came into being: by a header, on the way to another header, or
on the way to a dotted key.  `Names` records the use of each path, `Names.assign?` adds a key with
its value, and `Names.open?` and `Names.append?` add a table by its header; each of them fails
where a name would be given twice.

The tables of an array have one path.  Only the last of them can grow, so the names in the others
are forgotten.
-/

namespace CipherRules.Toml

/-- A value, as far as it matters: a text, or something that is closed to further names. -/
inductive Value where
  | text (t : Text)
  | closed
  deriving DecidableEq

/-- What a path stands for. -/
inductive Use where
  /-- A value. -/
  | value (v : Value)
  /-- A table with a header of its own. -/
  | headed
  /-- A table on the way to another with a header. -/
  | implied
  /-- A table on the way to a dotted key. -/
  | dotted
  /-- An array of tables, each with a header of its own. -/
  | series
  deriving DecidableEq

/-- The keys that lead from the whole document to a place in it. -/
abbrev Path := List Text

/-- The paths in use, the latest first. -/
abbrev Names := List (Path × Use)

namespace Names

/-- Goes through a table on the way to a dotted key. -/
def passDotted? (names : Names) (path : Path) : Option Names :=
  match names.lookup path with
  | none => some ((path, .dotted) :: names)
  | some .implied | some .dotted | some .series => some names
  | some (.value _) | some .headed => none

/-- Goes through a table on the way to another with a header. -/
def passHeader? (names : Names) (path : Path) : Option Names :=
  match names.lookup path with
  | none => some ((path, .implied) :: names)
  | some .implied | some .dotted | some .headed | some .series => some names
  | some (.value _) => none

/-- Goes from a table through those on the way to a last key; what is left is the path of the
table that holds the key, and the key. -/
def descend? (pass : Names → Path → Option Names) :
    Names → Path → Path → Option (Names × Path × Text)
  | _, _, [] => none
  | names, table, [last] => some (names, table, last)
  | names, table, key :: next :: more =>
      match pass names (table ++ [key]) with
      | none => none
      | some names => descend? pass names (table ++ [key]) (next :: more)

/-- Gives a value to a key of a table; a dotted key goes into a table of dotted keys. -/
def assign? (names : Names) (table key : Path) (v : Value) : Option Names :=
  match descend? passDotted? names table key with
  | none => none
  | some (names, holder, last) =>
      if holder ≠ table ∧ names.lookup holder ≠ some .dotted then none
      else if (names.lookup (holder ++ [last])).isSome then none
      else some ((holder ++ [last], .value v) :: names)

/-- Opens the table of a header. -/
def open? (names : Names) (header : Path) : Option Names :=
  match descend? passHeader? names [] header with
  | none => none
  | some (names, _, _) =>
      match names.lookup header with
      | none | some .implied => some ((header, .headed) :: names)
      | some _ => none

/-- Opens one more table in an array of tables. -/
def append? (names : Names) (header : Path) : Option Names :=
  match descend? passHeader? names [] header with
  | none => none
  | some (names, _, _) =>
      match names.lookup header with
      | none => some ((header, .series) :: names)
      | some .series =>
          some (names.filter fun n => !(header.isPrefixOf n.1 && n.1 != header))
      | some _ => none

end Names

end CipherRules.Toml
