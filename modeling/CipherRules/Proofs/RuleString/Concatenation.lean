import CipherRules.Proofs.RuleString.Validity

/-!
# Rule strings — Concatenation

Two rule strings with a separator between them are one rule string.  Its tokens are those of the
one, then those of the other, which stand so many bytes further on (`tokens_append_separator`).

* `rulesOf_append`, `rulesOf_map_shift`: the reader goes through tokens one after the other, and a
  position decides nothing about what it does.
* `parse_append_separator`: so the reading of the whole is the one reading followed by the other,
  reports and errors included.
-/

namespace CipherRules

/-! ### Further on -/

/-- The event, with what it says of a position so many bytes further on. -/
def Event.shift (n : Nat) : Event → Event
  | .ignoredToken token position => .ignoredToken token (position + n)
  | e                            => e

/-- The error, with what it says of a position so many bytes further on. -/
def SelectionError.shift (n : Nat) : SelectionError → SelectionError
  | .badToken token position fault => .badToken token (position + n) fault
  | e                              => e

namespace Traced

variable {α : Type}

/-- What is read, so many bytes further on. -/
def shift (n : Nat) (t : Traced (Except SelectionError α)) : Traced (Except SelectionError α) :=
  ⟨t.events.map (.shift n), t.value.mapError (.shift n)⟩

/-- The rules of one reading, and behind them those of another, which takes place only if the first
one succeeds. -/
def append (t u : Traced (Except SelectionError (List Rule))) :
    Traced (Except SelectionError (List Rule)) :=
  t.andThen fun rules => ⟨u.events, u.value.map (rules ++ ·)⟩

variable {t u v : Traced (Except SelectionError (List Rule))}

theorem append_of_error {e : SelectionError} (h : t.value = .error e) :
    t.append u = ⟨t.events, .error e⟩ :=
  andThen_of_error h

theorem append_of_ok {rules : List Rule} (h : t.value = .ok rules) :
    t.append u = ⟨t.events ++ u.events, u.value.map (rules ++ ·)⟩ :=
  andThen_of_ok h

/-- A reading of nothing makes no difference. -/
theorem nil_append (t : Traced (Except SelectionError (List Rule))) :
    append ⟨[], .ok []⟩ t = t := by
  obtain ⟨events, value⟩ := t
  cases value <;> rfl

theorem append_assoc : (t.append u).append v = t.append (u.append v) := by
  obtain ⟨events, value⟩ := t
  obtain ⟨events', value'⟩ := u
  obtain ⟨events'', value''⟩ := v
  cases value <;> cases value' <;> cases value'' <;>
    simp [append, andThen, Except.map]

theorem shift_append (n : Nat) : (t.append u).shift n = (t.shift n).append (u.shift n) := by
  obtain ⟨events, value⟩ := t
  obtain ⟨events', value'⟩ := u
  cases value <;> cases value' <;>
    simp [append, andThen, shift, Except.map, Except.mapError]

end Traced

namespace RuleString

open Text (pieces byteLength)

variable {catalog : Catalog}

/-! ### Tokens -/

/-- The token, so many bytes further on. -/
def Token.shift (n : Nat) (t : Token) : Token := { t with position := t.position + n }

theorem Token.ofPieces_add (n : Nat) : ∀ (offset : Nat) (ps : List Text),
    Token.ofPieces (offset + n) ps = (Token.ofPieces offset ps).map (.shift n)
  | _, [] => rfl
  | offset, p :: rest => by
      have hfirst : Token.ofPiece (offset + n) p = (Token.ofPiece offset p).shift n := by
        simp only [Token.ofPiece, Token.shift, Nat.add_right_comm]
      have hoffset : offset + n + byteLength p + separator.utf8Size =
          offset + byteLength p + separator.utf8Size + n := by omega
      rw [Token.ofPieces, Token.ofPieces, hoffset, Token.ofPieces_add n, hfirst]
      rfl

/-- Pieces that follow others start behind these and their separators. -/
theorem Token.ofPieces_append : ∀ (offset : Nat) (ps qs : List Text),
    Token.ofPieces offset (ps ++ qs) = Token.ofPieces offset ps ++
      Token.ofPieces (offset + byteLength (ps.flatMap (· ++ [separator]))) qs
  | _, [], _ => rfl
  | offset, p :: rest, qs => by
      have hoffset : offset + byteLength p + separator.utf8Size +
            byteLength (rest.flatMap (· ++ [separator])) =
          offset + byteLength ((p :: rest).flatMap (· ++ [separator])) := by
        simp only [List.flatMap_cons, Text.byteLength_append, Text.byteLength_cons,
          Text.byteLength_nil]
        omega
      rw [List.cons_append, Token.ofPieces, Token.ofPieces_append, hoffset]
      rfl

/-- **The tokens of two rule strings in one.** -/
theorem tokens_append_separator (s t : Text) :
    tokens (s ++ separator :: t) = tokens s ++ (tokens t).map (.shift (byteLength s + 1)) := by
  have hbefore : (pieces separator s).flatMap (· ++ [separator]) = s ++ [separator] := by
    have hne : pieces separator s ≠ [] := List.cons_ne_nil _ _
    rw [← Text.join_append_sep hne, Text.join_pieces]
  have hbytes : byteLength (s ++ [separator]) = byteLength s + 1 := Text.byteLength_append s _
  rw [tokens, Text.pieces_append_sep, Token.ofPieces_append, hbefore, hbytes, Token.ofPieces_add]
  rfl

/-! ### Readings -/

/-- The reader takes one token after the other. -/
theorem rulesOf_cons (token : Token) (rest : List Token) :
    rulesOf catalog (token :: rest) = (rulesOf catalog [token]).append (rulesOf catalog rest) := by
  simp only [rulesOf]
  obtain ⟨events, value⟩ := rulesOf catalog rest
  cases Clause.parse token.text with
  | error fault => rfl
  | ok clause =>
    cases hrule : clause.resolve? catalog <;> simp only [hrule] <;> cases value <;> rfl

theorem rulesOf_append (ts us : List Token) :
    rulesOf catalog (ts ++ us) = (rulesOf catalog ts).append (rulesOf catalog us) := by
  induction ts with
  | nil => exact (Traced.nil_append _).symm
  | cons token rest ih =>
    rw [List.cons_append, rulesOf_cons, ih, rulesOf_cons token rest, Traced.append_assoc]

theorem rulesOf_shift (n : Nat) (token : Token) :
    rulesOf catalog [token.shift n] = (rulesOf catalog [token]).shift n := by
  simp only [rulesOf, Token.shift]
  cases Clause.parse token.text with
  | error fault => rfl
  | ok clause => cases hrule : clause.resolve? catalog <;> simp only [hrule] <;> rfl

/-- A position decides nothing about how a token is read. -/
theorem rulesOf_map_shift (n : Nat) (ts : List Token) :
    rulesOf catalog (ts.map (.shift n)) = (rulesOf catalog ts).shift n := by
  induction ts with
  | nil => rfl
  | cons token rest ih =>
    rw [List.map_cons, rulesOf_cons, rulesOf_shift, ih, rulesOf_cons token rest,
      Traced.shift_append]

/-- Within the limits a rule string is read token by token. -/
theorem parse_of_within {input : Text} (hbytes : byteLength input ≤ Limits.ruleStringBytes)
    (hcount : input.count ':' + 1 ≤ Limits.rules) :
    parse catalog input = rulesOf catalog (tokens input) := by
  rw [parse_eq, if_neg (Nat.not_lt.2 hbytes), length_tokens_eq_count, if_neg (Nat.not_lt.2 hcount)]

/-- **The reading of two rule strings in one** is that of the first, then that of the second. -/
theorem parse_append_separator {s t : Text}
    (hbytes : byteLength (s ++ separator :: t) ≤ Limits.ruleStringBytes)
    (hcount : (s ++ separator :: t).count ':' + 1 ≤ Limits.rules) :
    parse catalog (s ++ separator :: t) =
      (parse catalog s).append ((parse catalog t).shift (byteLength s + 1)) := by
  have hlen : byteLength (s ++ separator :: t) =
      byteLength s + (separator.utf8Size + byteLength t) := Text.byteLength_append s _
  have hmany : (s ++ separator :: t).count ':' = s.count ':' + (t.count ':' + 1) := by
    rw [List.count_append]
    exact congrArg _ List.count_cons_self
  rw [parse_of_within hbytes hcount, tokens_append_separator, rulesOf_append, rulesOf_map_shift,
    parse_of_within (by omega) (by omega), parse_of_within (by omega) (by omega)]

end RuleString

end CipherRules
