import CipherRules.Predicate.Description
import CipherRules.Predicate.Directive
import CipherRules.Predicate.Folding

/-!
# Rules

A rule applies an operation to the suites that a predicate accepts.  `Rule.text` writes a rule as
in a rule string, with the description of the predicate in braces where no directive expresses it;
`Rule.isVacuous` is true of rules that visibly change nothing.
-/

namespace CipherRules

/-- What a rule does with the suites its predicate accepts. -/
inductive Operation where
  /-- Appends those not yet selected and not deleted. -/
  | add
  /-- Moves the selected ones to the end, then appends the others. -/
  | pushToEnd
  /-- Moves the selected ones to the end. -/
  | remove
  /-- Drops them and keeps them out for good. -/
  | delete
  /-- Drops every other selected suite. -/
  | keepOnly
  /-- Sorts the selection by strength class, the strongest first. -/
  | sortByStrength
  deriving DecidableEq

namespace Operation

/-- The sign before the terms of a rule. -/
def sign : Operation → Text
  | .add            => []
  | .pushToEnd      => ['+']
  | .remove         => ['-']
  | .delete         => ['!']
  | .keepOnly       => ['&']
  | .sortByStrength => ['@']

/-- The operation that a leading character stands for. -/
def ofSign? (c : Char) : Option Operation :=
  if c = '+' then some .pushToEnd
  else if c = '-' then some .remove
  else if c = '!' then some .delete
  else if c = '&' then some .keepOnly
  else none

/-- The name of the operation. -/
def label : Operation → Text
  | .add            => .of "Add"
  | .pushToEnd      => .of "PushToEnd"
  | .remove         => .of "Remove"
  | .delete         => .of "Delete"
  | .keepOnly       => .of "KeepOnly"
  | .sortByStrength => .of "SortByStrength"

end Operation

/-- An operation and the class of suites it is applied to. -/
structure Rule where
  operation : Operation
  predicate : Predicate
  deriving DecidableEq

namespace Rule

/-- The token that sorts the selection. -/
def strengthDirective : Text := .of "@STRENGTH"

/-- The rule that sorts the selection. -/
def sortByStrength : Rule := ⟨.sortByStrength, .always⟩

/-- True of a rule that visibly changes nothing.  Keeping only nothing does change something. -/
def isVacuous (r : Rule) : Bool :=
  match r.operation with
  | .sortByStrength | .keepOnly => false
  | .add | .pushToEnd | .remove | .delete => r.predicate.isAlwaysFalse

/-- The rule as a rule string writes it. -/
def text (r : Rule) : Text :=
  if r.operation = .sortByStrength then strengthDirective
  else r.operation.sign ++
    match r.predicate.directive? with
    | some d => d
    | none => ['{'] ++ r.predicate.description ++ ['}']

/-- The rules in order, separated by colons. -/
def listText (rules : List Rule) : Text := Text.join [':'] (rules.map text)

end Rule

end CipherRules
