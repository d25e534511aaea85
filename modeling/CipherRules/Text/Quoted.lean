import CipherRules.Text.Printable

/-!
# Text — Quoted texts

A text in double quotes on one line of a log.  Quotes, backslashes and the usual control characters
get a backslash; characters that leave no mark of their own, or that attach themselves to the one
before, are written by their code points.
-/

namespace CipherRules.Text

/-- A natural number in lower-case hexadecimal digits. -/
def hexadecimal (n : Nat) : Text := Nat.toDigits 16 n

/-- A character between double quotes. -/
def quoteChar (c : Char) : Text :=
  match c with
  | '"'    => .of "\\\""
  | '\\'   => .of "\\\\"
  | '\n'   => .of "\\n"
  | '\r'   => .of "\\r"
  | '\t'   => .of "\\t"
  | '\x00' => .of "\\0"
  | c      => if isPrintable c then [c]
              else Text.of "\\u\x7b" ++ hexadecimal c.toNat ++ Text.of "\x7d"

/-- A text in double quotes. -/
def quote (t : Text) : Text := ['"'] ++ t.flatMap quoteChar ++ ['"']

end CipherRules.Text
