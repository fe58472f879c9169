import BuildInputs.Text.Invisible

/-!
# Characters in messages

A message shows a character between single quotes, with an escape where the character itself would
not be readable.
-/

namespace BuildInputs.Text

/-- Hexadecimal digits in lower case without leading zeros. -/
def hexText (n : Nat) : String := String.ofList (Nat.toDigits 16 n)

/-- The readable form of a character: itself, a one-letter escape or its number. -/
def escapeChar (c : Char) : String :=
  match c with
  | '\x00' => "\\0"
  | '\t' => "\\t"
  | '\r' => "\\r"
  | '\n' => "\\n"
  | '\'' => "\\'"
  | '\\' => "\\\\"
  | c => if isInvisible c then "\\u\x7b" ++ hexText c.toNat ++ "\x7d" else c.toString

/-- A character between single quotes. -/
def quoteChar (c : Char) : String := "'" ++ escapeChar c ++ "'"

end BuildInputs.Text
