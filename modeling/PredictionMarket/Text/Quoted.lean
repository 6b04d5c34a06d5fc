import PredictionMarket.Text.Unprintable

/-!
# Quoted texts

`Text.quoted` writes a text between double quotes for an error message, so that the reader sees
every character of it: the common controls, the quote and the backslash by a short escape, other
unprintable characters by their number in hexadecimal.
-/

namespace PredictionMarket

namespace Text

/-- A number in lower-case hexadecimal. -/
def hexadecimal (n : Nat) : List Char :=
  Nat.toDigits 16 n

/-- One character of a quoted text. -/
def quotedChar (c : Char) : List Char :=
  if c == '\"' then ['\\', '\"']
  else if c == '\\' then ['\\', '\\']
  else if c == '\n' then ['\\', 'n']
  else if c == '\r' then ['\\', 'r']
  else if c == '\t' then ['\\', 't']
  else if c.toNat == 0 then ['\\', '0']
  else if isUnprintable c then
    ['\\', 'u', '\x7b'] ++ hexadecimal c.toNat ++ ['\x7d']
  else [c]

/-- A text in double quotes, with every character visible. -/
def quoted (s : String) : String :=
  String.ofList (['\"'] ++ s.toList.flatMap quotedChar ++ ['\"'])

end Text

end PredictionMarket
