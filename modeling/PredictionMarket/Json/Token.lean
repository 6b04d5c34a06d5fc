import PredictionMarket.Number.Literal

/-!
# Tokens of JSON texts

A JSON text is a sequence of tokens with blanks between them. `Token.ofText?` cuts a text into
tokens, and `Token.render` writes one token.

## Main definitions

* `Json.Text`: the text of a string, unless its escapes leave half of a surrogate pair alone.
* `Json.Number`: a number as written, not yet converted to any range.
* `Json.Token.ofText?`, `Json.Token.render`: reading and writing.
-/

namespace PredictionMarket

namespace Json

/-- The text of a string; `none` if an escape in it is half of a surrogate pair and stands alone,
so that no text corresponds to it. -/
abbrev Text := Option String

/-- A number as written. -/
structure Number where
  negative : Bool
  whole : Nat
  /-- The digits after the point, none if there is no point. -/
  fraction : List Char
  /-- The number after the letter `e`, if there is one. -/
  exponent : Option Int
deriving DecidableEq, Repr

def Number.ofNat (n : Nat) : Number := ⟨false, n, [], none⟩

/-- The smallest parts of a JSON text. -/
inductive Token where
  | openArray
  | closeArray
  | openObject
  | closeObject
  | comma
  | colon
  | null
  | bool (b : Bool)
  | number (n : Number)
  | text (t : Text)
deriving DecidableEq, Repr

/-- A part of the body of a string. -/
inductive Piece where
  | char (c : Char)
  /-- A sixteen-bit unit, written as four hexadecimal digits. -/
  | unit (n : Nat)
deriving DecidableEq, Repr

namespace Piece

/-- Whether a unit is the first half of a surrogate pair. -/
def isHigh (n : Nat) : Bool := 0xd800 ≤ n && n < 0xdc00

/-- Whether a unit is the second half of a surrogate pair. -/
def isLow (n : Nat) : Bool := 0xdc00 ≤ n && n < 0xe000

/-- The characters of a string body, if no half of a surrogate pair stands alone. -/
def join? : List Piece → Option (List Char)
  | [] => some []
  | char c :: rest => (join? rest).map (c :: ·)
  | unit h :: unit l :: rest =>
    if isHigh h then
      if isLow l then
        (join? rest).map (Char.ofNat (0x10000 + (h - 0xd800) * 0x400 + (l - 0xdc00)) :: ·)
      else none
    else if isLow h then none
    else (join? (unit l :: rest)).map (Char.ofNat h :: ·)
  | unit n :: rest =>
    if isHigh n || isLow n then none else (join? rest).map (Char.ofNat n :: ·)

end Piece

namespace Token

/-- The white space of JSON. -/
def isSpace (c : Char) : Bool :=
  c == ' ' || c == '\n' || c == '\t' || c == '\r'

/-- The value of four hexadecimal digits. -/
def hexUnit? (a b c d : Char) : Option Nat := do
  let ds ← [a, b, c, d].mapM Literal.hexDigit?
  return ds.foldl (fun n d => n * 16 + d) 0

/-- The character that a one-letter escape stands for. -/
def escape? : Char → Option Char
  | '\"' => some '\"'
  | '\\' => some '\\'
  | '/' => some '/'
  | 'b' => some '\x08'
  | 'f' => some '\x0c'
  | 'n' => some '\n'
  | 'r' => some '\r'
  | 't' => some '\t'
  | _ => none

/-- The body of a string up to its closing quote, and the text after it. -/
def pieces? : List Char → Option (List Piece × List Char)
  | '\"' :: rest => some ([], rest)
  | '\\' :: 'u' :: a :: b :: c :: d :: rest => do
    let n ← hexUnit? a b c d
    let (ps, rest) ← pieces? rest
    return (.unit n :: ps, rest)
  | '\\' :: e :: rest => do
    let c ← escape? e
    let (ps, rest) ← pieces? rest
    return (.char c :: ps, rest)
  | c :: rest =>
    if c.toNat < 0x20 then none
    else do
      let (ps, rest) ← pieces? rest
      return (.char c :: ps, rest)
  | [] => none

/-- One or more digits at the start of a text, and the text after them. -/
def someDigits? (cs : List Char) : Option (List Char × List Char) :=
  let (ds, rest) := Literal.digits cs
  if ds.isEmpty then none else some (ds, rest)

/-- A whole part, which is zero or starts with another digit. -/
def whole? : List Char → Option (Nat × List Char)
  | '0' :: rest => some (0, rest)
  | cs => (someDigits? cs).map fun (ds, rest) => (Literal.value ds, rest)

/-- The fraction after a whole part, if a point follows. -/
def fraction? : List Char → Option (List Char × List Char)
  | '.' :: rest => someDigits? rest
  | rest => some ([], rest)

/-- A signed whole number after the letter of an exponent. -/
def exponentBody? : List Char → Option (Int × List Char)
  | '-' :: rest => (someDigits? rest).map fun (ds, rest) => (-(Literal.value ds : Int), rest)
  | rest =>
    (someDigits? (Literal.dropPlus rest)).map fun (ds, rest) => ((Literal.value ds : Int), rest)

/-- The exponent after a fraction, if its letter follows. -/
def exponent? : List Char → Option (Option Int × List Char)
  | [] => some (none, [])
  | c :: rest =>
    if c == 'e' || c == 'E' then (exponentBody? rest).map fun (e, rest) => (some e, rest)
    else some (none, c :: rest)

/-- A number without its sign. -/
def magnitude? (negative : Bool) (cs : List Char) : Option (Token × List Char) := do
  let (whole, rest) ← whole? cs
  let (fraction, rest) ← fraction? rest
  let (exponent, rest) ← exponent? rest
  return (.number ⟨negative, whole, fraction, exponent⟩, rest)

/-- The first token of a text that starts with no space, and the text after it. -/
def next? : List Char → Option (Token × List Char)
  | '[' :: rest => some (.openArray, rest)
  | ']' :: rest => some (.closeArray, rest)
  | '\x7b' :: rest => some (.openObject, rest)
  | '\x7d' :: rest => some (.closeObject, rest)
  | ',' :: rest => some (.comma, rest)
  | ':' :: rest => some (.colon, rest)
  | 'n' :: 'u' :: 'l' :: 'l' :: rest => some (.null, rest)
  | 't' :: 'r' :: 'u' :: 'e' :: rest => some (.bool true, rest)
  | 'f' :: 'a' :: 'l' :: 's' :: 'e' :: rest => some (.bool false, rest)
  | '\"' :: rest =>
    (pieces? rest).map fun (ps, rest) => (.text ((Piece.join? ps).map String.ofList), rest)
  | '-' :: rest => magnitude? true rest
  | cs => magnitude? false cs

/-- The tokens of a text, if it has no more than `limit` characters. -/
def ofChars? : (limit : Nat) → List Char → Option (List Token)
  | 0, cs => if cs.isEmpty then some [] else none
  | limit + 1, cs =>
    match cs with
    | [] => some []
    | c :: rest =>
      if isSpace c then ofChars? limit rest
      else do
        let (t, rest) ← next? (c :: rest)
        return t :: (← ofChars? limit rest)

def ofText? (s : String) : Option (List Token) :=
  let cs := s.toList
  ofChars? cs.length cs

/-- One character in the body of a string. -/
def renderChar (c : Char) : List Char :=
  if c == '\"' then ['\\', '\"']
  else if c == '\\' then ['\\', '\\']
  else if c == '\x08' then ['\\', 'b']
  else if c == '\t' then ['\\', 't']
  else if c == '\n' then ['\\', 'n']
  else if c == '\x0c' then ['\\', 'f']
  else if c == '\r' then ['\\', 'r']
  else if c.toNat < 0x20 then
    ['\\', 'u', '0', '0', Nat.digitChar (c.toNat / 16), Nat.digitChar (c.toNat % 16)]
  else [c]

/-- A string with its quotes. A text that does not exist is written as a lone surrogate. -/
def renderText : Text → List Char
  | some s => '\"' :: s.toList.flatMap renderChar ++ ['\"']
  | none => ['\"', '\\', 'u', 'd', '8', '0', '0', '\"']

/-- An exponent with its sign. -/
def renderExponent (e : Int) : List Char :=
  (if e < 0 then '-' else '+') :: Nat.toDigits 10 e.natAbs

def renderNumber (n : Number) : List Char :=
  (if n.negative then ['-'] else []) ++ Nat.toDigits 10 n.whole ++
    (if n.fraction.isEmpty then [] else '.' :: n.fraction) ++
    match n.exponent with
    | none => []
    | some e => 'e' :: renderExponent e

/-- The characters of a token. -/
def render : Token → List Char
  | openArray => ['[']
  | closeArray => [']']
  | openObject => ['\x7b']
  | closeObject => ['\x7d']
  | comma => [',']
  | colon => [':']
  | null => ['n', 'u', 'l', 'l']
  | bool true => ['t', 'r', 'u', 'e']
  | bool false => ['f', 'a', 'l', 's', 'e']
  | number n => renderNumber n
  | text t => renderText t

end Token

end Json

end PredictionMarket
