import PredictionMarket.Number.Literal

/-!
# Strings in TOML

A string stands between quotes. Double quotes admit escapes, single ones do not, and three quotes
admit line breaks.

## Main definitions

* `Toml.Quotes`: a way to write a string.
* `Toml.Quotes.string?`: the string after its opening quotes.
-/

namespace PredictionMarket

namespace Toml

/-- Tabs and spaces, the white space within a line. -/
def isSpace (c : Char) : Bool :=
  c == ' ' || c == '\t'

def dropSpace (cs : List Char) : List Char :=
  cs.dropWhile isSpace

/-- A character that may stand anywhere in a line: a tab, or no control character. -/
def isPlain (c : Char) : Bool :=
  c == '\t' || (0x20 ≤ c.toNat && c.toNat != 0x7f)

def dropBreak? : List Char → Option (List Char)
  | '\n' :: rest => some rest
  | '\r' :: '\n' :: rest => some rest
  | _ => none

/-- A way to write a string. -/
structure Quotes where
  mark : Char
  /-- Whether a backslash starts an escape. -/
  escapes : Bool
  /-- Whether there are three quotes at either end, with line breaks allowed between them. -/
  long : Bool

namespace Quotes

/-- The character that a one-letter escape stands for. -/
def escape? : Char → Option Char
  | '\"' => some '\"'
  | '\\' => some '\\'
  | 'b' => some '\x08'
  | 'f' => some '\x0c'
  | 'n' => some '\n'
  | 'r' => some '\r'
  | 't' => some '\t'
  | _ => none

/-- The character whose number is given by the first `width` characters, in hexadecimal digits. -/
def scalar? (width : Nat) (cs : List Char) : Option (Char × List Char) := do
  let ds ← (cs.take width).mapM Literal.hexDigit?
  let n := ds.foldl (fun n d => n * 16 + d) 0
  if ds.length = width ∧ n.isValidChar then some (Char.ofNat n, cs.drop width) else none

/-- The character of an escape after its backslash. -/
def escaped? : List Char → Option (Char × List Char)
  | 'u' :: rest => scalar? 4 rest
  | 'U' :: rest => scalar? 8 rest
  | c :: rest => (escape? c).map (·, rest)
  | [] => none

/-- A text without its first lines as far as they are blank. -/
def dropBlankLines : List Char → List Char
  | '\r' :: '\n' :: rest => dropBlankLines rest
  | c :: rest => if isSpace c || c == '\n' then dropBlankLines rest else c :: rest
  | [] => []

variable (q : Quotes)

/-- The quotes that end a string, with the quotes before them that belong to it. Of five quotes at
the end of a long string two belong to it. -/
def close? (cs : List Char) : Option (List Char × List Char) :=
  if q.long then
    let count := min 5 (cs.takeWhile (· == q.mark)).length
    if count < 3 then none else some (List.replicate (count - 3) q.mark, cs.drop count)
  else
    match cs with
    | c :: rest => if c == q.mark then some ([], rest) else none
    | [] => none

/-- What a backslash stands for: an escape or, at the end of a line of a long string, nothing, up to
the next text. Without escapes it stands for itself. -/
def backslash? (rest : List Char) : Option (List Char × List Char) :=
  if !q.escapes then some (['\\'], rest)
  else if q.long && (dropBreak? (dropSpace rest)).isSome then some ([], dropBlankLines rest)
  else (escaped? rest).map fun (c, rest) => ([c], rest)

/-- The next part of a string: a line break, which is one line feed, or a character. -/
def part? (cs : List Char) : Option (List Char × List Char) :=
  match dropBreak? cs with
  | some rest => if q.long then some (['\n'], rest) else none
  | none =>
    match cs with
    | '\\' :: rest => q.backslash? rest
    | c :: rest => if isPlain c then some ([c], rest) else none
    | [] => none

/-- The characters of a string of at most `limit` parts up to its closing quotes, and the text after
them. -/
def body? : (limit : Nat) → List Char → Option (List Char × List Char)
  | limit, cs =>
    match q.close? cs, limit with
    | some closed, _ => some closed
    | none, 0 => none
    | none, limit + 1 => do
      let (cs, rest) ← q.part? cs
      let (more, rest) ← body? limit rest
      return (cs ++ more, rest)

/-- The string after its opening quotes, and the text after it. A long string leaves out a line
break at its start. -/
def string? (cs : List Char) : Option (String × List Char) :=
  let cs := if q.long then (dropBreak? cs).getD cs else cs
  (q.body? cs.length cs).map fun (cs, rest) => (String.ofList cs, rest)

end Quotes

end Toml

end PredictionMarket
