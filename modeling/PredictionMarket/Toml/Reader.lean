import PredictionMarket.Toml.Number

/-!
# Reading TOML

## Main definitions

* `Toml.value?`: a value, in which containers are nested to a limit.
* `Toml.Document.ofText?`: a document.
-/

namespace PredictionMarket

namespace Toml

/-- The string that starts here, in any quotes. -/
def quoted? : List Char → Option (String × List Char)
  | '\"' :: '\"' :: '\"' :: rest => Quotes.string? ⟨'\"', true, true⟩ rest
  | '\"' :: rest => Quotes.string? ⟨'\"', true, false⟩ rest
  | '\'' :: '\'' :: '\'' :: rest => Quotes.string? ⟨'\'', false, true⟩ rest
  | '\'' :: rest => Quotes.string? ⟨'\'', false, false⟩ rest
  | _ => none

/-- A value that is no container. -/
def scalar? (cs : List Char) : Option (Value × List Char) :=
  match cs with
  | 't' :: 'r' :: 'u' :: 'e' :: rest => some (.boolean true, rest)
  | 'f' :: 'a' :: 'l' :: 's' :: 'e' :: rest => some (.boolean false, rest)
  | cs =>
    match quoted? cs with
    | some (s, rest) => some (.string s, rest)
    | none => (moment? cs).or (number? cs)

/-- A character of a key without quotes. -/
def isBare (c : Char) : Bool :=
  c.isAlphanum || c == '-' || c == '_'

/-- One name of a key, in simple quotes or without. -/
def name? (cs : List Char) : Option (String × List Char) :=
  match cs with
  | '\"' :: rest => Quotes.string? ⟨'\"', true, false⟩ rest
  | '\'' :: rest => Quotes.string? ⟨'\'', false, false⟩ rest
  | cs =>
    let name := cs.takeWhile isBare
    if name.isEmpty then none else some (String.ofList name, cs.dropWhile isBare)

/-- A key of at most `limit` names with points between them, and spaces around each. -/
def key? : (limit : Nat) → List Char → Option (Key × List Char)
  | 0, _ => none
  | limit + 1, cs => do
    let (name, rest) ← name? (dropSpace cs)
    match dropSpace rest with
    | '.' :: rest =>
      let (key, rest) ← key? limit rest
      return ({ key with path := name :: key.path }, rest)
    | rest => return (⟨[], name⟩, rest)

/-- How many names a key may have, and how deep containers may be nested. -/
def nestingLimit : Nat := 79

/-- The text after white space, line breaks and comments; `true` inside a comment. -/
def dropGap? : (inComment : Bool) → List Char → Option (List Char)
  | _, '\r' :: '\n' :: rest => dropGap? false rest
  | _, '\n' :: rest => dropGap? false rest
  | true, c :: rest => if isPlain c then dropGap? true rest else none
  | true, [] => none
  | false, '#' :: rest => dropGap? true rest
  | false, c :: rest => if isSpace c then dropGap? false rest else some (c :: rest)
  | false, [] => some []

section Containers

variable (read : List Char → Option (Value × List Char))

/-- At most `limit` items of an array after its opening bracket or a comma. -/
def items? : (limit : Nat) → List Char → Option (List Value × List Char)
  | 0, _ => none
  | limit + 1, cs => do
    match ← dropGap? false cs with
    | ']' :: rest => return ([], rest)
    | cs =>
      let (v, rest) ← read cs
      match ← dropGap? false rest with
      | ',' :: rest =>
        let (vs, rest) ← items? limit rest
        return (v :: vs, rest)
      | ']' :: rest => return ([v], rest)
      | _ => none

/-- A key with its value. -/
def assignment? (cs : List Char) : Option ((Key × Value) × List Char) := do
  let (key, rest) ← key? nestingLimit cs
  let (v, rest) ← read (dropSpace (← mark? '=' rest))
  return ((key, v), rest)

/-- At most `limit` keys of a table in braces, which follow those of a table. -/
def members? : (limit : Nat) → Table → List Char → Option (Table × List Char)
  | 0, _, _ => none
  | limit + 1, t, cs => do
    let ((key, v), rest) ← assignment? read cs
    let t ← t.insert? key.name v key.path
    match dropSpace rest with
    | ',' :: rest => members? limit t rest
    | '\x7d' :: rest => return (t, rest)
    | _ => none

/-- A table in braces after the opening one. -/
def braces? (cs : List Char) : Option (Table × List Char) :=
  match dropSpace cs with
  | '\x7d' :: rest => some ([], rest)
  | cs => members? read cs.length [] cs

end Containers

/-- A value in which at most `depth` containers are nested. -/
def value? : (depth : Nat) → List Char → Option (Value × List Char)
  | depth + 1, '[' :: rest =>
    (items? (value? depth) rest.length rest).map fun (vs, rest) => (.array vs, rest)
  | depth + 1, '\x7b' :: rest =>
    (braces? (value? depth) rest).map fun (t, rest) => (.table .inlined t, rest)
  | _, cs => scalar? cs

/-- The text after a line break or at the end. -/
def dropEnd? : List Char → Option (List Char)
  | [] => some []
  | rest => dropBreak? rest

/-- The text after what may follow in a line: spaces and a comment. -/
def dropLineEnd? (cs : List Char) : Option (List Char) :=
  match dropSpace cs with
  | '#' :: rest => dropEnd? (rest.dropWhile isPlain)
  | rest => dropEnd? rest

namespace Document

variable (d : Document)

/-- The document after the content of a line that does not start with a space. -/
def line? (cs : List Char) : Option (Document × List Char) :=
  match cs with
  | [] => some (d, [])
  | '[' :: '[' :: rest => do
    let (key, rest) ← key? nestingLimit rest
    return (← d.openElement? key, ← mark? ']' (← mark? ']' rest))
  | '[' :: rest => do
    let (key, rest) ← key? nestingLimit rest
    return (← d.openTable? key, ← mark? ']' rest)
  | c :: rest =>
    if c == '#' || c == '\n' || c == '\r' then some (d, c :: rest)
    else do
      let ((key, v), rest) ← assignment? (value? nestingLimit) (c :: rest)
      return (← d.assign? key v, rest)

/-- The document after at most `limit` lines. -/
def lines? : (limit : Nat) → Document → List Char → Option Document
  | _, d, [] => some d
  | 0, _, _ => none
  | limit + 1, d, cs => do
    let (d, rest) ← d.line? (dropSpace cs)
    lines? limit d (← dropLineEnd? rest)

/-- The document of a text, which may start with a byte order mark. -/
def ofText? (s : String) : Option Document :=
  let cs := s.toList
  let cs := if cs.head? == some '\ufeff' then cs.tail else cs
  lines? cs.length .empty cs

end Document

end Toml

end PredictionMarket
