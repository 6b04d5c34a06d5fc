import PredictionMarket.Environment.Variables
import PredictionMarket.Text.Alphanumeric
import PredictionMarket.Text.Blank

/-!
# Environment files

An environment file gives values to variables that have no text yet, one in a line. Values may be
quoted, and a dollar sign stands for the value of another variable.

## Main definitions

* `EnvironmentFile.Scanner.step`: the machine that reads a value.
* `EnvironmentFile.assignment?`: the variable of a line and its value.
* `EnvironmentFile.lines`: the variables with those that the lines of a file add.

## Design notes

Reading stops at the first line that is not understood; what was read before stays. The name after
a dollar sign ends at the first character that is no letter and no digit. That character is part of
the value, whatever it is, so that a quote right after a name ends nothing.
-/

namespace PredictionMarket

namespace EnvironmentFile

open Text (dropBlank)

/-- What a value is being read as. -/
inductive Mode where
  /-- Text as it is, between double quotes or without quotes. -/
  | text (quoted : Bool)
  /-- Text between single quotes. -/
  | literal
  /-- The character after a backslash. -/
  | escaped (quoted : Bool)
  /-- The name after a dollar sign, in reverse. -/
  | name (quoted : Bool) (cs : List Char)
  /-- The name in braces after a dollar sign, in reverse. -/
  | braced (quoted : Bool) (cs : List Char)
  /-- The space after the value. -/
  | ending
  | comment

/-- A value that was read up to some character, in reverse, and what comes next. -/
structure Scanner where
  mode : Mode
  read : List Char

namespace Scanner

/-- A scanner at the start of a value. -/
def start : Scanner := ⟨.text false, []⟩

variable (vars : Variables)

/-- The value of the variable with a reversed name, nothing if there is none. -/
def valueOf (name : List Char) : List Char :=
  ((vars.text? (String.ofList name.reverse)).getD "").toList

/-- The scanner with further characters. -/
def push (s : Scanner) (mode : Mode) (cs : List Char) : Scanner :=
  ⟨mode, cs.reverse ++ s.read⟩

/-- The next character of plain text. -/
def stepText (s : Scanner) (quoted : Bool) (c : Char) : Scanner :=
  if c == '$' then { s with mode := .name quoted [] }
  else if c == '\\' then { s with mode := .escaped quoted }
  else if c == '\"' then { s with mode := .text (!quoted) }
  else if quoted then s.push (.text true) [c]
  else if c == '\'' then { s with mode := .literal }
  else if c == ' ' || c == '\t' then { s with mode := .ending }
  else s.push (.text false) [c]

/-- The character after a backslash. -/
def stepEscaped? (s : Scanner) (quoted : Bool) (c : Char) : Option Scanner :=
  if ['\\', '\'', '\"', '$', ' '].contains c then some (s.push (.text quoted) [c])
  else if c == 'n' then some (s.push (.text quoted) ['\n'])
  else none

/-- The next character of a name, or the first one after it. -/
def stepName (s : Scanner) (quoted : Bool) (cs : List Char) (c : Char) : Scanner :=
  if Text.isAlphanumeric c then { s with mode := .name quoted (c :: cs) }
  else if c == '\x7b' && cs.isEmpty then { s with mode := .braced quoted [] }
  else if c == '$' then s.push (.name quoted []) (valueOf vars cs)
  else s.push (.text quoted) (valueOf vars cs ++ [c])

/-- One character. -/
def step (s : Scanner) (c : Char) : Option Scanner :=
  match s.mode with
  | .text quoted => some (s.stepText quoted c)
  | .literal => some (if c == '\'' then { s with mode := .text false } else s.push .literal [c])
  | .escaped quoted => s.stepEscaped? quoted c
  | .name quoted cs => some (stepName vars s quoted cs c)
  | .braced quoted cs =>
    some (if c == '\x7d' then s.push (.text quoted) (valueOf vars cs)
      else { s with mode := .braced quoted (c :: cs) })
  | .ending =>
    if c == ' ' || c == '\t' then some s
    else if c == '#' then some { s with mode := .comment }
    else none
  | .comment => some s

/-- The value that was read, if no quote and no brace is open. -/
def finish? (s : Scanner) : Option String :=
  let value (cs : List Char) : Option String := some (String.ofList (s.read.reverse ++ cs))
  match s.mode with
  | .text true => none
  | .literal => none
  | .escaped true => none
  | .name true _ => none
  | .braced _ _ => none
  | .name false cs => value (valueOf vars cs)
  | _ => value []

end Scanner

/-- The value that a text stands for, less the space in front of it. -/
def value? (vars : Variables) (cs : List Char) : Option String :=
  match cs with
  | [] => some ""
  | '#' :: _ => some ""
  | cs => (cs.foldlM (Scanner.step vars) .start).bind (Scanner.finish? vars)

def isNameStart (c : Char) : Bool :=
  c.isAlpha || c == '_'

def isNameChar (c : Char) : Bool :=
  c.isAlphanum || c == '_' || c == '.'

/-- The name at the start of a text, and the text after it and after space. -/
def name? : List Char → Option (String × List Char)
  | [] => none
  | c :: rest =>
    if isNameStart c then
      some (String.ofList (c :: rest.takeWhile isNameChar), dropBlank (rest.dropWhile isNameChar))
    else none

/-- The text after an equals sign and after space. -/
def equals? : List Char → Option (List Char)
  | '=' :: rest => some (dropBlank rest)
  | _ => none

/-- The variable of a line that is not empty, and the text of its value. The word `export` may stand
in front, and may be a variable too. -/
def assignment? (cs : List Char) : Option (String × List Char) := do
  let (name, rest) ← name? cs
  match equals? rest with
  | some value => return (name, value)
  | none =>
    if name == "export" then
      let (name, rest) ← name? rest
      return (name, ← equals? rest)
    else none

/-- The variables after a line, which may be empty or a comment. -/
def line? (vars : Variables) (line : List Char) : Option Variables :=
  match dropBlank (Text.dropEndWhile Text.isBlank line) with
  | [] => some vars
  | '#' :: _ => some vars
  | cs => do
    let (name, rest) ← assignment? cs
    let value ← value? vars rest
    return if (vars.text? name).isSome then vars else vars.set name value

/-- The variables after lines up to the first that is not understood. -/
def lines (vars : Variables) : List String → Variables
  | [] => vars
  | l :: ls =>
    match line? vars l.toList with
    | some vars => lines vars ls
    | none => vars

end EnvironmentFile

end PredictionMarket
