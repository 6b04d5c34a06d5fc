/-!
# Variables

A program is started with variables. Their values are bytes, which need not be those of a text, and
a variable whose value is no text reads like one that is not there.

## Main definitions

* `RawText`: bytes as a host keeps them.
* `Variables.value?`, `Variables.text?`: the value of a variable, and the text that it is.
* `Variables.set`: a variable with a new value.
-/

namespace PredictionMarket

/-- A character, or a byte that belongs to none. -/
inductive RawChar where
  | char (c : Char)
  | byte (b : UInt8)
deriving DecidableEq, Repr

namespace RawChar

def char? : RawChar → Option Char
  | char c => some c
  | byte _ => none

end RawChar

/-- Bytes as characters, and as they are where they belong to none. -/
abbrev RawText := List RawChar

namespace RawText

def ofString (s : String) : RawText :=
  s.toList.map .char

/-- The text of the bytes, if all of them belong to characters. -/
def text? (r : RawText) : Option String :=
  (r.mapM RawChar.char?).map String.ofList

end RawText

/-- Variables with their values. -/
abbrev Variables := List (String × RawText)

namespace Variables

/-- Variables whose values are texts. -/
def ofTexts (vars : List (String × String)) : Variables :=
  vars.map fun (name, s) => (name, .ofString s)

/-- The entry of a variable: its name, an equals sign and its value. -/
def entry (name : String) (value : RawText) : RawText :=
  .ofString name ++ .char '=' :: value

/-- What follows a name and an equals sign in the entry of a variable. -/
def valueAfter? (name : String) (v : String × RawText) : Option RawText :=
  (entry name []).isPrefixOf? (entry v.1 v.2)

/-- The value of a variable, from the first entry that fits. A name may reach into a value: where
`A` is `B=C`, the value of `A=B` is `C`. No variable has the empty name. -/
def value? (vars : Variables) (name : String) : Option RawText :=
  if name.isEmpty then none else vars.findSome? (valueAfter? name)

/-- The text of a variable, none if there is no such variable or if it holds no text. -/
def text? (vars : Variables) (name : String) : Option String :=
  (vars.value? name).bind RawText.text?

/-- The variables with a text for a name, in the place of what it held. -/
def set (name text : String) : Variables → Variables
  | [] => [(name, .ofString text)]
  | (other, value) :: vars =>
    if other == name then (name, .ofString text) :: vars else (other, value) :: set name text vars

end Variables

end PredictionMarket
