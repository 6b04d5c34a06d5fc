/-!
# Arguments

A `Form` says which options and words a program or one of its commands takes, and `Form.scan` sorts
arguments into them from left to right.

## Main definitions

* `CommandLine.Form`, `CommandLine.Kind`: what may be given.
* `CommandLine.Form.scan`: the options and words in a list of arguments.
* `CommandLine.Stop`: why there may be none.

## Design notes

The value of an option follows an equals sign or is the next argument, which then must not start
with a hyphen unless it is nothing but one. No option may be given twice. After two hyphens all
arguments are words.
-/

namespace PredictionMarket

namespace CommandLine

/-- Why arguments do not lead to a command. -/
inductive Stop where
  /-- The user asks for help. -/
  | help
  /-- The user asks for the version. -/
  | version
  /-- The arguments are refused. -/
  | refused
deriving DecidableEq, Repr

/-- What an option takes. -/
inductive Kind where
  /-- No value. -/
  | flag
  /-- A value with a property. -/
  | value (accepts : String → Bool)

/-- Which options and words are taken. -/
structure Form where
  options : List (String × Kind)
  /-- How many words there may be. -/
  words : Nat
  /-- Whether the first word starts something with a form of its own. -/
  endsAtWord : Bool
  /-- Whether the version can be asked for. -/
  hasVersion : Bool

/-- The options with their values, the empty text for a flag, and the words in their order. -/
structure Arguments where
  options : List (String × String)
  words : List String
deriving DecidableEq, Repr

/-- What an argument looks like. -/
inductive Shape where
  /-- Two hyphens alone. -/
  | divider
  | option (name : String) (value : Option String)
  /-- One hyphen in front of letters, of which the first one counts. -/
  | letter (c : Char)
  | word (s : String)
deriving DecidableEq, Repr

/-- The shape of an argument. -/
def Shape.of (s : String) : Shape :=
  match s.toList with
  | ['-', '-'] => divider
  | '-' :: '-' :: cs =>
    option (String.ofList (cs.takeWhile (· != '=')))
      ((cs.dropWhile (· != '=')).tail?.map String.ofList)
  | '-' :: c :: _ => letter c
  | _ => word s

def isWord (s : String) : Bool :=
  Shape.of s == .word s

namespace Arguments

def empty : Arguments := ⟨[], []⟩

variable (a : Arguments)

/-- The arguments with one more option, which was not given before. -/
def addOption (name value : String) : Except Stop Arguments :=
  if (a.options.lookup name).isSome then .error .refused
  else .ok { a with options := a.options ++ [(name, value)] }

/-- The value of an option, if it was given. -/
def option? (name : String) : Option String :=
  a.options.lookup name

/-- The value of an option that must be given. -/
def required (name : String) : Except Stop String :=
  match a.option? name with
  | some v => .ok v
  | none => .error .refused

end Arguments

namespace Form

variable (f : Form)

/-- What a name asks for that is no option of the form. -/
def special (name : String) : Stop :=
  if name == "help" then .help
  else if name == "version" && f.hasVersion then .version
  else .refused

/-- What a letter asks for. -/
def specialLetter (c : Char) : Stop :=
  if c == 'h' then .help else if c == 'V' && f.hasVersion then .version else .refused

/-- The arguments with further words, if the form takes them. -/
def addWords (a : Arguments) (words : List String) : Except Stop Arguments :=
  let words := a.words ++ words
  if words.length ≤ f.words then .ok { a with words } else .error .refused

/-- The arguments with an option that has a value. -/
def addValue (a : Arguments) (name value : String) : Except Stop Arguments :=
  match f.options.lookup name with
  | some (.value accepts) => if accepts value then a.addOption name value else .error .refused
  | _ => .error .refused

/-- The arguments with those of a list, and what is left of the list from the first word on if the
form ends there. -/
def scanFrom (a : Arguments) : List String → Except Stop (Arguments × List String)
  | [] => .ok (a, [])
  | arg :: rest =>
    match Shape.of arg with
    | .divider => (f.addWords a rest).map (·, [])
    | .letter c => .error (f.specialLetter c)
    | .word w =>
      if f.endsAtWord then .ok (a, arg :: rest)
      else do scanFrom (← f.addWords a [w]) rest
    | .option name (some v) => do scanFrom (← f.addValue a name v) rest
    | .option name none =>
      match f.options.lookup name with
      | none => .error (f.special name)
      | some .flag => do scanFrom (← a.addOption name "") rest
      | some (.value _) =>
        match rest with
        | [] => .error .refused
        | v :: rest =>
          if isWord v then do scanFrom (← f.addValue a name v) rest else .error .refused

/-- The arguments in a list, and what is left of it. -/
def scan (args : List String) : Except Stop (Arguments × List String) :=
  f.scanFrom .empty args

end Form

end CommandLine

end PredictionMarket
