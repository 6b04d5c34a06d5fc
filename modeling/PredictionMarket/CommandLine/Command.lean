import PredictionMarket.CommandLine.Arguments
import PredictionMarket.Number.Literal
import PredictionMarket.Side

/-!
# Commands

A `Command` is what a user asks for, and an `Invocation` adds the file with the settings.

## Main definitions

* `CommandLine.Command`: the commands.
* `CommandLine.Invocation.ofArguments`: the command that arguments give.
-/

namespace PredictionMarket

namespace CommandLine

/-- The description of an order. -/
structure OrderTicket where
  /-- The address of the market. -/
  market : String
  side : Side
  /-- The quantity as typed. -/
  quantity : String
  /-- The limit price as typed, none for a market order. -/
  limit : Option String
deriving DecidableEq, Repr

/-- What a user asks for. -/
inductive Command where
  /-- A list of the markets. -/
  | markets
  /-- The estimate of an order. -/
  | quote (order : OrderTicket)
  /-- The submission of an order. -/
  | buy (order : OrderTicket)
  | addLiquidity (market : String)
  | resolve (market : String)
  /-- The chat of a market, after a message is sent, and for as long as the user follows it. -/
  | chat (market : String) (message : Option String) (follow : Bool)
  /-- The buyers of both sides of a market. -/
  | rankings (market : String)
  /-- The illustrative order book. -/
  | book (side : Side)
  /-- A prompt to store, and the resolution code that it belongs to. -/
  | uploadPrompt (title prompt : String) (codeHash : Option String)
  /-- A new market that is open for some hours, from now on if there is no start. -/
  | createMarket (topic description : String) (start : Option UInt64) (hours : UInt64)
deriving DecidableEq, Repr

/-- A command and the file with the settings. -/
structure Invocation where
  settings : String
  command : Command
deriving DecidableEq, Repr

/-- The side that a text names. -/
def side? (s : String) : Option Side :=
  (Side.ofText s).toOption

/-- An option with any text. -/
def text (name : String) : String × Kind :=
  (name, .value fun _ => true)

/-- An option with the name of a side. -/
def side (name : String) : String × Kind :=
  (name, .value fun s => (side? s).isSome)

/-- An option with a number. -/
def number (name : String) : String × Kind :=
  (name, .value fun s => (Literal.word? s).isSome)

def form (options : List (String × Kind)) (words : Nat) : Form :=
  { options, words, endsAtWord := false, hasVersion := false }

/-- A value, without which arguments are refused. -/
def given {α : Type} (a : Option α) : Except Stop α :=
  match a with
  | some a => .ok a
  | none => .error .refused

namespace Arguments

variable (a : Arguments)

def word : Except Stop String :=
  match a.words with
  | [w] => .ok w
  | _ => .error .refused

/-- The value of an option as far as it is given, which stands for something. -/
def converted {α : Type} (read : String → Option α) (name : String) : Except Stop (Option α) :=
  match a.option? name with
  | none => .ok none
  | some v => (given (read v)).map some

/-- The order that is described. -/
def order : Except Stop OrderTicket := do
  return {
    market := ← a.word
    side := ← given (side? (← a.required "side"))
    quantity := ← a.required "quantity"
    limit := a.option? "limit" }

end Arguments

namespace Command

def arguments (options : List (String × Kind)) (words : Nat) (args : List String) :
    Except Stop Arguments :=
  ((form options words).scan args).map Prod.fst

def orderOptions : List (String × Kind) :=
  [side "side", text "quantity", text "limit"]

/-- The hours for which a new market is open where nothing else is said. -/
def defaultHours : UInt64 := 24

def names : List String :=
  ["markets", "quote", "buy", "add-liquidity", "resolve", "chat", "rankings", "book",
    "upload-prompt", "create-market"]

/-- Why there is no command after the word for help: every further word must name a command, of
which there is at most one. -/
def helpOn : List String → Stop
  | [] => .help
  | [name] => if names.contains name || name == "help" then .help else .refused
  | _ => .refused

/-- The command of a name with its arguments. -/
def ofArguments (name : String) (args : List String) : Except Stop Command :=
  match name with
  | "markets" => do
    let _ ← arguments [] 0 args
    return markets
  | "quote" => do return quote (← (← arguments orderOptions 1 args).order)
  | "buy" => do return buy (← (← arguments orderOptions 1 args).order)
  | "add-liquidity" => do return addLiquidity (← (← arguments [] 1 args).word)
  | "resolve" => do return resolve (← (← arguments [] 1 args).word)
  | "chat" => do
    let a ← arguments [text "send", ("follow", .flag)] 1 args
    return chat (← a.word) (a.option? "send") (a.option? "follow").isSome
  | "rankings" => do return rankings (← (← arguments [] 1 args).word)
  | "book" => do
    let a ← arguments [side "side"] 0 args
    return book ((← a.converted side? "side").getD .yes)
  | "upload-prompt" => do
    let a ← arguments [text "prompt", text "title", text "code-hash"] 0 args
    return uploadPrompt ((a.option? "title").getD "") (← a.required "prompt")
      (a.option? "code-hash")
  | "create-market" => do
    let a ← arguments [text "description", number "start", number "hours"] 1 args
    return createMarket (← a.word) ((a.option? "description").getD "")
      (← a.converted Literal.word? "start")
      ((← a.converted Literal.word? "hours").getD defaultHours)
  | "help" => .error (helpOn args)
  | _ => .error .refused

end Command

namespace Invocation

def form : Form :=
  { options := [text "config"], words := 0, endsAtWord := true, hasVersion := true }

/-- The file with the settings where no other one is named. -/
def defaultSettings : String := "config.toml"

/-- The invocation that arguments give. -/
def ofArguments (args : List String) : Except Stop Invocation := do
  match ← form.scan args with
  | (a, name :: rest) =>
    return ⟨(a.option? "config").getD defaultSettings, ← Command.ofArguments name rest⟩
  | _ => throw .refused

end Invocation

end CommandLine

end PredictionMarket
