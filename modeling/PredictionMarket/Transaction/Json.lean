import PredictionMarket.Json.Codec
import PredictionMarket.Json.Value
import PredictionMarket.Transaction.Basic

/-!
# Transactions in JSON

Commands and arguments are records with a further field that names their kind, constants are pairs
of a type and a value. Words of sixty-four bits are written as strings of digits.

## Main definitions

* `Json.Tagged`: a record together with its kind.
* codecs for `Argument` and `Transaction`.

## Design notes

The kind of a record may stand after its other fields, so all of them are read before it is known
which ones count. Every string and number in such a record therefore has to be in range, also in
fields that do not count. An array gives the kind first. The kind of an argument inside a command
may also be a number, the place of the kind in the list of all.
-/

namespace PredictionMarket

namespace Json

/-- A record without the field that names its kind. -/
structure Tagged where
  tag : Term
  rest : Term

/-- A record that names its kind in a field, apart from that field. The field comes first in an
array and once in an object. -/
def Tagged.ofTerm? (name : String) : Term → Option Tagged
  | .object members =>
    match members.filter (·.1 == some name) with
    | [(_, tag)] => some ⟨tag, .object (members.filter (·.1 != some name))⟩
    | _ => none
  | .array (tag :: items) => some ⟨tag, .array items⟩
  | _ => none

/-- The fields of a record, all of which have to be there. -/
def Term.fields? (names : List String) (t : Term) : Option (List Term) := do
  let slots ← t.slots? names
  slots.mapM (Slot.required some)

end Json

open Json

namespace Constant

/-- The tree of a constant of a type. -/
def tagged (type : String) (value : Term) : Term :=
  .ofMembers [("type", .ofString type), ("value", value)]

def toTerm : Constant → Term
  | u8 n => tagged "u8" (.ofNat n.toNat)
  | u64 n => tagged "u64" (.ofString (toString n.toNat))
  | bool b => tagged "bool" (.bool b)
  | string s => tagged "string" (.ofString s)
  | address s => tagged "address" (.ofString s)

/-- The constant of a type with a value. -/
def ofParts? (type : String) (value : Term) : Option Constant :=
  match type with
  | "u8" => value.word8?.map u8
  | "u64" => (value.string?.bind Literal.word?).map u64
  | "bool" => value.bool?.map bool
  | "string" => value.string?.map string
  | "address" => value.string?.map address
  | _ => none

/-- The type that a tree names, alone or as the only key of an object with an empty value. -/
def type? : Term → Option String
  | .text name => name
  | .object [(name, .null)] => name
  | .object [(name, .object [])] => name
  | _ => none

def ofTerm? (t : Term) : Option Constant :=
  match t.fields? ["type", "value"] with
  | some [type, value] => do ofParts? (← type? type) value
  | _ => none

end Constant

namespace Argument

/-- The names of the kinds of arguments. -/
def kinds : List String := ["pure", "object", "nestedResult"]

def toTerm : Argument → Term
  | constant c => .ofMembers [("kind", .ofString "pure"), ("value", c.toTerm)]
  | object id => .ofMembers [("kind", .ofString "object"), ("id", .ofString id)]
  | result index output =>
    .ofMembers [("kind", .ofString "nestedResult"), ("index", .ofNat index.toNat),
      ("result", .ofNat output.toNat)]

/-- The argument of a kind with the other fields. -/
def ofParts? (kind : String) (rest : Term) : Option Argument :=
  match kind with
  | "pure" =>
    match rest.fields? ["value"] with
    | some [value] => (Constant.ofTerm? value).map constant
    | _ => none
  | "object" =>
    match rest.fields? ["id"] with
    | some [id] => id.string?.map object
    | _ => none
  | "nestedResult" =>
    match rest.fields? ["index", "result"] with
    | some [index, output] => do return result (← index.word16?) (← output.word16?)
    | _ => none
  | _ => none

/-- The argument of a tree that stands alone. -/
def ofTerm? (t : Term) : Option Argument := do
  let parts ← Tagged.ofTerm? "kind" t
  if t.isHeld 0 then ofParts? (← parts.tag.string?) parts.rest else none

/-- The argument of a tree inside a command. -/
def ofHeldTerm? (t : Term) : Option Argument := do
  let parts ← Tagged.ofTerm? "kind" t
  let kind ←
    match parts.tag with
    | .number _ => (parts.tag.natural? kinds.length).bind (kinds[·]?)
    | tag => tag.string?
  ofParts? kind parts.rest

instance : Codec Argument where
  toTerm := toTerm
  ofTerm? := ofTerm?

end Argument

namespace Command

def argumentsTerm (arguments : List Argument) : Term :=
  .array (arguments.map Argument.toTerm)

def toTerm : Command → Term
  | call target arguments =>
    .ofMembers [("command", .ofString "moveCall"), ("target", .ofString target),
      ("arguments", argumentsTerm arguments)]
  | split coin amounts =>
    .ofMembers [("command", .ofString "splitCoins"), ("coin", coin.toTerm),
      ("amounts", argumentsTerm amounts)]
  | merge destination sources =>
    .ofMembers [("command", .ofString "mergeCoins"), ("destination", destination.toTerm),
      ("sources", argumentsTerm sources)]

/-- The command of a kind with the other fields. -/
def ofParts? (kind : String) (rest : Term) : Option Command :=
  match kind with
  | "moveCall" =>
    match rest.fields? ["target", "arguments"] with
    | some [target, arguments] => do
      return call (← target.string?) (← arguments.list? Argument.ofHeldTerm?)
    | _ => none
  | "splitCoins" =>
    match rest.fields? ["coin", "amounts"] with
    | some [coin, amounts] => do
      return split (← Argument.ofHeldTerm? coin) (← amounts.list? Argument.ofHeldTerm?)
    | _ => none
  | "mergeCoins" =>
    match rest.fields? ["destination", "sources"] with
    | some [destination, sources] => do
      return merge (← Argument.ofHeldTerm? destination) (← sources.list? Argument.ofHeldTerm?)
    | _ => none
  | _ => none

/-- The command of a tree, two containers deep in a transaction. -/
def ofTerm? (t : Term) : Option Command := do
  let parts ← Tagged.ofTerm? "command" t
  if t.isHeld 2 then ofParts? (← parts.tag.string?) parts.rest else none

end Command

namespace Transaction

def toTerm (t : Transaction) : Term :=
  .ofMembers [("sender", .ofString t.sender), ("commands", .array (t.commands.map Command.toTerm))]

def ofTerm? (t : Term) : Option Transaction :=
  match t.slots? ["sender", "commands"] with
  | some [sender, commands] => do
    return {
      sender := ← sender.required Term.string?
      commands := ← commands.required (Term.list? Command.ofTerm?) }
  | _ => none

instance : Codec Transaction where
  toTerm := toTerm
  ofTerm? := ofTerm?

end Transaction

end PredictionMarket
