import PredictionMarket.Json.Term

/-!
# Records in JSON

A record is written as an object with a member per field, or as an array of the fields in order.
`Term.slots?` finds what is said of each field, and the readers of `Slot` turn that into values.

## Main definitions

* `Json.Slot`, `Json.Term.slots?`: the fields of a record.
* `Json.Slot.required`, `Json.Slot.optional`, `Json.Slot.orElse`: what a field may leave out.
* `Json.Term.string?`, `Json.Term.word?` and others: values of single fields.

## Design notes

Unknown members of an object are passed over, whatever they hold. A known member that occurs twice,
a key that is no text, and items past the last field make a record unreadable.
-/

namespace PredictionMarket

namespace Json

/-- What a record says of a field. -/
inductive Slot where
  /-- It is an object without such a member. -/
  | absent
  /-- It is an array that ends before the field. -/
  | short
  | given (t : Term)

namespace Slot

variable {α : Type}

/-- The value of a field that must be there. -/
def required (read : Term → Option α) : Slot → Option α
  | given t => read t
  | _ => none

/-- The value of a field that an object may leave out and that may be null. -/
def optional (read : Term → Option α) : Slot → Option (Option α)
  | given .null => some none
  | given t => (read t).map some
  | absent => some none
  | short => none

/-- The value of a field that may be left out. -/
def orElse (default : α) (read : Term → Option α) : Slot → Option α
  | given t => read t
  | _ => some default

end Slot

namespace Term

variable {α : Type}

/-- A tree, or nothing for null. -/
def nullable (read : Term → Option α) : Term → Option (Option α)
  | null => some none
  | t => (read t).map some

def string? : Term → Option String
  | text t => t
  | _ => none

def bool? : Term → Option Bool
  | bool b => some b
  | _ => none

/-- A natural number below a bound, written without point and exponent. -/
def natural? (bound : Nat) : Term → Option Nat
  | number n =>
    if !n.negative && n.fraction.isEmpty && n.exponent.isNone && n.whole < bound then some n.whole
    else none
  | _ => none

def word? (t : Term) : Option UInt64 :=
  (t.natural? UInt64.size).map UInt64.ofNat

def word32? (t : Term) : Option UInt32 :=
  (t.natural? UInt32.size).map UInt32.ofNat

def word16? (t : Term) : Option UInt16 :=
  (t.natural? UInt16.size).map UInt16.ofNat

def word8? (t : Term) : Option UInt8 :=
  (t.natural? UInt8.size).map UInt8.ofNat

def list? (read : Term → Option α) : Term → Option (List α)
  | array items => items.mapM read
  | _ => none

/-- The members of an object, if all its keys are texts. -/
def keyed? (members : List (Text × Term)) : Option (List (String × Term)) :=
  members.mapM fun (k, t) => k.map (·, t)

/-- The value of a key that occurs at most once. -/
def slotOf? (members : List (String × Term)) (name : String) : Option Slot :=
  match members.filter (·.1 == name) with
  | [] => some .absent
  | [(_, t)] => some (.given t)
  | _ => none

/-- What a record says of its fields, in their order. -/
def slots? (names : List String) : Term → Option (List Slot)
  | object members => do
    let members ← keyed? members
    names.mapM (slotOf? members)
  | array items =>
    if items.length ≤ names.length then
      some (items.map .given ++ List.replicate (names.length - items.length) .short)
    else none
  | _ => none

mutual

/-- How many containers are nested in a tree. -/
def depth : Term → Nat
  | array items => 1 + itemsDepth items
  | object members => 1 + membersDepth members
  | _ => 0

/-- The greatest depth of items. -/
def itemsDepth : List Term → Nat
  | [] => 0
  | t :: ts => max t.depth (itemsDepth ts)

/-- The greatest depth of the values of members. -/
def membersDepth : List (Text × Term) → Nat
  | [] => 0
  | (_, t) :: ms => max t.depth (membersDepth ms)

end

/-- How deep the containers may be nested whose contents are looked at. -/
def depthLimit : Nat := 127

end Term

end Json

end PredictionMarket
