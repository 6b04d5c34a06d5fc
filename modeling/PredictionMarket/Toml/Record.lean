import PredictionMarket.Toml.Value

/-!
# Records in TOML

A record is written as a table with a key per field, or as an array of the fields in order. What
belongs to no field is passed over.

## Main definitions

* `Toml.Value.fields?`: the fields of a record.
* `Toml.required`, `Toml.orElse`: what a field may leave out.
-/

namespace PredictionMarket

namespace Toml

variable {α : Type}

/-- The value of a field that must be there. -/
def required (read : Value → Option α) (field : Option Value) : Option α :=
  field.bind read

/-- The value of a field that may be left out. -/
def orElse (default : α) (read : Value → Option α) : Option Value → Option α
  | some v => read v
  | none => some default

namespace Value

def string? : Value → Option String
  | string s => some s
  | _ => none

def boolean? : Value → Option Bool
  | boolean b => some b
  | _ => none

/-- A natural number below a bound. -/
def natural? (bound : Nat) : Value → Option Nat
  | integer n => if 0 ≤ n ∧ n < bound then some n.toNat else none
  | _ => none

def word? (v : Value) : Option UInt64 :=
  (v.natural? UInt64.size).map UInt64.ofNat

def word32? (v : Value) : Option UInt32 :=
  (v.natural? UInt32.size).map UInt32.ofNat

/-- The fields of a record as far as there is something for them. A date or a time is a record with
nothing in it. -/
def fields? (names : List String) : Value → Option (List (Option Value))
  | table _ members => some (names.map fun name => members.lookup name)
  | array items => some ((List.range names.length).map fun i => items[i]?)
  | tables elements =>
    some ((List.range names.length).map fun i => elements[i]?.map (table .header))
  | moment _ => some (names.map fun _ => none)
  | _ => none

end Value

end Toml

end PredictionMarket
