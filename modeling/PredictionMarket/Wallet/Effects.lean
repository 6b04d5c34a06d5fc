import PredictionMarket.Json.Codec

/-!
# What a wallet reports

`Effects` tell how the execution of a transaction went.
-/

namespace PredictionMarket

/-- The outcome of an executed transaction. -/
structure Effects where
  digest : String
  success : Bool
  /-- Why the execution failed, if it did and the wallet says so. -/
  error : Option String
deriving DecidableEq, Repr

open Json

namespace Effects

def toTerm (e : Effects) : Term :=
  .ofMembers ([("digest", .ofString e.digest), ("success", .bool e.success)] ++
    Term.member "error" .ofString e.error)

def ofTerm? (t : Term) : Option Effects :=
  match t.slots? ["digest", "success", "error"] with
  | some [digest, success, error] => do
    return {
      digest := ← digest.required Term.string?
      success := ← success.required Term.bool?
      error := ← error.orElse none (Term.nullable Term.string?) }
  | _ => none

instance : Codec Effects where
  toTerm := toTerm
  ofTerm? := ofTerm?

end Effects

end PredictionMarket
