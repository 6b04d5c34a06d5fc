import PredictionMarket.Http.Call
import PredictionMarket.Transaction.Json
import PredictionMarket.Wallet.Effects

/-!
# The signer

A signer holds the keys of an account. It signs transactions and has them executed.
-/

namespace PredictionMarket

open Json

/-- A signer by its address. -/
structure Signer where
  base : String
deriving DecidableEq, Repr

namespace Signer

variable (s : Signer)

def url : String :=
  Http.joined s.base "/sign-and-execute"

/-- What a signer is told to report. -/
def options : Term :=
  .ofMembers [("showRawEffects", .bool true), ("showObjectChanges", .bool true)]

def call (t : Transaction) : Http.Call Effects where
  request := .postJson s.url (.ofMembers [("transaction", t.toTerm), ("options", options)])
  unreachable := "Failed to reach signer"
  refused := some "Signer rejected the transaction"
  unreadable := "Failed to parse execution effects"
  read := Codec.ofTerm?

end Signer

end PredictionMarket
