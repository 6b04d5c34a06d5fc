import PredictionMarket.Json.Codec

/-!
# Chat messages
-/

namespace PredictionMarket

/-- A message in the chat of a market. -/
structure ChatMessage where
  /-- The identifier that the server gave it, if it did. -/
  id : Option String
  address : String
  message : String
  timestamp : Instant
deriving DecidableEq, Repr

open Json

namespace ChatMessage

def toTerm (m : ChatMessage) : Term :=
  .ofMembers (Term.member "id" .ofString m.id ++
    [("address", .ofString m.address), ("message", .ofString m.message),
      ("timestamp", .ofInstant m.timestamp)])

def ofTerm? (t : Term) : Option ChatMessage :=
  match t.slots? ["id", "address", "message", "timestamp"] with
  | some [id, address, message, timestamp] => do
    return {
      id := ← id.orElse none (Term.nullable Term.string?)
      address := ← address.required Term.string?
      message := ← message.required Term.string?
      timestamp := ← timestamp.required Term.instant? }
  | _ => none

instance : Codec ChatMessage where
  toTerm := toTerm
  ofTerm? := ofTerm?

end ChatMessage

end PredictionMarket
