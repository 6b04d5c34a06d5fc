import PredictionMarket.Chat.Session
import PredictionMarket.Http.Call
import PredictionMarket.Ranking.Panel

/-!
# The application server

The server of the application keeps the chats of the markets and knows who bought how much.

## Main definitions

* `App.messagesCall`, `App.postCall`: the chat of a market.
* `App.buyersCall`: the buyers of one side of a market.
-/

namespace PredictionMarket

open Json

/-- The application server, by its address. -/
structure App where
  base : String
deriving DecidableEq, Repr

namespace App

variable (a : App)

/-- The address of something that belongs to a market. -/
def marketUrl (market part : String) : String :=
  Http.joined a.base ("/api/market/" ++ market ++ part)

/-- The list in the only field of a record, which may leave it out. -/
def list? {α : Type} [Codec α] (name : String) (t : Term) : Option (List α) :=
  match t.slots? [name] with
  | some [items] => items.orElse [] (Term.list? Codec.ofTerm?)
  | _ => none

def messagesCall (market : String) : Http.Call (List ChatMessage) where
  request := .get (a.marketUrl market "/chat") [("cache-control", "no-store")]
  unreachable := "Failed to fetch chat messages"
  refused := none
  unreadable := "Failed to parse chat messages"
  read := list? "messages"

/-- The call that sends a message, to which the server answers with the message as it keeps it. -/
def postCall (market : String) (m : Outgoing) : Http.Call ChatMessage where
  request := .postJson (a.marketUrl market "/chat")
    (.ofMembers [("address", .ofString m.address), ("message", .ofString m.message)])
  unreachable := "Failed to send chat message"
  refused := none
  unreadable := "Failed to parse saved chat message"
  read := Codec.ofTerm?

def buyersCall (market : String) (side : Side) : Http.Call (List Buyer) where
  request := .get (a.marketUrl market ("/buyers?side=" ++ side.name)) []
  unreachable := "Failed to fetch " ++ side.label ++ " buyers"
  refused := none
  unreadable := "Failed to parse " ++ side.label ++ " buyers"
  read := list? "buyers"

end App

end PredictionMarket
