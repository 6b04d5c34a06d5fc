import PredictionMarket.Chat.Log
import PredictionMarket.Text.Blank

/-!
# Chat sessions

A `ChatSession` shows the chat of one market at a time. It is bound to a market when it starts and
anew whenever it switches to another one; each binding starts with an empty log. Requests to the
server carry the number of the binding that they were made for, and a reply counts only while that
binding lasts.

## Main definitions

* `ChatSession.start`, `ChatSession.switchTo`, `ChatSession.close`: the life of bindings.
* `ChatSession.fetched`, `ChatSession.posted`: replies of the server.
* `Outgoing.make`: what may be sent at all.
-/

namespace PredictionMarket

/-- Why a message was not sent. -/
inductive ChatError where
  | emptyMessage
  | noWallet
  | remote (cause : String)
deriving DecidableEq, Repr

def ChatError.message : ChatError → String
  | emptyMessage => "Message is empty"
  | noWallet => "Connect a wallet to send messages"
  | remote cause => "Chat request failed: " ++ cause

/-- A message on its way to the server. -/
structure Outgoing where
  address : String
  message : String
deriving DecidableEq, Repr

/-- The message with a text, less the white space around it, from a connected account. -/
def Outgoing.make (address : Option String) (text : String) : Except ChatError Outgoing :=
  let message := Text.trim text
  if message == "" then .error .emptyMessage
  else
    match address.filter (· != "") with
    | some a => .ok ⟨a, message⟩
    | none => .error .noWallet

/-- The chat of one market at a time. -/
structure ChatSession where
  market : String
  /-- The messages of the market since the session was bound to it. -/
  log : ChatLog
  /-- How often the session was bound before. -/
  binding : Nat
  /-- Whether the session is not closed yet. -/
  isOpen : Bool
deriving DecidableEq, Repr

namespace ChatSession

/-- A session for a market. -/
def start (market : String) : ChatSession := ⟨market, .empty, 0, true⟩

variable (s : ChatSession)

/-- The session bound to a market, which changes nothing if it is bound to it already. -/
def switchTo (market : String) : ChatSession :=
  if market == s.market then s
  else { s with market, log := .empty, binding := s.binding + 1 }

/-- The session after it is given up. -/
def close : ChatSession :=
  { s with isOpen := false }

/-- Whether replies to requests of a binding still count. -/
def isBound (binding : Nat) : Bool :=
  s.isOpen && s.binding == binding

/-- The session after messages arrived for a binding, and how many of them are new. -/
def receive (binding : Nat) (messages : List ChatMessage) : Nat × ChatSession :=
  if s.isBound binding then
    let (added, log) := s.log.merge messages
    (added, { s with log })
  else (0, s)

/-- The session after the reply to a fetch of a binding. A failure is passed on, unless the binding
is over. -/
def fetched (binding : Nat) (reply : Except String (List ChatMessage)) :
    Except String Nat × ChatSession :=
  match reply with
  | .ok messages =>
    let (added, s) := s.receive binding messages
    (.ok added, s)
  | .error cause => (if s.isBound binding then .error cause else .ok 0, s)

/-- The session after the reply to a post of a binding. -/
def posted (binding : Nat) (reply : Except String ChatMessage) :
    Except ChatError ChatMessage × ChatSession :=
  match reply with
  | .ok saved => (.ok saved, (s.receive binding [saved]).2)
  | .error cause => (.error (.remote cause), s)

end ChatSession

end PredictionMarket
