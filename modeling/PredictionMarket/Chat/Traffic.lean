import PredictionMarket.Chat.Session

/-!
# Chat sessions and their requests

A `ChatTraffic` is a chat session with what goes on around it: the requests that were not answered
yet, whose replies may come in any order, and the pollers, which fetch by themselves. Each binding
of the session has a poller of its own, which goes on until it finds its binding over.

## Main definitions

* `ChatTraffic.tick`: what a poller does when its timer goes off.
* `ChatTraffic.refresh`, `ChatTraffic.post`: requests from outside.
* `ChatTraffic.fetched`, `ChatTraffic.posted`: replies to requests.
* `ChatTraffic.switchTo`, `ChatTraffic.close`: the life of the session.

## Design notes

A reply is handled in one step, which looks at the binding and adds the messages. Were the session
bound anew between the two, the messages would go to the log of the former binding, which nobody
sees any more, as if the reply had come after the switch.
-/

namespace PredictionMarket

/-- What a request is for. -/
inductive ChatRequest.Purpose where
  /-- A fetch of a poller. -/
  | poll
  /-- A fetch outside the schedule of the poller. -/
  | refresh
  | post (m : Outgoing)
deriving DecidableEq, Repr

/-- A request to the server about a market. -/
structure ChatRequest where
  number : Nat
  /-- The binding of the session that it was made for. -/
  binding : Nat
  market : String
  purpose : ChatRequest.Purpose
deriving DecidableEq, Repr

/-- Whether a request asks for the messages of its market. -/
def ChatRequest.isFetch (q : ChatRequest) : Bool :=
  match q.purpose with
  | .poll | .refresh => true
  | .post _ => false

/-- What fetches the messages of a market while a binding lasts. -/
structure ChatPoller where
  binding : Nat
  market : String
deriving DecidableEq, Repr

/-- A chat session with its pollers and requests. -/
structure ChatTraffic where
  session : ChatSession
  pollers : List ChatPoller
  /-- The requests that were not answered yet. -/
  requests : List ChatRequest
  /-- How many requests were made. -/
  made : Nat
deriving DecidableEq, Repr

namespace ChatTraffic

variable (t : ChatTraffic)

/-- The traffic with a poller for the binding that the session has. -/
def spawn : ChatTraffic :=
  { t with pollers := ⟨t.session.binding, t.session.market⟩ :: t.pollers }

/-- The traffic of a new session for a market. -/
def start (market : String) : ChatTraffic :=
  (ChatTraffic.mk (.start market) [] [] 0).spawn

/-- A new request, and the traffic with it. -/
def ask (binding : Nat) (market : String) (purpose : ChatRequest.Purpose) :
    ChatRequest × ChatTraffic :=
  let q := ⟨t.made, binding, market, purpose⟩
  (q, { t with requests := q :: t.requests, made := t.made + 1 })

/-- Whether the poller of a binding waits for a reply. -/
def isPolling (binding : Nat) : Bool :=
  t.requests.any fun q => q.binding == binding && q.purpose == .poll

/-- The request that the poller of a binding makes when its timer goes off, if it does not wait for
a reply. A poller whose binding is over ends. -/
def tick (binding : Nat) : Option ChatRequest × ChatTraffic :=
  match t.pollers.find? (·.binding == binding) with
  | none => (none, t)
  | some p =>
    if !t.session.isBound binding then (none, { t with pollers := t.pollers.erase p })
    else if t.isPolling binding then (none, t)
    else
      let (q, after) := t.ask p.binding p.market .poll
      (some q, after)

/-- A fetch outside the schedule of the poller. -/
def refresh : ChatRequest × ChatTraffic :=
  t.ask t.session.binding t.session.market .refresh

/-- The request that posts a message. -/
def post (m : Outgoing) : ChatRequest × ChatTraffic :=
  t.ask t.session.binding t.session.market (.post m)

/-- What the reply to a fetch comes to, and the traffic after it. -/
def fetched (q : ChatRequest) (reply : Except String (List ChatMessage)) :
    Except String Nat × ChatTraffic :=
  if q ∈ t.requests ∧ q.isFetch then
    let (result, session) := t.session.fetched q.binding reply
    (result, { t with session, requests := t.requests.erase q })
  else (.ok 0, t)

/-- What the reply to a post comes to, and the traffic after it. -/
def posted (q : ChatRequest) (reply : Except String ChatMessage) :
    Except ChatError ChatMessage × ChatTraffic :=
  let (result, session) := t.session.posted q.binding reply
  if q ∈ t.requests ∧ !q.isFetch then
    (result, { t with session, requests := t.requests.erase q })
  else (result, t)

/-- The traffic of the session bound to a market, with a new poller unless it was bound to it
before. -/
def switchTo (market : String) : ChatTraffic :=
  if market == t.session.market then t
  else { t with session := t.session.switchTo market }.spawn

/-- The traffic after the session is given up. -/
def close : ChatTraffic :=
  { t with session := t.session.close }

end ChatTraffic

end PredictionMarket
