import PredictionMarket.Chat.Traffic

/-!
# Rehearsing a chat session

A `Rehearsal` runs a chat session against a server that is told what to answer, on a clock of its
own. Nothing takes time except fetches and waits, and events happen in the order of their times. At
the end of a wait whoever waited goes on first, before the poller does what is due at that time.

## Main definitions

* `Rehearsal.Server`: the messages of each market, failures and delays, and what was asked.
* `Rehearsal.Poller`: the fetches that a session makes by itself.
* `Rehearsal.advance`: what happens before a time.
* `Rehearsal.refresh`, `Rehearsal.send`, `Rehearsal.switchTo`, `Rehearsal.close`: the session in
  use.
-/

namespace PredictionMarket

namespace Rehearsal

/-- A server that keeps messages and counts requests. -/
structure Server where
  /-- Each message with its market. -/
  messages : List (String × ChatMessage)
  /-- Why fetches fail, if they do. -/
  fetchFailure : Option String
  /-- Why posts fail, if they do. -/
  postFailure : Option String
  /-- How long a fetch takes. -/
  delay : Nat
  /-- The market of every fetch so far. -/
  fetches : List String
  /-- How many fetches were answered. -/
  finished : Nat
  /-- How many posts there were. -/
  posts : Nat

namespace Server

variable (v : Server)

/-- The reply that a fetch gets which starts now. -/
def reply (market : String) : Except String (List ChatMessage) :=
  match v.fetchFailure with
  | some cause => .error cause
  | none => .ok ((v.messages.filter (·.1 == market)).map Prod.snd)

/-- The server after a fetch started. -/
def started (market : String) : Server :=
  { v with fetches := v.fetches ++ [market] }

/-- The server after a fetch was answered. -/
def answered : Server :=
  { v with finished := v.finished + 1 }

/-- The server with one more message. -/
def add (market : String) (m : ChatMessage) : Server :=
  { v with messages := v.messages ++ [(market, m)] }

/-- The message that is kept for the post of a number, with the time a second after the one
before. -/
def saved (m : Outgoing) : Option ChatMessage := do
  let timestamp ← Instant.ofMillis? ((1000 + v.posts) * 1000)
  return {
    id := some ("srv-" ++ toString v.posts)
    address := m.address
    message := m.message
    timestamp }

/-- The reply to a post, and the server after it. -/
def post (market : String) (m : Outgoing) : Except String ChatMessage × Server :=
  let after := { v with posts := v.posts + 1 }
  match v.postFailure, v.saved m with
  | some cause, _ => (.error cause, after)
  | none, some saved => (.ok saved, after.add market saved)
  | none, none => (.error "time out of range", after)

end Server

/-- A fetch under way. -/
structure Fetch where
  request : ChatRequest
  finish : Nat
  reply : Except String (List ChatMessage)

/-- The fetches that a session makes by itself, one after the other at fixed intervals. A fetch that
is due while another one is under way starts when that one ends. -/
structure Poller where
  /-- When the next fetch is due. -/
  due : Nat
  underway : Option Fetch

end Rehearsal

/-- A chat session with its server, at a time in milliseconds. -/
structure Rehearsal where
  traffic : ChatTraffic
  server : Rehearsal.Server
  now : Nat
  /-- The time between two fetches of the poller. -/
  interval : Nat
  poller : Option Rehearsal.Poller

namespace Rehearsal

variable (r : Rehearsal)

/-- The session in use. -/
def session : ChatSession :=
  r.traffic.session

/-- The rehearsal with a new poller, which fetches at once. An interval of zero gives none. -/
def poll : Rehearsal :=
  { r with poller := if r.interval = 0 then none else some ⟨r.now, none⟩ }

/-- The rehearsal after the fetch of the poller was answered. -/
def deliver (due : Nat) (f : Fetch) : Rehearsal :=
  { r with
    traffic := (r.traffic.fetched f.request f.reply).2
    server := r.server.answered
    now := f.finish
    poller := some ⟨due, none⟩ }

/-- The rehearsal after the timer of the poller went off. -/
def beginFetch (due : Nat) : Rehearsal :=
  let time := max r.now due
  match r.traffic.tick r.session.binding with
  | (none, traffic) => { r with traffic, now := time, poller := none }
  | (some q, traffic) =>
    { r with
      traffic
      server := r.server.started q.market
      now := time
      poller := some ⟨due + r.interval,
        some ⟨q, time + r.server.delay, r.server.reply q.market⟩⟩ }

/-- What the poller does before a time, in at most a number of events. -/
def advance (r : Rehearsal) (limit time : Nat) : Rehearsal :=
  match limit, r.poller with
  | limit + 1, some ⟨due, some f⟩ =>
    if f.finish < time then advance (r.deliver due f) limit time else { r with now := time }
  | limit + 1, some ⟨due, none⟩ =>
    if due < time then advance (r.beginFetch due) limit time else { r with now := time }
  | _, _ => { r with now := time }

/-- The rehearsal after a time span. No more fetches end in it and start in it than its
milliseconds and those by which the poller is late. -/
def wait (span : Nat) : Rehearsal :=
  let time := r.now + span
  let due := (r.poller.map Poller.due).getD time
  r.advance (2 * (time + 1 - due) + 2) time

/-- A session that starts with a server, a millisecond later. -/
def start (market : String) (interval : Nat) (server : Server) : Rehearsal :=
  (Rehearsal.mk (.start market) server 0 interval none).poll.wait 1

/-- A fetch outside the schedule of the poller, and how many of its messages are new. -/
def refresh : Except String Nat × Rehearsal :=
  let (q, traffic) := r.traffic.refresh
  let reply := r.server.reply q.market
  let r := { r with traffic, server := r.server.started q.market }
  let r := r.wait r.server.delay
  let (result, traffic) := r.traffic.fetched q reply
  (result, { r with traffic, server := r.server.answered })

/-- A message sent from an account. -/
def send (address : Option String) (text : String) : Except ChatError ChatMessage × Rehearsal :=
  match Outgoing.make address text with
  | .error e => (.error e, r)
  | .ok m =>
    let (q, traffic) := r.traffic.post m
    let (reply, server) := r.server.post q.market m
    let (result, traffic) := traffic.posted q reply
    (result, { r with traffic, server })

/-- The session bound to a market, a millisecond later. -/
def switchTo (market : String) : Rehearsal :=
  let next := { r with traffic := r.traffic.switchTo market }
  if market == r.session.market then next.wait 1 else next.poll.wait 1

/-- The session given up, a millisecond later. -/
def close : Rehearsal :=
  { r with traffic := r.traffic.close, poller := none }.wait 1

end Rehearsal

end PredictionMarket
