import Mathlib.Data.List.DropRight
import PredictionMarket.Chat.Traffic

/-!
# Schedules of a chat session

Whatever happens to a chat session happens in some order: timers of pollers, requests, replies to
them in any order, moves to other markets and the end of the session. A list of actions is one such
order. Of an action that cannot happen in its place nothing comes.

## Main definitions

* `ChatTraffic.Action`: what may happen next.
* `ChatTraffic.Event`: what came of an action.
* `ChatTraffic.act`, `ChatTraffic.run`, `ChatTraffic.history`: actions and their events.
* `ChatTraffic.current`, `ChatTraffic.arrivals`: the events of the binding that the session has, and
  the messages that they brought.

## Main results

* `ChatTraffic.act_step`: what an action can come to.
-/

namespace PredictionMarket

namespace ChatTraffic

/-- What may happen to a chat session. -/
inductive Action where
  /-- The timer of the poller of a binding goes off. -/
  | tick (binding : Nat)
  | refresh
  | send (address : Option String) (text : String)
  | fetched (q : ChatRequest) (reply : Except String (List ChatMessage))
  | posted (q : ChatRequest) (reply : Except String ChatMessage)
  | switchTo (market : String)
  | close

/-- What came of an action. -/
inductive Event where
  | asked (q : ChatRequest)
  /-- A reply to a request arrived, with no messages if it failed. -/
  | answered (q : ChatRequest) (messages : List ChatMessage)
  /-- The session was bound to another market. -/
  | bound (market : String)
  | closed
deriving DecidableEq

/-- Whether an event gives the session a new binding. -/
def Event.isSwitch : Event → Bool
  | bound _ => true
  | asked _ | answered _ _ | closed => false

/-- Whether an event is the end of the session. -/
def Event.isEnd : Event → Bool
  | closed => true
  | asked _ | answered _ _ | bound _ => false

/-- What comes of an action, and the traffic after it. A session that was given up makes no requests
and is bound to no market any more. Replies come to requests that were not answered before. -/
def act (t : ChatTraffic) : Action → Option Event × ChatTraffic
  | .tick binding =>
    let (q, after) := t.tick binding
    (q.map .asked, after)
  | .refresh =>
    if t.session.isOpen then (some (.asked t.refresh.1), t.refresh.2) else (none, t)
  | .send address text =>
    match t.session.isOpen, Outgoing.make address text with
    | true, .ok m => (some (.asked (t.post m).1), (t.post m).2)
    | _, _ => (none, t)
  | .fetched q reply =>
    let event := Event.answered q (reply.toOption.getD [])
    (if q ∈ t.requests ∧ q.isFetch then some event else none, (t.fetched q reply).2)
  | .posted q reply =>
    let event := Event.answered q reply.toOption.toList
    (if q ∈ t.requests ∧ !q.isFetch then some event else none, (t.posted q reply).2)
  | .switchTo market =>
    if !t.session.isOpen then (none, t)
    else (if market == t.session.market then none else some (.bound market), t.switchTo market)
  | .close =>
    if t.session.isOpen then (some .closed, t.close) else (none, t)

/-- The traffic after actions. -/
def run (t : ChatTraffic) (actions : List Action) : ChatTraffic :=
  actions.foldl (fun t a => (t.act a).2) t

/-- The events of actions, the first one first. -/
def history (t : ChatTraffic) : List Action → List Event
  | [] => []
  | a :: actions => (t.act a).1.toList ++ history (t.act a).2 actions

/-- The events from the last switch on, or from the start, up to the end of the session. -/
def current (events : List Event) : List Event :=
  (events.takeWhile fun e => !e.isEnd).rtakeWhile fun e => !e.isSwitch

/-- The messages that came with an event, if it is a reply to one of the requests of some events. -/
def Event.messages (among : List Event) : Event → List ChatMessage
  | answered q messages => if .asked q ∈ among then messages else []
  | asked _ | bound _ | closed => []

/-- The messages that came in reply to requests of the current events, in the order in which the
replies arrived. -/
def arrivals (events : List Event) : List ChatMessage :=
  (current events).flatMap (Event.messages (current events))

variable {t : ChatTraffic} {events : List Event}

/-! ### The current events -/

/-- Nothing is current that comes after the end. -/
theorem current_append_of_closed (h : .closed ∈ events) (later : List Event) :
    current (events ++ later) = current events := by
  obtain ⟨before, after, rfl⟩ := List.append_of_mem h
  simp [current, List.takeWhile_append, Event.isEnd]

/-- One event more is current unless it is the end, and a switch leaves nothing current. -/
theorem current_concat (h : .closed ∉ events) (e : Event) :
    current (events ++ [e]) =
      if e.isEnd then current events else if e.isSwitch then [] else current events ++ [e] := by
  have hall : ∀ e ∈ events, (!e.isEnd) = true := by
    intro e he
    cases e with
    | closed => exact absurd he h
    | asked | answered | bound => rfl
  have hself : events.takeWhile (fun e => !e.isEnd) = events := List.takeWhile_eq_self_iff.2 hall
  rw [current, List.takeWhile_append_of_pos hall, current, hself]
  by_cases hend : e.isEnd = true
  · simp [hend]
  · by_cases hswitch : e.isSwitch = true <;> simp [hend, hswitch]

/-- What is current has happened. -/
theorem mem_of_mem_current {e : Event} (h : e ∈ current events) : e ∈ events :=
  (List.takeWhile_prefix _).subset ((List.rtakeWhile_suffix _ _).subset h)

/-! ### What an action can come to -/

/-- What an action can come to. Requests are made for the binding that the session has, by its
poller or about its market. -/
inductive Step (t : ChatTraffic) : Option Event → ChatTraffic → Prop
  | idle {pollers : List ChatPoller} (h : pollers ⊆ t.pollers) : Step t none { t with pollers }
  | asked {market : String} (hopen : t.session.isOpen = true)
      (h : ⟨t.session.binding, market⟩ ∈ t.pollers ∨ market = t.session.market)
      (purpose : ChatRequest.Purpose) :
      Step t (some (.asked (t.ask t.session.binding market purpose).1))
        (t.ask t.session.binding market purpose).2
  | answered {q : ChatRequest} (h : q ∈ t.requests) (messages : List ChatMessage) :
      Step t (some (.answered q messages))
        { t with
          session := (t.session.receive q.binding messages).2
          requests := t.requests.erase q }
  | bound {market : String} (hopen : t.session.isOpen = true) (h : market ≠ t.session.market) :
      Step t (some (.bound market)) (t.switchTo market)
  | closed (hopen : t.session.isOpen = true) : Step t (some .closed) t.close

/-- Nothing need happen. -/
theorem Step.refl (t : ChatTraffic) : Step t none t :=
  .idle fun _ => id

/-- No messages change nothing. -/
theorem receive_nil (s : ChatSession) (binding : Nat) : (s.receive binding []).2 = s := by
  unfold ChatSession.receive
  split <;> rfl

/-- A fetch that succeeds brings its messages, and one that fails brings none. -/
theorem fetched_session (s : ChatSession) (binding : Nat)
    (reply : Except String (List ChatMessage)) :
    (s.fetched binding reply).2 = (s.receive binding (reply.toOption.getD [])).2 := by
  cases reply with
  | ok messages => rfl
  | error cause => exact (receive_nil s binding).symm

/-- A post that succeeds brings its message, and one that fails brings none. -/
theorem posted_session (s : ChatSession) (binding : Nat) (reply : Except String ChatMessage) :
    (s.posted binding reply).2 = (s.receive binding reply.toOption.toList).2 := by
  cases reply with
  | ok saved => rfl
  | error cause => exact (receive_nil s binding).symm

/-- A tick asks for messages if the poller is there and its binding current, and ends the poller if
not. -/
theorem tick_step (t : ChatTraffic) (binding : Nat) :
    Step t ((t.tick binding).1.map .asked) (t.tick binding).2 := by
  unfold tick
  cases hp : t.pollers.find? (·.binding == binding) with
  | none => exact .refl t
  | some p =>
    have hbinding : p.binding = binding := by simpa using List.find?_some hp
    by_cases hbound : t.session.isBound binding = true
    · by_cases hpolling : t.isPolling binding = true
      · simpa [hbound, hpolling] using Step.refl t
      · obtain ⟨hopen, hsame⟩ : t.session.isOpen = true ∧ t.session.binding = binding := by
          simpa [ChatSession.isBound] using hbound
        have hmem : ⟨t.session.binding, p.market⟩ ∈ t.pollers := by
          rw [hsame, ← hbinding]
          exact List.mem_of_find?_eq_some hp
        simpa [hbound, hpolling, hbinding, hsame] using Step.asked hopen (.inl hmem) .poll
    · simpa [hbound] using Step.idle (t := t) (List.erase_subset (a := p))

/-- What an action comes to. -/
theorem act_step (t : ChatTraffic) (a : Action) : Step t (t.act a).1 (t.act a).2 := by
  cases a with
  | tick binding => exact tick_step t binding
  | refresh =>
    by_cases hopen : t.session.isOpen = true
    · simpa [act, hopen, refresh] using Step.asked hopen (.inr rfl) .refresh
    · simpa [act, hopen] using Step.refl t
  | send address text =>
    by_cases hopen : t.session.isOpen = true
    · cases hmade : Outgoing.make address text with
      | ok m => simpa [act, hopen, hmade, post] using Step.asked hopen (.inr rfl) (.post m)
      | error e => simpa [act, hopen, hmade] using Step.refl t
    · simpa [act, hopen] using Step.refl t
  | fetched q reply =>
    by_cases h : q ∈ t.requests ∧ q.isFetch = true
    · simpa [act, fetched, h, fetched_session] using Step.answered h.1 (reply.toOption.getD [])
    · simpa [act, fetched, h] using Step.refl t
  | posted q reply =>
    by_cases h : q ∈ t.requests ∧ (!q.isFetch) = true
    · simpa only [act, posted, if_pos h, posted_session] using
        Step.answered h.1 reply.toOption.toList
    · simpa only [act, posted, if_neg h] using Step.refl t
  | switchTo market =>
    by_cases hopen : t.session.isOpen = true
    · by_cases hmarket : market = t.session.market
      · simpa [act, hopen, hmarket, switchTo] using Step.refl t
      · simpa [act, hopen, hmarket] using Step.bound hopen hmarket
    · simpa [act, hopen] using Step.refl t
  | close =>
    by_cases hopen : t.session.isOpen = true
    · simpa [act, hopen] using Step.closed hopen
    · simpa [act, hopen] using Step.refl t

end ChatTraffic

end PredictionMarket
