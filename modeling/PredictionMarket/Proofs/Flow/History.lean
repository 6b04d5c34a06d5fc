import Mathlib.Control.Monad.Basic
import PredictionMarket.Flow
import PredictionMarket.Proofs.Trade.Session

/-!
# Histories of order entry

A history lists operations on order entry as they went, one after the other, each with what was
said with the surroundings in it. Whatever the surroundings answer, any operations in a row make a
history.

## Main definitions

* `Flow.Operation`, `Flow.perform`: what can be asked of order entry.
* `Flow.Event`: an operation as it went.
* `Flow.Event.Begins`, `Flow.Event.Completes`: an attempt to start a submission, and the end of one;
  a confirmation has both in it.
* `Flow.History`: events in a row.
* `Flow.rehearse`: the events of given operations with given surroundings.

## Main results

* `Flow.Event.happens_iff`: what each operation can come to.
* `Flow.History.preserves`: what every event of a history keeps, the history keeps.
-/

namespace PredictionMarket

namespace Flow

open Trade

/-- What is done to order entry without asking its surroundings. -/
inductive Edit where
  | selectSide (side : Side)
  | clearSide
  | setQuantity (text : String)
  | setLimitPrice (text : String)
  | setKind (kind : OrderKind)
  | refresh (now : Int)

/-- The edits that enter a part of the draft and tell whether it was entered. -/
def Edit.IsInput : Edit → Prop
  | selectSide _ | setQuantity _ | setLimitPrice _ | setKind _ => True
  | clearSide | refresh _ => False

/-- What can be asked of order entry. What starts or ends a submission reads the clock. -/
inductive Operation where
  | edit (e : Edit)
  | begin
  | complete
  | confirm (trader : Trader)

/-- What an operation replies. -/
inductive Reply where
  | nothing
  | accepted (isAccepted : Bool)
  | begun (outcome : Except TradeError OrderRequest)
  | confirmed (outcome : Except TradeError Effects)
deriving DecidableEq

/-- The reply to an edit and order entry after it. -/
def edit (f : Flow) : Edit → Reply × Flow
  | .selectSide side => (f.selectSide side).map .accepted id
  | .clearSide => (.nothing, f.clearSide)
  | .setQuantity text => (f.setQuantity text).map .accepted id
  | .setLimitPrice text => (f.setLimitPrice text).map .accepted id
  | .setKind kind => (f.setKind kind).map .accepted id
  | .refresh now => (.nothing, f.refresh now)

/-- Performs an operation. -/
def perform (f : Flow) : Operation → Session (Reply × Flow)
  | .edit e => return f.edit e
  | .begin => do
    let now : Instant ← Session.put .now
    return (f.begin now.toMillis).map .begun id
  | .complete => do
    let now : Instant ← Session.put .now
    return (.nothing, f.complete now.toMillis)
  | .confirm trader => do
    let result ← f.confirm trader
    return result.map .confirmed id

/-- An operation as it went, with order entry before and after it. -/
structure Event where
  before : Flow
  operation : Operation
  exchanges : List Exchange
  reply : Reply
  after : Flow

namespace Event

/-- The operation can go like this. -/
def Happens (e : Event) : Prop :=
  ∃ known later, (e.before.perform e.operation).Runs known e.exchanges (e.reply, e.after) later

/-- The event tries to start a submission, with this outcome. A confirmation does so at the time
that it reads first. -/
inductive Begins (e : Event) (outcome : Except TradeError OrderRequest) : Prop where
  | begin (h : e.operation = .begin) (hreply : e.reply = .begun outcome)
  | confirm {trader : Trader} {now : Instant} {rest : List Exchange}
      (h : e.operation = .confirm trader) (hnow : e.exchanges = .clock now :: rest)
      (houtcome : outcome = (e.before.begin now.toMillis).1)

/-- The event ends a submission. A confirmation does so if it has started one. -/
inductive Completes (e : Event) : Prop where
  | complete (h : e.operation = .complete)
  | confirm {trader : Trader} {request : OrderRequest} (h : e.operation = .confirm trader)
      (hbegun : e.Begins (.ok request))

end Event

/-- The events lead from one state of order entry to another, each from where the one before it
ended. -/
inductive History : Flow → List Event → Flow → Prop where
  | nil (f : Flow) : History f [] f
  | cons {e : Event} {es : List Event} {g : Flow} (he : e.Happens) (rest : History e.after es g) :
      History e.before (e :: es) g

/-- An operation with surroundings that answer from what was said before in it. -/
def Event.rehearsed (answer : List Exchange → (q : Question) → q.Answer) (f : Flow)
    (op : Operation) : Event :=
  let run := ((f.perform op).run .empty).heldWith answer
  ⟨f, op, run.1, run.2.1.1, run.2.1.2⟩

/-- Operations one after the other with such surroundings. -/
def rehearse (answer : List Exchange → (q : Question) → q.Answer) (f : Flow) :
    List Operation → List Event
  | [] => []
  | op :: ops =>
    let e := Event.rehearsed answer f op
    e :: rehearse answer e.after ops

/-! ### What an operation can come to -/

variable {f g : Flow}

theorem market_refresh (f : Flow) (now : Int) : (f.refresh now).market = f.market := by
  unfold refresh
  split <;> rfl

theorem draft_refresh (f : Flow) (now : Int) : (f.refresh now).draft = f.draft := by
  unfold refresh
  split <;> rfl

/-- A submission starts from a chosen side, in an open market, and with a valid draft. -/
theorem begin_eq_ok {now : Int} {request : OrderRequest} (h : (f.begin now).1 = .ok request) :
    ∃ side, f.phase = .sideSelected side ∧ f.market.isEndedAt now = false ∧
      f.draft.request = .ok request ∧ (f.begin now).2 = { f with phase := .submitting side } := by
  unfold begin at h ⊢
  dsimp only at h ⊢
  cases hended : f.market.isEndedAt now with
  | true =>
    have hclosed : f.refresh now = { f with phase := .closed } := if_pos hended
    rw [hclosed] at h
    cases h
  | false =>
    have hsame : f.refresh now = f := if_neg (by rw [hended]; decide)
    rw [hsame] at h ⊢
    cases hphase : f.phase with
    | sideSelected side =>
      cases hrequest : f.draft.request with
      | ok order =>
        have hready : f.ready = .ok order := by simp only [ready, hphase, hrequest]
        rw [hready] at h ⊢
        cases h
        exact ⟨side, rfl, rfl, rfl, by simp only [submitted, hphase]⟩
      | error e =>
        have hready : f.ready = .error (.input e) := by simp only [ready, hphase, hrequest]
        rw [hready] at h
        cases h
    | idle | closed | submitting _ =>
      simp only [ready, hphase] at h
      cases h

/-- A refused submission changes nothing but what the clock does. -/
theorem begin_eq_error {now : Int} {e : TradeError} (h : (f.begin now).1 = .error e) :
    (f.begin now).2 = f.refresh now := by
  unfold begin at h ⊢
  cases hready : (f.refresh now).ready with
  | ok request =>
    simp only [hready] at h
    cases h
  | error e => simp only [hready]

theorem market_begin (f : Flow) (now : Int) : (f.begin now).2.market = f.market := by
  cases hbegin : (f.begin now).1 with
  | ok request =>
    obtain ⟨side, -, -, -, hafter⟩ := begin_eq_ok hbegin
    rw [hafter]
  | error e => rw [begin_eq_error hbegin, market_refresh]

theorem market_edit (f : Flow) (e : Edit) : (f.edit e).2.market = f.market := by
  cases e with
  | selectSide side => simp only [edit, selectSide]; split <;> rfl
  | clearSide => simp only [edit, clearSide]; split <;> rfl
  | setQuantity text => simp only [edit, setQuantity]; split <;> rfl
  | setLimitPrice text => simp only [edit, setLimitPrice]; split <;> rfl
  | setKind kind => simp only [edit, setKind]; split <;> rfl
  | refresh now => exact f.market_refresh now

/-- What each operation can come to: the exchanges in it, the reply and order entry after it. -/
inductive ComesTo (f : Flow) : Operation → List Exchange → Reply → Flow → Prop where
  | edit (e : Edit) : ComesTo f (.edit e) [] (f.edit e).1 (f.edit e).2
  | begin (now : Instant) :
      ComesTo f .begin [.clock now] (.begun (f.begin now.toMillis).1) (f.begin now.toMillis).2
  | complete (now : Instant) : ComesTo f .complete [.clock now] .nothing (f.complete now.toMillis)
  /-- A confirmation that starts no submission. -/
  | refused (trader : Trader) {now : Instant} {e : TradeError}
      (h : (f.begin now.toMillis).1 = .error e) :
      ComesTo f (.confirm trader) [.clock now] (.confirmed (.error e)) (f.begin now.toMillis).2
  /-- A confirmation with a submission in it. -/
  | submitted {trader : Trader} {now : Instant} (later : Instant) {request : OrderRequest}
      {known after : Store} {es : List Exchange} {outcome : Except TradeError Effects}
      (h : (f.begin now.toMillis).1 = .ok request)
      (hsubmit : (trader.submit f.market request).Runs known es outcome after) :
      ComesTo f (.confirm trader) (.clock now :: (es ++ [.clock later])) (.confirmed outcome)
        ((f.begin now.toMillis).2.complete later.toMillis)

/-- A confirmation reads the clock, and goes on only if a submission is started at that time. -/
theorem runs_confirm_iff {trader : Trader} {known after : Store} {es : List Exchange}
    {outcome : Except TradeError Effects} :
    (f.confirm trader).Runs known es (outcome, g) after ↔
      ∃ now rest, es = .clock now :: rest ∧
        ((∃ e, (f.begin now.toMillis).1 = .error e ∧ rest = [] ∧ outcome = .error e ∧
            g = (f.begin now.toMillis).2 ∧ after = known) ∨
          ∃ request es' later, (f.begin now.toMillis).1 = .ok request ∧
            (trader.submit f.market request).Runs known es' outcome after ∧
            rest = es' ++ [.clock later] ∧
            g = (f.begin now.toMillis).2.complete later.toMillis) := by
  refine Session.runs_put_bind_iff.trans ?_
  refine exists_congr fun now => exists_congr fun rest => and_congr_right fun _ => ?_
  have hmarket := f.market_begin (Instant.toMillis now)
  -- What is started and order entry after it are one pair, which the dialogue takes apart.
  cases hbegin : f.begin (Instant.toMillis now) with
  | mk begun f' =>
  rw [hbegin] at hmarket
  cases begun with
  | error e =>
    simp only
    rw [Session.runs_pure_iff, Prod.mk.injEq]
    constructor
    · rintro ⟨rfl, ⟨rfl, rfl⟩, rfl⟩
      exact .inl ⟨e, rfl, rfl, rfl, rfl, rfl⟩
    · rintro (⟨_, ⟨⟩, rfl, rfl, rfl, rfl⟩ | ⟨_, _, _, ⟨⟩, -⟩)
      exact ⟨rfl, ⟨rfl, rfl⟩, rfl⟩
  | ok request =>
    simp only
    rw [hmarket, Session.runs_bind_iff]
    constructor
    · rintro ⟨es', submitted, between, es'', hsubmit, hrest, rfl⟩
      obtain ⟨later, _, rfl, hend⟩ := Session.runs_put_bind_iff.1 hrest
      obtain ⟨rfl, heq, rfl⟩ := Session.runs_pure_iff.1 hend
      cases heq
      exact .inr ⟨request, es', later, rfl, hsubmit, rfl, rfl⟩
    · rintro (⟨_, ⟨⟩, -⟩ | ⟨_, es', later, ⟨⟩, hsubmit, rfl, rfl⟩)
      refine ⟨es', outcome, after, [.clock later], hsubmit, ?_, rfl⟩
      exact Session.runs_put_bind_iff.2 ⟨later, [], rfl, Session.runs_pure_iff.2 ⟨rfl, rfl, rfl⟩⟩

/-- The clock is all an operation asks, so its runs are given by the answers of the clock. -/
theorem comesTo_iff {op : Operation} {es : List Exchange} {r : Reply} :
    (∃ known later, (f.perform op).Runs known es (r, g) later) ↔ f.ComesTo op es r g := by
  constructor
  · rintro ⟨known, later, hruns⟩
    cases op with
    | edit e =>
      obtain ⟨rfl, heq, -⟩ := Session.runs_pure_iff.1 hruns
      obtain ⟨rfl, rfl⟩ := Prod.mk.inj heq
      exact .edit e
    | begin =>
      obtain ⟨now, _, rfl, hend⟩ := Session.runs_put_bind_iff.1 hruns
      obtain ⟨rfl, heq, -⟩ := Session.runs_pure_iff.1 hend
      cases heq
      exact .begin now
    | complete =>
      obtain ⟨now, _, rfl, hend⟩ := Session.runs_put_bind_iff.1 hruns
      obtain ⟨rfl, heq, -⟩ := Session.runs_pure_iff.1 hend
      cases heq
      exact .complete now
    | confirm trader =>
      obtain ⟨es', ⟨outcome, f'⟩, _, _, hconfirm, hend, rfl⟩ := Session.runs_bind_iff.1 hruns
      obtain ⟨rfl, heq, -⟩ := Session.runs_pure_iff.1 hend
      cases heq
      rw [List.append_nil]
      obtain ⟨now, rest, rfl, ⟨e, hbegin, rfl, rfl, rfl, -⟩ |
        ⟨request, es', later, hbegin, hsubmit, rfl, rfl⟩⟩ := runs_confirm_iff.1 hconfirm
      · exact .refused trader hbegin
      · exact .submitted later hbegin hsubmit
  · intro h
    cases h with
    | edit e => exact ⟨.empty, .empty, Session.runs_pure_iff.2 ⟨rfl, rfl, rfl⟩⟩
    | begin now | complete now =>
      refine ⟨.empty, .empty, Session.runs_put_bind_iff.2 ⟨now, [], rfl, ?_⟩⟩
      exact Session.runs_pure_iff.2 ⟨rfl, rfl, rfl⟩
    | @refused trader now e h =>
      have hconfirm : (f.confirm trader).Runs .empty [.clock now]
          (.error e, (f.begin now.toMillis).2) .empty :=
        runs_confirm_iff.2 ⟨now, [], rfl, .inl ⟨e, h, rfl, rfl, rfl, rfl⟩⟩
      exact ⟨.empty, .empty, Session.runs_bind_iff.2 ⟨_, _, _, [], hconfirm,
        Session.runs_pure_iff.2 ⟨rfl, rfl, rfl⟩, rfl⟩⟩
    | @submitted trader now later request known after es outcome h hsubmit =>
      have hconfirm : (f.confirm trader).Runs known (.clock now :: (es ++ [.clock later]))
          (outcome, (f.begin now.toMillis).2.complete later.toMillis) after :=
        runs_confirm_iff.2 ⟨now, _, rfl, .inr ⟨request, es, later, h, hsubmit, rfl, rfl⟩⟩
      exact ⟨known, after, Session.runs_bind_iff.2 ⟨_, _, _, [], hconfirm,
        Session.runs_pure_iff.2 ⟨rfl, rfl, rfl⟩, (List.append_nil _).symm⟩⟩

/-- An event happens just if its operation comes to what it records. -/
theorem Event.happens_iff {e : Event} :
    e.Happens ↔ e.before.ComesTo e.operation e.exchanges e.reply e.after :=
  comesTo_iff

/-- The reply and the flow after an edit are those of the edit, which asks nothing. -/
theorem Event.Happens.edit_eq {e : Event} (h : e.Happens) {edit : Edit}
    (hop : e.operation = .edit edit) : e.before.edit edit = (e.reply, e.after) := by
  obtain ⟨f, op, es, r, g⟩ := e
  have hcomes : f.ComesTo op es r g := happens_iff.1 h
  clear h
  cases hop
  cases hcomes with
  | edit => rfl

/-- An attempt to start a submission reads the clock for it. Nothing else happens then, unless it is
part of a confirmation and succeeds. -/
theorem Event.Begins.exists_now {e : Event} (he : e.Happens)
    {outcome : Except TradeError OrderRequest} (h : e.Begins outcome) :
    ∃ now : Instant, outcome = (e.before.begin now.toMillis).1 ∧
      (e.after = (e.before.begin now.toMillis).2 ∨
        ∃ request, outcome = .ok request ∧ e.Completes) := by
  have hbegins := h
  obtain ⟨f, op, es, r, g⟩ := e
  have hcomes : f.ComesTo op es r g := happens_iff.1 he
  cases h with
  | begin hop hreply =>
    clear he hbegins
    cases hop
    cases hreply
    cases hcomes with
    | begin now => exact ⟨now, rfl, .inl rfl⟩
  | @confirm trader now rest hop hnow houtcome =>
    refine ⟨now, houtcome, ?_⟩
    cases outcome with
    | ok request => exact .inr ⟨request, rfl, .confirm hop hbegins⟩
    | error error =>
      clear he hbegins
      cases hop
      cases hnow
      cases hcomes with
      | refused trader h => exact .inl rfl
      | submitted later hok hsubmit =>
        rw [hok] at houtcome
        cases houtcome

/-- Whatever the clock answers, a rehearsed event is one that happens. -/
theorem Event.happens_rehearsed (answer : List Exchange → (q : Question) → q.Answer) (f : Flow)
    (op : Operation) : (Event.rehearsed answer f op).Happens :=
  ⟨.empty, _, Dialogue.held_heldWith answer ((f.perform op).run .empty)⟩

/-! ### What histories keep -/

/-- No operation changes the market. -/
theorem ComesTo.market_eq {op : Operation} {es : List Exchange} {r : Reply}
    (h : f.ComesTo op es r g) : g.market = f.market := by
  cases h with
  | edit e => exact f.market_edit e
  | begin now | refused trader h | submitted later h hsubmit => exact f.market_begin _
  | complete now => rfl

namespace History

variable {es es' : List Event}

/-- What every event of a history keeps, the history keeps. The events may be known to have some
property that they need for it. -/
theorem preserves {P : Event → Prop} {I : Flow → Prop} (h : History f es g)
    (hstep : ∀ e : Event, e.Happens → P e → I e.before → I e.after)
    (hall : ∀ e ∈ es, P e) (hf : I f) : I g ∧ ∀ e ∈ es, I e.before ∧ I e.after := by
  induction h with
  | nil f => exact ⟨hf, fun e he => absurd he List.not_mem_nil⟩
  | @cons e es g he rest ih =>
    have hafter := hstep e he (hall e List.mem_cons_self) hf
    obtain ⟨hg, hes⟩ := ih (fun x hx => hall x (List.mem_cons_of_mem e hx)) hafter
    refine ⟨hg, fun x hx => ?_⟩
    obtain rfl | hx := List.mem_cons.1 hx
    · exact ⟨hf, hafter⟩
    · exact hes x hx

/-- Every event of a history happens. -/
theorem happens (h : History f es g) : ∀ e ∈ es, e.Happens := by
  induction h with
  | nil f => exact fun e he => absurd he List.not_mem_nil
  | cons he rest ih => exact List.forall_mem_cons.2 ⟨he, ih⟩

/-- The market is the same at every event of a history. -/
theorem market_eq (h : History f es g) :
    g.market = f.market ∧ ∀ e ∈ es, e.before.market = f.market ∧ e.after.market = f.market :=
  h.preserves (P := fun _ => True) (I := fun x => x.market = f.market)
    (fun _ he _ hbefore => (Event.happens_iff.1 he).market_eq.trans hbefore)
    (fun _ _ => trivial) rfl

/-- A history goes through the states around each of its events. -/
theorem split {e : Event} (h : History f (es ++ e :: es') g) :
    History f es e.before ∧ e.Happens ∧ History e.after es' g := by
  induction es generalizing f with
  | nil =>
    cases h with
    | cons he rest => exact ⟨.nil _, he, rest⟩
  | cons x es ih =>
    cases h with
    | cons hx rest =>
      obtain ⟨hes, he, hes'⟩ := ih rest
      exact ⟨.cons hx hes, he, hes'⟩

/-- Any operations in a row make a history, whatever the surroundings answer. -/
theorem exists_rehearse (answer : List Exchange → (q : Question) → q.Answer) (f : Flow)
    (ops : List Operation) : ∃ g, History f (f.rehearse answer ops) g := by
  induction ops generalizing f with
  | nil => exact ⟨f, .nil f⟩
  | cons op ops ih =>
    obtain ⟨g, hrest⟩ := ih (Event.rehearsed answer f op).after
    exact ⟨g, .cons (Event.happens_rehearsed answer f op) hrest⟩

end History

end Flow

end PredictionMarket
