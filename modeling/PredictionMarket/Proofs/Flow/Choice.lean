import PredictionMarket.Proofs.Flow.History
import PredictionMarket.Proofs.Order.Request

/-!
# The chosen side

The phase of order entry and its draft both name the chosen side. They agree, and the side they name
is the one last chosen by the user.

## Main definitions

* `Flow.Event.chosenSide?`: the side that an event chooses.
* `Flow.Follows`: order entry names the side last chosen.

## Main results

* `Flow.order_follows_choice`: what order entry, its orders and its estimate say of the side.
-/

namespace PredictionMarket

namespace Flow

open Trade

variable {f g : Flow}

/-- The side that an event chooses, if the choice is accepted. -/
def Event.chosenSide? (e : Event) : Option Side :=
  match e.operation, e.reply with
  | .edit (.selectSide side), .accepted true => some side
  | _, _ => none

/-- The last side that events choose. -/
def lastChosen? (events : List Event) : Option Side :=
  (events.filterMap Event.chosenSide?).getLast?

/-- An event in front counts only if no later one chose a side. -/
theorem lastChosen?_cons (e : Event) (es : List Event) :
    lastChosen? (e :: es) = (lastChosen? es).or e.chosenSide? := by
  unfold lastChosen?
  cases hside : e.chosenSide? with
  | none => rw [List.filterMap_cons_none hside, Option.or_none]
  | some side =>
    rw [List.filterMap_cons_some hside, List.getLast?_cons]
    cases (es.filterMap Event.chosenSide?).getLast? <;> rfl

/-- Order entry names no side while it is idle, and the side last chosen from its choice to the end
of the submission. Closed order entry may name any side. -/
structure Follows (last : Option Side) (f : Flow) : Prop where
  idle : f.phase = .idle → f.draft.side = none
  chosen : ∀ side, f.phase = .sideSelected side ∨ f.phase = .submitting side →
    f.draft.side = some side ∧ last = some side

namespace Follows

variable {last : Option Side}

/-- Between two orders nothing is chosen, so any choice made before is followed. -/
theorem of_no_side (hphase : f.phase = .idle ∨ f.phase = .closed) (hside : f.draft.side = none) :
    Follows last f := by
  refine ⟨fun _ => hside, fun side h => ?_⟩
  obtain hphase | hphase := hphase <;> rw [hphase] at h <;> rcases h with h | h <;> cases h

/-- A closed flow follows any choice, since closing gives up the side. -/
theorem of_closed (hphase : f.phase = .closed) : Follows last f := by
  refine ⟨fun h => ?_, fun side h => ?_⟩
  · cases hphase.symm.trans h
  · rw [hphase] at h
    rcases h with h | h <;> cases h

/-- A new flow has no side, and none was chosen. -/
theorem start (m : Market) (now : Int) : Follows none (Flow.start m now) := by
  refine of_no_side ?_ rfl
  unfold Flow.start
  split
  · exact .inr rfl
  · exact .inl rfl

/-- Only the side and the phase matter. -/
theorem congr (h : Follows last f) (hphase : g.phase = f.phase)
    (hside : g.draft.side = f.draft.side) : Follows last g := by
  refine ⟨fun hidle => ?_, fun side hchosen => ?_⟩
  · rw [hside, h.idle (hphase ▸ hidle)]
  · rw [hside]
    exact h.chosen side (hphase ▸ hchosen)

/-- A look at the clock keeps the side or closes the flow. -/
theorem refresh (h : Follows last f) (now : Int) : Follows last (f.refresh now) := by
  unfold Flow.refresh
  split
  · exact of_closed rfl
  · exact h

/-- Whether a submission begins or is refused, the choice is kept or the flow closed. -/
theorem begin (h : Follows last f) (now : Int) : Follows last (f.begin now).2 := by
  cases hbegin : (f.begin now).1 with
  | ok request =>
    obtain ⟨side, hphase, -, -, hafter⟩ := begin_eq_ok hbegin
    rw [hafter]
    refine ⟨by rintro ⟨⟩, fun other hother => ?_⟩
    obtain hother | hother := hother <;> cases hother
    exact h.chosen side (.inl hphase)
  | error e =>
    rw [begin_eq_error hbegin]
    exact h.refresh now

/-- A completed submission leaves no side, whatever was chosen before. -/
theorem complete (f : Flow) (now : Int) : Follows last (f.complete now) := by
  refine of_no_side ?_ rfl
  unfold Flow.complete
  cases f.market.isEndedAt now
  · exact .inl rfl
  · exact .inr rfl

/-- An edit that chooses a side makes it the last one. Any other keeps it, or takes it back. -/
theorem edit (h : Follows last f) (input : Edit) :
    Follows ((Event.chosenSide? ⟨f, .edit input, [], (f.edit input).1, (f.edit input).2⟩).or last)
      (f.edit input).2 := by
  cases input with
  | selectSide side =>
    simp only [Flow.edit, selectSide]
    split
    · refine ⟨by rintro ⟨⟩, fun other hother => ?_⟩
      obtain hother | hother := hother <;> cases hother
      exact ⟨rfl, rfl⟩
    · exact h
  | clearSide =>
    simp only [Flow.edit, clearSide]
    split
    · exact of_no_side (.inl rfl) rfl
    · exact h
  | setQuantity text =>
    simp only [Flow.edit, setQuantity]
    split <;> exact h.congr rfl rfl
  | setLimitPrice text =>
    simp only [Flow.edit, setLimitPrice]
    split <;> exact h.congr rfl rfl
  | setKind kind =>
    simp only [Flow.edit, setKind]
    split <;> exact h.congr rfl rfl
  | refresh now => exact h.refresh now

/-- Every event keeps the phase, the draft and the side last chosen together. -/
theorem step {e : Event} (he : e.Happens) (h : Follows last e.before) :
    Follows (e.chosenSide?.or last) e.after := by
  obtain ⟨f, op, es, r, g⟩ := e
  have hcomes : f.ComesTo op es r g := Event.happens_iff.1 he
  clear he
  cases hcomes with
  | edit input => exact h.edit input
  | begin now | refused trader hbegin => exact h.begin _
  | complete now | submitted later hbegin hsubmit => exact complete _ _

end Follows

/-- Along a history the flow follows the last choice, of the history or from before it. -/
theorem History.follows {last : Option Side} {es : List Event} (h : History f es g)
    (hf : Follows last f) : Follows ((lastChosen? es).or last) g := by
  induction h generalizing last with
  | nil f => exact hf
  | @cons e es g he rest ih =>
    rw [lastChosen?_cons, Option.or_assoc]
    exact ih (hf.step he)

/-- With a side in the draft a submission is never refused for the want of one. -/
theorem begin_ne_noSideSelected {side : Side} (hphase : f.phase = .sideSelected side)
    (hdraft : f.draft.side = some side) (now : Int) :
    (f.begin now).1 ≠ .error (.input .noSideSelected) := by
  unfold begin refresh
  split
  · rintro ⟨⟩
  · cases hrequest : f.draft.request with
    | ok request =>
      simp only [ready, hphase, hrequest]
      rintro ⟨⟩
    | error e =>
      simp only [ready, hphase, hrequest]
      rintro ⟨⟩
      exact Draft.request_ne_noSideSelected hdraft hrequest

/-- The side of the draft is that of the phase, and there is none in the idle phase. So an order
that is built has the side last chosen and the kind entered, it is not refused for want of a side
once one is chosen, and the estimate is there exactly then and made for that side. -/
theorem order_follows_choice {m : Market} {now : Int} {events : List Event}
    (h : History (start m now) events g) :
    (g.phase = .idle → g.draft.side = none) ∧
    (∀ side, g.phase = .sideSelected side ∨ g.phase = .submitting side →
      g.draft.side = some side) ∧
    (∀ e : Event, e.Happens → e.before = g → ∀ outcome, e.Begins outcome →
      (∀ request, outcome = .ok request →
        lastChosen? events = some request.side ∧ request.kind = g.draft.kind) ∧
      ∀ side, g.phase = .sideSelected side → outcome ≠ .error (.input .noSideSelected)) ∧
    (g.estimate.isSome = true ↔ ∃ side, g.phase = .sideSelected side) ∧
    ∀ side, g.phase = .sideSelected side →
      g.estimate = some (g.draft.estimate ((m.decimalPrice? side).getD .zero)) ∧
        g.draft.side = some side := by
  have hfollows := h.follows (.start m now)
  rw [Option.or_none] at hfollows
  have hside := fun side hphase => (hfollows.chosen side hphase).1
  refine ⟨hfollows.idle, hside, ?_, ?_, ?_⟩
  · rintro e he rfl outcome hbegins
    obtain ⟨now, rfl, -⟩ := hbegins.exists_now he
    constructor
    · intro request hok
      obtain ⟨side, hphase, -, hrequest, -⟩ := begin_eq_ok hok
      obtain ⟨hdraft, hlast⟩ := hfollows.chosen side (.inl hphase)
      obtain ⟨hnamed, hkind⟩ := Draft.side_and_kind_of_request_eq_ok hrequest
      exact ⟨hlast.trans (hdraft.symm.trans hnamed), hkind⟩
    · intro side hphase
      exact begin_ne_noSideSelected hphase (hside side (.inl hphase)) now.toMillis
  · unfold estimate hasSide
    cases g.phase <;> simp
  · intro side hphase
    have hdraft := hside side (.inl hphase)
    have hmarket : g.market = m := h.market_eq.1
    refine ⟨?_, hdraft⟩
    unfold estimate hasSide Draft.estimateFor
    rw [hphase, hdraft, hmarket]
    rfl

/-- A choice that is changed before the order: the order is for the later one. -/
theorem last_choice_is_ordered :
    let step := Event.rehearsed (plainAnswer [])
    let first := step (start .sample 0) (.edit (.selectSide .no))
    let second := step first.after (.edit (.selectSide .yes))
    let entered := step second.after (.edit (.setQuantity "3"))
    let begun := step entered.after .begin
    begun.Begins (.ok (.market .yes 3)) ∧
      lastChosen? [first, second, entered] = some .yes ∧
      entered.after.draft.side = some .yes ∧ entered.after.estimate.isSome = true := by
  intro step first second entered begun
  obtain ⟨g, h⟩ := History.exists_rehearse (plainAnswer []) (start .sample 0)
    [.edit (.selectSide .no), .edit (.selectSide .yes), .edit (.setQuantity "3"), .begin]
  obtain ⟨hpast, hbegun, -⟩ := @History.split _ g [first, second, entered] [] begun h
  obtain ⟨-, hside, horders, hestimate, -⟩ := order_follows_choice hpast
  have hphase : entered.after.phase = .sideSelected .yes := by decide +kernel
  have hbegins : begun.Begins (.ok (.market .yes 3)) := .begin rfl (by decide +kernel)
  exact ⟨hbegins, ((horders begun hbegun rfl _ hbegins).1 _ rfl).1, hside .yes (.inl hphase),
    hestimate.2 ⟨.yes, hphase⟩⟩

end Flow

end PredictionMarket
