import Mathlib.Data.List.DropRight
import PredictionMarket.Proofs.Flow.History

/-!
# What was typed

The draft of order entry is compared with the history that led to it: each of its texts and its kind
is what was last entered, and the end of a submission clears the quantity.

## Main definitions

* `Flow.Event.quantity?`, `Flow.Event.limitPrice?`, `Flow.Event.kind?`: what an event enters.
* `Flow.lastEntered`: what the events of a history entered last.
* `Flow.sinceCompletion`: the events since a submission was last ended.
* `Flow.Event.EntersNothing`: the events that leave quantity, limit price and kind alone.

## Main results

* `Flow.Event.Happens.draft_eq`: what each event leaves in the draft.
* `Flow.draft_as_last_entered`: the draft after a history.
-/

namespace PredictionMarket

namespace Flow

open Trade

variable {f g : Flow}

namespace Event

variable {e : Event}

/-- The quantity that an event enters, if it is accepted. -/
def quantity? (e : Event) : Option String :=
  match e.operation, e.reply with
  | .edit (.setQuantity text), .accepted true => some text
  | _, _ => none

/-- The limit price that an event enters, if it is accepted. -/
def limitPrice? (e : Event) : Option String :=
  match e.operation, e.reply with
  | .edit (.setLimitPrice text), .accepted true => some text
  | _, _ => none

/-- The kind of order that an event chooses, if it is accepted. -/
def kind? (e : Event) : Option OrderKind :=
  match e.operation, e.reply with
  | .edit (.setKind kind), .accepted true => some kind
  | _, _ => none

/-- Whether an event ends a submission. -/
def isCompletion (e : Event) : Bool :=
  match e.operation, e.exchanges with
  | .complete, _ => true
  | .confirm _, ⟨.now, now⟩ :: _ => (e.before.begin (Instant.toMillis now)).1.isOk
  | _, _ => false

/-- The test for a completion is exact. -/
theorem isCompletion_iff : e.isCompletion = true ↔ e.Completes := by
  obtain ⟨f, op, es, r, g⟩ := e
  constructor
  · intro h
    unfold isCompletion at h
    split at h
    · next hop => exact .complete hop
    · next now rest hop hes =>
      cases hbegin : (f.begin (Instant.toMillis now)).1 with
      | ok request => exact .confirm hop (.confirm hop hes hbegin.symm)
      | error error =>
        dsimp only at h
        rw [hbegin] at h
        cases h
    · cases h
  · rintro (hop | ⟨hop, hbegun⟩)
    · cases hop
      rfl
    · cases hop
      cases hbegun with
      | begin hop hreply => cases hop
      | confirm hop hnow houtcome =>
        cases hnow
        show (f.begin _).1.isOk = true
        rw [← houtcome]
        rfl

instance : DecidablePred Completes := fun _ => decidable_of_iff _ isCompletion_iff

/-- The events that enter no quantity, no limit price and no kind: refused edits, the choice of a
side and its taking back, the clock, and submissions that are not started. -/
inductive EntersNothing (e : Event) : Prop where
  | refused (h : e.reply = .accepted false)
  | side {side : Side} (h : e.operation = .edit (.selectSide side))
  | noSide (h : e.operation = .edit .clearSide)
  | clock {now : Int} (h : e.operation = .edit (.refresh now))
  | notStarted {error : TradeError} (h : e.Begins (.error error))

end Event

/-- What events entered last, or what stands there from the beginning. -/
def lastEntered {α : Type} (entered? : Event → Option α) (initial : α) (events : List Event) : α :=
  ((events.filterMap entered?).getLast?).getD initial

/-- The events after the last one that ends a submission. -/
def sinceCompletion (events : List Event) : List Event :=
  events.rtakeWhile fun e => ¬e.Completes

section

variable {α : Type} {entered? : Event → Option α} {initial : α}

@[simp]
theorem lastEntered_nil : lastEntered entered? initial [] = initial :=
  rfl

/-- The last event decides if it enters something; if not, the entry before it stands. -/
@[simp]
theorem lastEntered_concat (es : List Event) (e : Event) :
    lastEntered entered? initial (es ++ [e]) =
      (entered? e).getD (lastEntered entered? initial es) := by
  unfold lastEntered
  rw [List.filterMap_append]
  cases h : entered? e with
  | none => rw [List.filterMap_cons_none h, List.filterMap_nil, List.append_nil, Option.getD_none]
  | some a => rw [List.filterMap_cons_some h, List.filterMap_nil, List.getLast?_concat]; rfl

end

/-- Nothing has happened since a completion that was just made. -/
theorem sinceCompletion_concat_of_completes {e : Event} (h : e.Completes) (es : List Event) :
    sinceCompletion (es ++ [e]) = [] :=
  List.rtakeWhile_concat_neg _ _ _ (by simpa using h)

/-- Any other event is one more since the last completion. -/
theorem sinceCompletion_concat_of_not_completes {e : Event} (h : ¬e.Completes) (es : List Event) :
    sinceCompletion (es ++ [e]) = sinceCompletion es ++ [e] :=
  List.rtakeWhile_concat_pos _ _ _ (by simpa using h)

/-! ### What one event leaves in the draft -/

/-- What is in a draft apart from the side is what an edit enters, or what was there before. -/
theorem draft_edit (f : Flow) (input : Edit) :
    let e : Event := ⟨f, .edit input, [], (f.edit input).1, (f.edit input).2⟩
    e.after.draft.quantity = e.quantity?.getD f.draft.quantity ∧
      e.after.draft.limitPrice = e.limitPrice?.getD f.draft.limitPrice ∧
      e.after.draft.kind = e.kind?.getD f.draft.kind := by
  cases input with
  | selectSide side => simp only [edit, selectSide]; split <;> exact ⟨rfl, rfl, rfl⟩
  | clearSide => simp only [edit, clearSide]; split <;> exact ⟨rfl, rfl, rfl⟩
  | setQuantity text => simp only [edit, setQuantity]; split <;> exact ⟨rfl, rfl, rfl⟩
  | setLimitPrice text => simp only [edit, setLimitPrice]; split <;> exact ⟨rfl, rfl, rfl⟩
  | setKind kind => simp only [edit, setKind]; split <;> exact ⟨rfl, rfl, rfl⟩
  | refresh now => simp only [edit, draft_refresh]; exact ⟨rfl, rfl, rfl⟩

/-- A refused edit changes nothing. -/
theorem edit_of_refused {input : Edit} (h : (f.edit input).1 = .accepted false) :
    (f.edit input).2 = f := by
  cases input with
  | selectSide side => simp only [edit, selectSide] at h ⊢; split at h <;> simp_all
  | setQuantity text => simp only [edit, setQuantity] at h ⊢; split at h <;> simp_all
  | setLimitPrice text => simp only [edit, setLimitPrice] at h ⊢; split at h <;> simp_all
  | setKind kind => simp only [edit, setKind] at h ⊢; split at h <;> simp_all
  | clearSide | refresh now => cases h

/-- The start of a submission leaves the draft, whether it succeeds or not. -/
theorem draft_begin (f : Flow) (now : Int) : (f.begin now).2.draft = f.draft := by
  cases hbegin : (f.begin now).1 with
  | ok request =>
    obtain ⟨side, -, -, -, hafter⟩ := begin_eq_ok hbegin
    rw [hafter]
  | error e => rw [begin_eq_error hbegin, draft_refresh]

namespace Event

variable {e : Event}

/-- An event leaves in the draft what it enters. The end of a submission clears the quantity, and
only that. -/
theorem Happens.draft_eq (he : e.Happens) :
    e.after.draft.quantity =
        (if e.Completes then "" else e.quantity?.getD e.before.draft.quantity) ∧
      e.after.draft.limitPrice = e.limitPrice?.getD e.before.draft.limitPrice ∧
      e.after.draft.kind = e.kind?.getD e.before.draft.kind := by
  obtain ⟨f, op, es, r, g⟩ := e
  have hcomes : f.ComesTo op es r g := happens_iff.1 he
  clear he
  -- One case for each operation. A confirmation is two: refused at once, or submitted and ended.
  cases hcomes with
  | edit input =>
    rw [if_neg (by rintro (h | h) <;> cases h)]
    exact draft_edit f input
  | begin now =>
    rw [if_neg (by rintro (h | h) <;> cases h)]
    dsimp only
    rw [draft_begin]
    exact ⟨rfl, rfl, rfl⟩
  | complete now =>
    rw [if_pos (.complete rfl)]
    exact ⟨rfl, rfl, rfl⟩
  | @refused trader now error h =>
    have hnot : ¬Completes ⟨f, .confirm trader, [.clock now], .confirmed (.error error),
        (f.begin now.toMillis).2⟩ := by
      rw [← isCompletion_iff]
      show ¬(f.begin now.toMillis).1.isOk = true
      rw [h]
      exact nofun
    rw [if_neg hnot]
    dsimp only
    rw [draft_begin]
    exact ⟨rfl, rfl, rfl⟩
  | @submitted trader now later request known after es outcome h hsubmit =>
    rw [if_pos (.confirm rfl (.confirm rfl rfl h.symm))]
    show "" = "" ∧ (f.begin now.toMillis).2.draft.limitPrice = f.draft.limitPrice ∧
      (f.begin now.toMillis).2.draft.kind = f.draft.kind
    rw [draft_begin]
    exact ⟨rfl, rfl, rfl⟩

/-- What is left by an edit that happens is what the edit makes. -/
theorem Happens.after_of_edit (he : e.Happens) {input : Edit} (hop : e.operation = .edit input) :
    e.after = (e.before.edit input).2 :=
  (congrArg Prod.snd (he.edit_eq hop)).symm

/-- A refused edit changes nothing. -/
theorem Happens.after_of_refused (he : e.Happens) (hreply : e.reply = .accepted false) :
    e.after = e.before := by
  obtain ⟨f, op, es, r, g⟩ := e
  have hcomes : f.ComesTo op es r g := happens_iff.1 he
  clear he
  cases hcomes with
  | edit input => exact edit_of_refused hreply
  | _ => cases hreply

/-- An event that enters nothing changes at most the side of the draft. -/
theorem EntersNothing.draft_eq (h : e.EntersNothing) (he : e.Happens) :
    { e.after.draft with side := e.before.draft.side } = e.before.draft := by
  cases h with
  | refused hreply => rw [he.after_of_refused hreply]
  | @side side hop =>
    rw [he.after_of_edit hop]
    simp only [edit, selectSide]
    split <;> rfl
  | noSide hop =>
    rw [he.after_of_edit hop]
    simp only [edit, clearSide]
    split <;> rfl
  | @clock now hop =>
    rw [he.after_of_edit hop]
    show { (e.before.refresh now).draft with side := e.before.draft.side } = e.before.draft
    rw [draft_refresh]
  | notStarted hbegins =>
    obtain ⟨now, houtcome, hafter | ⟨_, ⟨⟩, -⟩⟩ := hbegins.exists_now he
    rw [hafter, draft_begin]

/-- The choice of a kind leaves all that was typed. -/
theorem Happens.draft_of_setKind (he : e.Happens) {kind : OrderKind}
    (hop : e.operation = .edit (.setKind kind)) :
    { e.after.draft with kind := e.before.draft.kind } = e.before.draft := by
  rw [he.after_of_edit hop]
  simp only [edit, setKind]
  split <;> rfl

end Event

/-! ### What a history leaves in the draft -/

/-- A history without events ends where it starts. -/
theorem History.eq_of_nil (h : History f [] g) : g = f := by
  cases h
  rfl

/-- What only changes where an event enters it is what was last entered. -/
theorem History.eq_lastEntered {α : Type} (part : Flow → α) {entered? : Event → Option α}
    (hstep : ∀ e : Event, e.Happens → part e.after = (entered? e).getD (part e.before))
    {events : List Event} (h : History f events g) :
    part g = lastEntered entered? (part f) events := by
  -- The last event decides, so the induction takes events off the end.
  induction events using List.reverseRecOn generalizing g with
  | nil => rw [h.eq_of_nil, lastEntered_nil]
  | append_singleton es e ih =>
    obtain ⟨hes, he, hlast⟩ := h.split
    rw [hlast.eq_of_nil, hstep e he, ih hes, lastEntered_concat]

/-- The quantity that is cleared where a submission ends is what was last entered since then. -/
theorem History.quantity_eq {events : List Event} (h : History f events g)
    (hf : f.draft.quantity = "") :
    g.draft.quantity = lastEntered Event.quantity? "" (sinceCompletion events) := by
  induction events using List.reverseRecOn generalizing g with
  | nil =>
    rw [h.eq_of_nil, hf]
    rfl
  | append_singleton es e ih =>
    obtain ⟨hes, he, hlast⟩ := h.split
    rw [hlast.eq_of_nil, he.draft_eq.1, ih hes]
    split
    · next hcompletes => rw [sinceCompletion_concat_of_completes hcompletes, lastEntered_nil]
    · next hnot => rw [sinceCompletion_concat_of_not_completes hnot, lastEntered_concat]

/-- The limit price and the kind of the draft are the last ones entered, the quantity is the last
one entered since a submission was ended. Whatever enters none of the three leaves them as they are,
and the choice of a kind leaves the two texts. -/
theorem draft_as_last_entered {m : Market} {now : Int} {events : List Event}
    (h : History (start m now) events g) :
    g.draft.limitPrice = lastEntered Event.limitPrice? "" events ∧
    g.draft.kind = lastEntered Event.kind? .market events ∧
    g.draft.quantity = lastEntered Event.quantity? "" (sinceCompletion events) ∧
    ∀ e : Event, e.Happens → e.before = g →
      (e.EntersNothing → { e.after.draft with side := g.draft.side } = g.draft) ∧
      ∀ kind, e.operation = .edit (.setKind kind) →
        { e.after.draft with kind := g.draft.kind } = g.draft := by
  have hprice : g.draft.limitPrice = lastEntered Event.limitPrice? "" events :=
    h.eq_lastEntered (fun x => x.draft.limitPrice) fun e he => he.draft_eq.2.1
  have hkind : g.draft.kind = lastEntered Event.kind? .market events :=
    h.eq_lastEntered (fun x => x.draft.kind) fun e he => he.draft_eq.2.2
  refine ⟨hprice, hkind, h.quantity_eq rfl, ?_⟩
  rintro e he rfl
  exact ⟨fun hnothing => hnothing.draft_eq he, fun kind hop => he.draft_of_setKind hop⟩

/-- The limit price and the kind outlive a submission and the loss of the side, the quantity does
not. -/
theorem limit_price_outlives_submission :
    let events := (start .sample 0).rehearse (plainAnswer [])
      [.edit (.selectSide .no), .edit (.setQuantity "12"), .edit (.setKind .limit),
        .edit (.setLimitPrice "0.4"), .begin, .edit (.setLimitPrice "0.5"), .complete,
        .edit (.selectSide .yes)]
    ∃ g, History (start .sample 0) events g ∧
      g.draft.limitPrice = "0.4" ∧ g.draft.kind = .limit ∧ g.draft.quantity = "" ∧
      (Event.rehearsed (plainAnswer []) g (.edit .clearSide)).after.draft.limitPrice = "0.4" := by
  intro events
  obtain ⟨g, h⟩ : ∃ g, History (start .sample 0) events g := History.exists_rehearse _ _ _
  obtain ⟨hprice, hkind, hquantity, hkept⟩ := draft_as_last_entered h
  have htyped : g.draft.limitPrice = "0.4" := hprice.trans (by decide +kernel)
  refine ⟨g, h, htyped, hkind.trans (by decide +kernel), hquantity.trans (by decide +kernel), ?_⟩
  obtain ⟨hside, -⟩ := hkept _ (Event.happens_rehearsed (plainAnswer []) g (.edit .clearSide)) rfl
  exact (congrArg Draft.limitPrice (hside (.noSide rfl))).trans htyped

end Flow

end PredictionMarket
