import PredictionMarket.Proofs.Flow.History

/-!
# Order entry that takes no input

While an order is on its way, and once the market has ended, nothing can be entered and no
submission started. Only the end of a submission unlocks order entry.
-/

namespace PredictionMarket

namespace Flow

open Trade

variable {f g : Flow}

/-- Edits are refused in two cases: the flow is closed, or a submission is under way. -/
theorem isOpen_eq_false_iff :
    f.isOpen = false ↔ f.phase = .closed ∨ ∃ side, f.phase = .submitting side := by
  unfold isOpen
  cases f.phase <;> simp

/-- A locked flow is in no phase in which a side is chosen. -/
theorem hasSide_of_locked (h : f.isOpen = false) : f.hasSide = false := by
  unfold hasSide
  obtain hphase | ⟨side, hphase⟩ := isOpen_eq_false_iff.1 h <;> rw [hphase]

/-- A closed flow does not change with the time. -/
theorem refresh_of_closed (h : f.phase = .closed) (now : Int) : f.refresh now = f := by
  obtain ⟨m, draft, phase⟩ := f
  obtain rfl : phase = .closed := h
  unfold refresh
  split <;> rfl

/-- Time alone opens no locked flow. -/
theorem isOpen_refresh_of_locked (h : f.isOpen = false) (now : Int) :
    (f.refresh now).isOpen = false := by
  unfold refresh
  split
  · rfl
  · exact h

/-- Locked order entry takes no input. Only the clock changes its phase. -/
theorem edit_of_locked (h : f.isOpen = false) (e : Edit) :
    (e.IsInput → f.edit e = (.accepted false, f)) ∧
      ((f.edit e).2 = f ∨ ∃ now, (f.edit e).2 = f.refresh now) := by
  have hside := hasSide_of_locked h
  cases e with
  | selectSide side => simp [edit, selectSide, h]
  | clearSide => simp [edit, clearSide, hside, Edit.IsInput]
  | setQuantity text => simp [edit, setQuantity, hside]
  | setLimitPrice text => simp [edit, setLimitPrice, hside]
  | setKind kind => simp [edit, setKind, h]
  | refresh now => exact ⟨False.elim, .inr ⟨now, rfl⟩⟩

/-- Locked order entry starts no submission. -/
theorem begin_of_locked (h : f.isOpen = false) (now : Int) :
    f.begin now =
      (.error (if (f.refresh now).phase = .closed then .marketEnded f.market.address
        else .submissionInProgress), f.refresh now) := by
  have hready : (f.refresh now).ready =
      .error (if (f.refresh now).phase = .closed then .marketEnded f.market.address
        else .submissionInProgress) := by
    unfold ready
    rw [market_refresh]
    obtain hphase | ⟨side, hphase⟩ := isOpen_eq_false_iff.1 (isOpen_refresh_of_locked h now) <;>
      rw [hphase] <;> rfl
  unfold begin
  simp only [hready]

/-- An attempt to start a submission is refused, for the phase that the clock leaves. -/
theorem Event.Begins.eq_of_locked {e : Event} (he : e.Happens) (hlocked : e.before.isOpen = false)
    {outcome : Except TradeError OrderRequest} (h : e.Begins outcome) :
    outcome = .error (if e.after.phase = .closed then .marketEnded e.before.market.address
      else .submissionInProgress) := by
  obtain ⟨now, houtcome, hafter⟩ := h.exists_now he
  rw [begin_of_locked hlocked] at houtcome hafter
  obtain hafter | ⟨request, hok, -⟩ := hafter
  · rw [houtcome, hafter]
  · rw [hok] at houtcome
    cases houtcome

/-- Until a submission is completed, only the clock changes locked order entry. -/
theorem Event.Happens.of_locked {e : Event} (he : e.Happens) (hlocked : e.before.isOpen = false)
    (hnot : ¬e.Completes) : e.after = e.before ∨ ∃ now, e.after = e.before.refresh now := by
  obtain ⟨f, op, es, r, g⟩ := e
  have hcomes : f.ComesTo op es r g := happens_iff.1 he
  have hbegin := fun now => begin_of_locked hlocked now
  cases op with
  | edit edit =>
    clear he hnot
    cases hcomes with
    | edit => exact (edit_of_locked hlocked edit).2
  | begin =>
    clear he hnot
    cases hcomes with
    | begin now => exact .inr ⟨now.toMillis, by rw [hbegin]⟩
  | complete => exact absurd (.complete rfl) hnot
  | confirm trader =>
    clear he hnot
    cases hcomes with
    | refused _ h => exact .inr ⟨_, begin_eq_error h⟩
    | submitted later h hsubmit =>
      rw [hbegin] at h
      cases h

end Flow

end PredictionMarket
