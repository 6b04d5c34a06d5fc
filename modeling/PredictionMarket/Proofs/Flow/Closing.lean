import PredictionMarket.Proofs.Flow.Locked

/-!
# Closed order entry

Order entry is closed by a clock, that of the user or that of the surroundings. It is meant to stay
so, and it does as long as no submission is ended at a time before the end of the market.

## Main results

* `Flow.closed_throughout_iff`: when closed order entry stays closed.
* `Flow.reopens_when_completed_early`: a history in which it does not.
-/

namespace PredictionMarket

namespace Flow

open Trade

variable {f g : Flow}

namespace Event

variable {e : Event}

/-- Closed order entry stays as it is, unless a submission is ended that it does not know of. -/
theorem Happens.of_closed (he : e.Happens) (hclosed : e.before.phase = .closed)
    (hop : e.operation ≠ .complete) : e.after = e.before := by
  have hlocked := isOpen_eq_false_iff.2 (.inl hclosed)
  have hnot : ¬e.Completes := by
    intro h
    cases h with
    | complete h => exact hop h
    | confirm _ hbegun => cases hbegun.eq_of_locked he hlocked
  obtain hsame | ⟨now, hclock⟩ := he.of_locked hlocked hnot
  · exact hsame
  · rw [hclock, refresh_of_closed hclosed]

/-- A completion asks the clock once, and what it leaves depends on the answer alone. -/
theorem Happens.exists_now_of_complete (he : e.Happens) (hop : e.operation = .complete) :
    ∃ now : Instant, e.exchanges = [.clock now] ∧ e.after = e.before.complete now.toMillis := by
  obtain ⟨f, op, es, r, g⟩ := e
  have hcomes : f.ComesTo op es r g := happens_iff.1 he
  clear he
  cases hop
  cases hcomes with
  | complete now => exact ⟨now, rfl, rfl⟩

/-- Closed order entry asks nobody anything. -/
theorem Happens.calls_of_closed (he : e.Happens) (hclosed : e.before.phase = .closed) :
    indexCalls e.exchanges = [] ∧ walletCalls e.exchanges = [] := by
  obtain ⟨f, op, es, r, g⟩ := e
  have hcomes : f.ComesTo op es r g := happens_iff.1 he
  clear he
  cases hcomes with
  | edit edit => exact ⟨rfl, rfl⟩
  | begin now | complete now | refused trader h => exact ⟨rfl, rfl⟩
  | submitted later h hsubmit =>
    have hlocked := isOpen_eq_false_iff.2 (.inl hclosed)
    rw [begin_of_locked hlocked] at h
    cases h

end Event

/-- Closed order entry stays closed exactly if every submission that is ended on its own is ended at
a time at which the market has ended. As long as it is closed, no order is built, and neither the
index nor the wallet is asked. -/
theorem closed_throughout_iff {events : List Event} (h : History f events g)
    (hclosed : f.phase = .closed) :
    ((∀ e ∈ events, e.after.phase = .closed) ↔
      ∀ e ∈ events, e.operation = .complete → ∀ now : Instant, .clock now ∈ e.exchanges →
        f.market.isEndedAt now.toMillis = true) ∧
    ((∀ e ∈ events, e.after.phase = .closed) → ∀ e ∈ events,
      indexCalls e.exchanges = [] ∧ walletCalls e.exchanges = [] ∧
        ∀ outcome, e.Begins outcome → outcome = .error (.marketEnded f.market.address)) := by
  have hmarket := h.market_eq.2
  refine ⟨⟨?_, ?_⟩, ?_⟩
  · intro hall e he hop now hnow
    obtain ⟨now', hes, hafter⟩ := (h.happens e he).exists_now_of_complete hop
    rw [hes] at hnow
    cases List.mem_singleton.1 hnow
    have hphase := hall e he
    rw [hafter] at hphase
    by_cases hended : f.market.isEndedAt now.toMillis = true
    · exact hended
    · rw [complete, (hmarket e he).1, if_neg hended] at hphase
      cases hphase
  · intro hall
    have hkept := h.preserves (P := fun e => e.before.market = f.market ∧
        (e.operation = .complete → ∀ now : Instant, .clock now ∈ e.exchanges →
          f.market.isEndedAt now.toMillis = true))
      (I := fun x => x.phase = .closed) ?_ (fun e he => ⟨(hmarket e he).1, hall e he⟩) hclosed
    · exact fun e he => (hkept.2 e he).2
    · rintro e he ⟨hsame, hended⟩ hbefore
      by_cases hop : e.operation = .complete
      · obtain ⟨now, hes, hafter⟩ := he.exists_now_of_complete hop
        have hnow := hended hop now (hes ▸ List.mem_singleton_self _)
        rw [hafter, complete, hsame, if_pos hnow]
      · rw [he.of_closed hbefore hop]
        exact hbefore
  · intro hall e he
    have hkept := h.preserves (P := fun e => e.after.phase = .closed)
      (I := fun x => x.phase = .closed) (fun _ _ hafter _ => hafter) hall hclosed
    have hbefore := (hkept.2 e he).1
    obtain ⟨hindex, hwallet⟩ := (h.happens e he).calls_of_closed hbefore
    refine ⟨hindex, hwallet, fun outcome hbegins => ?_⟩
    have hlocked := isOpen_eq_false_iff.2 (.inl hbefore)
    rw [hbegins.eq_of_locked (h.happens e he) hlocked, if_pos (hall e he), (hmarket e he).1]

/-- On a market that has ended even the end of a submission leaves order entry closed. -/
theorem stays_closed_when_completed_late :
    let ended : Market := { Market.sample with endTime := 0 }
    let events := (start ended 0).rehearse (plainAnswer [])
      [.complete, .edit (.selectSide .yes), .begin, .confirm .sample]
    (∀ e ∈ events, e.after.phase = .closed) ∧
      ∀ e ∈ events, walletCalls e.exchanges = [] ∧ ¬e.Begins (.ok (.market .yes 1)) := by
  intro ended events
  obtain ⟨g, h⟩ := History.exists_rehearse (plainAnswer []) (start ended 0)
    [.complete, .edit (.selectSide .yes), .begin, .confirm .sample]
  obtain ⟨hiff, hquiet⟩ := closed_throughout_iff h rfl
  have hclosed : ∀ e ∈ events, e.after.phase = .closed :=
    hiff.2 fun _ _ _ now _ => decide_eq_true (Nat.zero_le _)
  refine ⟨hclosed, fun e he => ?_⟩
  obtain ⟨-, hwallet, hbegins⟩ := hquiet hclosed e he
  exact ⟨hwallet, fun h => nomatch hbegins _ h⟩

/-- The end of a submission before that of the market reopens closed order entry, and an order is
built. -/
theorem reopens_when_completed_early :
    let events := (start .sample 0).rehearse (plainAnswer [])
      [.edit (.refresh 4000000000000), .complete, .edit (.selectSide .yes),
        .edit (.setQuantity "1"), .begin]
    (∃ g, History (start .sample 0) events g) ∧
      events.map (fun e => e.after.phase) =
        [.closed, .idle, .sideSelected .yes, .sideSelected .yes, .submitting .yes] ∧
      ∃ e ∈ events, e.Begins (.ok (.market .yes 1)) := by
  intro events
  refine ⟨History.exists_rehearse _ _ _, by decide +kernel, ?_⟩
  refine ⟨_, List.getLast_mem (l := events) (by decide +kernel), .begin rfl ?_⟩
  decide +kernel

end Flow

end PredictionMarket
