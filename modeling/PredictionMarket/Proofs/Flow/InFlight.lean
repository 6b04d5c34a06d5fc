import PredictionMarket.Proofs.Flow.Locked

/-!
# One submission at a time

Once a submission is started, order entry is locked until one is ended, and so no second one can be
started in between.

## Main results

* `Flow.one_submission_in_flight`: what happens between the start of a submission and its end.
-/

namespace PredictionMarket

namespace Flow

open Trade

variable {f g : Flow}

/-- A submission that is started alone locks order entry and leaves the draft. -/
theorem Event.Happens.locks {e : Event} (he : e.Happens) {request : OrderRequest}
    (hbegun : e.Begins (.ok request)) (hnot : ¬e.Completes) :
    e.after.isOpen = false ∧ e.after.draft = e.before.draft := by
  obtain ⟨now, hrequest, hafter⟩ := hbegun.exists_now he
  obtain ⟨side, -, -, -, hbegin⟩ := begin_eq_ok hrequest.symm
  have hafter := hafter.resolve_right fun ⟨_, _, hcompletes⟩ => hnot hcompletes
  rw [hafter, hbegin]
  exact ⟨rfl, rfl⟩

/-- From the start of a submission until one is ended, the draft stays as it is, nothing can be
entered, and an attempt to start another submission is refused. So between the starts of two
submissions one is ended. -/
theorem one_submission_in_flight {past between later : List Event} {e x : Event}
    {request : OrderRequest} (h : History f (past ++ e :: (between ++ x :: later)) g)
    (hbegun : e.Begins (.ok request)) :
    (∀ other, x.Begins (.ok other) → ∃ y ∈ e :: between, y.Completes) ∧
      ((∀ y ∈ e :: between, ¬y.Completes) →
        x.before.draft = e.before.draft ∧ (¬x.Completes → x.after.draft = e.before.draft) ∧
        (∀ input, x.operation = .edit input → input.IsInput → x.reply = .accepted false) ∧
        ∀ outcome, x.Begins outcome → outcome =
          .error (if x.after.phase = .closed then .marketEnded f.market.address
            else .submissionInProgress)) := by
  obtain ⟨-, he, hrest⟩ := h.split
  obtain ⟨hbetween, hx, -⟩ := hrest.split
  have hmarket : x.before.market = f.market := (h.market_eq.2 x (by simp)).1
  -- The start locks order entry, and whatever does not end the submission keeps it locked.
  have hlocked : (∀ y ∈ e :: between, ¬y.Completes) →
      x.before.isOpen = false ∧ x.before.draft = e.before.draft := by
    intro hnone
    obtain ⟨hnot, hnone⟩ := List.forall_mem_cons.1 hnone
    refine (hbetween.preserves (P := fun y => ¬y.Completes)
      (I := fun y => y.isOpen = false ∧ y.draft = e.before.draft) ?_ hnone
      (he.locks hbegun hnot)).1
    rintro y hy hnot ⟨hopen, hdraft⟩
    obtain hsame | ⟨now, hclock⟩ := hy.of_locked hopen hnot
    · rw [hsame]
      exact ⟨hopen, hdraft⟩
    · rw [hclock, draft_refresh]
      exact ⟨isOpen_refresh_of_locked hopen now, hdraft⟩
  constructor
  · intro other hother
    by_cases hcompletes : ∃ y ∈ e :: between, y.Completes
    · exact hcompletes
    · obtain ⟨hopen, -⟩ := hlocked fun y hy hc => hcompletes ⟨y, hy, hc⟩
      cases hother.eq_of_locked hx hopen
  · intro hnone
    obtain ⟨hopen, hdraft⟩ := hlocked hnone
    refine ⟨hdraft, ?_, ?_, ?_⟩
    · intro hnot
      obtain hsame | ⟨now, hclock⟩ := hx.of_locked hopen hnot
      · rw [hsame, hdraft]
      · rw [hclock, draft_refresh, hdraft]
    · intro input hop hinput
      have hedit := hx.edit_eq hop
      rw [(edit_of_locked hopen input).1 hinput] at hedit
      exact (congrArg Prod.fst hedit).symm
    · intro outcome hbegins
      rw [hbegins.eq_of_locked hx hopen, hmarket]

/-- While an order for three shares is on its way, neither another quantity nor a confirmation gets
through. -/
theorem quantity_and_confirmation_refused_in_flight :
    let step := Event.rehearsed (plainAnswer [])
    let chosen := step (start .sample 0) (.edit (.selectSide .yes))
    let entered := step chosen.after (.edit (.setQuantity "3"))
    let begun := step entered.after .begin
    let edited := step begun.after (.edit (.setQuantity "4"))
    let confirmed := step edited.after (.confirm .sample)
    edited.reply = .accepted false ∧ confirmed.before.draft = entered.after.draft ∧
      ∀ outcome, confirmed.Begins outcome → outcome = .error .submissionInProgress := by
  intro step chosen entered begun edited confirmed
  obtain ⟨g, h⟩ := History.exists_rehearse (plainAnswer []) (start .sample 0)
    [.edit (.selectSide .yes), .edit (.setQuantity "3"), .begin, .edit (.setQuantity "4"),
      .confirm .sample]
  have hbegun : begun.Begins (.ok (.market .yes 3)) := .begin rfl (by decide +kernel)
  have hbegunAlone : ¬begun.Completes := by rintro (h | h) <;> cases h
  have heditedAlone : ¬edited.Completes := by rintro (h | h) <;> cases h
  have hedited := @one_submission_in_flight _ g [chosen, entered] [] [confirmed] begun edited _
    h hbegun
  have hconfirmed := @one_submission_in_flight _ g [chosen, entered] [edited] [] begun confirmed _
    h hbegun
  obtain ⟨-, -, hreply, -⟩ := hedited.2 (List.forall_mem_singleton.2 hbegunAlone)
  obtain ⟨hdraft, -, -, houtcome⟩ := hconfirmed.2
    (List.forall_mem_cons.2 ⟨hbegunAlone, List.forall_mem_singleton.2 heditedAlone⟩)
  refine ⟨hreply _ rfl trivial, hdraft, fun outcome hbegins => ?_⟩
  have hphase : confirmed.after.phase ≠ .closed := by decide +kernel
  rw [houtcome outcome hbegins, if_neg hphase]

end Flow

end PredictionMarket
