import PredictionMarket.Proofs.Flow.History
import PredictionMarket.Proofs.Trade.Checks

/-!
# Confirming an order

A confirmation either starts no submission or goes through with one. In the first case nobody is
asked anything and the draft stays as typed. In the second one the form is cleared, whatever comes
of the order. An order for shares that costs more than a word holds is started and then refused as
typed, so its draft is lost.

## Main results

* `Flow.confirm_refused_or_submitted`: the two shapes of a confirmation.
* `Flow.input_error_keeps_flow_iff`: when an order that is refused as typed can be corrected.
* `Flow.unaffordable_quantity_is_cleared`: an order for which it can not.
-/

namespace PredictionMarket

open Trade

namespace Trader

variable {t : Trader} {m : Market} {request : OrderRequest} {known after : Store}
  {es : List Exchange}

/-- Once an order is built, it is refused as typed only for a cost that no word holds. -/
theorem cost_of_submit_eq_input {e : InputError}
    (h : (t.submit m request).Runs known es (.error (.input e)) after) :
    indexCalls es = [] ∧ walletCalls es = [] ∧ ∃ side quantity,
      request = .market side quantity ∧ 2 ^ 64 ≤ quantity.toNat * m.quote side := by
  obtain ⟨now, -, ⟨_, hcleared, ⟨⟩, -, hindex, hwallet⟩ | ⟨_, _, _, -, -, -, hpath⟩⟩ :=
    runs_submit h
  · refine ⟨hindex, hwallet, ?_⟩
    obtain he | he | ⟨side, quantity, hrequest, he | ⟨-, hcost⟩⟩ := cleared_eq_error hcleared
    · cases he
    · cases he
    · cases he
    · exact ⟨side, quantity, hrequest, hcost⟩
  -- Neither the index nor the wallet speaks of what was typed.
  obtain ⟨_, hfunded, ⟨⟩, -⟩ | ⟨_, _, _, -, -, hsettled⟩ := hpath
  · obtain ⟨_, he⟩ | he | ⟨_, he⟩ := funded_eq_error hfunded <;> cases he
  · obtain ⟨_, he⟩ | ⟨_, _, he⟩ := settle_eq_error hsettled.symm <;> cases he

end Trader

namespace Flow

variable {f g : Flow} {now : Int}

/-- A request that was begun was ready before it. -/
theorem ready_of_begin_eq_ok {request : OrderRequest} (h : (f.begin now).1 = .ok request) :
    f.ready = .ok request := by
  obtain ⟨side, hphase, -, hrequest, -⟩ := begin_eq_ok h
  simp [ready, hphase, hrequest]

/-- A refusal to begin is the one that the refreshed flow gives as its reason. -/
theorem ready_refresh_of_begin_eq_error {e : TradeError} (h : (f.begin now).1 = .error e) :
    (f.refresh now).ready = .error e := by
  unfold begin at h
  cases hready : (f.refresh now).ready with
  | ok request => simp [hready] at h
  | error e' => simpa [hready] using h

/-- What is refused as typed is refused before the clock closes order entry. -/
theorem begin_eq_input {e : InputError} (h : (f.begin now).1 = .error (.input e)) :
    f.ready = .error (.input e) ∧ (f.begin now).2 = f := by
  have hready := ready_refresh_of_begin_eq_error h
  have hafter := begin_eq_error h
  by_cases hended : f.market.isEndedAt now = true
  · rw [refresh, if_pos hended] at hready
    cases hready
  · rw [refresh, if_neg hended] at hready hafter
    exact ⟨hready, hafter⟩

/-- The end of a submission shows, since one is only started from a chosen side. -/
theorem complete_ne_of_begin_eq_ok {request : OrderRequest} (h : (f.begin now).1 = .ok request)
    (later : Int) : (f.begin now).2.complete later ≠ f := by
  intro heq
  obtain ⟨side, hphase, -⟩ := begin_eq_ok h
  rw [← heq, complete] at hphase
  dsimp only at hphase
  split at hphase <;> cases hphase

/-- Whatever the surroundings answer, a confirmation has one of two shapes. If no submission can be
started, its error is the outcome, nothing is asked but the time, and only the end of the market
changes order entry. Otherwise the order is submitted once, its outcome is that of the confirmation,
and the form is cleared in any case. -/
theorem confirm_refused_or_submitted (f : Flow) (trader : Trader) (known : Store)
    (answer : List Exchange → (q : Question) → q.Answer) :
    let run := ((f.confirm trader).run known).heldWith answer
    let es := run.1
    let outcome := run.2.1.1
    let g := run.2.1.2
    let after := run.2.2
    ∃ now : Instant,
      (∃ e, (f.begin now.toMillis).1 = .error e ∧ outcome = .error e ∧
        es = [Exchange.clock now] ∧ after = known ∧
        g = { f with phase := if f.market.isEndedAt now.toMillis then .closed else f.phase }) ∨
      ∃ request es' later, (f.begin now.toMillis).1 = .ok request ∧
        es = Exchange.clock now :: (es' ++ [Exchange.clock later]) ∧
        (trader.submit f.market request).Runs known es' outcome after ∧
        g = { f with
          draft := { f.draft with quantity := "", side := none }
          phase := if f.market.isEndedAt later.toMillis then .closed else .idle } := by
  intro run es outcome g after
  have hruns : (f.confirm trader).Runs known es (outcome, g) after := Dialogue.held_heldWith _ _
  obtain ⟨now, rest, hes, ⟨e, hbegin, rfl, houtcome, hg, hafter⟩ |
    ⟨request, es', later, hbegin, hsubmit, rfl, hg⟩⟩ := runs_confirm_iff.1 hruns
  · refine ⟨now, .inl ⟨e, hbegin, houtcome, hes, hafter, ?_⟩⟩
    rw [hg, begin_eq_error hbegin, refresh]
    split <;> rfl
  · refine ⟨now, .inr ⟨request, es', later, hbegin, hes, hsubmit, ?_⟩⟩
    obtain ⟨side, -, -, -, hstarted⟩ := begin_eq_ok hbegin
    rw [hg, hstarted]
    rfl

/-- If a confirmation is refused as typed, neither the index nor the wallet was asked. Order entry
is as it was before, exactly if the order is not one for shares at a cost that no word holds. -/
theorem input_error_keeps_flow_iff {trader : Trader} {known after : Store} {es : List Exchange}
    {e : InputError} (h : (f.confirm trader).Runs known es (.error (.input e), g) after) :
    indexCalls es = [] ∧ walletCalls es = [] ∧
      (g = f ↔ ∀ side quantity, f.ready = .ok (.market side quantity) →
        quantity.toNat * f.market.quote side < 2 ^ 64) := by
  obtain ⟨now, rest, rfl, ⟨_, hbegin, rfl, ⟨⟩, rfl, -⟩ |
    ⟨request, es', later, hbegin, hsubmit, rfl, rfl⟩⟩ := runs_confirm_iff.1 h
  · obtain ⟨hready, hafter⟩ := begin_eq_input hbegin
    refine ⟨rfl, rfl, fun _ side quantity hok => ?_, fun _ => hafter⟩
    rw [hready] at hok
    cases hok
  · obtain ⟨hindex, hwallet, side, quantity, rfl, hcost⟩ := Trader.cost_of_submit_eq_input hsubmit
    have hlast : ∀ e : Exchange, .clock now :: (es' ++ [e]) = [.clock now] ++ es' ++ [e] := by simp
    rw [hlast, indexCalls_append, indexCalls_append, walletCalls_append, walletCalls_append, hindex,
      hwallet]
    refine ⟨rfl, rfl, fun heq => ?_, fun hall => ?_⟩
    · exact absurd heq (complete_ne_of_begin_eq_ok hbegin _)
    · have hlt := hall side quantity (ready_of_begin_eq_ok hbegin)
      omega

/-- A part of a share is refused and stays as typed. -/
theorem fraction_of_share_stays_typed :
    let f : Flow := ⟨.sample, ⟨some .yes, .market, "2.5", ""⟩, .sideSelected .yes⟩
    let run := ((f.confirm .sample).run .empty).heldWith (plainAnswer [⟨"0xc0", 9000000000⟩])
    run.2.1.1 = .error (.input (.invalidQuantity "2.5")) ∧ walletCalls run.1 = [] ∧
      run.2.1.2 = f := by
  intro f run
  have houtcome : run.2.1.1 = .error (.input (.invalidQuantity "2.5")) := by decide +kernel
  have hready : f.ready = .error (.input (.invalidQuantity "2.5")) := by decide +kernel
  have hruns : ((f.confirm .sample).run .empty).Held run.1 run.2 := Dialogue.held_heldWith _ _
  clear_value run f
  obtain ⟨es, ⟨outcome, g⟩, after⟩ := run
  obtain rfl : outcome = _ := houtcome
  obtain ⟨-, hwallet, hkept⟩ := input_error_keeps_flow_iff hruns
  refine ⟨rfl, hwallet, hkept.2 fun side quantity hok => ?_⟩
  rw [hready] at hok
  cases hok

/-- As many shares as a word counts are refused as typed, and what was typed is gone. -/
theorem unaffordable_quantity_is_cleared :
    let events := (start .sample 0).rehearse (plainAnswer [⟨"0xc0", 9000000000⟩])
      [.edit (.selectSide .yes), .edit (.setQuantity "18446744073709551615"), .confirm .sample]
    (∃ g, History (start .sample 0) events g) ∧
      events.map (fun e => (e.after.phase, e.after.draft.side, e.after.draft.quantity)) =
        [(.sideSelected .yes, some .yes, ""),
          (.sideSelected .yes, some .yes, "18446744073709551615"), (.idle, none, "")] ∧
      ∃ e ∈ events, e.reply =
        .confirmed (.error (.input (.invalidQuantity "18446744073709551615"))) := by
  intro events
  refine ⟨History.exists_rehearse _ _ _, by decide +kernel, ?_⟩
  refine ⟨_, List.getLast_mem (l := events) (by decide +kernel), ?_⟩
  decide +kernel

end Flow

end PredictionMarket
