import PredictionMarket.Proofs.Trade.Checks
import PredictionMarket.Proofs.Transaction.Commands

/-!
# Submitting orders

What is handed to the wallet for an order, and when nothing is.

## Main definitions

* `Trade.Reported`: the outcomes of the wallet's replies.

## Main results

* `Trader.submit_pays_once`: the wallet is asked at most once, with all coins merged, the exact cost
  split off, and one call.
* `Trader.submit_stops_at_first_failure`: an order is refused with the error of the first check that
  fails, and goes to the wallet if none does.
-/

namespace PredictionMarket

namespace Trade

/-- The outcomes of the wallet's replies. -/
inductive Reported : Except String Effects → Except TradeError Effects → Prop where
  | refused (cause : String) : Reported (.error cause) (.error (.remote cause))
  | executed {e : Effects} (h : e.success = true) : Reported (.ok e) (.ok e)
  | failed {e : Effects} (h : e.success = false) :
    Reported (.ok e) (.error (.rejected e.digest (e.error.getD "unknown failure")))

/-- A reply of the wallet is reported by what it settles to. -/
theorem reported_settle (reply : Except String Effects) : Reported reply (settle reply) := by
  cases reply with
  | error cause => exact .refused cause
  | ok e =>
    cases h : e.success with
    | false =>
      rw [settle, if_neg (by rw [h]; decide)]
      exact .failed h
    | true =>
      rw [settle, if_pos h]
      exact .executed h

end Trade

namespace Trader

open Trade

variable {t : Trader} {m : Market} {request : OrderRequest} {known after : Store}
  {es : List Exchange} {outcome : Except TradeError Effects}

/-- A submission calls the wallet once or never. -/
theorem length_walletCalls_submit_le (h : (t.submit m request).Runs known es outcome after) :
    (walletCalls es).length ≤ 1 := by
  obtain ⟨now, -, hpath⟩ := runs_submit h
  obtain ⟨e, -, -, -, -, hnone⟩ | ⟨owner, cost, reply, -, -, -, hpath⟩ := hpath
  · rw [hnone]
    exact Nat.zero_le 1
  obtain ⟨e, -, -, hnone⟩ | ⟨funds, salt, effects, -, hone, -⟩ := hpath
  · rw [hnone]
    exact Nat.zero_le 1
  · rw [hone]
    exact Nat.le_refl 1

/-- The wallet is asked at most once. The transaction is sent by the connected account. It merges
all coins into the most valuable one, splits the exact cost off that one and pays for a single call
with what was split off. -/
theorem submit_pays_once (h : (t.submit m request).Runs known es outcome after) :
    (walletCalls es).length ≤ 1 ∧
      ∀ call ∈ walletCalls es, ∃ holdings primary others cost salt,
        indexCalls es = [(call.1.sender, .ok holdings)] ∧
        t.account = some call.1.sender ∧ IsHexAddress call.1.sender ∧
        Holdings.Descending holdings.coins (primary :: others) ∧
        cost.toNat = request.worth m ∧
        call.1.commands =
          (if 2 ≤ holdings.coins.length then
            [.merge (.object primary.id) (others.map fun c => .object c.id)] else []) ++
          [.split (.object primary.id) [.u64 cost],
            request.call t.packages call.1.sender m.address salt
              (.result (if 2 ≤ holdings.coins.length then 1 else 0) 0)] := by
  refine ⟨length_walletCalls_submit_le h, ?_⟩
  rintro ⟨tx, effects⟩ hcall
  obtain ⟨now, owner, cost, holdings, funds, salt, hcleared, hindex, hfunds, rfl⟩ :=
    handed_of_submit h hcall
  obtain ⟨primary, others, hcoins, -, rfl, hprimary, hothers⟩ := Funds.ofHoldings_eq_ok_iff.1 hfunds
  obtain ⟨haccount, hcost⟩ := cleared_eq_ok hcleared
  have hdescending := holdings.descending_fundingCoins
  rw [hcoins] at hdescending
  have hlength : holdings.coins.length = others.length + 1 := hdescending.perm.length_eq.symm
  refine ⟨holdings, primary, others, cost, salt, hindex, haccount, funds.sender.isHexAddress,
    hdescending, hcost, ?_⟩
  change (funds.transaction _).commands = _
  rw [funds.commands_spend _ _ _ (OrderRequest.takes_of_toNat_eq_worth m hcost), Funds.merges,
    hprimary, hothers, hlength]
  -- The handle of the split is counted from the merge, which is there if there are other coins.
  cases others with
  | nil => rfl
  | cons c rest => rfl

/-- Five shares at sixty cents, paid with two coins. -/
theorem submit_pays_once_with_two_coins :
    ∃ call ∈ walletCalls (((sample.submit .sample (.market .yes 5)).run .empty).heldWith
        (plainAnswer [⟨"0xc0", 3⟩, ⟨"0xc1", 9000000000⟩])).1,
      sample.account = some call.1.sender ∧ ∃ primary cost, cost.toNat = 3000000000 ∧
        Command.split primary [.u64 cost] ∈ call.1.commands := by
  have hruns := Dialogue.held_heldWith (plainAnswer [⟨"0xc0", 3⟩, ⟨"0xc1", 9000000000⟩])
    ((sample.submit .sample (.market .yes 5)).run .empty)
  obtain ⟨-, hcalls⟩ := submit_pays_once hruns
  have hanswer := @Dialogue.eq_answer_of_mem_heldWith _ _ _
    (plainAnswer [⟨"0xc0", 3⟩, ⟨"0xc1", 9000000000⟩])
    ((sample.submit .sample (.market .yes 5)).run .empty)
  have hhanded := walletCalls_submit_ne_nil hruns fun now hnow => by
    obtain ⟨-, rfl : now = early⟩ := hanswer hnow
    refine ⟨"0xa11ce", 3000000000, rfl, fun reply hreply => ?_⟩
    obtain ⟨-, rfl : reply = .ok ⟨"0xa11ce", [⟨"0xc0", 3⟩, ⟨"0xc1", 9000000000⟩]⟩⟩ :=
      hanswer hreply
    exact Funds.exists_ofHoldings (by decide) (by decide) (by decide)
  obtain ⟨call, hcall⟩ := List.exists_mem_of_ne_nil _ hhanded
  obtain ⟨_, primary, _, cost, _, -, haccount, -, -, hcost, hcommands⟩ := hcalls call hcall
  refine ⟨call, hcall, haccount, .object primary.id, cost, hcost, ?_⟩
  rw [hcommands]
  exact List.mem_append_right _ List.mem_cons_self

/-- Whatever the surroundings answer, an order is refused with the error of the first check that
fails. The index is asked once if the checks before it pass, and never otherwise; what it lists is
known then and nothing else changes. The wallet is asked once if all checks pass, and never
otherwise. -/
theorem submit_stops_at_first_failure (t : Trader) (m : Market) (request : OrderRequest)
    (known : Store) (answer : List Exchange → (q : Question) → q.Answer)
    (hindex : ∀ past owner h, answer past (.holdings owner) = .ok h → h.owner = owner) :
    let run := ((t.submit m request).run known).heldWith answer
    let es := run.1
    let outcome := run.2.1
    let after := run.2.2
    ∃ now, es.head? = some (Exchange.clock now) ∧
      match firstFailure (t.ownChecks m request now) with
      | some e => outcome = .error e ∧ indexCalls es = [] ∧ walletCalls es = [] ∧ after = known
      | none => ∃ owner reply, t.account = some owner ∧ indexCalls es = [(owner, reply)] ∧
          after.entries = known.entries ∧
          (∀ other, after.holdings? other =
            if other = owner then reply.toOption.or (known.holdings? owner)
            else known.holdings? other) ∧
          match firstFailure (fundChecks owner (request.worth m) reply) with
          | some e => outcome = .error e ∧ walletCalls es = []
          | none => ∃ tx effects, walletCalls es = [(tx, effects)] ∧ Reported effects outcome := by
  intro run es outcome after
  have hruns : (t.submit m request).Runs known es outcome after := Dialogue.held_heldWith _ _
  obtain ⟨now, hhead, hpath⟩ := runs_submit hruns
  refine ⟨now, hhead, ?_⟩
  rw [firstFailure_ownChecks]
  obtain ⟨e, hcleared, houtcome, hafter, hnoIndex, hnoWallet⟩ |
    ⟨owner, cost, reply, hcleared, hasked, hafter, hpath⟩ := hpath
  · rw [hcleared]
    exact ⟨houtcome, hnoIndex, hnoWallet, hafter⟩
  rw [hcleared]
  obtain ⟨haccount, hcost⟩ := cleared_eq_ok hcleared
  refine ⟨owner, reply, haccount, hasked, ?_, ?_, ?_⟩
  · rw [hafter]
    cases reply <;> rfl
  · intro other
    rw [hafter]
    cases hreply : reply with
    | error cause =>
      change known.holdings? other = if other = owner then known.holdings? owner else _
      by_cases howner : other = owner
      · rw [if_pos howner, howner]
      · rw [if_neg howner]
    | ok h =>
      -- What the index lists is kept for the owner that it names, the one it was asked for.
      have hmem : Exchange.index owner reply ∈ es :=
        mem_indexCalls_iff.1 (hasked ▸ List.mem_singleton_self _)
      obtain ⟨past, hpast⟩ := Dialogue.eq_answer_of_mem_heldWith hmem
      obtain rfl := hindex past owner h (hpast.symm.trans hreply)
      exact known.holdings?_setHoldings h other
  · rw [← hcost, firstFailure_fundChecks]
    obtain ⟨e, hfunded, houtcome, hnone⟩ | ⟨funds, salt, effects, hfunded, hone, houtcome⟩ := hpath
    · rw [hfunded]
      exact ⟨houtcome, hnone⟩
    · rw [hfunded]
      exact ⟨_, effects, hone, houtcome ▸ reported_settle effects⟩

/-- With coins enough an order goes to the wallet. -/
theorem submit_hands_over_if_no_check_fails :
    let run := ((sample.submit .sample (.market .yes 5)).run .empty).heldWith
      (plainAnswer [⟨"0xc0", 3⟩, ⟨"0xc1", 9000000000⟩])
    ∃ tx effects, walletCalls run.1 = [(tx, effects)] ∧ Reported effects run.2.1 := by
  intro run
  have howner : ∀ past owner h, plainAnswer [⟨"0xc0", 3⟩, ⟨"0xc1", 9000000000⟩] past
      (.holdings owner) = (.ok h : Except String Holdings) → h.owner = owner := by
    rintro past owner h ⟨⟩
    rfl
  obtain ⟨now, hnow, h⟩ := submit_stops_at_first_failure sample .sample (.market .yes 5) .empty
    (plainAnswer [⟨"0xc0", 3⟩, ⟨"0xc1", 9000000000⟩]) howner
  cases (hnow : some (Exchange.clock early) = _)
  obtain ⟨owner, reply, haccount, hasked, -, -, h⟩ := h
  obtain rfl : "0xa11ce" = owner := Option.some.inj haccount
  obtain ⟨-, rfl : reply = .ok ⟨"0xa11ce", [⟨"0xc0", 3⟩, ⟨"0xc1", 9000000000⟩]⟩⟩ :=
    Dialogue.eq_answer_of_mem_heldWith
      (mem_indexCalls_iff.1 (hasked ▸ List.mem_singleton_self _))
  exact h

end Trader

end PredictionMarket
