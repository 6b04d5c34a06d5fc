import PredictionMarket.Proofs.Order.Estimate
import PredictionMarket.Proofs.Trade.Liquidity

/-!
# What an order is paid with

What is taken from the coins for an order is compared with its value, which is what the estimate
shows. They are the same for shares at the current price. For an order at a limit the amount is
taken as it is, whatever the price.

## Main results

* `Trader.submit_takes_value_iff`: what is taken for an order, and when that is its value.
* `Trader.limit_order_takes_twice_its_total`: an order for which it is not.
-/

namespace PredictionMarket

open Trade

/-- Paying for an order takes its cost off the coins. -/
theorem Funds.spent_spend (f : Funds) (p : Packages) (owner market : String)
    {request : OrderRequest} {cost : UInt64} (hcost : request.Takes cost) (salt : UInt64) :
    (f.transaction (request.spend p owner market cost salt)).spent = cost.toNat := by
  have hcall : ∀ coin, (request.call p owner market salt coin).spent = 0 := by
    intro coin
    cases request with
    | market side quantity => cases side <;> rfl
    | limit side amount price => rfl
  have hsplit : (Command.split f.primary [.u64 cost]).spent = cost.toNat := rfl
  rw [Transaction.spent, f.commands_spend p owner market hcost, List.map_append,
    List.sum_append_nat, f.spent_merges, List.map_cons, List.map_cons, List.map_nil, List.sum_cons,
    List.sum_cons, List.sum_nil, hcall, hsplit]
  omega

namespace Trader

variable {t : Trader} {m : Market} {request : OrderRequest} {known after : Store}
  {es : List Exchange} {outcome : Except TradeError Effects}

/-- The need that an order is refused for is what it takes. -/
theorem need_of_submit {need available : UInt64}
    (h : (t.submit m request).Runs known es (.error (.insufficientFunds need available)) after) :
    need.toNat = request.worth m := by
  obtain ⟨now, -, ⟨_, hcleared, ⟨⟩, -⟩ | ⟨owner, cost, reply, hcleared, -, -, hpath⟩⟩ :=
    runs_submit h
  · obtain he | he | ⟨_, _, -, he | ⟨he, -⟩⟩ := cleared_eq_error hcleared <;> cases he
  obtain ⟨_, hfunded, ⟨⟩, -⟩ | ⟨_, _, effects, -, -, hsettled⟩ := hpath
  · obtain ⟨_, he⟩ | he | ⟨_, he⟩ := funded_eq_error hfunded <;> cases he
    exact (cleared_eq_ok hcleared).2
  · obtain ⟨_, he⟩ | ⟨_, _, he⟩ := settle_eq_error hsettled.symm <;> cases he

/-- A submission that reaches the wallet spends the worth of the order, which fits a word. -/
theorem spent_of_submit (h : (t.submit m request).Runs known es outcome after) :
    ∀ call ∈ walletCalls es, call.1.spent = request.worth m ∧ request.worth m < 2 ^ 64 := by
  rintro ⟨tx, effects⟩ hcall
  obtain ⟨now, owner, cost, holdings, funds, salt, hcleared, -, -, rfl⟩ := handed_of_submit h hcall
  obtain ⟨-, hcost⟩ := cleared_eq_ok hcleared
  have htakes := OrderRequest.takes_of_toNat_eq_worth m hcost
  refine ⟨?_, hcost ▸ cost.toNat_lt⟩
  rw [← hcost]
  exact funds.spent_spend _ _ _ htakes salt

end Trader

/-- What is taken for an order is its value if it is for shares at the current price, or if the
price is so close to one that the amount makes no difference. -/
theorem OrderRequest.worth_near_value_iff (m : Market) (request : OrderRequest) :
    |(request.worth m : ℚ) - request.value m| < 1 ↔
      ∀ side amount price, request = .limit side amount price →
        (amount.toNat : ℚ) * |(price.toNat : ℚ) - 10 ^ 9| < 10 ^ 9 := by
  cases request with
  | market side quantity =>
    have hvalue : ((worth m (.market side quantity) : ℕ) : ℚ) = value m (.market side quantity) :=
      Nat.cast_mul _ _
    rw [hvalue, sub_self, abs_zero]
    exact ⟨fun _ => nofun, fun _ => one_pos⟩
  | limit side amount price =>
    have hdistance : ((worth m (.limit side amount price) : ℕ) : ℚ) -
        value m (.limit side amount price) =
          -(amount.toNat * ((price.toNat : ℚ) - 10 ^ 9) / 10 ^ 9) := by
      unfold worth value
      ring
    have hunits : |(10 : ℚ) ^ 9| = 10 ^ 9 := abs_of_pos (by norm_num)
    rw [hdistance, abs_neg, abs_div, abs_mul, Nat.abs_cast, hunits, div_lt_one (by norm_num)]
    constructor
    · rintro hlt _ _ _ ⟨⟩
      exact hlt
    · exact fun hall => hall side amount price rfl

namespace Trader

variable {t : Trader} {m : Market} {request : OrderRequest} {known after : Store}
  {es : List Exchange} {outcome : Except TradeError Effects}

/-- The total of a draft shows the value of its order, price times quantity. What is checked and
taken for it is that value exactly if it is an order for shares at the current price, or one at a
limit so close to one that the amount makes no difference. -/
theorem submit_takes_value_iff (h : (t.submit m request).Runs known es outcome after) :
    (∀ need available, outcome = .error (.insufficientFunds need available) →
      need.toNat = request.worth m) ∧
    ∀ call ∈ walletCalls es,
      call.1.spent = request.worth m ∧
      (|(call.1.spent : ℚ) - request.value m| < 1 ↔
        ∀ side amount price, request = .limit side amount price →
          (amount.toNat : ℚ) * |(price.toNat : ℚ) - 10 ^ 9| < 10 ^ 9) ∧
      ∀ d : Draft, d.request = .ok request →
        ∃ units : ℕ, (d.estimateFor m).total = String.ofList (placesText 4 units) ∧
          |(units : ℚ) * 10 ^ 5 - request.value m| ≤ request.tolerance := by
  refine ⟨fun need available hshort => need_of_submit (hshort ▸ h), fun call hcall => ?_⟩
  obtain ⟨hspent, hlt⟩ := spent_of_submit h call hcall
  refine ⟨hspent, ?_, fun d hrequest => Draft.total_near_value hrequest hlt⟩
  rw [hspent]
  exact request.worth_near_value_iff m

/-- Five shares at sixty cents. -/
theorem shares_take_their_total :
    let order : OrderRequest := .market .yes 5
    let d : Draft := ⟨some .yes, .market, "5", ""⟩
    ∃ call ∈ walletCalls (((sample.submit .sample order).run .empty).heldWith
        (plainAnswer [⟨"0xc0", 9000000000⟩])).1,
      call.1.spent = 3000000000 ∧ |(call.1.spent : ℚ) - order.value .sample| < 1 ∧
      ∃ units : ℕ, (d.estimateFor .sample).total = String.ofList (placesText 4 units) ∧
        |(units : ℚ) * 10 ^ 5 - order.value .sample| ≤ 60000 := by
  intro order d
  have hruns := Dialogue.held_heldWith (plainAnswer [⟨"0xc0", 9000000000⟩])
    ((sample.submit .sample order).run .empty)
  obtain ⟨-, hcalls⟩ := submit_takes_value_iff hruns
  have hone : (walletCalls (((sample.submit .sample order).run .empty).heldWith
      (plainAnswer [⟨"0xc0", 9000000000⟩])).1).length = 1 := by decide +kernel
  obtain ⟨call, hcall⟩ := List.exists_mem_of_length_pos (by rw [hone]; exact Nat.one_pos)
  obtain ⟨hspent, hvalue, htotal⟩ := hcalls call hcall
  have hclose := hvalue.2 fun side amount price horder => absurd horder (by simp [order])
  exact ⟨call, hcall, hspent, hclose, htotal d (by decide +kernel)⟩

/-- Two shares at fifty cents are shown as one dollar, and two dollars are taken. -/
theorem limit_order_takes_twice_its_total :
    let order : OrderRequest := .limit .yes 2000000000 500000000
    let d : Draft := ⟨some .yes, .limit, "2", "0.5"⟩
    d.request = .ok order ∧ (d.estimateFor .sample).total = "1.0000" ∧
      order.value .sample = 1000000000 ∧
      ∃ call ∈ walletCalls (((sample.submit .sample order).run .empty).heldWith
          (plainAnswer [⟨"0xc0", 9000000000⟩])).1,
        call.1.spent = 2000000000 := by
  intro order d
  have hruns := Dialogue.held_heldWith (plainAnswer [⟨"0xc0", 9000000000⟩])
    ((sample.submit .sample order).run .empty)
  have hone : (walletCalls (((sample.submit .sample order).run .empty).heldWith
      (plainAnswer [⟨"0xc0", 9000000000⟩])).1).length = 1 := by decide +kernel
  obtain ⟨call, hcall⟩ := List.exists_mem_of_length_pos (by rw [hone]; exact Nat.one_pos)
  obtain ⟨hspent, -⟩ := spent_of_submit hruns call hcall
  refine ⟨by decide +kernel, by decide +kernel, ?_, call, hcall, hspent⟩
  change (2000000000 : ℚ) * 500000000 / 10 ^ 9 = _
  norm_num

end Trader

end PredictionMarket
