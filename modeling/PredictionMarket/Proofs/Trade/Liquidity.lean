import PredictionMarket.Proofs.Trade.Checks
import PredictionMarket.Proofs.Transaction.Commands

/-!
# What adding liquidity takes

What a transaction takes from its coins is compared with what the coins are worth. Both the need and
the worth are counted in words that stop at the greatest one, so the check can pass although the
coins do not do.

## Main definitions

* `Transaction.spent`: what a transaction splits off coins.
* `Liquidity.worth`: what adding liquidity takes, over unbounded numbers.

## Main results

* `Trader.addLiquidity_covered_iff`: when the coins always do.
-/

namespace PredictionMarket

/-- The amount of a constant. -/
def Argument.amount : Argument → Nat
  | constant (.u64 n) => n.toNat
  | _ => 0

/-- What a command splits off a coin. -/
def Command.spent : Command → Nat
  | split _ amounts => (amounts.map Argument.amount).sum
  | _ => 0

/-- What a transaction splits off coins. -/
def Transaction.spent (tx : Transaction) : Nat :=
  (tx.commands.map Command.spent).sum

namespace Liquidity

/-- What adding liquidity takes, over unbounded numbers. -/
def worth (l : Liquidity) : Nat :=
  l.lpAmount.toNat + 2 * l.seedAmount.toNat

/-- The need is capped twice, which is as good as once. -/
theorem toNat_cost (l : Liquidity) : l.cost.toNat = min l.worth Fixed.maximum := by
  have htwo : (2 : UInt64).toNat = 2 := rfl
  rw [cost, Fixed.toNat_add, Fixed.toNat_mul, worth, htwo]
  omega

end Liquidity

namespace Funds

variable (f : Funds)

/-- Merging coins takes nothing off them. -/
theorem spent_merges : (f.merges.map Command.spent).sum = 0 := by
  unfold merges
  cases f.others.isEmpty <;> rfl

/-- Adding liquidity spends what it is worth, over both its orders. -/
theorem spent_addLiquidity (p : Packages) (owner market : String) (l : Liquidity)
    (yesSalt noSalt : UInt64) :
    (f.transaction (Assembly.addLiquidity p owner market l yesSalt noSalt)).spent = l.worth := by
  have hcommands : ((l.commands p owner market yesSalt noSalt f.primary f.merges.length).map
      Command.spent).sum = l.lpAmount.toNat + (l.seedAmount.toNat + (l.seedAmount.toNat + 0)) := rfl
  rw [Transaction.spent, commands_addLiquidity, List.map_append, List.sum_append_nat, spent_merges,
    hcommands, Liquidity.worth]
  omega

end Funds

namespace Trader

open Trade

/-- The coins that the index lists cover what adding liquidity takes from them, in all runs, exactly
if no account with an address is connected, or the coins are worth less than the greatest word, or
they do cover it. -/
theorem addLiquidity_covered_iff (t : Trader) (m : Market) (holdings : Holdings) :
    (∀ known es outcome after owner, (t.addLiquidity m).Runs known es outcome after →
        (owner, .ok holdings) ∈ indexCalls es →
        ∀ call ∈ walletCalls es, call.1.spent ≤ Holdings.sum holdings.coins) ↔
      (∀ owner, t.account = some owner → ¬IsHexAddress owner) ∨
        Holdings.sum holdings.coins < 2 ^ 64 - 1 ∨
        t.liquidity.worth ≤ Holdings.sum holdings.coins := by
  have hneed := t.liquidity.toNat_cost
  have hmaximum : Fixed.maximum = 2 ^ 64 - 1 := rfl
  constructor
  · intro hcovered
    by_cases hshort : Holdings.sum holdings.coins < 2 ^ 64 - 1
    · exact .inr (.inl hshort)
    by_cases hcover : t.liquidity.worth ≤ Holdings.sum holdings.coins
    · exact .inr (.inr hcover)
    -- Need and worth are both counted as the greatest word here, so nothing is refused.
    refine .inl fun owner haccount haddress => ?_
    have howner : t.owner = .ok owner := by
      refine t.owner_eq_ok_iff.2 ⟨haccount, ?_⟩
      rintro rfl
      exact absurd haddress (by decide)
    have hcoins : holdings.coins ≠ [] := by
      intro hnil
      rw [hnil] at hshort
      exact hshort (by decide)
    have hle : t.liquidity.cost.toNat ≤ Holdings.sum holdings.coins := by omega
    obtain ⟨funds, hfunds⟩ := Funds.exists_ofHoldings haddress hcoins hle
    obtain ⟨es, hruns, hindex, hwallet⟩ :=
      exists_runs_addLiquidity m .empty howner hfunds 0 0 (.error "")
    have hspent := hcovered _ es _ _ owner hruns (hindex ▸ List.mem_singleton_self _) _
      (hwallet ▸ List.mem_singleton_self _)
    rw [funds.spent_addLiquidity] at hspent
    exact hcover hspent
  · rintro hcondition known es outcome after asked hruns hasked ⟨tx, effects⟩ hcall
    obtain ⟨owner, listed, funds, yes, no, howner, hindex, hfunds, rfl⟩ :=
      handed_of_addLiquidity hruns hcall
    rw [hindex] at hasked
    cases List.mem_singleton.1 hasked
    change (funds.transaction _).spent ≤ _
    rw [funds.spent_addLiquidity]
    obtain ⟨primary, others, -, hle, rfl, -, -⟩ := Funds.ofHoldings_eq_ok_iff.1 hfunds
    obtain hnone | hrest := hcondition
    · exact absurd funds.sender.isHexAddress (hnone _ (t.owner_eq_ok_iff.1 howner).1)
    · omega

/-- A coin of the greatest word is spent one and a half times. -/
theorem addLiquidity_overspends :
    let t : Trader :=
      { Trader.sample with liquidity := ⟨9223372036854775807, 9223372036854775807, 1⟩ }
    let coins : List Coin := [⟨"0xc0", 18446744073709551615⟩]
    ∃ es outcome after, (t.addLiquidity .sample).Runs .empty es outcome after ∧
      ("0xa11ce", .ok ⟨"0xa11ce", coins⟩) ∈ indexCalls es ∧
      ∃ call ∈ walletCalls es, Holdings.sum coins < call.1.spent := by
  intro t coins
  obtain ⟨funds, hfunds⟩ : ∃ funds,
      Funds.ofHoldings "0xa11ce" ⟨"0xa11ce", coins⟩ t.liquidity.cost = .ok funds :=
    Funds.exists_ofHoldings (by decide) (by decide) (by decide)
  obtain ⟨es, hruns, hindex, hwallet⟩ :=
    exists_runs_addLiquidity .sample .empty rfl hfunds 0 0 (.ok ⟨"0xd1", true, none⟩)
  refine ⟨es, _, _, hruns, hindex ▸ List.mem_singleton_self _, _,
    hwallet ▸ List.mem_singleton_self _, ?_⟩
  rw [funds.spent_addLiquidity]
  decide

end Trader

end PredictionMarket
