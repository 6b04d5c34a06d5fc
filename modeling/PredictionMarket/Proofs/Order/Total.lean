import PredictionMarket.Proofs.Number.Places
import PredictionMarket.Proofs.Order.Estimate

/-!
# When the total of an estimate is an amount

Quantity and price are checked to be finite. Their product is not, and past the greatest number the
total is a word.

## Main definitions

* `Draft.Overflows`: price and quantity are each finite and their product is not.

## Main results

* `Draft.total_isDecimal_iff`: the drafts whose total is an amount with four places.
-/

namespace PredictionMarket

open Binary64

theorem isDecimal_zero : IsDecimal 4 "0.0000" :=
  ⟨['0'], ['0', '0', '0', '0'], rfl, List.cons_ne_nil _ _, rfl, List.all_eq_true.1 rfl⟩

namespace Draft

/-- The product of price and quantity is past the greatest number by half of its last step or
more. -/
def Overflows (d : Draft) (m : Market) : Prop :=
  ∃ q, positive? d.quantity = some q ∧
    (2 ^ 54 - 1) * 2 ^ 970 ≤ (d.estimateFor m).price.value * q.value

variable (d : Draft) (m : Market)

/-- The price of an estimate is the one typed, the one of the market, or zero. -/
theorem isFinite_price :
    (d.estimateFor m).price.isFinite = true ∧ (d.estimateFor m).price.isNegative = false := by
  have hzero : Binary64.zero.isFinite = true ∧ Binary64.zero.isNegative = false := by decide
  unfold estimateFor estimate
  cases d.kind with
  | market =>
    dsimp only
    cases d.side with
    | none => exact hzero
    | some side =>
      rw [Option.bind_some]
      by_cases hquote : m.quote side = 0
      · rw [Market.decimalPrice?_of_quote_eq_zero hquote]
        exact hzero
      · obtain ⟨p, hprice, hnear⟩ := Market.near_decimalPrice? hquote
        rw [hprice]
        exact ⟨hnear.finite, hnear.nonneg⟩
  | limit =>
    dsimp only
    cases hprice : positive? d.limitPrice with
    | none => exact hzero
    | some p =>
      obtain ⟨hfinite, -, hnonneg⟩ := finite_and_positive_of_positive? hprice
      exact ⟨hfinite, hnonneg⟩

/-- The total is the product with four places, or zero where a factor is missing. -/
theorem total_eq :
    (d.estimateFor m).total =
      match positive? d.quantity with
      | some q =>
        if (d.estimateFor m).price.isPositive then
          ((d.estimateFor m).price * q).withPlaces 4
        else "0.0000"
      | none => "0.0000" := by
  rw [estimateFor]
  cases hread : positive? d.quantity <;> simp only [estimate, hread]

/-- A quantity is valid just if it is a number above zero. -/
theorem isQuantityValid_eq :
    (d.estimateFor m).isQuantityValid = (positive? d.quantity).isSome := by
  rw [Estimate.isQuantityValid, estimateFor, quantity_estimate]

/-- A price that is not above zero is zero. -/
theorem value_price_eq_zero (h : (d.estimateFor m).price.isPositive = false) :
    (d.estimateFor m).price.value = 0 := by
  obtain ⟨hfinite, hnonneg⟩ := d.isFinite_price m
  refine le_antisymm (le_of_not_gt fun hpos => ?_) (value_nonneg _)
  rw [(near_value hfinite hnonneg).isPositive hpos (by decide)] at h
  cases h

/-- Without a usable factor the total is zero, and nothing overflows. -/
theorem total_of_unusable (h : (d.estimateFor m).isQuantityValid = false ∨
    (d.estimateFor m).price.isPositive = false) :
    (d.estimateFor m).total = "0.0000" ∧ ¬d.Overflows m := by
  rw [total_eq]
  obtain hquantity | hprice := h
  · rw [isQuantityValid_eq, Option.isSome_eq_false_iff, Option.isNone_iff_eq_none] at hquantity
    rw [hquantity]
    exact ⟨rfl, fun ⟨q, hq, _⟩ => nomatch hquantity.symm.trans hq⟩
  · refine ⟨?_, ?_⟩
    · split
      · rw [hprice]
        rfl
      · rfl
    · rintro ⟨q, -, hle⟩
      rw [d.value_price_eq_zero m hprice, zero_mul] at hle
      exact absurd hle (by norm_num)

/-- What the total of a draft can be. -/
theorem total_cases :
    (IsDecimal 4 (d.estimateFor m).total ∧ ¬d.Overflows m) ∨
      ((d.estimateFor m).total = "inf" ∧ d.Overflows m) := by
  by_cases hunusable : (d.estimateFor m).isQuantityValid = false ∨
      (d.estimateFor m).price.isPositive = false
  · obtain ⟨htotal, hnot⟩ := d.total_of_unusable m hunusable
    rw [htotal]
    exact .inl ⟨isDecimal_zero, hnot⟩
  · obtain ⟨hvalid, hpositive⟩ := not_or.1 hunusable
    rw [Bool.not_eq_false] at hvalid hpositive
    rw [isQuantityValid_eq, Option.isSome_iff_exists] at hvalid
    obtain ⟨q, hq⟩ := hvalid
    obtain ⟨hfinite, hnonneg⟩ := d.isFinite_price m
    obtain ⟨hfinite', -, hnonneg'⟩ := finite_and_positive_of_positive? hq
    have htotal : (d.estimateFor m).total = ((d.estimateFor m).price * q).withPlaces 4 := by
      rw [total_eq, hq]
      exact if_pos hpositive
    have hoverflows : d.Overflows m ↔
        (2 ^ 54 - 1) * 2 ^ 970 ≤ (d.estimateFor m).price.value * q.value := by
      constructor
      · rintro ⟨_, hq', hle⟩
        cases hq.symm.trans hq'
        exact hle
      · exact fun hle => ⟨q, hq, hle⟩
    rw [htotal, hoverflows, not_le, ← not_lt]
    obtain ⟨hlt, hdecimal⟩ | ⟨hge, hinf⟩ :=
      withPlaces_mul four_pos hfinite hfinite' hnonneg hnonneg'
    · exact .inl ⟨hdecimal, hlt⟩
    · exact .inr ⟨hinf, hge⟩

/-- The total of a draft is an amount with four places exactly if the product of its price and its
quantity does not overflow, and else the word for infinity. It is zero if there is no quantity or no
price. -/
theorem total_isDecimal_iff :
    (IsDecimal 4 (d.estimateFor m).total ↔ ¬d.Overflows m) ∧
      (d.Overflows m → (d.estimateFor m).total = "inf") ∧
      ((d.estimateFor m).isQuantityValid = false ∨ (d.estimateFor m).price.isZero = true →
        (d.estimateFor m).total = "0.0000") := by
  refine ⟨?_, ?_, ?_⟩
  · obtain ⟨hdecimal, hnot⟩ | ⟨hinf, hoverflows⟩ := d.total_cases m
    · exact iff_of_true hdecimal hnot
    · rw [hinf]
      exact iff_of_false (not_isDecimal_inf 4) (not_not_intro hoverflows)
  · intro hoverflows
    obtain ⟨-, hnot⟩ | ⟨hinf, -⟩ := d.total_cases m
    · exact absurd hoverflows hnot
    · exact hinf
  · intro hunusable
    refine (d.total_of_unusable m (hunusable.imp_right fun hzero => ?_)).1
    have hmagnitude : (d.estimateFor m).price.magnitude = 0 := beq_iff_eq.1 hzero
    unfold isPositive
    rw [hmagnitude]
    simp

/-- The greatest number is a quantity, and twice of it is no number. -/
theorem total_of_greatest_doubled :
    ¬ ∀ (d : Draft) (m : Market), IsDecimal 4 (d.estimateFor m).total := by
  intro hdecimal
  let d : Draft := ⟨some .yes, .limit, "1.7976931348623157e308", "2"⟩
  have htotal : (d.estimateFor .sample).total = "inf" := by decide +kernel
  have hsample := hdecimal d .sample
  rw [htotal] at hsample
  exact not_isDecimal_inf 4 hsample

end Draft

end PredictionMarket
