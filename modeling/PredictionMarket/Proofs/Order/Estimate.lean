import PredictionMarket.Proofs.Number.Accuracy
import PredictionMarket.Proofs.Number.Digits
import PredictionMarket.Proofs.Order.Request
import PredictionMarket.Proofs.Trade.Checks

/-!
# The total of an estimate

The total is computed with binary numbers and shown with four places. It is compared with the
product of price and quantity.

## Main definitions

* `OrderRequest.value`: price times quantity of an order.
* `OrderRequest.tolerance`: how far a total may be from that.

## Main results

* `Draft.total_near_value`: the total of a draft shows the value of its order.
-/

namespace PredictionMarket

open Binary64

/-- Whole shares are read as the binary number nearest to them. -/
theorem positive?_of_wholeShares? {s : String} {q : UInt64} (h : wholeShares? s = some q) :
    positive? s = some (.ofNat q.toNat) ∧ 0 < q.toNat := by
  obtain ⟨hread, hpos⟩ := Option.filter_eq_some_iff.1 h
  have hq : 0 < q.toNat := UInt64.lt_iff_toNat_lt.1 (of_decide_eq_true hpos)
  have hnear := near_ofNat hq q.toNat_lt
  have hpositive := hnear.isPositive (by exact_mod_cast hq) (by decide)
  refine ⟨Option.filter_eq_some_iff.2 ⟨Literal.binary64?_of_word? hread, ?_⟩, hq⟩
  rw [hnear.finite, hpositive]
  rfl

/-- What is accepted as a number is finite and above zero. -/
theorem finite_and_positive_of_positive? {s : String} {x : Binary64} (h : positive? s = some x) :
    x.isFinite = true ∧ x.isPositive = true ∧ x.isNegative = false := by
  obtain ⟨-, hvalid⟩ := Option.filter_eq_some_iff.1 h
  obtain ⟨hfinite, hpositive⟩ := Bool.and_eq_true_iff.1 hvalid
  refine ⟨hfinite, hpositive, ?_⟩
  unfold isPositive at hpositive
  simp only [Bool.and_eq_true, Bool.not_eq_true'] at hpositive
  exact hpositive.1.1

/-- What is typed for an order at a limit, as a number and as a word. -/
theorem counts_of_positive? {s : String} {raw : UInt64}
    (h : (positive? s).bind Fixed.ofBinary64? = some raw) :
    ∃ x, positive? s = some x ∧ x.isPositive = true ∧ Fixed.Counts raw x := by
  obtain ⟨x, hx, hraw⟩ := Option.bind_eq_some_iff.1 h
  obtain ⟨hfinite, hpositive, hnonneg⟩ := finite_and_positive_of_positive? hx
  exact ⟨x, hx, hpositive, Fixed.counts_of_ofBinary64?_eq_some hfinite hnonneg hraw⟩

/-- The price of a side as a number. -/
theorem Market.near_decimalPrice? {m : Market} {side : Side} (h : m.quote side ≠ 0) :
    ∃ p, m.decimalPrice? side = some p ∧ Near 2 ((m.quote side : ℚ) / 10 ^ 9) p := by
  refine ⟨Fixed.toBinary64 (.ofNat (m.quote side)), ?_, ?_⟩
  · rw [decimalPrice?, m.price?_eq, if_neg h, Option.map_some]
  · have hword := UInt64.toNat_ofNat_of_lt' (m.quote_lt side)
    have hpos : 0 < (UInt64.ofNat (m.quote side)).toNat := by
      rw [hword]
      exact Nat.pos_of_ne_zero h
    have hnear := Fixed.near_toBinary64 hpos
    rwa [hword] at hnear

/-- Without a quote there is no price to show. -/
theorem Market.decimalPrice?_of_quote_eq_zero {m : Market} {side : Side} (h : m.quote side = 0) :
    m.decimalPrice? side = none := by
  rw [decimalPrice?, m.price?_eq, if_pos h, Option.map_none]

/-- The price of whole shares, if there is one and a word holds it. -/
theorem Market.near_mul_quantity {m : Market} {side : Side} {q : ℕ} (hquote : m.quote side ≠ 0)
    (hq : 0 < q) (hlt : q * m.quote side < 2 ^ 64) :
    ∃ p, m.decimalPrice? side = some p ∧ p.isPositive = true ∧
      Near 4 ((q * m.quote side : ℚ) / 10 ^ 9) (p * ofNat q) := by
  obtain ⟨p, hprice, hp⟩ := Market.near_decimalPrice? hquote
  have hquotePos : (0 : ℚ) < m.quote side := by exact_mod_cast Nat.pos_of_ne_zero hquote
  have hworth : (1 : ℚ) ≤ q * m.quote side := by
    exact_mod_cast Nat.mul_pos hq (Nat.pos_of_ne_zero hquote)
  have hworth' : (q * m.quote side : ℚ) < 2 ^ 64 := by exact_mod_cast hlt
  have hqlt : q < 2 ^ 64 :=
    Nat.lt_of_le_of_lt (Nat.le_mul_of_pos_right q (Nat.pos_of_ne_zero hquote)) hlt
  have hscaled : (m.quote side : ℚ) / 10 ^ 9 * q = q * m.quote side / 10 ^ 9 := by ring
  have hmoderate : IsModerate ((q * m.quote side : ℚ) / 10 ^ 9) := by
    constructor
    · rw [le_div_iff₀ (by norm_num)]
      exact le_trans (by norm_num) hworth
    · rw [div_le_iff₀ (by norm_num)]
      exact hworth'.le.trans (by norm_num)
  refine ⟨p, hprice, hp.isPositive (div_pos hquotePos (by norm_num)) (by decide), ?_⟩
  rw [← hscaled] at hmoderate ⊢
  exact hp.mul (near_ofNat hq hqlt) (by positivity) (by positivity) (by decide) hmoderate

/-- Price times quantity of an order, in billionths. -/
def OrderRequest.value (m : Market) : OrderRequest → ℚ
  | .market side quantity => quantity.toNat * m.quote side
  | .limit _ amount price => amount.toNat * price.toNat / 10 ^ 9

/-- How far a total with four places may be from the value of an order: half of the last place, a
few roundings, and what is lost where quantity and price are cut off to billionths. -/
def OrderRequest.tolerance : OrderRequest → ℚ
  | .market .. => 60000
  | .limit _ amount price =>
    50000 + (2 * (amount.toNat + price.toNat + 2) +
      (amount.toNat + 2) * (price.toNat + 2) / 2 ^ 50) / 10 ^ 9

namespace Draft

variable {d : Draft} {m : Market}

/-- The estimate takes the quantity of the draft, whatever the price. -/
theorem quantity_estimate (d : Draft) (price : Binary64) :
    (d.estimate price).quantity = positive? d.quantity := by
  rw [estimate]

/-- The total of a market order has four places and is off by little more than half of the last
one. -/
theorem total_of_market {side : Side} {quantity : UInt64}
    (h : d.request = .ok (.market side quantity)) (hlt : quantity.toNat * m.quote side < 2 ^ 64) :
    ∃ units : ℕ, (d.estimateFor m).total = String.ofList (placesText 4 units) ∧
      |(units : ℚ) * 10 ^ 5 - quantity.toNat * m.quote side| ≤ 60000 := by
  obtain ⟨_, hside, ⟨hkind, _, hquantity, heq⟩ | ⟨-, _, _, -, -, heq⟩⟩ := request_eq_ok h <;>
    cases heq
  obtain ⟨hread, hpos⟩ := positive?_of_wholeShares? hquantity
  have htotal : (d.estimateFor m).total =
      if ((m.decimalPrice? side).getD .zero).isPositive then
        ((m.decimalPrice? side).getD .zero * ofNat quantity.toNat).withPlaces 4 else "0.0000" := by
    simp only [estimateFor, estimate, hside, hkind, hread, Option.bind_some]
  by_cases hquote : m.quote side = 0
  · refine ⟨0, ?_, by rw [hquote]; norm_num⟩
    rw [htotal, Market.decimalPrice?_of_quote_eq_zero hquote, Option.getD_none,
      if_neg (by decide)]
    exact congrArg String.ofList (by decide)
  obtain ⟨p, hprice, hpositive, hnear⟩ := Market.near_mul_quantity hquote hpos hlt
  have hworth : (quantity.toNat * m.quote side : ℚ) < 2 ^ 64 := by exact_mod_cast hlt
  refine ⟨(p * ofNat quantity.toNat).unitsAt 4, ?_, ?_⟩
  · rw [htotal, hprice, Option.getD_some, if_pos hpositive,
      withPlaces_of_isFinite 4 hnear.finite hnear.nonneg]
  · have hplaces := unitsAt_error 4 (p * ofNat quantity.toNat)
    have hvalue := hnear.abs_sub_le_of_four (by positivity)
    rw [abs_le] at hvalue hplaces ⊢
    constructor <;> linarith

/-- The total of a limit order is the product of two numbers that its words count. -/
theorem total_of_limit {side : Side} {amount price : UInt64}
    (h : d.request = .ok (.limit side amount price)) :
    ∃ x p, Fixed.Counts amount x ∧ Fixed.Counts price p ∧
      (d.estimateFor m).total = String.ofList (placesText 4 ((p * x).unitsAt 4)) := by
  obtain ⟨_, -, ⟨-, _, -, heq⟩ | ⟨hkind, _, _, hamount, hprice, heq⟩⟩ := request_eq_ok h <;>
    cases heq
  obtain ⟨x, hx, -, hxCounts⟩ := counts_of_positive? hamount
  obtain ⟨p, hp, hpositive, hpCounts⟩ := counts_of_positive? hprice
  have hnear := hpCounts.exact.mul hxCounts.exact (value_nonneg p) (value_nonneg x) (by decide)
    (hpCounts.isModerate_mul hxCounts)
  have htotal : (d.estimateFor m).total = (p * x).withPlaces 4 := by
    simp only [estimateFor, estimate, hkind, hx, hp, Option.getD_some, hpositive, if_true]
  refine ⟨x, p, hxCounts, hpCounts, ?_⟩
  rw [htotal, withPlaces_of_isFinite 4 hnear.finite hnear.nonneg]

/-- The total of a draft is the value of its order, as far as four places tell. For shares at the
current price the value must be one that a word holds. -/
theorem total_near_value {request : OrderRequest} (h : d.request = .ok request)
    (hlt : request.worth m < 2 ^ 64) :
    ∃ units : ℕ, (d.estimateFor m).total = String.ofList (placesText 4 units) ∧
      |(units : ℚ) * 10 ^ 5 - request.value m| ≤ request.tolerance := by
  cases request with
  | market side quantity => exact total_of_market h hlt
  | limit side amount price =>
    obtain ⟨x, p, hx, hp, htotal⟩ := total_of_limit (m := m) h
    have herror := hp.unitsAt_mul_error hx
    refine ⟨(p * x).unitsAt 4, htotal, ?_⟩
    rw [abs_le] at herror ⊢
    unfold OrderRequest.value OrderRequest.tolerance
    constructor <;> linarith

end Draft

end PredictionMarket
