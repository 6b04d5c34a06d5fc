import PredictionMarket.Proofs.Number.Digits
import PredictionMarket.Proofs.Number.Threshold

/-!
# Texts with fixed places

A finite number is written in digits with a point. A product of finite numbers need not be finite,
and then a word stands in place of the digits.

## Main definitions

* `IsDecimal`: digits, a point, and a given number of digits after it.

## Main results

* `Binary64.withPlaces_mul`: the text of a product.
-/

namespace PredictionMarket

/-- One or more digits, a point, and exactly so many digits after it as there are places. -/
def IsDecimal (places : ℕ) (s : String) : Prop :=
  ∃ whole fraction, s.toList = whole ++ '.' :: fraction ∧ whole ≠ [] ∧
    fraction.length = places ∧ ∀ c ∈ whole ++ fraction, c.isDigit = true

/-- Units with a point in front of the last places are a decimal number. -/
theorem isDecimal_placesText {places : ℕ} (hpos : 0 < places) (units : ℕ) :
    IsDecimal places (String.ofList (placesText places units)) := by
  have hrest : units % 10 ^ places < 10 ^ places := Nat.mod_lt _ (by positivity)
  refine ⟨Nat.toDigits 10 (units / 10 ^ places), zeroPadded places (units % 10 ^ places), ?_,
    Nat.toDigits_ne_nil, length_zeroPadded hpos hrest, ?_⟩
  · rw [String.toList_ofList, placesText, if_neg (by simpa using hpos.ne')]
    rfl
  · intro c hc
    obtain hc | hc := List.mem_append.1 hc
    · exact Literal.isDigit_of_mem_toDigits hc
    · exact isDigit_of_mem_zeroPadded hc

/-- The text of the infinite is no decimal number. -/
theorem not_isDecimal_inf (places : ℕ) : ¬IsDecimal places "inf" := by
  rintro ⟨whole, fraction, hs, -⟩
  have hpoint : '.' ∈ "inf".toList := by
    rw [hs]
    exact List.mem_append_right _ List.mem_cons_self
  revert hpoint
  decide

namespace Binary64

variable {x y : Binary64}

/-- What is rounded to no finite number is rounded to infinity. -/
theorem isInfinite_nearest {num den : ℕ} (h : ¬(nearest num den).isFinite = true) :
    (nearest num den).isInfinite = true := by
  rw [isFinite_nearest_iff] at h
  unfold isInfinite nearest
  rw [magnitude_ofParts false nearestMagnitude_lt, beq_iff_eq, nearestMagnitude_eq]
  omega

/-- The infinite is written without digits. -/
theorem withPlaces_of_isInfinite (places : ℕ) (h : x.isInfinite = true)
    (h' : x.isNegative = false) : x.withPlaces places = "inf" := by
  have hnumber : x.isNaN = false := by
    unfold isInfinite at h
    unfold isNaN
    rw [beq_iff_eq] at h
    rw [h]
    decide
  unfold withPlaces
  rw [hnumber, h, h']
  rfl

/-- The text of a product of finite numbers above or at zero: digits, or the word for a product
that is too great. -/
theorem withPlaces_mul {places : ℕ} (hpos : 0 < places) (hx : x.isFinite = true)
    (hy : y.isFinite = true) (hx' : x.isNegative = false) (hy' : y.isNegative = false) :
    (x.value * y.value < (2 ^ 54 - 1) * 2 ^ 970 ∧ IsDecimal places ((x * y).withPlaces places)) ∨
      (¬x.value * y.value < (2 ^ 54 - 1) * 2 ^ 970 ∧ (x * y).withPlaces places = "inf") := by
  have hfinite := isFinite_mul_iff hx hy hx' hy'
  have hproduct := mul_eq_nearest hx hy hx' hy'
  rw [← hfinite, hproduct]
  by_cases h : (nearest (x.steps * y.steps) (stepsInOne * stepsInOne)).isFinite = true
  · refine .inl ⟨h, ?_⟩
    rw [withPlaces_of_isFinite places h isNegative_nearest]
    exact isDecimal_placesText hpos _
  · exact .inr ⟨h, withPlaces_of_isInfinite places (isInfinite_nearest h) isNegative_nearest⟩

end Binary64

end PredictionMarket
