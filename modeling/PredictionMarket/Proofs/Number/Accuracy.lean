import Mathlib.Tactic.Linarith
import Mathlib.Tactic.NormNum
import Mathlib.Tactic.Positivity
import Mathlib.Tactic.Ring
import PredictionMarket.Fixed
import PredictionMarket.Number.Places
import PredictionMarket.Proofs.Number.Nearest

/-!
# The accuracy of arithmetic

Each rounding moves a number by a small part of it. What comes out of several operations is bounded
by counting their roundings.

## Main definitions

* `Binary64.value`: the magnitude of a finite number.
* `Binary64.Near`: a number as close to a quotient as some roundings leave it.

## Main results

* `Binary64.Near.mul`, `Binary64.Near.div`: one more rounding for each operation.
* `Binary64.unitsAt_error`: how close the decimal places of a text are.
* `Fixed.near_toBinary64`, `Fixed.counts_of_ofBinary64?_eq_some`: from billionths to a number and
  back.
-/

namespace PredictionMarket

namespace Binary64

/-- The magnitude of a finite number. -/
def value (x : Binary64) : ℚ :=
  x.steps / stepsInOne

/-- The part of a number that a rounding moves it by at most. -/
def roundoff : ℚ := 1 / 2 ^ 53

/-- A finite number, not negative, that is as close to a quotient as after `k` roundings. -/
structure Near (k : ℕ) (q : ℚ) (x : Binary64) : Prop where
  finite : x.isFinite = true
  nonneg : x.isNegative = false
  lower : (1 - roundoff) ^ k * q ≤ x.value
  upper : x.value ≤ (1 + roundoff) ^ k * q

/-- Numbers whose products neither overflow nor lose digits next to zero. -/
def IsModerate (q : ℚ) : Prop :=
  1 / 2 ^ 200 ≤ q ∧ q ≤ 2 ^ 200

section

variable {x y : Binary64} {j k : ℕ} {a b q : ℚ}

theorem cast_stepsInOne_pos : (0 : ℚ) < stepsInOne := by
  exact_mod_cast stepsInOne_pos

theorem value_nonneg (x : Binary64) : 0 ≤ x.value :=
  div_nonneg (Nat.cast_nonneg _) (Nat.cast_nonneg _)

theorem roundoff_bounds : 0 ≤ roundoff ∧ roundoff ≤ 1 := by
  unfold roundoff
  constructor <;> norm_num

/-- A few roundings do not halve a number. -/
theorem half_le_pow (hk : k ≤ 8) : 1 / 2 ≤ (1 - roundoff) ^ k := by
  obtain ⟨hnonneg, hle⟩ := roundoff_bounds
  have hpow : (1 - roundoff) ^ 8 ≤ (1 - roundoff) ^ k :=
    pow_le_pow_of_le_one (by linarith) (by linarith) hk
  have hfew : 1 / 2 ≤ (1 - roundoff) ^ 8 := by
    unfold roundoff
    norm_num
  exact hfew.trans hpow

/-- A few roundings do not double a number. -/
theorem pow_le_two (hk : k ≤ 8) : (1 + roundoff) ^ k ≤ 2 := by
  have hnonneg := roundoff_bounds.1
  have hpow : (1 + roundoff) ^ k ≤ (1 + roundoff) ^ 8 :=
    pow_le_pow_right₀ (by linarith) hk
  have hfew : (1 + roundoff) ^ 8 ≤ 2 := by
    unfold roundoff
    norm_num
  exact hpow.trans hfew

theorem isNaN_of_isFinite (h : x.isFinite = true) : x.isNaN = false := by
  unfold isFinite at h
  unfold isNaN
  rw [decide_eq_true_eq] at h
  rw [decide_eq_false_iff_not]
  omega

theorem isInfinite_of_isFinite (h : x.isFinite = true) : x.isInfinite = false := by
  unfold isFinite at h
  unfold isInfinite
  rw [decide_eq_true_eq] at h
  rw [beq_eq_false_iff_ne]
  omega

/-- A number above zero has some bit of its magnitude set. -/
theorem magnitude_pos_of_value_pos (h : 0 < x.value) : 0 < x.magnitude := by
  refine Nat.pos_of_ne_zero fun hzero => ?_
  have hsteps : x.steps = 0 := by
    unfold steps significand
    rw [hzero]
    exact Nat.zero_mul _
  rw [value, hsteps, Nat.cast_zero, zero_div] at h
  exact lt_irrefl 0 h

/-- What is not rounded is exact. -/
theorem near_value (h : x.isFinite = true) (h' : x.isNegative = false) : Near 0 x.value x := by
  refine ⟨h, h', ?_, ?_⟩ <;> rw [pow_zero, one_mul]

namespace Near

/-- A number near one above zero is above zero: a few roundings do not reach zero. -/
theorem value_pos (h : Near k q x) (hq : 0 < q) (hk : k ≤ 8) : 0 < x.value :=
  (mul_pos (lt_of_lt_of_le (by norm_num) (half_le_pow hk)) hq).trans_le h.lower

/-- A number near one above zero is positive. -/
theorem isPositive (h : Near k q x) (hq : 0 < q) (hk : k ≤ 8) : x.isPositive = true := by
  have hpos := magnitude_pos_of_value_pos (h.value_pos hq hk)
  have hfinite := h.finite
  unfold isFinite at hfinite
  rw [decide_eq_true_eq] at hfinite
  unfold Binary64.isPositive
  simp only [h.nonneg, Bool.not_false, Bool.true_and, Bool.and_eq_true, decide_eq_true_eq]
  omega

/-- Without a rounding nothing is lost. -/
theorem value_eq (h : Near 0 q x) : x.value = q := by
  have hlower := h.lower
  have hupper := h.upper
  rw [pow_zero, one_mul] at hlower hupper
  exact le_antisymm hupper hlower

/-- A rounding of what is close itself. -/
theorem trans {p : ℚ} (h : Near 1 p x) (hlower : (1 - roundoff) ^ k * q ≤ p)
    (hupper : p ≤ (1 + roundoff) ^ k * q) : Near (k + 1) q x := by
  obtain ⟨hnonneg, hle⟩ := roundoff_bounds
  refine ⟨h.finite, h.nonneg, ?_, ?_⟩
  · calc (1 - roundoff) ^ (k + 1) * q = (1 - roundoff) ^ 1 * ((1 - roundoff) ^ k * q) := by ring
      _ ≤ (1 - roundoff) ^ 1 * p :=
        mul_le_mul_of_nonneg_left hlower (pow_nonneg (by linarith) 1)
      _ ≤ x.value := h.lower
  · calc x.value ≤ (1 + roundoff) ^ 1 * p := h.upper
      _ ≤ (1 + roundoff) ^ 1 * ((1 + roundoff) ^ k * q) :=
        mul_le_mul_of_nonneg_left hupper (pow_nonneg (by linarith) 1)
      _ = (1 + roundoff) ^ (k + 1) * q := by ring

end Near

/-- The number nearest to a quotient is one rounding away, if the quotient is not too small for all
digits. -/
theorem near_nearest {num den : ℕ} (hden : 0 < den) (hfinite : (nearest num den).isFinite = true)
    (hnormal : 2 ^ 52 * den ≤ num * stepsInOne) : Near 1 ((num : ℚ) / den) (nearest num den) := by
  have hdenPos : (0 : ℚ) < den := by exact_mod_cast hden
  have hone := cast_stepsInOne_pos
  obtain ⟨hlower, hupper⟩ := steps_nearest_error hden hfinite hnormal
  have hlower : (2 : ℚ) ^ 53 * (num * stepsInOne) ≤
      2 ^ 53 * ((nearest num den).steps * den) + num * stepsInOne := by exact_mod_cast hlower
  have hupper : (2 : ℚ) ^ 53 * ((nearest num den).steps * den) ≤
      2 ^ 53 * (num * stepsInOne) + num * stepsInOne := by exact_mod_cast hupper
  refine ⟨hfinite, isNegative_nearest, ?_, ?_⟩
  · unfold value roundoff
    rw [pow_one, ← mul_div_assoc, div_le_div_iff₀ hdenPos hone]
    linarith
  · unfold value roundoff
    rw [pow_one, ← mul_div_assoc, div_le_div_iff₀ hone hdenPos]
    linarith

/-- Only a quotient in the normal range is rounded to a number of one or more. -/
theorem near_nearest_of_one_le {num den : ℕ} (hden : 0 < den)
    (hfinite : (nearest num den).isFinite = true) (hone : 1 ≤ (nearest num den).value) :
    Near 1 ((num : ℚ) / den) (nearest num den) := by
  refine near_nearest hden hfinite (Nat.le_of_not_lt fun hsmall => ?_)
  obtain ⟨e, he, hsteps⟩ := exists_stepsInOne_eq
  have hlt : (nearest num den).steps < stepsInOne := by
    refine lt_of_le_of_lt (steps_nearest_le hden hfinite hsmall) ?_
    rw [hsteps]
    exact Nat.pow_lt_pow_right (by decide) (by omega)
  rw [value, one_le_div cast_stepsInOne_pos] at hone
  exact absurd (by exact_mod_cast hone) (Nat.not_le_of_lt hlt)

/-- Between a power of two and its inverse every quotient is one rounding away from its nearest
number. -/
theorem near_nearest_of_bounds {num den e : ℕ} (hden : 0 < den) (he : e ≤ 1022)
    (hlow : 1 / 2 ^ e ≤ (num : ℚ) / den) (hhigh : (num : ℚ) / den < 2 ^ e) :
    Near 1 ((num : ℚ) / den) (nearest num den) := by
  have hdenPos : (0 : ℚ) < den := by exact_mod_cast hden
  refine near_nearest hden (isFinite_nearest hden (k := e) (by omega) ?_) ?_
  · rw [div_lt_iff₀ hdenPos, mul_comm] at hhigh
    exact_mod_cast hhigh
  · obtain ⟨i, hi, hsteps⟩ := exists_stepsInOne_eq
    rw [div_le_div_iff₀ (by positivity) hdenPos, one_mul] at hlow
    have hle : den ≤ num * 2 ^ e := by exact_mod_cast hlow
    calc 2 ^ 52 * den ≤ 2 ^ 52 * (num * 2 ^ e) := Nat.mul_le_mul_left _ hle
      _ = num * 2 ^ (52 + e) := by rw [Nat.pow_add]; ring
      _ ≤ num * 2 ^ i := Nat.mul_le_mul_left _ (Nat.pow_le_pow_right (by decide) (by omega))
      _ = num * stepsInOne := by rw [hsteps]

/-- A product of numbers that are not negative is the nearest number to the product of their
steps. -/
theorem mul_eq_nearest (hx : x.isFinite = true) (hy : y.isFinite = true)
    (hx' : x.isNegative = false) (hy' : y.isNegative = false) :
    x * y = nearest (x.steps * y.steps) (stepsInOne * stepsInOne) := by
  change mul x y = _
  unfold mul
  simp only [hx', hy', isNaN_of_isFinite hx, isNaN_of_isFinite hy, isInfinite_of_isFinite hx,
    isInfinite_of_isFinite hy, Bool.or_self, bne_self_eq_false, Bool.false_eq_true, if_false]
  rfl

/-- The steps of two numbers have the product of their values. -/
theorem value_mul_value (x y : Binary64) :
    ((x.steps * y.steps : ℕ) : ℚ) / (stepsInOne * stepsInOne : ℕ) = x.value * y.value := by
  unfold value
  push_cast
  rw [div_mul_div_comm]

/-- A quotient of numbers that are not negative is the nearest number to the quotient of their
steps. -/
theorem div_eq_nearest (hx : x.isFinite = true) (hy : y.isFinite = true)
    (hx' : x.isNegative = false) (hy' : y.isNegative = false) (hpos : 0 < y.magnitude) :
    x / y = nearest x.steps y.steps := by
  have hzero : y.isZero = false := beq_eq_false_iff_ne.2 hpos.ne'
  change div x y = _
  unfold div
  simp only [hx', hy', isNaN_of_isFinite hx, isNaN_of_isFinite hy, isInfinite_of_isFinite hx,
    isInfinite_of_isFinite hy, hzero, Bool.or_self, bne_self_eq_false, Bool.false_eq_true, if_false]
  rfl

/-- A quotient that is close to a moderate one, rounded once more. -/
theorem near_nearest_of_moderate {num den : ℕ} (hden : 0 < den) (hk : k ≤ 8) (hq : IsModerate q)
    (hlower : (1 - roundoff) ^ k * q ≤ (num : ℚ) / den)
    (hupper : (num : ℚ) / den ≤ (1 + roundoff) ^ k * q) :
    Near (k + 1) q (nearest num den) := by
  obtain ⟨hlow, hhigh⟩ := hq
  have hpos : 0 ≤ q := le_trans (by positivity) hlow
  refine (near_nearest_of_bounds (e := 202) hden (by decide) ?_ ?_).trans hlower hupper
  · calc (1 : ℚ) / 2 ^ 202 ≤ 1 / 2 * (1 / 2 ^ 200) := by norm_num
      _ ≤ (1 - roundoff) ^ k * q :=
        mul_le_mul (half_le_pow hk) hlow (by positivity)
          (pow_nonneg (sub_nonneg.2 roundoff_bounds.2) k)
      _ ≤ num / den := hlower
  · calc (num : ℚ) / den ≤ (1 + roundoff) ^ k * q := hupper
      _ ≤ 2 * 2 ^ 200 := mul_le_mul (pow_le_two hk) hhigh hpos (by norm_num)
      _ < 2 ^ 202 := by norm_num

namespace Near

/-- A product is rounded once more than its factors. -/
theorem mul (hx : Near j a x) (hy : Near k b y) (ha : 0 ≤ a) (hb : 0 ≤ b) (hjk : j + k ≤ 8)
    (hab : IsModerate (a * b)) : Near (j + k + 1) (a * b) (x * y) := by
  obtain ⟨hnonneg, hle⟩ := roundoff_bounds
  have hvalue := value_mul_value x y
  have hb' : 0 ≤ (1 - roundoff) ^ k * b := mul_nonneg (pow_nonneg (by linarith) k) hb
  have ha' : 0 ≤ (1 + roundoff) ^ j * a := mul_nonneg (pow_nonneg (by linarith) j) ha
  rw [mul_eq_nearest hx.finite hy.finite hx.nonneg hy.nonneg]
  refine near_nearest_of_moderate (Nat.mul_pos stepsInOne_pos stepsInOne_pos) hjk hab ?_ ?_
  · calc (1 - roundoff) ^ (j + k) * (a * b)
        = ((1 - roundoff) ^ j * a) * ((1 - roundoff) ^ k * b) := by ring
      _ ≤ x.value * y.value := mul_le_mul hx.lower hy.lower hb' (value_nonneg x)
      _ = _ := hvalue.symm
  · calc _ = x.value * y.value := hvalue
      _ ≤ ((1 + roundoff) ^ j * a) * ((1 + roundoff) ^ k * b) :=
        mul_le_mul hx.upper hy.upper (value_nonneg y) ha'
      _ = (1 + roundoff) ^ (j + k) * (a * b) := by ring

/-- A quotient with an exact divisor is rounded once more than what is divided. -/
theorem div (hx : Near j a x) (hy : Near 0 b y) (hb : 0 < b) (hj : j ≤ 8)
    (hab : IsModerate (a / b)) : Near (j + 1) (a / b) (x / y) := by
  have hyb := hy.value_eq
  have hpos : 0 < y.value := hyb ▸ hb
  have hone := cast_stepsInOne_pos
  have hsteps : 0 < y.steps := by
    unfold value at hpos
    exact_mod_cast (div_pos_iff_of_pos_right hone).1 hpos
  have hvalue : (x.steps : ℚ) / y.steps = x.value / b := by
    rw [← hyb]
    unfold value
    rw [div_div_div_cancel_right₀ hone.ne']
  rw [div_eq_nearest hx.finite hy.finite hx.nonneg hy.nonneg (magnitude_pos_of_value_pos hpos)]
  refine near_nearest_of_moderate hsteps hj hab ?_ ?_
  · rw [hvalue, ← mul_div_assoc]
    exact div_le_div_of_nonneg_right hx.lower hb.le
  · rw [hvalue, ← mul_div_assoc]
    exact div_le_div_of_nonneg_right hx.upper hb.le

/-- Four roundings are told apart from none only in the last digits. -/
theorem abs_sub_le_of_four (h : Near 4 q x) (hq : 0 ≤ q) : |x.value - q| ≤ 9 / 2 ^ 54 * q := by
  have hlow : 1 - 9 / 2 ^ 54 ≤ (1 - roundoff) ^ 4 := by
    unfold roundoff
    norm_num
  have hhigh : (1 + roundoff) ^ 4 ≤ 1 + 9 / 2 ^ 54 := by
    unfold roundoff
    norm_num
  have hlower := (mul_le_mul_of_nonneg_right hlow hq).trans h.lower
  have hupper := h.upper.trans (mul_le_mul_of_nonneg_right hhigh hq)
  rw [abs_le]
  constructor <;> linarith

end Near

/-- A natural of at most fifty-three binary digits is held exactly. -/
theorem near_ofNat_of_lt {n : ℕ} (h : n < 2 ^ 53) : Near 0 n (ofNat n) := by
  have hfinite : (ofNat n).isFinite = true :=
    isFinite_nearest Nat.one_pos (k := 53) (by decide) (by rwa [Nat.one_mul])
  have hvalue : (ofNat n).value = n := by
    rw [value, steps_ofNat h, Nat.cast_mul, mul_div_cancel_right₀ _ cast_stepsInOne_pos.ne']
  have hnear := near_value hfinite isNegative_nearest
  rwa [hvalue] at hnear

/-- A natural number that fits a word is one rounding away from its number. -/
theorem near_ofNat {n : ℕ} (hpos : 0 < n) (h : n < 2 ^ 64) : Near 1 n (ofNat n) := by
  have hn : (1 : ℚ) ≤ n := by exact_mod_cast hpos
  have hn' : (n : ℚ) < 2 ^ 64 := by exact_mod_cast h
  have hmoderate : IsModerate n := ⟨le_trans (by norm_num) hn, hn'.le.trans (by norm_num)⟩
  exact near_nearest_of_moderate Nat.one_pos (Nat.zero_le 8) hmoderate (by simp) (by simp)

/-- The whole part of a number is cut off. -/
theorem floor_le_value (x : Binary64) : x.floor ≤ x.value ∧ x.value < x.floor + 1 := by
  have hone := cast_stepsInOne_pos
  unfold value floor
  constructor
  · rw [le_div_iff₀ hone]
    exact_mod_cast Nat.div_mul_le_self x.steps stepsInOne
  · rw [div_lt_iff₀ hone]
    exact_mod_cast Nat.lt_mul_of_div_lt (Nat.lt_succ_self _) stepsInOne_pos

/-- The decimal places of a text are off by one half of the last one at most. -/
theorem unitsAt_error (places : ℕ) (x : Binary64) :
    |(x.unitsAt places : ℚ) - x.value * 10 ^ places| ≤ 1 / 2 := by
  have hone := cast_stepsInOne_pos
  obtain ⟨hlower, hupper⟩ := roundHalfEven_error (x.steps * 10 ^ places) stepsInOne_pos
  change _ ≤ 2 * (x.unitsAt places * stepsInOne) + stepsInOne at hlower
  change 2 * (x.unitsAt places * stepsInOne) ≤ _ at hupper
  have hlower : (2 : ℚ) * (x.steps * 10 ^ places) ≤
      2 * (x.unitsAt places * stepsInOne) + stepsInOne := by exact_mod_cast hlower
  have hupper : (2 : ℚ) * (x.unitsAt places * stepsInOne) ≤
      2 * (x.steps * 10 ^ places) + stepsInOne := by exact_mod_cast hupper
  have hscaled : x.value * 10 ^ places = x.steps * 10 ^ places / stepsInOne := by
    unfold value
    ring
  rw [hscaled, abs_le]
  constructor
  · rw [neg_le_sub_iff_le_add, div_le_iff₀ hone]
    linarith
  · rw [sub_le_iff_le_add', ← sub_le_iff_le_add, le_div_iff₀ hone]
    linarith

/-- A number that is not negative is shown as its units, with so many places cut off by a point. -/
theorem withPlaces_of_isFinite (places : ℕ) (h : x.isFinite = true) (h' : x.isNegative = false) :
    x.withPlaces places = String.ofList (placesText places (x.unitsAt places)) := by
  unfold withPlaces
  rw [isNaN_of_isFinite h, isInfinite_of_isFinite h, h']
  rfl

end

end Binary64

namespace Fixed

open Binary64

theorem near_unitsInOne : Near 0 (10 ^ 9) (ofNat unitsInOne) := by
  have hexact : Near 0 (unitsInOne : ℕ) (ofNat unitsInOne) := near_ofNat_of_lt (by decide)
  have hunits : (unitsInOne : ℚ) = 10 ^ 9 := by norm_num [unitsInOne]
  rwa [hunits] at hexact

/-- A word that counts billionths is two roundings away from its number: one of the word, one of the
quotient. -/
theorem near_toBinary64 {raw : UInt64} (h : 0 < raw.toNat) :
    Near 2 ((raw.toNat : ℚ) / 10 ^ 9) (toBinary64 raw) := by
  have hraw : (1 : ℚ) ≤ raw.toNat := by exact_mod_cast h
  have hraw' : (raw.toNat : ℚ) < 2 ^ 64 := by exact_mod_cast raw.toNat_lt
  refine (near_ofNat h raw.toNat_lt).div near_unitsInOne (by norm_num) (by decide) ⟨?_, ?_⟩
  · rw [le_div_iff₀ (by norm_num)]
    exact le_trans (by norm_num) hraw
  · rw [div_le_iff₀ (by norm_num)]
    exact hraw'.le.trans (by norm_num)

/-- The word that counts billionths is the whole part of the product, or one less where that does
not fit a word. -/
theorem floor_of_ofBinary64?_eq_some {x : Binary64} {raw : UInt64}
    (h : ofBinary64? x = some raw) :
    (x * ofNat unitsInOne).isFinite = true ∧ 1 ≤ raw.toNat ∧
      raw.toNat ≤ (x * ofNat unitsInOne).floor ∧ (x * ofNat unitsInOne).floor ≤ raw.toNat + 1 := by
  unfold ofBinary64? at h
  dsimp only at h
  split at h
  · next hrange =>
    simp only [Bool.and_eq_true, decide_eq_true_eq] at hrange
    obtain ⟨⟨hfinite, hlow⟩, hhigh⟩ := hrange
    have hraw : raw.toNat = min (x * ofNat unitsInOne).floor maximum := by
      cases h
      exact toNat_cap _
    have hmaximum : maximum + 1 = UInt64.size := rfl
    have hmaximum' : 1 ≤ maximum := by decide
    exact ⟨hfinite, by omega, by omega, by omega⟩
  · cases h

/-- Counting billionths takes one rounding, if there are any. -/
theorem near_mul_unitsInOne {x : Binary64} (hfinite : x.isFinite = true)
    (hnonneg : x.isNegative = false) (hscaled : (x * ofNat unitsInOne).isFinite = true)
    (hone : 1 ≤ (x * ofNat unitsInOne).value) :
    Near 1 (x.value * 10 ^ 9) (x * ofNat unitsInOne) := by
  have hunits := near_unitsInOne
  have hexact := value_mul_value x (ofNat unitsInOne)
  rw [hunits.value_eq] at hexact
  rw [mul_eq_nearest hfinite hunits.finite hnonneg hunits.nonneg] at hscaled hone ⊢
  rw [← hexact]
  exact near_nearest_of_one_le (Nat.mul_pos stepsInOne_pos stepsInOne_pos) hscaled hone

/-- A number with the word that counts its billionths, cut off after one rounding and again where a
word ends. -/
structure Counts (raw : UInt64) (x : Binary64) : Prop where
  exact : Near 0 x.value x
  one_le : (1 : ℚ) ≤ raw.toNat
  lower : (1 - roundoff) * raw.toNat ≤ x.value * 10 ^ 9
  upper : x.value * 10 ^ 9 ≤ (1 + 2 * roundoff) * (raw.toNat + 2)

/-- The word that counts a number is accurate. -/
theorem counts_of_ofBinary64?_eq_some {x : Binary64} {raw : UInt64} (hfinite : x.isFinite = true)
    (hnonneg : x.isNegative = false) (h : ofBinary64? x = some raw) : Counts raw x := by
  obtain ⟨hscaled, hpos, hle, hle'⟩ := floor_of_ofBinary64?_eq_some h
  obtain ⟨hfloor, hfloor'⟩ := floor_le_value (x * ofNat unitsInOne)
  have hpos : (1 : ℚ) ≤ raw.toNat := by exact_mod_cast hpos
  have hle : (raw.toNat : ℚ) ≤ (x * ofNat unitsInOne).floor := by exact_mod_cast hle
  have hle' : ((x * ofNat unitsInOne).floor : ℚ) ≤ raw.toNat + 1 := by exact_mod_cast hle'
  have hnear := near_mul_unitsInOne hfinite hnonneg hscaled (by linarith)
  have hlower := hnear.lower
  have hupper := hnear.upper
  have hvalue := mul_nonneg (value_nonneg x) (by norm_num : (0 : ℚ) ≤ 10 ^ 9)
  refine ⟨near_value hfinite hnonneg, hpos, ?_, ?_⟩ <;> unfold roundoff at hlower hupper ⊢ <;>
    linarith

namespace Counts

variable {a b : UInt64} {x y : Binary64}

/-- The product of two numbers lies between those of their words and of the words after these. -/
theorem mul_bounds (hx : Counts a x) (hy : Counts b y) :
    (1 - roundoff) ^ 2 * (a.toNat * b.toNat) ≤ x.value * y.value * 10 ^ 18 ∧
      x.value * y.value * 10 ^ 18 ≤
        (1 + 2 * roundoff) ^ 2 * ((a.toNat + 2) * (b.toNat + 2)) := by
  obtain ⟨hnonneg, hle⟩ := roundoff_bounds
  have ha := hx.one_le
  have hb := hy.one_le
  have hx' := mul_nonneg (value_nonneg x) (by norm_num : (0 : ℚ) ≤ 10 ^ 9)
  have hy' := mul_nonneg (value_nonneg y) (by norm_num : (0 : ℚ) ≤ 10 ^ 9)
  constructor
  · calc (1 - roundoff) ^ 2 * (a.toNat * b.toNat : ℚ)
        = (1 - roundoff) * a.toNat * ((1 - roundoff) * b.toNat) := by ring
      _ ≤ x.value * 10 ^ 9 * (y.value * 10 ^ 9) :=
        mul_le_mul hx.lower hy.lower (mul_nonneg (by linarith) (by linarith)) hx'
      _ = x.value * y.value * 10 ^ 18 := by ring
  · calc x.value * y.value * 10 ^ 18 = x.value * 10 ^ 9 * (y.value * 10 ^ 9) := by ring
      _ ≤ (1 + 2 * roundoff) * (a.toNat + 2) * ((1 + 2 * roundoff) * (b.toNat + 2)) :=
        mul_le_mul hx.upper hy.upper hy' (mul_nonneg (by linarith) (by linarith))
      _ = (1 + 2 * roundoff) ^ 2 * ((a.toNat + 2) * (b.toNat + 2)) := by ring

/-- Two numbers that words count have a product that is neither too great nor too small. -/
theorem isModerate_mul (hx : Counts a x) (hy : Counts b y) : IsModerate (x.value * y.value) := by
  obtain ⟨hlower, hupper⟩ := hx.mul_bounds hy
  have ha := hx.one_le
  have hb := hy.one_le
  have ha' : (a.toNat : ℚ) < 2 ^ 64 := by exact_mod_cast a.toNat_lt
  have hb' : (b.toNat : ℚ) < 2 ^ 64 := by exact_mod_cast b.toNat_lt
  have hlow : (1 / 2 : ℚ) * 1 ≤ (1 - roundoff) ^ 2 * (a.toNat * b.toNat) :=
    mul_le_mul (half_le_pow (by decide)) (one_le_mul_of_one_le_of_one_le ha hb) (by norm_num)
      (pow_nonneg (sub_nonneg.2 roundoff_bounds.2) 2)
  have hsquare : (1 + 2 * roundoff) ^ 2 ≤ 2 := by
    unfold roundoff
    norm_num
  have hwords : ((a.toNat : ℚ) + 2) * (b.toNat + 2) ≤ 2 ^ 65 * 2 ^ 65 :=
    mul_le_mul (by linarith) (by linarith) (by linarith) (by norm_num)
  have hhigh := mul_le_mul hsquare hwords (by positivity) (by norm_num)
  constructor <;> linarith

/-- The decimal places of the product of two numbers, against the product of their words. -/
theorem unitsAt_mul_error (hx : Counts a x) (hy : Counts b y) :
    |((x * y).unitsAt 4 : ℚ) * 10 ^ 14 - a.toNat * b.toNat| ≤
      (5 * 10 ^ 13 + 2 * (a.toNat + b.toNat + 2) + (a.toNat + 2) * (b.toNat + 2) / 2 ^ 50 : ℚ) := by
  obtain ⟨hlower, hupper⟩ := hx.mul_bounds hy
  have hnear := hx.exact.mul hy.exact (value_nonneg x) (value_nonneg y) (by decide)
    (hx.isModerate_mul hy)
  have hlow := hnear.lower
  have hhigh := hnear.upper
  have hplaces := unitsAt_error 4 (x * y)
  have hgrow : (a.toNat : ℚ) * b.toNat + 2 * (a.toNat + b.toNat + 2) =
      (a.toNat + 2) * (b.toNat + 2) := by ring
  have hwords : (0 : ℚ) ≤ a.toNat * b.toNat := by positivity
  unfold roundoff at hlower hupper hlow hhigh
  rw [abs_le] at hplaces ⊢
  constructor <;> linarith

end Counts

end Fixed

end PredictionMarket
