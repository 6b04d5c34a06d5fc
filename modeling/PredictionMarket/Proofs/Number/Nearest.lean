import Mathlib.Tactic.Ring
import PredictionMarket.Number.Binary64

/-!
# The number nearest to a quotient

`Binary64.nearest` finds the bits of a number by one sum. Here its steps are counted, and how far
they lie from the quotient.

## Main results

* `Binary64.steps_nearest`: the steps are a rounded quotient, doubled some times.
* `Binary64.steps_nearest_error`: in the normal range they are off by one part in `2 ^ 53` at most.
-/

namespace PredictionMarket

/-- Rounding moves a quotient by one half at most. -/
theorem roundHalfEven_error (num : Nat) {den : Nat} (h : 0 < den) :
    2 * num ≤ 2 * (roundHalfEven num den * den) + den ∧
      2 * (roundHalfEven num den * den) ≤ 2 * num + den := by
  have hsplit : num / den * den + num % den = num := Nat.div_add_mod' num den
  have hrest : num % den < den := Nat.mod_lt num h
  unfold roundHalfEven
  dsimp only
  split
  · next hup =>
    have hhalf : den ≤ 2 * (num % den) := by
      simp only [Bool.or_eq_true, Bool.and_eq_true, decide_eq_true_eq, beq_iff_eq] at hup
      omega
    rw [Nat.add_mul, Nat.one_mul]
    omega
  · next hdown =>
    have hhalf : 2 * (num % den) ≤ den := by
      simp only [Bool.or_eq_true, Bool.and_eq_true, decide_eq_true_eq, beq_iff_eq] at hdown
      omega
    omega

/-- Rounding does not go below a whole number that the quotient reaches. -/
theorem le_roundHalfEven {n num den : Nat} (hden : 0 < den) (h : n * den ≤ num) :
    n ≤ roundHalfEven num den := by
  have herror := (roundHalfEven_error num hden).1
  have hmul : 2 * n * den ≤ (2 * roundHalfEven num den + 1) * den := by
    rw [Nat.add_mul, Nat.mul_assoc, Nat.mul_assoc]
    omega
  have hle := Nat.le_of_mul_le_mul_right hmul hden
  omega

/-- Rounding does not go above a whole number that the quotient does not exceed. -/
theorem roundHalfEven_le {n num den : Nat} (hden : 0 < den) (h : num ≤ n * den) :
    roundHalfEven num den ≤ n := by
  have herror := (roundHalfEven_error num hden).2
  have hmul : 2 * roundHalfEven num den * den ≤ (2 * n + 1) * den := by
    rw [Nat.add_mul, Nat.mul_assoc, Nat.mul_assoc]
    omega
  have hle := Nat.le_of_mul_le_mul_right hmul hden
  omega

namespace Binary64

/-- The steps in one are a power of two. Its exponent stays a variable, lest it be evaluated. -/
theorem exists_stepsInOne_eq : ∃ e, e = 1074 ∧ stepsInOne = 2 ^ e := by
  unfold stepsInOne
  generalize 1074 = e
  exact ⟨e, rfl, rfl⟩

theorem signBit_eq : signBit = 2 ^ 63 := by decide

theorem leadingBit_eq : leadingBit = 2 ^ 52 := by decide

theorem stepsInOne_pos : 0 < stepsInOne := by
  obtain ⟨e, -, hone⟩ := exists_stepsInOne_eq
  rw [hone]
  exact Nat.two_pow_pos e

/-- The magnitude of a number is the one it was put together from. -/
theorem magnitude_ofParts (negative : Bool) {m : Nat} (h : m < 2 ^ 63) :
    (ofParts negative m).magnitude = m := by
  unfold magnitude ofParts
  rw [UInt64.toNat_ofNat', signBit_eq]
  cases negative <;> simp only [if_true, Bool.false_eq_true, if_false] <;> omega

/-- The sign of a number is the one it was put together from. -/
theorem isNegative_ofParts (negative : Bool) {m : Nat} (h : m < 2 ^ 63) :
    (ofParts negative m).isNegative = negative := by
  unfold isNegative ofParts
  rw [UInt64.toNat_ofNat', signBit_eq]
  cases negative <;> simp only [if_true, Bool.false_eq_true, if_false] <;> simp <;> omega

/-- A carry out of the significand moves on to the next exponent, which leaves the steps right. -/
theorem steps_ofParts (negative : Bool) {r d : Nat} (hr : r ≤ 2 ^ 53) (hd : d = 0 ∨ 2 ^ 52 ≤ r)
    (hfinite : r + d * 2 ^ 52 < infinityBits) :
    (ofParts negative (r + d * 2 ^ 52)).steps = r * 2 ^ d := by
  have hbits : infinityBits < 2 ^ 63 := by decide
  unfold steps significand scale
  rw [magnitude_ofParts negative (by omega), leadingBit_eq, Nat.pow_eq]
  by_cases hsubnormal : r < 2 ^ 52
  · obtain rfl : d = 0 := by omega
    rw [if_pos (by omega)]
    have hscale : (r + 0 * 2 ^ 52) / 2 ^ 52 - 1 = 0 := by omega
    rw [hscale, Nat.zero_mul, Nat.add_zero]
  rw [if_neg (by omega)]
  by_cases hcarry : r = 2 ^ 53
  · have hscale : (r + d * 2 ^ 52) / 2 ^ 52 - 1 = d + 1 := by omega
    have hsignificand : 2 ^ 52 + (r + d * 2 ^ 52) % 2 ^ 52 = 2 ^ 52 := by omega
    rw [hscale, hsignificand, hcarry, Nat.pow_succ]
    omega
  · have hscale : (r + d * 2 ^ 52) / 2 ^ 52 - 1 = d := by omega
    have hsignificand : 2 ^ 52 + (r + d * 2 ^ 52) % 2 ^ 52 = r := by omega
    rw [hscale, hsignificand]

/-- How often the significand of the number nearest to a quotient is doubled. -/
def doublings (num den : Nat) : Nat :=
  (num * stepsInOne / den).log2 - 52

section

variable {num den : Nat}

/-- The quotient to round has fifty-three binary digits, or fewer if there are no doublings. -/
theorem doublings_bounds (num : Nat) (hden : 0 < den) :
    num * stepsInOne < 2 ^ 53 * (den * 2 ^ doublings num den) ∧
      (doublings num den = 0 ∨ 2 ^ 52 * (den * 2 ^ doublings num den) ≤ num * stepsInOne) := by
  have hlog : (num * stepsInOne / den).log2 ≤ 52 + doublings num den := by
    unfold doublings
    omega
  constructor
  · have hlt : num * stepsInOne / den < 2 ^ (53 + doublings num den) :=
      Nat.lt_of_lt_of_le Nat.lt_log2_self (Nat.pow_le_pow_right (by decide) (by omega))
    have hmul := (Nat.div_lt_iff_lt_mul hden).1 hlt
    rwa [Nat.pow_add, Nat.mul_assoc, Nat.mul_comm _ den] at hmul
  · by_cases hzero : doublings num den = 0
    · exact .inl hzero
    · right
      have hexact : (num * stepsInOne / den).log2 = 52 + doublings num den := by
        unfold doublings at hzero ⊢
        omega
      have hne : num * stepsInOne / den ≠ 0 := by
        intro h
        rw [h] at hexact
        change 0 = _ at hexact
        omega
      have hle := Nat.log2_self_le hne
      rw [hexact] at hle
      have hmul := (Nat.le_div_iff_mul_le hden).1 hle
      rwa [Nat.pow_add, Nat.mul_assoc, Nat.mul_comm _ den] at hmul

/-- The quotient, rounded to fifty-three binary digits. -/
def rounded (num den : Nat) : Nat :=
  roundHalfEven (num * stepsInOne) (den * 2 ^ doublings num den)

/-- The rounded quotient is at most `2 ^ 53`, and at least `2 ^ 52` if it is doubled at all. -/
theorem rounded_bounds (num : Nat) (hden : 0 < den) :
    rounded num den ≤ 2 ^ 53 ∧ (doublings num den = 0 ∨ 2 ^ 52 ≤ rounded num den) := by
  obtain ⟨hlt, hle⟩ := doublings_bounds num hden
  have hpos : 0 < den * 2 ^ doublings num den := Nat.mul_pos hden (Nat.two_pow_pos _)
  exact ⟨roundHalfEven_le hpos (Nat.le_of_lt hlt), hle.imp_right (le_roundHalfEven hpos)⟩

/-- The magnitude is the rounded quotient with the doublings above it, up to the infinite. -/
theorem nearestMagnitude_eq :
    nearestMagnitude num den =
      min (rounded num den + doublings num den * 2 ^ 52) infinityBits := rfl

/-- The magnitude leaves room for the sign. -/
theorem nearestMagnitude_lt : nearestMagnitude num den < 2 ^ 63 :=
  Nat.lt_of_le_of_lt (Nat.min_le_right _ _) (by decide)

theorem isNegative_nearest : (nearest num den).isNegative = false :=
  isNegative_ofParts false nearestMagnitude_lt

/-- The nearest number is finite as long as its magnitude stays below the infinite. -/
theorem isFinite_nearest_iff :
    (nearest num den).isFinite = true ↔
      rounded num den + doublings num den * 2 ^ 52 < infinityBits := by
  unfold isFinite nearest
  rw [magnitude_ofParts false nearestMagnitude_lt, decide_eq_true_eq, nearestMagnitude_eq]
  omega

/-- A quotient below `2 ^ 1023` does not overflow. -/
theorem isFinite_nearest (hden : 0 < den) {k : Nat} (hk : k ≤ 1023) (h : num < den * 2 ^ k) :
    (nearest num den).isFinite = true := by
  obtain ⟨e, he, hone⟩ := exists_stepsInOne_eq
  have hcount : num * stepsInOne / den < 2 ^ (k + e) := by
    rw [hone, Nat.div_lt_iff_lt_mul hden, Nat.pow_add, Nat.mul_comm _ den, ← Nat.mul_assoc]
    exact Nat.mul_lt_mul_of_pos_right h (Nat.two_pow_pos e)
  have hlog : (num * stepsInOne / den).log2 < k + e := by
    by_cases hzero : num * stepsInOne / den = 0
    · rw [hzero, Nat.log2_zero]
      omega
    · exact (Nat.log2_lt hzero).2 hcount
  have hdoublings : doublings num den ≤ 2044 := by
    unfold doublings
    omega
  have hrounded := (rounded_bounds num hden).1
  have hbits : infinityBits = 2047 * 2 ^ 52 := by decide
  rw [isFinite_nearest_iff]
  omega

/-- The steps of the nearest number are the rounded quotient, doubled as often as needed. -/
theorem steps_nearest (hden : 0 < den) (hfinite : (nearest num den).isFinite = true) :
    (nearest num den).steps = rounded num den * 2 ^ doublings num den := by
  have hlt := isFinite_nearest_iff.1 hfinite
  obtain ⟨hle, hnormal⟩ := rounded_bounds num hden
  unfold nearest
  rw [nearestMagnitude_eq, Nat.min_eq_left (Nat.le_of_lt hlt)]
  exact steps_ofParts false hle hnormal hlt

/-- The steps are off by one part in `2 ^ 53` at most, if the quotient is in the normal range. -/
theorem steps_nearest_error (hden : 0 < den) (hfinite : (nearest num den).isFinite = true)
    (hnormal : 2 ^ 52 * den ≤ num * stepsInOne) :
    2 ^ 53 * (num * stepsInOne) ≤
        2 ^ 53 * ((nearest num den).steps * den) + num * stepsInOne ∧
      2 ^ 53 * ((nearest num den).steps * den) ≤
        2 ^ 53 * (num * stepsInOne) + num * stepsInOne := by
  have hpos : 0 < den * 2 ^ doublings num den := Nat.mul_pos hden (Nat.two_pow_pos _)
  -- One unit of the rounded quotient is one part in `2 ^ 52` of it at most.
  have hunit : 2 ^ 52 * (den * 2 ^ doublings num den) ≤ num * stepsInOne := by
    obtain hzero | hle := (doublings_bounds num hden).2
    · rw [hzero, Nat.pow_zero, Nat.mul_one]
      exact hnormal
    · exact hle
  have hsteps : (nearest num den).steps * den =
      rounded num den * (den * 2 ^ doublings num den) := by
    rw [steps_nearest hden hfinite, Nat.mul_assoc, Nat.mul_comm den]
  have herror := roundHalfEven_error (num * stepsInOne) hpos
  change _ ≤ 2 * (rounded num den * _) + _ ∧ 2 * (rounded num den * _) ≤ _ at herror
  rw [← hsteps] at herror
  omega

/-- A quotient of less than `2 ^ 52` steps is rounded to no more of them. -/
theorem steps_nearest_le (hden : 0 < den) (hfinite : (nearest num den).isFinite = true)
    (hsmall : num * stepsInOne < 2 ^ 52 * den) : (nearest num den).steps ≤ 2 ^ 52 := by
  have hpos : 0 < den * 2 ^ doublings num den := Nat.mul_pos hden (Nat.two_pow_pos _)
  have hle : den ≤ den * 2 ^ doublings num den := Nat.le_mul_of_pos_right _ (Nat.two_pow_pos _)
  have hzero : doublings num den = 0 := by
    obtain hzero | hnormal := (doublings_bounds num hden).2
    · exact hzero
    · omega
  have hrounded : rounded num den ≤ 2 ^ 52 := roundHalfEven_le hpos (by omega)
  rw [steps_nearest hden hfinite, hzero, Nat.pow_zero, Nat.mul_one]
  exact hrounded

/-- A natural of at most fifty-three binary digits is a number of its own. -/
theorem steps_ofNat {n : Nat} (h : n < 2 ^ 53) : (ofNat n).steps = n * stepsInOne := by
  have hden : 0 < 1 := Nat.one_pos
  have hfinite : (nearest n 1).isFinite = true :=
    isFinite_nearest hden (k := 53) (by decide) (by rwa [Nat.one_mul])
  obtain ⟨e, -, hone⟩ := exists_stepsInOne_eq
  have hle : doublings n 1 ≤ e := by
    obtain hzero | hle := (doublings_bounds n hden).2
    · omega
    · have hlt : n * stepsInOne < 2 ^ 53 * 2 ^ e := by
        rw [hone]
        exact Nat.mul_lt_mul_of_pos_right h (Nat.two_pow_pos e)
      rw [Nat.one_mul, ← Nat.pow_add] at hle
      rw [← Nat.pow_add] at hlt
      have hexponent := (Nat.pow_lt_pow_iff_right (by decide)).1 (Nat.lt_of_le_of_lt hle hlt)
      omega
  have hexact : n * stepsInOne =
      n * 2 ^ (e - doublings n 1) * (1 * 2 ^ doublings n 1) := by
    rw [hone, Nat.one_mul, Nat.mul_assoc, ← Nat.pow_add, Nat.sub_add_cancel hle]
  unfold ofNat
  rw [steps_nearest hden hfinite, rounded, hexact,
    roundHalfEven_mul_right _ (Nat.mul_pos hden (Nat.two_pow_pos _)), Nat.one_mul]

end

end Binary64

end PredictionMarket
