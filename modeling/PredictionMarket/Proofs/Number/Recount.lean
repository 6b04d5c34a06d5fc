import Mathlib.Algebra.Order.Ring.Int
import Mathlib.Tactic.Ring
import Mathlib.Tactic.Zify
import PredictionMarket.Proofs.Number.Accuracy

/-!
# Billionths counted again

A count of billionths is read as the binary number nearest to it, and the billionths in that number
are counted again: it is multiplied by `10 ^ 9`, rounded, and cut off. Both roundings are computed
here, so that it shows for which counts the same one comes out.

## Main definitions

* `Fixed.slip`: by how much the second count differs from the first.

## Main results

* `Binary64.floor_nearest_of_bounds`: the whole part of the number nearest to a quotient, once it is
  known between which powers of two that lies.
* `Fixed.ofBinary64?_nearest`: the second count.
-/

namespace PredictionMarket

/-- Rounding depends on the quotient alone. -/
theorem roundHalfEven_mul_mul (num den : ℕ) {c : ℕ} (hc : 0 < c) :
    roundHalfEven (num * c) (den * c) = roundHalfEven num den := by
  have hup : den * c < 2 * (num % den * c) ↔ den < 2 * (num % den) := by
    rw [← Nat.mul_assoc, Nat.mul_lt_mul_right hc]
  have htie : 2 * (num % den * c) = den * c ↔ 2 * (num % den) = den := by
    rw [← Nat.mul_assoc, Nat.mul_left_inj hc.ne']
  simp only [roundHalfEven, Nat.mul_div_mul_right _ _ hc, Nat.mul_mod_mul_right, Bool.or_eq_true,
    Bool.and_eq_true, decide_eq_true_eq, beq_iff_eq, hup, htie]

/-- A quotient is rounded up from one half on, at one half itself only from an odd number. -/
theorem roundHalfEven_of_rest (n : ℕ) {rest den : ℕ} (h : rest < den) :
    roundHalfEven (n * den + rest) den =
      if den < 2 * rest ∨ (2 * rest = den ∧ n % 2 = 1) then n + 1 else n := by
  have hdiv : (n * den + rest) / den = n := by
    rw [Nat.add_comm, Nat.add_mul_div_right _ _ (by omega), Nat.div_eq_of_lt h, Nat.zero_add]
  have hmod : (n * den + rest) % den = rest := by
    rw [Nat.add_comm, Nat.add_mul_mod_self_right, Nat.mod_eq_of_lt h]
  simp only [roundHalfEven, hdiv, hmod, Bool.or_eq_true, Bool.and_eq_true, decide_eq_true_eq,
    beq_iff_eq]

/-- Unless it lies halfway, a quotient is rounded by its balanced remainder. -/
theorem roundHalfEven_mul_eq {num den : ℕ} (hden : 0 < den) (hne : 2 * (num % den) ≠ den) :
    (roundHalfEven num den * den : ℤ) = num - Int.bmod num den := by
  have hsplit : num / den * den + num % den = num := Nat.div_add_mod' num den
  have hround := roundHalfEven_of_rest (num / den) (Nat.mod_lt num hden)
  rw [hsplit] at hround
  rw [hround, Int.bmod_def]
  have hcast : (num / den : ℕ) * (den : ℤ) + (num % den : ℕ) = num := by exact_mod_cast hsplit
  have hmod : (num : ℤ) % den = (num % den : ℕ) := (Int.natCast_mod num den).symm
  rw [hmod]
  split_ifs with h₁ h₂ h₂
  · omega
  · push_cast at hcast ⊢
    rw [add_mul]
    omega
  · push_cast at hcast ⊢
    omega
  · omega

/-- A quotient that is off a number by less than one is rounded by how much it is off. -/
theorem roundHalfEven_of_offset {n num den : ℕ} {off : ℤ} (hn : 0 < n)
    (hnum : (num : ℤ) = n * den - off) (hoff : |off| < den) :
    (roundHalfEven num den : ℤ) = n +
      if den < 2 * off ∨ (2 * off = den ∧ n % 2 = 1) then -1
      else if 2 * off < -den ∨ (2 * off = -den ∧ n % 2 = 1) then 1 else 0 := by
  obtain ⟨habove, hbelow⟩ := abs_lt.1 hoff
  by_cases hsign : 0 < off
  · -- The quotient lies above the number before.
    obtain ⟨n, rfl⟩ := Nat.exists_eq_succ_of_ne_zero hn.ne'
    have hnum' : num = n * den + (den - off).toNat := by
      zify
      rw [Int.toNat_of_nonneg (by omega), hnum]
      push_cast
      ring
    rw [hnum', roundHalfEven_of_rest n (by omega)]
    split_ifs <;> omega
  · have hnum' : num = n * den + (-off).toNat := by
      zify
      rw [Int.toNat_of_nonneg (by omega), hnum]
      ring
    rw [hnum', roundHalfEven_of_rest n (by omega)]
    split_ifs <;> omega

namespace Binary64

section

variable {num den : ℕ}

/-- The nearest number depends on the quotient alone. -/
theorem nearest_mul_mul (num den : ℕ) {c : ℕ} (hc : 0 < c) :
    nearest (num * c) (den * c) = nearest num den := by
  have hdoublings : doublings (num * c) (den * c) = doublings num den := by
    unfold doublings
    rw [Nat.mul_right_comm, Nat.mul_div_mul_right _ _ hc]
  have hrounded : rounded (num * c) (den * c) = rounded num den := by
    unfold rounded
    rw [hdoublings, Nat.mul_right_comm num, Nat.mul_right_comm den, roundHalfEven_mul_mul _ _ hc]
  unfold nearest
  rw [nearestMagnitude_eq, nearestMagnitude_eq, hdoublings, hrounded]

variable {t : ℕ} (hden : 0 < den) (hlow : 2 ^ 52 * den ≤ num * 2 ^ t)
  (hhigh : num * 2 ^ t < 2 ^ 53 * den)
include hden hlow hhigh

/-- The number has as many doublings as its digits after the point leave of those of one. -/
theorem doublings_of_bounds {d : ℕ} (hone : stepsInOne = 2 ^ (t + d)) : doublings num den = d := by
  have hcount : num * stepsInOne = num * 2 ^ t * 2 ^ d := by
    rw [hone, Nat.pow_add, ← Nat.mul_assoc]
  have hle : den ≤ num * 2 ^ t * 2 ^ d :=
    le_trans (by omega) (Nat.le_mul_of_pos_right _ (Nat.two_pow_pos d))
  have hlog : (num * stepsInOne / den).log2 = 52 + d := by
    rw [hcount, Nat.log2_eq_iff (Nat.div_pos hle hden).ne', Nat.le_div_iff_mul_le hden,
      Nat.div_lt_iff_lt_mul hden, Nat.add_right_comm, Nat.pow_add, Nat.pow_add 2 (52 + 1),
      Nat.mul_right_comm, Nat.mul_right_comm (2 ^ (52 + 1))]
    exact ⟨Nat.mul_le_mul_right _ hlow, Nat.mul_lt_mul_of_pos_right hhigh (Nat.two_pow_pos d)⟩
  unfold doublings
  omega

variable (ht : t ≤ 1074)
include ht

/-- A quotient with fifty-three binary digits, `t` of them after the point, is rounded after these.
-/
theorem steps_nearest_of_bounds :
    (nearest num den).isFinite = true ∧
      (nearest num den).steps * 2 ^ t = roundHalfEven (num * 2 ^ t) den * stepsInOne := by
  obtain ⟨e, he, hone⟩ := exists_stepsInOne_eq
  obtain ⟨d, rfl⟩ : ∃ d, e = t + d := ⟨e - t, by omega⟩
  have hdoublings := doublings_of_bounds hden hlow hhigh hone
  have hfinite : (nearest num den).isFinite = true := by
    refine isFinite_nearest hden (k := 53) (by decide) ?_
    have hle : num ≤ num * 2 ^ t := Nat.le_mul_of_pos_right num (Nat.two_pow_pos t)
    omega
  refine ⟨hfinite, ?_⟩
  calc (nearest num den).steps * 2 ^ t
      = roundHalfEven (num * stepsInOne) (den * 2 ^ d) * 2 ^ d * 2 ^ t := by
        rw [steps_nearest hden hfinite, rounded, hdoublings]
    _ = roundHalfEven (num * 2 ^ t * 2 ^ d) (den * 2 ^ d) * (2 ^ t * 2 ^ d) := by
        rw [hone, Nat.pow_add, ← Nat.mul_assoc num, Nat.mul_assoc, Nat.mul_comm (2 ^ d) (2 ^ t)]
    _ = roundHalfEven (num * 2 ^ t) den * stepsInOne := by
        rw [roundHalfEven_mul_mul _ _ (Nat.two_pow_pos d), hone, Nat.pow_add]

/-- The whole part of the nearest number is the quotient rounded with the spare bits, which are then
cut off. -/
theorem floor_nearest_of_bounds :
    (nearest num den).floor = roundHalfEven (num * 2 ^ t) den / 2 ^ t := by
  obtain ⟨-, hsteps⟩ := steps_nearest_of_bounds hden hlow hhigh ht
  rw [floor, ← Nat.mul_div_mul_right _ stepsInOne (Nat.two_pow_pos t), hsteps,
    Nat.mul_comm stepsInOne, Nat.mul_div_mul_right _ _ stepsInOne_pos]

end

end Binary64

namespace Fixed

open Binary64

/-- A number with as many doublings as give it fifty-three binary digits. -/
def lengthened (n : ℕ) : ℕ :=
  n * 2 ^ (52 - n.log2)

/-- By how many units of its last digit a number of fifty-three digits is off after both roundings.
The first one leaves a balanced remainder. The second one shows it only where the product with
`10 ^ 9` has but twenty-nine digits more, and then from one half of a unit on. -/
def turn (m : ℕ) : ℤ :=
  let off := Int.bmod (m * 2 ^ 29 : ℕ) (10 ^ 9)
  if m < 10 ^ 9 * 2 ^ 23 then 0
  else if 2 ^ 28 < off ∨ (off = 2 ^ 28 ∧ m % 2 = 1) then -1
  else if off < -2 ^ 28 ∨ (off = -2 ^ 28 ∧ m % 2 = 1) then 1
  else 0

/-- By how much the second count of `n` billionths differs from the first. What is added in a digit
after the point is cut off again. -/
def slip (n : ℕ) : ℤ :=
  turn (lengthened n) / 2 ^ (52 - n.log2)

/-- How many digits the product with `10 ^ 9` has beyond fifty-three. -/
def spare (m : ℕ) : ℕ :=
  if m < 10 ^ 9 * 2 ^ 23 then 30 else 29

/-- What the first rounding leaves is less than a unit of the product's last digit. -/
theorem half_lt_two_pow_spare (m : ℕ) : 5 * 10 ^ 8 < 2 ^ spare m := by
  unfold spare
  split <;> decide

/-- The product with the units in one has at most thirty bits more. -/
theorem spare_le (m : ℕ) : spare m ≤ 30 := by
  unfold spare
  split <;> decide

section

variable {m : ℕ}

/-- The first rounding leaves a balanced remainder. -/
theorem first_rounding (m : ℕ) :
    (roundHalfEven (m * 2 ^ spare m) (10 ^ 9) * 10 ^ 9 : ℤ) =
        m * 2 ^ spare m - Int.bmod (m * 2 ^ spare m : ℕ) (10 ^ 9) ∧
      |Int.bmod (m * 2 ^ spare m : ℕ) (10 ^ 9)| < 5 * 10 ^ 8 := by
  -- A multiple of `2 ^ 9` is never halfway between multiples of `10 ^ 9`.
  have hne : 2 * (m * 2 ^ spare m % 10 ^ 9) ≠ 10 ^ 9 := by
    unfold spare
    split <;> omega
  have hround := roundHalfEven_mul_eq (by decide) hne
  push_cast at hround
  refine ⟨by exact_mod_cast hround, ?_⟩
  generalize m * 2 ^ spare m = num at hne
  rw [Int.bmod_def, abs_lt]
  split <;> omega

/-- The second rounding leaves the number, or turns it into the one before or after it. -/
theorem second_rounding (hpos : 0 < m) :
    (roundHalfEven (roundHalfEven (m * 2 ^ spare m) (10 ^ 9) * 10 ^ 9) (2 ^ spare m) : ℤ) =
      m + turn m := by
  obtain ⟨hfirst, hoff⟩ := first_rounding m
  have hden : |Int.bmod (m * 2 ^ spare m : ℕ) (10 ^ 9)| < (2 ^ spare m : ℕ) :=
    lt_trans hoff (by exact_mod_cast half_lt_two_pow_spare m)
  rw [roundHalfEven_of_offset hpos (by exact_mod_cast hfirst) hden, turn, add_right_inj]
  by_cases hshort : m < 10 ^ 9 * 2 ^ 23
  · -- The remainder is less than one half of a unit.
    have hspare : spare m = 30 := if_pos hshort
    rw [hspare] at hoff ⊢
    rw [if_pos hshort]
    generalize Int.bmod (m * 2 ^ 30 : ℕ) (10 ^ 9) = off at hoff ⊢
    obtain ⟨habove, hbelow⟩ := abs_lt.1 hoff
    rw [if_neg (by omega), if_neg (by omega)]
  · have hspare : spare m = 29 := if_neg hshort
    rw [hspare, if_neg hshort]
    generalize Int.bmod (m * 2 ^ 29 : ℕ) (10 ^ 9) = off
    split_ifs <;> omega

section

variable (hlow : 2 ^ 52 ≤ m) (hhigh : m < 2 ^ 53)
include hlow hhigh

/-- With its spare digits, a number of fifty-three digits has a quotient by `10 ^ 9` of as many. -/
theorem mul_spare_bounds :
    2 ^ 52 * 10 ^ 9 ≤ m * 2 ^ spare m ∧ m * 2 ^ spare m < 2 ^ 53 * 10 ^ 9 := by
  unfold spare
  split <;> omega

/-- After the first rounding the product with `10 ^ 9` still has as many digits. -/
theorem first_rounding_bounds :
    2 ^ 52 * 2 ^ spare m ≤ roundHalfEven (m * 2 ^ spare m) (10 ^ 9) * 10 ^ 9 ∧
      roundHalfEven (m * 2 ^ spare m) (10 ^ 9) * 10 ^ 9 < 2 ^ 53 * 2 ^ spare m := by
  obtain ⟨hfirst, hoff⟩ := first_rounding m
  have hspare := half_lt_two_pow_spare m
  obtain ⟨habove, hbelow⟩ := abs_lt.1 hoff
  -- The remainder is less than what one more or one less in `m` makes.
  have hupper : (m + 1) * 2 ^ spare m ≤ 2 ^ 53 * 2 ^ spare m := Nat.mul_le_mul_right _ hhigh
  rw [Nat.add_mul] at hupper
  zify at hspare hupper ⊢
  refine ⟨?_, by omega⟩
  obtain rfl | hlt := Nat.eq_or_lt_of_le hlow
  · -- Two to the eighty-second is rounded up.
    have hdown : Int.bmod (2 ^ 52 * 2 ^ spare (2 ^ 52) : ℕ) (10 ^ 9) ≤ 0 := by decide
    omega
  · have hlower : (2 ^ 52 + 1) * 2 ^ spare m ≤ m * 2 ^ spare m := Nat.mul_le_mul_right _ hlt
    rw [Nat.add_mul] at hlower
    zify at hlower
    omega

end

/-! ### The second count -/

theorem unitsInOne_eq : unitsInOne = 10 ^ 9 := by decide

section

variable {n : ℕ} (hpos : 0 < n) (hlt : n < 2 ^ 53)
include hpos hlt

/-- A number of at most fifty-three bits has its leading bit at place fifty-two or below. -/
theorem log2_le : n.log2 ≤ 52 := by
  have h := (Nat.log2_lt hpos.ne').2 hlt
  omega

/-- A lengthened number has exactly fifty-three bits. -/
theorem lengthened_bounds : 2 ^ 52 ≤ lengthened n ∧ lengthened n < 2 ^ 53 := by
  have hle := log2_le hpos hlt
  have hafter : 0 < 2 ^ (52 - n.log2) := Nat.two_pow_pos _
  have hlow := Nat.mul_le_mul_right (2 ^ (52 - n.log2)) (Nat.log2_self_le hpos.ne')
  have hhigh := Nat.mul_lt_mul_of_pos_right (Nat.lt_log2_self (n := n)) hafter
  rw [← Nat.pow_add, Nat.add_sub_cancel' hle] at hlow
  rw [← Nat.pow_add, Nat.add_right_comm, Nat.add_sub_cancel' hle] at hhigh
  exact ⟨hlow, hhigh⟩

/-- The product is a quotient that has as many digits again, but for those after the point. -/
theorem nearest_mul_unitsInOne :
    nearest n (10 ^ 9) * ofNat unitsInOne =
      nearest (roundHalfEven (lengthened n * 2 ^ spare (lengthened n)) (10 ^ 9) * 10 ^ 9)
        (2 ^ (52 - n.log2 + spare (lengthened n))) := by
  obtain ⟨hlow, hhigh⟩ := lengthened_bounds hpos hlt
  obtain ⟨hquotient, hquotient'⟩ := mul_spare_bounds hlow hhigh
  have hspare : spare (lengthened n) ≤ 30 := spare_le _
  have hdigits : n * 2 ^ (52 - n.log2 + spare (lengthened n)) =
      lengthened n * 2 ^ spare (lengthened n) := by
    rw [Nat.pow_add, ← Nat.mul_assoc, lengthened]
  have hunits : (ofNat unitsInOne).steps = unitsInOne * stepsInOne := steps_ofNat (by decide)
  generalize spare (lengthened n) = s at *
  rw [← hdigits] at hquotient hquotient'
  obtain ⟨hfinite, hsteps⟩ :=
    steps_nearest_of_bounds (by decide) hquotient hquotient' (by omega)
  rw [hdigits] at hsteps
  have hone : 0 < stepsInOne * stepsInOne := Nat.mul_pos stepsInOne_pos stepsInOne_pos
  -- Both sides of the quotient are doubled until the steps of the first factor are known.
  rw [mul_eq_nearest hfinite near_unitsInOne.finite isNegative_nearest near_unitsInOne.nonneg,
    hunits, unitsInOne_eq, ← nearest_mul_mul _ _ (Nat.two_pow_pos (52 - n.log2 + s)),
    Nat.mul_right_comm, hsteps, Nat.mul_mul_mul_comm, Nat.mul_comm (stepsInOne * stepsInOne),
    nearest_mul_mul _ _ hone]

/-- Both roundings, and what the whole part keeps of them. -/
theorem floor_recount :
    (nearest n (10 ^ 9) * ofNat unitsInOne).isFinite = true ∧
      ((nearest n (10 ^ 9) * ofNat unitsInOne).floor : ℤ) = n + slip n := by
  obtain ⟨hlow, hhigh⟩ := lengthened_bounds hpos hlt
  obtain ⟨hproduct, hproduct'⟩ := first_rounding_bounds hlow hhigh
  have hrounded := second_rounding (m := lengthened n) (by omega)
  rw [nearest_mul_unitsInOne hpos hlt, slip]
  generalize roundHalfEven (lengthened n * 2 ^ spare (lengthened n)) (10 ^ 9) * 10 ^ 9 = num at *
  generalize spare (lengthened n) = s at *
  have hafter : 0 < 2 ^ (52 - n.log2) := Nat.two_pow_pos _
  have hden : 2 ^ (52 - n.log2 + s) = 2 ^ s * 2 ^ (52 - n.log2) := by
    rw [Nat.add_comm, Nat.pow_add]
  have hlow' : 2 ^ 52 * 2 ^ (52 - n.log2 + s) ≤ num * 2 ^ (52 - n.log2) := by
    rw [hden, ← Nat.mul_assoc]
    exact Nat.mul_le_mul_right _ hproduct
  have hhigh' : num * 2 ^ (52 - n.log2) < 2 ^ 53 * 2 ^ (52 - n.log2 + s) := by
    rw [hden, ← Nat.mul_assoc]
    exact Nat.mul_lt_mul_of_pos_right hproduct' hafter
  refine ⟨(steps_nearest_of_bounds (Nat.two_pow_pos _) hlow' hhigh' (by omega)).1, ?_⟩
  rw [floor_nearest_of_bounds (Nat.two_pow_pos _) hlow' hhigh' (by omega), hden,
    roundHalfEven_mul_mul _ _ hafter]
  push_cast
  rw [hrounded, lengthened]
  push_cast
  rw [Int.add_comm, Int.add_mul_ediv_right _ _ (by positivity), Int.add_comm]

end

end

/-- Two roundings are off by one unit of the last digit at most. -/
theorem turn_bounds (m : ℕ) : -1 ≤ turn m ∧ turn m ≤ 1 := by
  unfold turn
  dsimp only
  split_ifs <;> decide

/-- A number of billionths that is a binary fraction of twenty-nine digits is counted right. -/
theorem slip_eq_zero_of_dvd {n : ℕ} (h : 10 ^ 9 ∣ n * 2 ^ 29) : slip n = 0 := by
  have hdvd : 10 ^ 9 ∣ lengthened n * 2 ^ 29 := by
    rw [lengthened, Nat.mul_right_comm]
    exact Dvd.dvd.mul_right h _
  have hoff : Int.bmod (lengthened n * 2 ^ 29 : ℕ) (10 ^ 9) = 0 :=
    Int.bmod_eq_zero_of_dvd (by exact_mod_cast hdvd)
  have hturn : turn (lengthened n) = 0 := by
    unfold turn
    rw [hoff]
    split <;> rfl
  rw [slip, hturn, Int.zero_ediv]

/-- The second count is never off by more than one. -/
theorem slip_bounds (n : ℕ) : -1 ≤ slip n ∧ slip n ≤ 1 := by
  obtain ⟨hlow, hhigh⟩ := turn_bounds (lengthened n)
  have hpos : (0 : ℤ) < 2 ^ (52 - n.log2) := by positivity
  constructor
  · rw [slip, Int.le_ediv_iff_mul_le hpos]
    omega
  · rw [slip, ← Int.lt_add_one_iff, Int.ediv_lt_iff_lt_mul hpos]
    omega

/-- The second count. -/
theorem ofBinary64?_nearest {n : ℕ} (hpos : 0 < n) (hlt : n < 2 ^ 53) :
    ∃ raw, ofBinary64? (nearest n (10 ^ 9)) = some raw ∧ (raw.toNat : ℤ) = n + slip n := by
  obtain ⟨hfinite, hfloor⟩ := floor_recount hpos hlt
  obtain ⟨hlow, hhigh⟩ := slip_bounds n
  have hsize : UInt64.size = 2 ^ 64 := rfl
  have hone : 1 ≤ (nearest n (10 ^ 9) * ofNat unitsInOne).floor := by
    -- Only a single billionth could be lost altogether.
    by_cases hone : n = 1
    · have hslip : slip 1 = 0 := by decide
      subst hone
      rw [hslip] at hfloor
      omega
    · omega
  refine ⟨cap (nearest n (10 ^ 9) * ofNat unitsInOne).floor, if_pos ?_, ?_⟩
  · simp only [hfinite, Bool.true_and, Bool.and_eq_true, decide_eq_true_eq]
    omega
  · rw [toNat_cap, maximum]
    omega

end Fixed

end PredictionMarket
