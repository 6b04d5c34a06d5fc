import PredictionMarket.Proofs.Number.Accuracy

/-!
# No number is closer

The number nearest to a quotient is compared with every finite number of either sign. Those of a
greater exponent lie on the same grid, on which the quotient was rounded. The others lie below the
part of the grid that the quotient is in, so the lower end of that part is closer than they are.

## Main definitions

* `Binary64.signedValue`: the value of a finite number.
* `Binary64.IsNearest`: a finite number such that no other one is closer to a quotient, nor as close
  unless its own significand is even.

## Main results

* `Binary64.isNearest_nearest`: the rounded quotient is nearest.
-/

namespace PredictionMarket

/-- The rounding of a half is even. -/
theorem even_roundHalfEven_of_half {num den : ℕ} (h : 2 * (num % den) = den) :
    roundHalfEven num den % 2 = 0 := by
  simp only [roundHalfEven, h, lt_irrefl, decide_false, beq_self_eq_true, Bool.true_and,
    Bool.false_or, beq_iff_eq]
  split <;> omega

/-- A rounded quotient is the quotient cut off, or one more. -/
theorem roundHalfEven_eq_or (num den : ℕ) :
    roundHalfEven num den = num / den ∨ roundHalfEven num den = num / den + 1 := by
  unfold roundHalfEven
  dsimp only
  split
  · exact .inr rfl
  · exact .inl rfl

/-- The multiple of the divisor that is rounded to is half of the divisor away at most. So every
other multiple is half of it away at least, and that much only if there is half of it left over. -/
theorem roundHalfEven_closest (num k : ℕ) {den : ℕ} (hden : 0 < den) :
    |(roundHalfEven num den * den : ℤ) - num| ≤ |(k * den : ℤ) - num| ∧
      (|(k * den : ℤ) - num| = |(roundHalfEven num den * den : ℤ) - num| →
        k ≠ roundHalfEven num den → roundHalfEven num den % 2 = 0) := by
  have hsplit : num / den * den + num % den = num := Nat.div_add_mod' num den
  have hrest : num % den < den := Nat.mod_lt num hden
  have herror := roundHalfEven_error num hden
  have hhalf : 2 * (num % den) = den → roundHalfEven num den % 2 = 0 := even_roundHalfEven_of_half
  have hmultiple : roundHalfEven num den * den = num / den * den ∨
      roundHalfEven num den * den = num / den * den + den := by
    obtain h | h := roundHalfEven_eq_or num den
    · exact .inl (congrArg (· * den) h)
    · exact .inr (by rw [h, Nat.add_mul, Nat.one_mul])
  generalize roundHalfEven num den = r at *
  by_cases hsame : k = r
  · rw [hsame]
    exact ⟨le_rfl, fun _ hne => absurd rfl hne⟩
  have hapart : k * den + den ≤ r * den ∨ r * den + den ≤ k * den := by
    rw [← Nat.succ_mul, ← Nat.succ_mul]
    exact (Nat.lt_or_gt_of_ne hsame).imp (Nat.mul_le_mul_right den) (Nat.mul_le_mul_right den)
  constructor
  · rw [abs_eq_max_neg, abs_eq_max_neg]
    omega
  · intro htie _
    obtain heq | heq := abs_eq_abs.1 htie <;> exact hhalf (by omega)

namespace Binary64

/-- The steps of a finite number, below zero if it is. -/
def signedSteps (x : Binary64) : ℤ :=
  if x.isNegative then -x.steps else x.steps

/-- The value of a finite number. -/
def signedValue (x : Binary64) : ℚ :=
  if x.isNegative then -x.value else x.value

/-- A finite number nearest to a quotient. Halfway between two, it is the one whose significand is
even. -/
structure IsNearest (q : ℚ) (x : Binary64) : Prop where
  finite : x.isFinite = true
  closest : ∀ y : Binary64, y.isFinite = true → |x.signedValue - q| ≤ |y.signedValue - q|
  even : ∀ y : Binary64, y.isFinite = true → |y.signedValue - q| = |x.signedValue - q| →
    y.signedValue ≠ x.signedValue → x.significand % 2 = 0

variable {num den : ℕ}

/-- A significand has fifty-three bits. -/
theorem significand_lt (x : Binary64) : x.significand < 2 ^ 53 := by
  unfold significand
  rw [leadingBit_eq]
  split <;> omega

/-- The last bit of a significand is the last bit of the magnitude. -/
theorem significand_mod_two (x : Binary64) : x.significand % 2 = x.magnitude % 2 := by
  unfold significand
  rw [leadingBit_eq]
  split <;> omega

/-- The distance of a number to a quotient, over a common denominator. -/
theorem signedValue_sub (x : Binary64) (num : ℕ) (hden : 0 < den) :
    x.signedValue - num / den =
      ((x.signedSteps * den - (num * stepsInOne : ℕ) : ℤ) : ℚ) / (stepsInOne * den) := by
  have hone := cast_stepsInOne_pos
  have hdenPos : (0 : ℚ) < den := by exact_mod_cast hden
  have hsteps : x.signedValue = x.signedSteps / stepsInOne := by
    unfold signedValue signedSteps value
    split
    · push_cast
      rw [neg_div]
    · push_cast
      rfl
  rw [hsteps, div_sub_div _ _ hone.ne' hdenPos.ne']
  push_cast
  ring

/-- Next to every number there is a multiple of the unit that the quotient is rounded to. It is
closer to the quotient, or the number itself. -/
theorem exists_multiple_closer (num : ℕ) (hden : 0 < den) (y : Binary64) :
    ∃ k : ℕ, k * (den * 2 ^ doublings num den : ℤ) = y.signedSteps * den ∨
      |k * (den * 2 ^ doublings num den : ℤ) - (num * stepsInOne : ℕ)| <
        |y.signedSteps * den - (num * stepsInOne : ℕ)| := by
  obtain ⟨-, hnormal⟩ := doublings_bounds num hden
  unfold signedSteps
  generalize num * stepsInOne = count at *
  split
  · -- A number below zero is farther away than zero.
    have hnonneg : (0 : ℤ) ≤ y.steps * den := by positivity
    refine ⟨0, ?_⟩
    rw [Nat.cast_zero, zero_mul, neg_mul, abs_eq_max_neg, abs_eq_max_neg]
    omega
  · unfold steps
    rw [Nat.pow_eq]
    obtain hgrid | hbelow : doublings num den ≤ y.scale ∨ y.scale < doublings num den := by omega
    · refine ⟨y.significand * 2 ^ (y.scale - doublings num den), .inl ?_⟩
      have hpow :
          (2 : ℤ) ^ (y.scale - doublings num den) * 2 ^ doublings num den = 2 ^ y.scale := by
        rw [← pow_add, Nat.sub_add_cancel hgrid]
      push_cast
      rw [← hpow]
      ring
    · refine ⟨2 ^ 52, .inr ?_⟩
      have hcount := hnormal.resolve_left (by omega)
      have hpow : 2 * 2 ^ y.scale ≤ 2 ^ doublings num den := by
        rw [← Nat.pow_succ']
        exact Nat.pow_le_pow_right (by decide) hbelow
      have hless : y.significand * 2 ^ y.scale * den < 2 ^ 52 * (den * 2 ^ doublings num den) := by
        calc y.significand * 2 ^ y.scale * den
            < 2 ^ 53 * 2 ^ y.scale * den := by gcongr; exact y.significand_lt
          _ = 2 ^ 52 * (den * (2 * 2 ^ y.scale)) := by ring
          _ ≤ 2 ^ 52 * (den * 2 ^ doublings num den) := by gcongr
      rw [abs_eq_max_neg, abs_eq_max_neg]
      push_cast
      zify at hless hcount
      omega

/-- What `roundHalfEven_closest` says of multiples holds of all numbers. -/
theorem rounded_closest (num : ℕ) (hden : 0 < den) (y : Binary64) :
    |rounded num den * (den * 2 ^ doublings num den : ℤ) - (num * stepsInOne : ℕ)| ≤
        |y.signedSteps * den - (num * stepsInOne : ℕ)| ∧
      (|y.signedSteps * den - (num * stepsInOne : ℕ)| =
          |rounded num den * (den * 2 ^ doublings num den : ℤ) - (num * stepsInOne : ℕ)| →
        y.signedSteps * den ≠ rounded num den * (den * 2 ^ doublings num den : ℤ) →
        rounded num den % 2 = 0) := by
  have hunit : 0 < den * 2 ^ doublings num den := Nat.mul_pos hden (Nat.two_pow_pos _)
  obtain ⟨k, hmultiple⟩ := exists_multiple_closer num hden y
  obtain ⟨hle, htie⟩ := roundHalfEven_closest (num * stepsInOne) k hunit
  rw [Nat.cast_mul den, Nat.cast_pow, Nat.cast_ofNat] at hle htie
  obtain heq | hcloser := hmultiple
  · rw [← heq]
    refine ⟨hle, fun hsame hne => htie hsame fun hk => hne ?_⟩
    rw [hk]
    rfl
  · exact ⟨hle.trans hcloser.le, fun hsame _ => absurd hsame (hle.trans_lt hcloser).ne'⟩

/-- The steps of the nearest number are the rounded quotient, doubled as often as needed. -/
theorem signedSteps_nearest (hden : 0 < den) (hfinite : (nearest num den).isFinite = true) :
    (nearest num den).signedSteps * den =
      rounded num den * (den * 2 ^ doublings num den : ℤ) := by
  unfold signedSteps
  rw [isNegative_nearest, steps_nearest hden hfinite, if_neg Bool.false_ne_true]
  push_cast
  ring

/-- The significand of the nearest number is even just if the rounded quotient is. -/
theorem significand_nearest_mod_two (hfinite : (nearest num den).isFinite = true) :
    (nearest num den).significand % 2 = rounded num den % 2 := by
  have hlt := isFinite_nearest_iff.1 hfinite
  rw [significand_mod_two, nearest, magnitude_ofParts false nearestMagnitude_lt,
    nearestMagnitude_eq, Nat.min_eq_left hlt.le]
  omega

/-- A quotient that does not overflow is rounded to the number nearest to it. -/
theorem isNearest_nearest (hden : 0 < den) (hfinite : (nearest num den).isFinite = true) :
    IsNearest (num / den) (nearest num den) := by
  have hunit : (0 : ℚ) < stepsInOne * den :=
    mul_pos cast_stepsInOne_pos (by exact_mod_cast hden)
  have hdistance (y : Binary64) : |y.signedValue - num / den| =
      (|y.signedSteps * den - (num * stepsInOne : ℕ)| : ℤ) / (stepsInOne * den) := by
    rw [signedValue_sub y num hden, abs_div, abs_of_pos hunit, Int.cast_abs]
  have hsteps := signedSteps_nearest hden hfinite
  refine ⟨hfinite, fun y _ => ?_, fun y _ hsame hne => ?_⟩
  · rw [hdistance, hdistance, hsteps]
    refine div_le_div_of_nonneg_right ?_ hunit.le
    exact_mod_cast (rounded_closest num hden y).1
  · rw [hdistance, hdistance, div_left_inj' hunit.ne', Int.cast_inj, hsteps] at hsame
    rw [significand_nearest_mod_two hfinite]
    refine (rounded_closest num hden y).2 hsame fun heq => hne ?_
    rw [← sub_left_inj (a := (num / den : ℚ)), signedValue_sub y num hden,
      signedValue_sub _ num hden, hsteps, heq]

end Binary64

end PredictionMarket
