import PredictionMarket.Proofs.Number.Accuracy

/-!
# Rounding past a threshold

Next to a power of two it shows on which side of it a quotient is rounded. Halfway the power of two
itself is taken, since its significand is even.

## Main results

* `Binary64.pow_le_steps_nearest_iff`, `Binary64.steps_nearest_lt_iff`: which quotients are rounded
  up to a power of two, and which down to it.
* `Binary64.isFinite_nearest_iff_lt`: which quotients are rounded to infinity.
* `Fixed.isSome_ofBinary64?_iff`: the numbers whose billionths a word counts.
-/

namespace PredictionMarket

section

variable (num : Nat) {n den : Nat} (hden : 0 < den) (heven : n % 2 = 0)
include hden heven

/-- Rounding reaches a whole number from a half below it on. -/
theorem le_roundHalfEven_iff : n ≤ roundHalfEven num den ↔ 2 * n * den ≤ 2 * num + den := by
  have hsplit : num / den * den + num % den = num := Nat.div_add_mod' num den
  have hrest : num % den < den := Nat.mod_lt num hden
  simp only [roundHalfEven, Bool.or_eq_true, Bool.and_eq_true, decide_eq_true_eq, beq_iff_eq]
  rw [Nat.mul_assoc]
  -- The remainder decides only if the threshold is the next number.
  obtain hbelow | hnext | habove :
      num / den + 2 ≤ n ∨ num / den + 1 = n ∨ n ≤ num / den := by omega
  · have hmul := Nat.mul_le_mul_right den hbelow
    rw [Nat.add_mul] at hmul
    split <;> omega
  · have hmul : n * den = num / den * den + den := by rw [← hnext, Nat.add_mul, Nat.one_mul]
    split <;> omega
  · have hmul := Nat.mul_le_mul_right den habove
    split <;> omega

/-- Rounding stays at a whole number up to a half above it. -/
theorem roundHalfEven_le_iff : roundHalfEven num den ≤ n ↔ 2 * num ≤ 2 * n * den + den := by
  have hsplit : num / den * den + num % den = num := Nat.div_add_mod' num den
  have hrest : num % den < den := Nat.mod_lt num hden
  simp only [roundHalfEven, Bool.or_eq_true, Bool.and_eq_true, decide_eq_true_eq, beq_iff_eq]
  rw [Nat.mul_assoc]
  obtain hbelow | hsame | habove : num / den + 1 ≤ n ∨ num / den = n ∨ n + 1 ≤ num / den := by omega
  · have hmul := Nat.mul_le_mul_right den hbelow
    rw [Nat.add_mul, Nat.one_mul] at hmul
    split <;> omega
  · rw [← hsame]
    split <;> omega
  · have hmul := Nat.mul_le_mul_right den habove
    rw [Nat.add_mul, Nat.one_mul] at hmul
    split <;> omega

end

namespace Binary64

section

variable {num den j : Nat} (hden : 0 < den) (hfinite : (nearest num den).isFinite = true)
include hden hfinite

/-- A quotient with few doublings is small, and so is the number nearest to it. -/
theorem steps_le_of_doublings_le (h : doublings num den ≤ j) :
    (nearest num den).steps ≤ 2 ^ 53 * 2 ^ j ∧ num * stepsInOne < 2 ^ 53 * (den * 2 ^ j) := by
  have hpow : 2 ^ doublings num den ≤ 2 ^ j := Nat.pow_le_pow_right (by decide) h
  have hunits := Nat.mul_le_mul_left (2 ^ 53) (Nat.mul_le_mul_left den hpow)
  rw [steps_nearest hden hfinite]
  exact ⟨Nat.mul_le_mul (rounded_bounds num hden).1 hpow,
    Nat.lt_of_lt_of_le (doublings_bounds num hden).1 hunits⟩

/-- A quotient with more doublings is great, and so is the number nearest to it. -/
theorem le_steps_of_le_doublings (h : j + 2 ≤ doublings num den) :
    2 ^ 54 * 2 ^ j ≤ (nearest num den).steps ∧ 2 ^ 54 * (den * 2 ^ j) ≤ num * stepsInOne := by
  have hpow : 2 ^ (j + 2) ≤ 2 ^ doublings num den := Nat.pow_le_pow_right (by decide) h
  have hrounded := (rounded_bounds num hden).2.resolve_left (by omega)
  have hunits := (doublings_bounds num hden).2.resolve_left (by omega)
  have hsteps := Nat.mul_le_mul hrounded hpow
  have hscaled := Nat.mul_le_mul_left den hpow
  rw [steps_nearest hden hfinite]
  rw [Nat.pow_add] at hsteps hscaled
  rw [← Nat.mul_assoc den] at hscaled
  constructor <;> omega

/-- From `2 ^ (j + 53)` to `2 ^ (j + 54)` steps the numbers are `2 ^ (j + 1)` steps apart. So the
upper end is reached from half of that below it on. -/
theorem pow_le_steps_nearest_iff (j : Nat) :
    2 ^ 54 * 2 ^ j ≤ (nearest num den).steps ↔
      (2 ^ 54 - 1) * (den * 2 ^ j) ≤ num * stepsInOne := by
  have hpos : 0 < 2 ^ j := Nat.two_pow_pos j
  -- The significand reaches `2 ^ 53` by rounding only with as many doublings as the end itself has.
  obtain hfew | hexact | hmany :
      doublings num den ≤ j ∨ doublings num den = j + 1 ∨ j + 2 ≤ doublings num den := by omega
  · obtain ⟨hsteps, hunits⟩ := steps_le_of_doublings_le hden hfinite hfew
    have hunit := Nat.mul_pos hden hpos
    omega
  · have hdouble : 2 ^ (j + 1) = 2 * 2 ^ j := by rw [Nat.pow_succ, Nat.mul_comm]
    have hunit : 0 < den * (2 * 2 ^ j) := Nat.mul_pos hden (by omega)
    have hiff := le_roundHalfEven_iff (num * stepsInOne) hunit (n := 2 ^ 53) (by decide)
    have hend : 2 ^ 54 * 2 ^ j = 2 ^ 53 * (2 * 2 ^ j) := by omega
    rw [steps_nearest hden hfinite, rounded, hexact, hdouble, hend,
      Nat.mul_le_mul_right_iff (by omega), hiff, Nat.mul_left_comm den]
    omega
  · obtain ⟨hsteps, hunits⟩ := le_steps_of_le_doublings hden hfinite hmany
    omega

/-- From `2 ^ (j + 53)` steps on the numbers are `2 ^ (j + 1)` steps apart. So none past that one is
reached up to half of that above it. -/
theorem steps_nearest_lt_iff {gap : Nat} (hpos : 0 < gap) (hgap : gap ≤ 2 ^ (j + 1)) :
    (nearest num den).steps < 2 ^ 53 * 2 ^ j + gap ↔
      num * stepsInOne ≤ (2 ^ 53 + 1) * (den * 2 ^ j) := by
  have hdouble : 2 ^ (j + 1) = 2 * 2 ^ j := by rw [Nat.pow_succ, Nat.mul_comm]
  rw [hdouble] at hgap
  obtain hfew | hexact | hmany :
      doublings num den ≤ j ∨ doublings num den = j + 1 ∨ j + 2 ≤ doublings num den := by omega
  · obtain ⟨hsteps, hunits⟩ := steps_le_of_doublings_le hden hfinite hfew
    omega
  · have hunit : 0 < den * (2 * 2 ^ j) := Nat.mul_pos hden (by omega)
    have hiff := roundHalfEven_le_iff (num * stepsInOne) hunit (n := 2 ^ 52) (by decide)
    have hend : rounded num den * (2 * 2 ^ j) < 2 ^ 53 * 2 ^ j + gap ↔
        rounded num den ≤ 2 ^ 52 := by
      constructor
      · intro h
        by_contra hnot
        have hmul := Nat.mul_le_mul_right (2 * 2 ^ j) (Nat.lt_of_not_le hnot)
        rw [Nat.succ_mul] at hmul
        omega
      · intro h
        have hmul := Nat.mul_le_mul_right (2 * 2 ^ j) h
        omega
    rw [steps_nearest hden hfinite, hexact, hdouble, hend, rounded, hexact, hdouble, hiff,
      Nat.mul_left_comm den]
    omega
  · obtain ⟨hsteps, hunits⟩ := le_steps_of_le_doublings hden hfinite hmany
    have hunit := Nat.mul_pos hden (Nat.two_pow_pos j)
    omega

/-- The nearest number is at least one from half of a last bit below one on. -/
theorem one_le_floor_nearest_iff :
    1 ≤ (nearest num den).floor ↔ (2 ^ 54 - 1) * den ≤ 2 ^ 54 * num := by
  obtain ⟨e, he, hone⟩ := exists_stepsInOne_eq
  obtain ⟨j, rfl⟩ : ∃ j, e = 54 + j := ⟨1020, he⟩
  have hpow : 2 ^ (54 + j) = 2 ^ 54 * 2 ^ j := Nat.pow_add 2 54 j
  have hiff := pow_le_steps_nearest_iff hden hfinite j
  rw [hone, hpow] at hiff
  rw [floor, Nat.le_div_iff_mul_le stepsInOne_pos, Nat.one_mul, hone, hpow, hiff, ← Nat.mul_assoc,
    ← Nat.mul_assoc, Nat.mul_comm num, Nat.mul_le_mul_right_iff (Nat.two_pow_pos j)]

/-- The nearest number is within a word up to half of the next step above it. -/
theorem floor_nearest_le_iff :
    (nearest num den).floor ≤ 2 ^ 64 ↔ num ≤ (2 ^ 64 + 2 ^ 11) * den := by
  -- No more whole ones than `2 ^ 64` are fewer steps than in the next whole number.
  obtain ⟨e, -, hone⟩ := exists_stepsInOne_eq
  have hpow : 2 ^ (e + 11) = 2 ^ 11 * 2 ^ e := by rw [Nat.pow_add, Nat.mul_comm]
  have hpos : 0 < 2 ^ e := Nat.two_pow_pos e
  have hgap : 2 ^ e ≤ 2 ^ (e + 11 + 1) := Nat.pow_le_pow_right (by decide) (by omega)
  have hiff := steps_nearest_lt_iff hden hfinite hpos hgap
  have hend : 2 ^ 53 * (2 ^ 11 * 2 ^ e) + 2 ^ e = (2 ^ 64 + 1) * 2 ^ e := by omega
  have hhalf : (2 ^ 53 + 1) * 2 ^ 11 = 2 ^ 64 + 2 ^ 11 := by decide
  have hbound : (2 ^ 53 + 1) * (den * (2 ^ 11 * 2 ^ e)) = (2 ^ 64 + 2 ^ 11) * den * 2 ^ e := by
    rw [Nat.mul_left_comm den, ← Nat.mul_assoc, ← Nat.mul_assoc, hhalf]
  rw [hone, hpow, hend, hbound, Nat.mul_le_mul_right_iff hpos] at hiff
  rw [← hiff, floor, ← Nat.lt_succ_iff, Nat.div_lt_iff_lt_mul stepsInOne_pos, hone]

end

/-- A quotient is rounded to infinity from `2 ^ 1024` less half of the last step below it on. -/
theorem isFinite_nearest_iff_lt (num : Nat) {den : Nat} (hden : 0 < den) :
    (nearest num den).isFinite = true ↔ num < (2 ^ 54 - 1) * (den * 2 ^ 970) := by
  obtain ⟨e, he, hone⟩ := exists_stepsInOne_eq
  obtain ⟨j, hj⟩ : ∃ j, j = 970 := ⟨_, rfl⟩
  obtain ⟨hbelow, habove⟩ := doublings_bounds num hden
  obtain ⟨hrounded, hnormal⟩ := rounded_bounds num hden
  have hbits : infinityBits = 2047 * 2 ^ 52 := by decide
  have hcount : num < (2 ^ 54 - 1) * (den * 2 ^ j) ↔
      num * stepsInOne < (2 ^ 54 - 1) * (den * 2 ^ (j + e)) := by
    rw [hone, Nat.pow_add, ← Nat.mul_assoc den, ← Nat.mul_assoc (2 ^ 54 - 1) (den * 2 ^ j),
      Nat.mul_lt_mul_right (Nat.two_pow_pos e)]
  rw [← hj, isFinite_nearest_iff, hbits, hcount]
  -- Only with one doubling more than `2044` it depends on the rounding.
  obtain hfew | hexact | hmany : doublings num den ≤ j + e ∨ doublings num den = j + e + 1 ∨
      j + e + 2 ≤ doublings num den := by omega
  · have hunits := Nat.mul_le_mul_left den (Nat.pow_le_pow_right (n := 2) (by decide) hfew)
    omega
  · have hdouble : 2 ^ doublings num den = 2 * 2 ^ (j + e) := by
      rw [hexact, Nat.pow_succ, Nat.mul_comm]
    have hunit : 0 < den * (2 * 2 ^ (j + e)) := by positivity
    have hiff := le_roundHalfEven_iff (num * stepsInOne) hunit (n := 2 ^ 53) (by decide)
    rw [← hdouble, ← rounded, hdouble, Nat.mul_left_comm den] at hiff
    omega
  · have hunits := Nat.mul_le_mul_left den (Nat.pow_le_pow_right (n := 2) (by decide) hmany)
    rw [Nat.pow_add, ← Nat.mul_assoc] at hunits
    omega

/-- A product of finite numbers is finite below the same threshold. -/
theorem isFinite_mul_iff {x y : Binary64} (hx : x.isFinite = true) (hy : y.isFinite = true)
    (hx' : x.isNegative = false) (hy' : y.isNegative = false) :
    (x * y).isFinite = true ↔ x.value * y.value < (2 ^ 54 - 1) * 2 ^ 970 := by
  have hden : 0 < stepsInOne * stepsInOne := Nat.mul_pos stepsInOne_pos stepsInOne_pos
  have hdenPos : (0 : ℚ) < (stepsInOne * stepsInOne : ℕ) := by exact_mod_cast hden
  rw [mul_eq_nearest hx hy hx' hy', isFinite_nearest_iff_lt _ hden, ← value_mul_value,
    div_lt_iff₀ hdenPos]
  have hgreatest : ((2 ^ 54 - 1 : ℕ) : ℚ) = 2 ^ 54 - 1 := by norm_num
  rw [← Nat.cast_lt (α := ℚ), Nat.cast_mul (2 ^ 54 - 1), hgreatest, Nat.cast_mul _ (2 ^ 970),
    Nat.cast_pow, Nat.cast_ofNat, mul_assoc, mul_comm (2 ^ 970 : ℚ)]

end Binary64

namespace Fixed

open Binary64

/-- A number with at least one billionth in it, and no more of them than a word counts, as far as
one rounding tells. -/
def IsCountable (x : Binary64) : Prop :=
  1 - 1 / 2 ^ 54 ≤ x.value * 10 ^ 9 ∧ x.value * 10 ^ 9 ≤ 2 ^ 64 + 2 ^ 11

/-- A number is counted by a word just if the product is finite and within bounds. -/
theorem isSome_ofBinary64?_iff_floor (x : Binary64) :
    (ofBinary64? x).isSome = true ↔ (x * ofNat unitsInOne).isFinite = true ∧
      1 ≤ (x * ofNat unitsInOne).floor ∧ (x * ofNat unitsInOne).floor ≤ 2 ^ 64 := by
  have hsize : UInt64.size = 2 ^ 64 := rfl
  simp only [ofBinary64?, Option.isSome_ite, Bool.and_eq_true, decide_eq_true_eq, and_assoc, hsize]

/-- A number is counted by a word just if the bounds hold for the number itself. -/
theorem isSome_ofBinary64?_iff {x : Binary64} (hfinite : x.isFinite = true)
    (hnonneg : x.isNegative = false) : (ofBinary64? x).isSome = true ↔ IsCountable x := by
  have hunits := near_unitsInOne
  have hexact := value_mul_value x (ofNat unitsInOne)
  have hden : 0 < stepsInOne * stepsInOne := Nat.mul_pos stepsInOne_pos stepsInOne_pos
  have hdenPos : (0 : ℚ) < (stepsInOne * stepsInOne : ℕ) := by exact_mod_cast hden
  rw [hunits.value_eq] at hexact
  -- The product is rounded once, so both thresholds are those of the exact product.
  rw [isSome_ofBinary64?_iff_floor, mul_eq_nearest hfinite hunits.finite hnonneg hunits.nonneg,
    IsCountable, ← hexact]
  generalize x.steps * (ofNat unitsInOne).steps = num at *
  generalize stepsInOne * stepsInOne = den at *
  have hlower : 1 - 1 / 2 ^ 54 ≤ (num : ℚ) / den ↔ (2 ^ 54 - 1) * den ≤ 2 ^ 54 * num := by
    rw [le_div_iff₀ hdenPos, ← Nat.cast_le (α := ℚ)]
    push_cast
    constructor <;> intro h <;> linarith
  have hupper : (num : ℚ) / den ≤ 2 ^ 64 + 2 ^ 11 ↔ num ≤ (2 ^ 64 + 2 ^ 11) * den := by
    rw [div_le_iff₀ hdenPos]
    exact_mod_cast Iff.rfl
  rw [hlower, hupper]
  constructor
  · rintro ⟨hfinite, hone, hword⟩
    exact ⟨(one_le_floor_nearest_iff hden hfinite).1 hone,
      (floor_nearest_le_iff hden hfinite).1 hword⟩
  · rintro ⟨hone, hword⟩
    have hfinite : (nearest num den).isFinite = true :=
      isFinite_nearest hden (k := 65) (by decide) (by omega)
    exact ⟨hfinite, (one_le_floor_nearest_iff hden hfinite).2 hone,
      (floor_nearest_le_iff hden hfinite).2 hword⟩

end Fixed

end PredictionMarket
