/-!
# Rounding a quotient

`roundHalfEven` and `roundHalfUp` give the whole number nearest to a quotient of naturals. They
differ only on a quotient that lies halfway between two whole numbers.

## Main statements

* `roundHalfEven_mul_right`, `roundHalfUp_mul_right`: a whole number is its own rounding.
-/

namespace PredictionMarket

/-- The whole number nearest to `num / den`; halfway, the even one. -/
def roundHalfEven (num den : Nat) : Nat :=
  let floor := num / den
  let rest := 2 * (num % den)
  if den < rest || (rest == den && floor % 2 == 1) then floor + 1 else floor

/-- The whole number nearest to `num / den`; halfway, the greater one. -/
def roundHalfUp (num den : Nat) : Nat :=
  (2 * num + den) / (2 * den)

/-- A quotient without a rest is not rounded, whichever even number is near. -/
theorem roundHalfEven_mul_right (n : Nat) {den : Nat} (h : 0 < den) :
    roundHalfEven (n * den) den = n := by
  simp [roundHalfEven, Nat.mul_div_cancel n h, Nat.mul_mod_left, Nat.ne_of_lt h]

/-- A quotient without a rest is not rounded up. -/
theorem roundHalfUp_mul_right (n : Nat) {den : Nat} (h : 0 < den) :
    roundHalfUp (n * den) den = n := by
  unfold roundHalfUp
  rw [show 2 * (n * den) + den = den + n * (2 * den) by
    rw [Nat.mul_left_comm, Nat.add_comm], Nat.add_mul_div_right _ _ (by omega),
    Nat.div_eq_of_lt (by omega), Nat.zero_add]

end PredictionMarket
