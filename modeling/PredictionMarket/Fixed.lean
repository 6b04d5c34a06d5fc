import PredictionMarket.Number.Binary64

/-!
# Amounts in billionths

Prices and balances are sixty-four bit words that count billionths. Sums that leave the range of a
word are capped at its greatest value.

## Main definitions

* `Fixed.cap`: the greatest word not above a natural.
* `Fixed.add`, `Fixed.mul`: capped sums and products.
* `Fixed.toBinary64`, `Fixed.ofBinary64?`: between a count of billionths and a number.
-/

namespace PredictionMarket

namespace Fixed

/-- The number of units in one. -/
def unitsInOne : Nat := 1000000000

/-- The greatest word. -/
def maximum : Nat := UInt64.size - 1

/-- A natural as a word, the greatest word standing for all that is above it. -/
def cap (n : Nat) : UInt64 :=
  UInt64.ofNat (min n maximum)

/-- The sum of two words, the greatest word standing for more. -/
def add (a b : UInt64) : UInt64 :=
  cap (a.toNat + b.toNat)

/-- The product of two words, the greatest word standing for more. -/
def mul (a b : UInt64) : UInt64 :=
  cap (a.toNat * b.toNat)

/-- What is over the greatest word is cut to it. -/
theorem toNat_cap (n : Nat) : (cap n).toNat = min n maximum := by
  have h : min n maximum < UInt64.size := by simp only [maximum, UInt64.size]; omega
  exact UInt64.toNat_ofNat_of_lt' h

/-- A sum is exact unless a word does not hold it. -/
theorem toNat_add (a b : UInt64) : (add a b).toNat = min (a.toNat + b.toNat) maximum :=
  toNat_cap _

/-- A product is exact unless a word does not hold it. -/
theorem toNat_mul (a b : UInt64) : (mul a b).toNat = min (a.toNat * b.toNat) maximum :=
  toNat_cap _

/-- A word is at most the greatest one. -/
theorem toNat_le_maximum (a : UInt64) : a.toNat ≤ maximum := by
  have h := a.toNat_lt
  simp only [maximum, UInt64.size]
  omega

/-- The number of which a word counts the billionths. -/
def toBinary64 (raw : UInt64) : Binary64 :=
  .ofNat raw.toNat / .ofNat unitsInOne

/-- The billionths in a positive number, rounded down after a rounded multiplication. There is no
answer for less than one billionth and for more than two to the sixty-fourth of them. -/
def ofBinary64? (x : Binary64) : Option UInt64 :=
  let scaled := x * .ofNat unitsInOne
  if scaled.isFinite && 1 ≤ scaled.floor && scaled.floor ≤ UInt64.size then
    some (cap scaled.floor)
  else none

end Fixed

end PredictionMarket
