import PredictionMarket.Number.Rounding

/-!
# Binary floating point

`Binary64` is a number of the IEEE 754 binary64 format, held as its 64 bits. Every finite one is a
whole number of steps of size `2 ^ -1074`, so arithmetic is exact arithmetic on naturals followed
by one rounding.

## Main definitions

* `Binary64.steps`: the magnitude of a finite number, counted in steps.
* `Binary64.nearest`: the number nearest to a quotient of naturals, halfway the even one.
* `Binary64.mul`, `Binary64.div`, `Binary64.ofNat`: rounded arithmetic.

## Design notes

The bits without the sign are ordered like the magnitudes that they stand for, with infinity above
all finite ones. Rounding therefore computes these bits as one sum, in which a carry out of the
significand moves on to the next exponent by itself.

Powers of naturals are written `Nat.pow` where they are computed: `^` would stand for the power of a
monoid in a file that imports the algebra, and for that of naturals in one that does not.
-/

namespace PredictionMarket

/-- A binary floating-point number in the 64 bits that represent it. -/
structure Binary64 where
  /-- Sign, eleven bits of exponent, fifty-two bits of fraction. -/
  bits : UInt64
deriving DecidableEq

namespace Binary64

/-- The number of steps of the format in one. -/
def stepsInOne : Nat := Nat.pow 2 1074

/-- The bits of positive infinity. -/
def infinityBits : Nat := 0x7ff0000000000000

/-- The bit of the sign, above the sixty-three others. -/
def signBit : Nat := 0x8000000000000000

/-- The bit above the fraction, which stands for the leading one of a normal significand. -/
def leadingBit : Nat := 0x10000000000000

def isNegative (x : Binary64) : Bool :=
  signBit ≤ x.bits.toNat

def magnitude (x : Binary64) : Nat :=
  x.bits.toNat % signBit

def isNaN (x : Binary64) : Bool :=
  infinityBits < x.magnitude

def isInfinite (x : Binary64) : Bool :=
  x.magnitude == infinityBits

def isFinite (x : Binary64) : Bool :=
  x.magnitude < infinityBits

def isZero (x : Binary64) : Bool :=
  x.magnitude == 0

/-- A number above zero, infinity included. -/
def isPositive (x : Binary64) : Bool :=
  !x.isNegative && 0 < x.magnitude && x.magnitude ≤ infinityBits

/-- How often the significand of a finite number is doubled to count steps. -/
def scale (x : Binary64) : Nat :=
  x.magnitude / leadingBit - 1

/-- The significand of a finite number, with the leading bit that a normal number leaves out. -/
def significand (x : Binary64) : Nat :=
  if x.magnitude < leadingBit then x.magnitude else leadingBit + x.magnitude % leadingBit

/-- The magnitude of a finite number in steps of `2 ^ -1074`. -/
def steps (x : Binary64) : Nat :=
  x.significand * Nat.pow 2 x.scale

/-- A number from its sign and its other bits. -/
def ofParts (negative : Bool) (magnitude : Nat) : Binary64 :=
  ⟨UInt64.ofNat (magnitude + if negative then signBit else 0)⟩

/-- The answer of an operation that has none. -/
def nan : Binary64 := ofParts false 0x7ff8000000000000

def infinity : Binary64 := ofParts false infinityBits

def zero : Binary64 := ofParts false 0

/-- The bits of the number nearest to `num / den`, halfway those of the even one. A quotient past
the greatest finite number gives infinity. -/
def nearestMagnitude (num den : Nat) : Nat :=
  let count := num * stepsInOne
  let doublings := (count / den).log2 - 52
  min (roundHalfEven count (den * Nat.pow 2 doublings) + doublings * leadingBit) infinityBits

/-- The number nearest to `num / den`. -/
def nearest (num den : Nat) : Binary64 :=
  ofParts false (nearestMagnitude num den)

/-- The number nearest to a natural. -/
def ofNat (n : Nat) : Binary64 :=
  nearest n 1

/-- The number of the other sign. -/
def neg (x : Binary64) : Binary64 :=
  ofParts (!x.isNegative) x.magnitude

def mul (x y : Binary64) : Binary64 :=
  let negative := x.isNegative != y.isNegative
  if x.isNaN || y.isNaN then nan
  else if x.isInfinite || y.isInfinite then
    if x.isZero || y.isZero then nan else ofParts negative infinityBits
  else ofParts negative (nearestMagnitude (x.steps * y.steps) (stepsInOne * stepsInOne))

/-- The rounded quotient. -/
def div (x y : Binary64) : Binary64 :=
  let negative := x.isNegative != y.isNegative
  if x.isNaN || y.isNaN then nan
  else if x.isInfinite then if y.isInfinite then nan else ofParts negative infinityBits
  else if y.isInfinite then ofParts negative 0
  else if y.isZero then if x.isZero then nan else ofParts negative infinityBits
  else ofParts negative (nearestMagnitude x.steps y.steps)

instance : Mul Binary64 := ⟨mul⟩

instance : Div Binary64 := ⟨div⟩

instance : Neg Binary64 := ⟨neg⟩

/-- The whole part of a finite magnitude. -/
def floor (x : Binary64) : Nat :=
  x.steps / stepsInOne

/-- The whole number nearest to a finite magnitude, halfway the greater one. -/
def round (x : Binary64) : Nat :=
  roundHalfUp x.steps stepsInOne

end Binary64

end PredictionMarket
