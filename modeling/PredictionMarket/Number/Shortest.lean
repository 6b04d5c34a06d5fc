import PredictionMarket.Number.Binary64

/-!
# The shortest decimal text of a binary number

`Binary64.shortest` finds the fewest decimal digits that read back as a given number, and among
decimals of that length the nearest one. A number may lie halfway between two of them, and then a
`Tie` says which one is taken. `Binary64.positional` writes these digits.

## Main definitions

* `Binary64.Interval`: the decimals that read back as a number, in quarter steps.
* `Tie`: the greater decimal, or the one whose last digit is even.
* `Binary64.shortest`: digits `d` and an exponent `k`, for the decimal `d * 10 ^ k`.
-/

namespace PredictionMarket

/-- A decimal `digits * 10 ^ exponent`. -/
structure Decimal where
  digits : Nat
  exponent : Int
deriving DecidableEq, Repr

namespace Decimal

/-- The decimal `digits * 10 ^ exponent` as a quotient of naturals. -/
def ratio (d : Decimal) : Nat × Nat :=
  (d.digits * Nat.pow 10 d.exponent.toNat, Nat.pow 10 (-d.exponent).toNat)

/-- The same decimal without a zero at the end, where it has another digit in front of it. -/
def dropZero (d : Decimal) : Decimal :=
  if d.digits != 0 && d.digits % 10 == 0 then ⟨d.digits / 10, d.exponent + 1⟩ else d

/-- The text without an exponent: as many zeros as it takes on either side. -/
def positional (d : Decimal) : String :=
  let text := Nat.toDigits 10 d.digits
  if 0 ≤ d.exponent then String.ofList (text ++ List.replicate d.exponent.toNat '0')
  else
    let places := (-d.exponent).toNat
    let padded := List.replicate (places + 1 - text.length) '0' ++ text
    let whole := padded.length - places
    String.ofList (padded.take whole ++ '.' :: padded.drop whole)

end Decimal

/-- The choice between two decimals, one digit apart, that are equally near. -/
inductive Tie where
  | greater
  /-- The one whose last digit is even. -/
  | even
deriving DecidableEq, Repr

/-- The decimal that is taken of the two. -/
def Tie.choose (lower upper : Decimal) : Tie → Decimal
  | greater => upper
  | even => if lower.digits % 2 == 0 then lower else upper

namespace Binary64

/-- The decimals that round to one number, in quarters of a step. -/
structure Interval where
  /-- The lower end. -/
  low : Nat
  /-- The number itself. -/
  value : Nat
  /-- The upper end. -/
  high : Nat
  /-- Whether the ends round to the number too. -/
  closed : Bool

/-- The interval of a positive finite number: halfway to its neighbours on either side. Below a
power of two the neighbour is nearer. -/
def interval (x : Binary64) : Interval :=
  let unit := Nat.pow 2 x.scale
  let below := if x.significand == leadingBit && 0 < x.scale then 1 else 2
  { low := (4 * x.significand - below) * unit
    value := 4 * x.significand * unit
    high := (4 * x.significand + 2) * unit
    closed := x.significand % 2 == 0 }

/-- The number of quarter steps in one. -/
def quartersInOne : Nat := 4 * stepsInOne

/-- Whether a decimal reads back as the number of an interval. -/
def Interval.contains (i : Interval) (d : Decimal) : Bool :=
  let (num, den) := d.ratio
  let point := num * quartersInOne
  if i.closed then i.low * den ≤ point && point ≤ i.high * den
  else i.low * den < point && point < i.high * den

/-- The distance of a decimal from the number of an interval, in a unit that depends on the
exponent only. -/
def Interval.distance (i : Interval) (d : Decimal) : Nat :=
  let (num, den) := d.ratio
  max (num * quartersInOne) (i.value * den) - min (num * quartersInOne) (i.value * den)

/-- The exponent of the first decimal digit of a positive finite number. -/
def decimalExponent (x : Binary64) : Int :=
  if stepsInOne ≤ x.steps then ((Nat.toDigits 10 x.floor).length : Int) - 1
  else -((Nat.toDigits 10 ((stepsInOne - 1) / x.steps)).length : Int)

/-- The greatest decimal with a given exponent that is not above the number of an interval. -/
def Interval.floorAt (i : Interval) (exponent : Int) : Decimal :=
  ⟨i.value * Nat.pow 10 (-exponent).toNat / (quartersInOne * Nat.pow 10 exponent.toNat), exponent⟩

/-- The one of two decimals, a digit apart, that is nearer to the number of an interval. -/
def Interval.nearer (i : Interval) (tie : Tie) (lower upper : Decimal) : Decimal :=
  if i.distance lower = i.distance upper then tie.choose lower upper
  else if i.distance lower < i.distance upper then lower
  else upper

/-- The decimal of a given exponent nearest to the number of an interval that reads back as it. -/
def Interval.nearestAt? (i : Interval) (tie : Tie) (exponent : Int) : Option Decimal :=
  let lower := i.floorAt exponent
  let upper : Decimal := ⟨lower.digits + 1, exponent⟩
  match i.contains lower, i.contains upper with
  | true, true => some (i.nearer tie lower upper)
  | true, false => some lower
  | false, true => some upper
  | false, false => none

/-- The decimal with the fewest digits that reads back as a positive finite number, and of those
the nearest. Seventeen digits are always enough. -/
def shortest (x : Binary64) (tie : Tie) : Decimal :=
  let i := x.interval
  let first := x.decimalExponent
  match (List.range 17).findSome? fun (n : Nat) => i.nearestAt? tie (first - n) with
  | some d => d.dropZero
  | none => i.floorAt (first - 16)

/-- The texts of the numbers that have no digits. -/
def nonFinite (x : Binary64) : String :=
  if x.isNaN then "NaN" else if x.isNegative then "-inf" else "inf"

/-- The sign in front of a number. -/
def sign (x : Binary64) : String :=
  if x.isNegative then "-" else ""

/-- The shortest text of a number that reads back, without an exponent. Halfway between two texts
it is the one of the greater magnitude. -/
def positional (x : Binary64) : String :=
  if !x.isFinite then x.nonFinite
  else if x.isZero then x.sign ++ "0"
  else x.sign ++ (x.shortest .greater).positional

end Binary64

end PredictionMarket
