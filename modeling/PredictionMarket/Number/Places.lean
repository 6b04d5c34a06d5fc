import PredictionMarket.Number.Binary64

/-!
# Decimal texts with fixed places

`Binary64.withPlaces` writes the exact value of a binary number, rounded to a number of decimal
places; halfway, the last digit is even.

## Main definitions

* `Binary64.withPlaces`: the text with a given number of places.
-/

namespace PredictionMarket

/-- A natural in decimal digits, with zeros in front up to a width. -/
def zeroPadded (width n : Nat) : List Char :=
  let text := Nat.toDigits 10 n
  List.replicate (width - text.length) '0' ++ text

/-- A count of units of size `10 ^ -places` as a decimal text with that many places. -/
def placesText (places units : Nat) : List Char :=
  if places == 0 then Nat.toDigits 10 units
  else
    Nat.toDigits 10 (units / Nat.pow 10 places) ++
      '.' :: zeroPadded places (units % Nat.pow 10 places)

namespace Binary64

/-- The magnitude of a finite number in units of `10 ^ -places`; halfway, the even count. -/
def unitsAt (places : Nat) (x : Binary64) : Nat :=
  roundHalfEven (x.steps * Nat.pow 10 places) stepsInOne

/-- The decimal text of a number with a fixed number of places. -/
def withPlaces (places : Nat) (x : Binary64) : String :=
  if x.isNaN then "NaN"
  else
    let magnitude := if x.isInfinite then ['i', 'n', 'f'] else placesText places (x.unitsAt places)
    String.ofList (if x.isNegative then '-' :: magnitude else magnitude)

end Binary64

end PredictionMarket
