import PredictionMarket.Number.Binary64

/-!
# Numbers as typed

`Literal.natural?` reads a whole number and `Literal.binary64?` a decimal number, with nothing
around it.

## Main definitions

* `Literal.natural?`: an optional plus sign and one or more digits.
* `Literal.Decimal`: digits, a fraction and an exponent, read but not yet rounded.
* `Literal.binary64?`: the binary number nearest to a decimal one.
-/

namespace PredictionMarket

namespace Literal

/-- The digits at the start of a text, and the rest. -/
def digits (cs : List Char) : List Char × List Char :=
  (cs.takeWhile Char.isDigit, cs.dropWhile Char.isDigit)

/-- The value of decimal digits. -/
def value (cs : List Char) : Nat :=
  Nat.ofDigitChars 10 cs 0

/-- The value of a hexadecimal digit in either case. -/
def hexDigit? (c : Char) : Option Nat :=
  if c.isDigit then some (c.toNat - '0'.toNat)
  else if 'a' ≤ c && c ≤ 'f' then some (c.toNat - 'a'.toNat + 10)
  else if 'A' ≤ c && c ≤ 'F' then some (c.toNat - 'A'.toNat + 10)
  else none

def isHexDigit (c : Char) : Bool :=
  (hexDigit? c).isSome

def dropPlus : List Char → List Char
  | '+' :: cs => cs
  | cs => cs

/-- A natural number of one or more digits. -/
def unsigned? (cs : List Char) : Option Nat :=
  if cs.isEmpty || !cs.all Char.isDigit then none else some (value cs)

/-- A natural number below a bound, which a plus sign may precede. -/
def natural? (bound : Nat) (s : String) : Option Nat :=
  (unsigned? (dropPlus s.toList)).filter (· < bound)

/-- A sixty-four bit word, which a plus sign may precede. -/
def word? (s : String) : Option UInt64 :=
  (natural? UInt64.size s).map UInt64.ofNat

/-- The magnitude of a decimal number: `coefficient * 10 ^ exponent`. -/
structure Magnitude where
  coefficient : Nat
  exponent : Int
deriving DecidableEq, Repr

/-- Past this power of ten a positive number is infinite, and below its inverse zero. -/
def exponentLimit : Int := 400

/-- The binary number nearest to a decimal magnitude. -/
def Magnitude.toBinary64 (m : Magnitude) : Binary64 :=
  let top := (Nat.toDigits 10 m.coefficient).length + m.exponent
  if m.coefficient == 0 || top < -exponentLimit then .zero
  else if exponentLimit < top then .infinity
  else .nearest (m.coefficient * Nat.pow 10 m.exponent.toNat) (Nat.pow 10 (-m.exponent).toNat)

/-- The exponent after its letter: a sign, then digits up to the end. -/
def exponentBody? (cs : List Char) : Option Int :=
  match cs with
  | '-' :: ds => (unsigned? ds).map fun n => -(n : Int)
  | ds => (unsigned? (dropPlus ds)).map fun n => (n : Int)

/-- The exponent at the end of a number, zero if nothing is left. -/
def exponent? : List Char → Option Int
  | [] => some 0
  | c :: cs => if c == 'e' || c == 'E' then exponentBody? cs else none

/-- A magnitude in digits: a whole part and a fraction, one of which may be empty. -/
def magnitude? (cs : List Char) : Option Magnitude :=
  let (whole, rest) := digits cs
  let (fraction, rest) :=
    match rest with
    | '.' :: more => digits more
    | more => ([], more)
  if whole.isEmpty && fraction.isEmpty then none
  else (exponent? rest).map fun e => ⟨value (whole ++ fraction), e - fraction.length⟩

/-- A magnitude in words or in digits; words may be in either case. -/
def unsignedBinary64? (cs : List Char) : Option Binary64 :=
  let word := String.ofList (cs.map Char.toLower)
  if word == "inf" || word == "infinity" then some .infinity
  else if word == "nan" then some .nan
  else (magnitude? cs).map Magnitude.toBinary64

/-- A decimal number with an optional sign. -/
def binary64? (s : String) : Option Binary64 :=
  match s.toList with
  | '-' :: cs => (unsignedBinary64? cs).map Binary64.neg
  | cs => unsignedBinary64? (dropPlus cs)

end Literal

end PredictionMarket
