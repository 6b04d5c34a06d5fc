import PredictionMarket.Json.Record
import PredictionMarket.Number.Shortest

/-!
# JSON values

`Value` is what a JSON text means when its form does not matter: every key once, in ascending
order, and numbers in one of three ranges. `Value.ofTerm?` finds it and `Value.toTerm` writes it.

## Main definitions

* `Json.Number.toBinary64?`: the floating-point reading of a number.
* `Json.Value`, `Json.Value.ofTerm?`, `Json.Value.toTerm`.

## Design notes

The floating-point reading keeps as many digits as fit a word and scales them by a power of ten,
so it may miss the nearest number by a little. It is not defined beyond the finite numbers.
-/

namespace PredictionMarket

namespace Json

/-- A word with one more decimal digit, if the result is a word. -/
def appendDigit? (word : Nat) (digit : Char) : Option Nat :=
  let next := word * 10 + (digit.toNat - '0'.toNat)
  if next < UInt64.size then some next else none

/-- A word with decimal digits appended up to the first that does not fit, and the others. -/
def appendDigits (word : Nat) : List Char → Nat × List Char
  | [] => (word, [])
  | d :: ds =>
    match appendDigit? word d with
    | some next => appendDigits next ds
    | none => (word, d :: ds)

/-- A number divided by a power of ten, in steps of at most `10 ^ 308`. Three steps take any word
to zero. -/
def scaleDown : (steps : Nat) → Binary64 → Nat → Binary64
  | 0, _, _ => .zero
  | steps + 1, x, power =>
    if power ≤ 308 then x / .ofNat (Nat.pow 10 power)
    else if x.isZero then x
    else scaleDown steps (x / .ofNat (Nat.pow 10 308)) (power - 308)

/-- A word times a power of ten, if it is finite. -/
def scaled? (word : Nat) (exponent : Int) : Option Binary64 :=
  let x := Binary64.ofNat word
  if exponent < 0 then some (scaleDown 3 x exponent.natAbs)
  else if exponent ≤ 308 then some (x * .ofNat (Nat.pow 10 exponent.toNat)) |>.filter (·.isFinite)
  else if x.isZero then some x
  else none

/-- The floating-point reading of a number, if it is finite. -/
def Number.toBinary64? (n : Number) : Option Binary64 :=
  let (word, dropped) := appendDigits 0 (Nat.toDigits 10 n.whole)
  let (word, unused) := appendDigits word n.fraction
  let taken := n.fraction.length - unused.length
  let magnitude := scaled? word (n.exponent.getD 0 + dropped.length - taken)
  magnitude.map fun x => if n.negative then -x else x

/-- A JSON value. -/
inductive Value where
  | null
  | bool (b : Bool)
  | natural (n : UInt64)
  /-- A whole number below zero, by its magnitude, which is at most two to the sixty-third. -/
  | negative (magnitude : UInt64)
  | float (x : Binary64)
  | string (s : String)
  | array (items : List Value)
  /-- The members with their keys in strictly ascending order. -/
  | object (members : List (String × Value))

namespace Value

/-- The value of a number. -/
def ofNumber? (n : Number) : Option Value :=
  if n.fraction.isEmpty && n.exponent.isNone then
    if !n.negative && n.whole < UInt64.size then some (natural (UInt64.ofNat n.whole))
    else if n.negative && 0 < n.whole && n.whole ≤ 0x8000000000000000 then
      some (negative (UInt64.ofNat n.whole))
    else n.toBinary64?.map float
  else n.toBinary64?.map float

/-- Members in ascending order with one more, which takes the place of one of the same key. -/
def insertMember (key : String) (v : Value) : List (String × Value) → List (String × Value)
  | [] => [(key, v)]
  | (k, w) :: ms =>
    if key < k then (key, v) :: (k, w) :: ms
    else if key = k then (key, v) :: ms
    else (k, w) :: insertMember key v ms

/-- Members in ascending order of their keys, the last one of each key. -/
def sortMembers (members : List (String × Value)) : List (String × Value) :=
  members.foldl (fun ms (k, v) => insertMember k v ms) []

mutual

/-- The value of a tree, if all its strings are texts and all its numbers in range. -/
def ofTerm? : Term → Option Value
  | .null => some null
  | .bool b => some (bool b)
  | .number n => ofNumber? n
  | .text t => t.map string
  | .array items => (ofItems? items).map array
  | .object members => (ofMembers? members).map fun ms => object (sortMembers ms)

def ofItems? : List Term → Option (List Value)
  | [] => some []
  | t :: ts => do return (← ofTerm? t) :: (← ofItems? ts)

def ofMembers? : List (Text × Term) → Option (List (String × Value))
  | [] => some []
  | (k, t) :: ms => do return (← k, ← ofTerm? t) :: (← ofMembers? ms)

end

/-- The digits of a finite magnitude with a point, or with an exponent if it is below `10 ^ -5` or
not below `10 ^ 16`. Halfway between two of the fewest digits that read back, the even ones are
taken. -/
def floatMagnitude (x : Binary64) : Number :=
  if x.isZero then ⟨false, 0, ['0'], none⟩
  else
    let d := x.shortest .even
    let text := Nat.toDigits 10 d.digits
    let point := text.length + d.exponent
    if -5 < point && point ≤ 16 then
      if 0 ≤ d.exponent then ⟨false, d.digits * Nat.pow 10 d.exponent.toNat, ['0'], none⟩
      else
        let places := d.exponent.natAbs
        let padded := List.replicate (places + 1 - text.length) '0' ++ text
        let whole := padded.length - places
        ⟨false, Literal.value (padded.take whole), padded.drop whole, none⟩
    else ⟨false, Literal.value (text.take 1), text.drop 1, some (point - 1)⟩

/-- A finite number as written. -/
def floatNumber (x : Binary64) : Number :=
  { floatMagnitude x with negative := x.isNegative }

mutual

def toTerm : Value → Term
  | null => .null
  | bool b => .bool b
  | natural n => .ofWord n
  | negative n => .number ⟨true, n.toNat, [], none⟩
  | float x => .number (floatNumber x)
  | string s => .ofString s
  | array items => .array (itemTerms items)
  | object members => .object (memberTerms members)

def itemTerms : List Value → List Term
  | [] => []
  | v :: vs => v.toTerm :: itemTerms vs

def memberTerms : List (String × Value) → List (Text × Term)
  | [] => []
  | (k, v) :: ms => (some k, v.toTerm) :: memberTerms ms

end

def text (v : Value) : String :=
  v.toTerm.compact

end Value

/-- Whether a tree inside containers of some depth has a value: its strings are texts, its numbers
in range, and its containers not nested too deep. -/
def Term.isHeld (outer : Nat) (t : Term) : Bool :=
  (Value.ofTerm? t).isSome && outer + t.depth ≤ depthLimit

end Json

end PredictionMarket
