import PredictionMarket.Time.Date
import PredictionMarket.Toml.Quotes
import PredictionMarket.Toml.Value

/-!
# Numbers and times in TOML

## Main definitions

* `Toml.number?`: integers in four bases and decimal numbers.
* `Toml.moment?`: dates, times and both.
-/

namespace PredictionMarket

namespace Toml

/-- Further digits of a base, with single underscores between them. -/
def moreDigits? (base : Nat) : List Char → Option (List Nat × List Char)
  | [] => some ([], [])
  | '_' :: c :: rest =>
    match (Literal.hexDigit? c).filter (· < base) with
    | some d => (moreDigits? base rest).map fun (ds, rest) => (d :: ds, rest)
    | none => none
  | c :: rest =>
    match (Literal.hexDigit? c).filter (· < base) with
    | some d => (moreDigits? base rest).map fun (ds, rest) => (d :: ds, rest)
    | none => if c == '_' then none else some ([], c :: rest)

/-- One or more digits of a base, with single underscores between them. -/
def digits? (base : Nat) (cs : List Char) : Option (List Nat × List Char) :=
  match cs with
  | '_' :: _ => none
  | cs => (moreDigits? base cs).filter fun (ds, _) => !ds.isEmpty

/-- The number that digits of a base stand for. -/
def valueOf (base : Nat) (ds : List Nat) : Nat :=
  ds.foldl (fun n d => n * base + d) 0

/-- An integer of sixty-four bits. -/
def integer? (n : Int) : Option Value :=
  if -0x8000000000000000 ≤ n ∧ n < 0x8000000000000000 then some (.integer n) else none

/-- An integer of a base, without a sign. -/
def based? (base : Nat) (cs : List Char) : Option (Value × List Char) := do
  let (ds, rest) ← digits? base cs
  return (← integer? (valueOf base ds), rest)

/-- A whole part: zero, or digits of which the first is not zero. -/
def whole? : List Char → Option (List Nat × List Char)
  | '0' :: rest => some ([0], rest)
  | cs => digits? 10 cs

/-- The digits after a point, if there is one. -/
def fraction? : List Char → Option (Option (List Nat) × List Char)
  | '.' :: rest => (digits? 10 rest).map fun (ds, rest) => (some ds, rest)
  | rest => some (none, rest)

/-- The digits of an exponent after its letter and a sign, if there is one. -/
def exponent? : List Char → Option (Option Int × List Char)
  | [] => some (none, [])
  | c :: rest =>
    if c == 'e' || c == 'E' then
      match rest with
      | '-' :: rest => (digits? 10 rest).map fun (ds, rest) => (some (-(valueOf 10 ds : Int)), rest)
      | rest =>
        (digits? 10 (Literal.dropPlus rest)).map fun (ds, rest) =>
          (some (valueOf 10 ds : Int), rest)
    else some (none, c :: rest)

/-- A binary number with a sign. Too great a number is refused unless it is negative. -/
def signedFloat? (negative : Bool) (x : Binary64) : Option Value :=
  if negative then some (.float x.neg) else if x.isInfinite then none else some (.float x)

/-- A number without its sign: an integer, or a decimal number if there is a point or an
exponent. -/
def decimal? (negative : Bool) (cs : List Char) : Option (Value × List Char) := do
  let (whole, rest) ← whole? cs
  let (fraction, rest) ← fraction? rest
  let (exponent, rest) ← exponent? rest
  match fraction, exponent with
  | none, none =>
    let n : Int := valueOf 10 whole
    return (← integer? (if negative then -n else n), rest)
  | fraction, exponent =>
    let fraction := fraction.getD []
    let magnitude : Literal.Magnitude :=
      ⟨valueOf 10 (whole ++ fraction), exponent.getD 0 - fraction.length⟩
    return (← signedFloat? negative magnitude.toBinary64, rest)

/-- A number without its sign, which may be a word. -/
def magnitude? (negative : Bool) (cs : List Char) : Option (Value × List Char) :=
  match cs with
  | 'i' :: 'n' :: 'f' :: rest =>
    some (.float (if negative then Binary64.infinity.neg else .infinity), rest)
  | 'n' :: 'a' :: 'n' :: rest => some (.float .nan, rest)
  | cs => decimal? negative cs

/-- A number at the start of a text, and the text after it. -/
def number? : List Char → Option (Value × List Char)
  | '0' :: 'x' :: rest => based? 16 rest
  | '0' :: 'o' :: rest => based? 8 rest
  | '0' :: 'b' :: rest => based? 2 rest
  | '-' :: rest => magnitude? true rest
  | '+' :: rest => magnitude? false rest
  | rest => magnitude? false rest

/-- A number of just `width` digits. -/
def field? (width : Nat) (cs : List Char) : Option (Nat × List Char) :=
  let ds := cs.take width
  if ds.length = width ∧ ds.all Char.isDigit then some (Literal.value ds, cs.drop width) else none

/-- A number of two digits below a bound. -/
def pair? (bound : Nat) (cs : List Char) : Option (Nat × List Char) :=
  (field? 2 cs).filter fun (n, _) => n < bound

/-- The text after a mark. -/
def mark? (mark : Char) : List Char → Option (List Char)
  | c :: rest => if c == mark then some rest else none
  | [] => none

def dropDate? (cs : List Char) : Option (List Char) := do
  let (year, rest) ← field? 4 cs
  let (month, rest) ← field? 2 (← mark? '-' rest)
  let (day, rest) ← field? 2 (← mark? '-' rest)
  if isDate year month day then some rest else none

def dropFraction : List Char → List Char
  | '.' :: d :: rest => if d.isDigit then rest.dropWhile Char.isDigit else '.' :: d :: rest
  | rest => rest

def dropTime? (cs : List Char) : Option (List Char) := do
  let (_, rest) ← pair? 24 cs
  let (_, rest) ← pair? 60 (← mark? ':' rest)
  let (_, rest) ← pair? 61 (← mark? ':' rest)
  return dropFraction rest

def dropClock? (cs : List Char) : Option (List Char) := do
  let (_, rest) ← pair? 24 cs
  let (_, rest) ← pair? 60 (← mark? ':' rest)
  return rest

/-- The text after the offset of a time zone, if there is one. -/
def dropOffset (cs : List Char) : List Char :=
  match cs with
  | [] => []
  | c :: rest =>
    if c == 'Z' || c == 'z' then rest
    else if c == '+' || c == '-' then (dropClock? rest).getD (c :: rest)
    else c :: rest

/-- The text after the time of a date, if there is one. -/
def dropTimeOfDate (cs : List Char) : List Char :=
  match cs with
  | [] => []
  | c :: rest =>
    if c == 'T' || c == 't' || c == ' ' then
      match dropTime? rest with
      | some rest => dropOffset rest
      | none => c :: rest
    else c :: rest

def dropMoment? (cs : List Char) : Option (List Char) :=
  match dropDate? cs with
  | some rest => some (dropTimeOfDate rest)
  | none => dropTime? cs

/-- A date, a time or both at the start of a text, and the text after it. -/
def moment? (cs : List Char) : Option (Value × List Char) :=
  (dropMoment? cs).map fun rest =>
    (.moment (String.ofList (cs.take (cs.length - rest.length))), rest)

end Toml

end PredictionMarket
