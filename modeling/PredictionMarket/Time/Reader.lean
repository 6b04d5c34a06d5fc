import PredictionMarket.Number.Literal
import PredictionMarket.Text.Blank
import PredictionMarket.Time.Instant

/-!
# Reading instants

`Instant.ofText?` reads an instant in the form of RFC 3339, with some freedom: numbers may have one
digit and white space before them, `T` may be a space or in lower case, and the offset may go
without a colon.
-/

namespace PredictionMarket

namespace Instant

open Text (dropBlank)

/-- The value of one to `width` digits at the start of a text, and the rest. -/
def number? (width : Nat) (cs : List Char) : Option (Nat × List Char) :=
  let ds := (cs.take width).takeWhile Char.isDigit
  if ds.isEmpty then none else some (Literal.value ds, cs.drop ds.length)

/-- The value of all digits at the start of a text, at least one, and the rest. -/
def longNumber? (cs : List Char) : Option (Nat × List Char) :=
  let (ds, rest) := Literal.digits cs
  if ds.isEmpty then none else some (Literal.value ds, rest)

/-- A year: any number of digits after a sign, else up to four. -/
def year? (cs : List Char) : Option (Int × List Char) :=
  match dropBlank cs with
  | '-' :: rest => (longNumber? rest).map fun (n, rest) => (-(n : Int), rest)
  | '+' :: rest => (longNumber? rest).map fun (n, rest) => ((n : Int), rest)
  | rest => (number? 4 rest).map fun (n, rest) => ((n : Int), rest)

/-- A number of up to two digits after white space. -/
def pair? (cs : List Char) : Option (Nat × List Char) :=
  number? 2 (dropBlank cs)

/-- A mark after white space, and the rest. -/
def mark? (mark : Char) (cs : List Char) : Option (List Char) :=
  match dropBlank cs with
  | c :: rest => if c == mark then some rest else none
  | [] => none

/-- The nanoseconds after a point: up to nine digits count, further ones are passed over. -/
def nanos? : List Char → Option (Nat × List Char)
  | '.' :: cs =>
    let ds := (cs.take 9).takeWhile Char.isDigit
    if ds.isEmpty then none
    else some (Literal.value ds * Nat.pow 10 (9 - ds.length), cs.dropWhile Char.isDigit)
  | cs => some (0, cs)

def twoDigits? : List Char → Option (Nat × List Char)
  | a :: b :: rest =>
    if a.isDigit && b.isDigit then some (Literal.value [a, b], rest) else none
  | _ => none

/-- The minutes of an offset after its sign. -/
def offsetBody? (cs : List Char) : Option (Nat × List Char) := do
  let (hours, rest) ← twoDigits? cs
  let (minutes, rest) ← twoDigits? (rest.dropWhile fun c => c == ':' || Text.isBlank c)
  if hours < 24 ∧ minutes < 60 then some (hours * 60 + minutes, rest) else none

/-- A time zone as minutes to the east, and the rest. -/
def offset? (cs : List Char) : Option (Int × List Char) :=
  match cs with
  | '+' :: rest => (offsetBody? rest).map fun (n, rest) => ((n : Int), rest)
  | '-' :: rest => (offsetBody? rest).map fun (n, rest) => (-(n : Int), rest)
  | '−' :: rest => (offsetBody? rest).map fun (n, rest) => (-(n : Int), rest)
  | 'Z' :: rest => some (0, rest)
  | 'z' :: rest => some (0, rest)
  | u :: t :: c :: rest =>
    if [u, t, c].map Char.toUpper == ['U', 'T', 'C'] then some (0, rest) else none
  | _ => none

/-- A date, and the rest. -/
def date? (cs : List Char) : Option (Date × List Char) := do
  let (year, rest) ← year? cs
  let rest ← mark? '-' rest
  let (month, rest) ← pair? rest
  let rest ← mark? '-' rest
  let (day, rest) ← pair? rest
  return (← Date.of? year month day, rest)

/-- What may stand between a date and a time. -/
def separator? : List Char → Option (List Char)
  | c :: rest => if c == 'T' || c == 't' || c == ' ' then some rest else none
  | [] => none

/-- A time of day on a date, and the rest. Second sixty is a leap second. -/
def time? (date : Date) (cs : List Char) : Option (Instant × List Char) := do
  let (hour, rest) ← pair? cs
  let rest ← mark? ':' rest
  let (minute, rest) ← pair? rest
  let rest ← mark? ':' rest
  let (second, rest) ← pair? rest
  let (nanos, rest) ← nanos? rest
  let (second, nanos) := if second = 60 then (59, nanosInSecond + nanos) else (second, nanos)
  return (← of? date hour minute second nanos, rest)

/-- The instant that a text gives, with nothing but white space after it. -/
def ofText? (s : String) : Option Instant := do
  let (date, rest) ← date? s.toList
  let (time, rest) ← time? date (← separator? rest)
  let (offset, rest) ← offset? (dropBlank rest)
  if rest.all Text.isBlank then time.minutesEarlier? offset else none

end Instant

end PredictionMarket
