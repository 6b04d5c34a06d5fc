import PredictionMarket.Number.Places
import PredictionMarket.Time.Date

/-!
# Instants

`Instant` is a point in time to the nanosecond, given by its date and time of day in UTC. During a
leap second the count of nanoseconds goes on past a full second.

## Main definitions

* `Instant`: a date with a time of day.
* `Instant.ofMillis?`, `Instant.toMillis`: the milliseconds after the start of 1970.
* `Instant.minutesEarlier?`: an instant moved by the offset of a time zone.
* `Instant.text`: the written form of an instant.
-/

namespace PredictionMarket

def nanosInSecond : Nat := 1000000000

/-- Whether an hour, a minute, a second and nanoseconds make a time of day. More nanoseconds than
fit a second are those of a leap second, which ends a minute. -/
def isTimeOfDay (hour minute second nanos : Nat) : Bool :=
  hour < 24 && minute < 60 && second < 60 &&
    (nanos < nanosInSecond || (second == 59 && nanos < 2 * nanosInSecond))

/-- A point in time, in UTC. -/
structure Instant where
  date : Date
  hour : Nat
  minute : Nat
  second : Nat
  nanos : Nat
  /-- The time of day exists. -/
  isTimeOfDay : isTimeOfDay hour minute second nanos = true
deriving DecidableEq, Repr

namespace Instant

/-- The instant of a date and a time of day. -/
def of? (date : Date) (hour minute second nanos : Nat) : Option Instant :=
  if h : PredictionMarket.isTimeOfDay hour minute second nanos = true then
    some ⟨date, hour, minute, second, nanos, h⟩
  else none

/-- The instant a number of milliseconds after the start of 1970. -/
def ofMillis? (millis : Int) : Option Instant := do
  let dayLength := 24 * 60 * 60 * 1000
  let date ← Date.ofDays? (millis / dayLength)
  let rest := (millis % dayLength).toNat
  of? date (rest / 3600000) (rest / 60000 % 60) (rest / 1000 % 60) (rest % 1000 * 1000000)

/-- The whole milliseconds from the start of 1970 to an instant. -/
def toMillis (t : Instant) : Int :=
  ((t.date.toDays * 24 + t.hour) * 60 + t.minute) * 60000 + t.second * 1000 +
    (t.nanos / 1000000 : Nat)

def minutesInDay : Int := 24 * 60

/-- The instant a number of minutes before another one, if they are less than a day apart. -/
def minutesEarlier? (t : Instant) (minutes : Int) : Option Instant := do
  let minuteOfDay : Int := t.hour * 60 + t.minute - minutes
  let date ←
    if minuteOfDay < 0 then t.date.previous?
    else if minutesInDay ≤ minuteOfDay then t.date.next?
    else some t.date
  let minuteOfDay := (minuteOfDay % minutesInDay).toNat
  of? date (minuteOfDay / 60) (minuteOfDay % 60) t.second t.nanos

/-- A year in four digits or more, with a sign if it is below zero or has five digits. -/
def yearText (year : Int) : List Char :=
  if 0 ≤ year && year ≤ 9999 then zeroPadded 4 year.natAbs
  else (if year < 0 then '-' else '+') :: zeroPadded 4 year.natAbs

/-- A fraction of a second in three, six or nine digits, the fewest that are exact. -/
def fractionText (nanos : Nat) : List Char :=
  if nanos == 0 then []
  else if nanos % 1000000 == 0 then '.' :: zeroPadded 3 (nanos / 1000000)
  else if nanos % 1000 == 0 then '.' :: zeroPadded 6 (nanos / 1000)
  else '.' :: zeroPadded 9 nanos

/-- The second and its fraction; a leap second is number sixty. -/
def secondText (second nanos : Nat) : List Char :=
  zeroPadded 2 (second + nanos / nanosInSecond) ++ fractionText (nanos % nanosInSecond)

/-- The written form of an instant, with a name for its time zone. -/
def text (zone : String) (t : Instant) : String :=
  String.ofList (yearText t.date.year ++ '-' :: zeroPadded 2 t.date.month ++
    '-' :: zeroPadded 2 t.date.day ++ 'T' :: zeroPadded 2 t.hour ++ ':' :: zeroPadded 2 t.minute ++
    ':' :: secondText t.second t.nanos ++ zone.toList)

end Instant

end PredictionMarket
