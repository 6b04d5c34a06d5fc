/-!
# Days of the calendar

`Date` is a day of the Gregorian calendar, extended to all years of a fixed range.

## Main definitions

* `Date`: year, month and day, which must exist.
* `Date.next?`, `Date.previous?`: the neighbours of a day.
* `Date.toDays`, `Date.ofDays?`: the distance of a day from 1970-01-01.
-/

namespace PredictionMarket

def isLeapYear (year : Int) : Bool :=
  year % 4 == 0 && (year % 100 != 0 || year % 400 == 0)

def daysInMonth (year : Int) (month : Nat) : Nat :=
  if month == 2 then if isLeapYear year then 29 else 28
  else if [4, 6, 9, 11].contains month then 30
  else 31

def firstYear : Int := -262143

def lastYear : Int := 262142

/-- Whether a year, a month and a day make a date. -/
def isDate (year : Int) (month day : Nat) : Bool :=
  firstYear ≤ year && year ≤ lastYear && 1 ≤ month && month ≤ 12 && 1 ≤ day &&
    day ≤ daysInMonth year month

/-- A day of the calendar. -/
structure Date where
  year : Int
  month : Nat
  day : Nat
  /-- The day exists. -/
  isDate : isDate year month day = true
deriving DecidableEq, Repr

namespace Date

/-- The date of a year, a month and a day. -/
def of? (year : Int) (month day : Nat) : Option Date :=
  if h : PredictionMarket.isDate year month day = true then some ⟨year, month, day, h⟩ else none

/-- The day after a date, unless it is the last one. -/
def next? (d : Date) : Option Date :=
  if d.day < daysInMonth d.year d.month then of? d.year d.month (d.day + 1)
  else if d.month < 12 then of? d.year (d.month + 1) 1
  else of? (d.year + 1) 1 1

/-- The day before a date, unless it is the first one. -/
def previous? (d : Date) : Option Date :=
  if 1 < d.day then of? d.year d.month (d.day - 1)
  else if 1 < d.month then of? d.year (d.month - 1) (daysInMonth d.year (d.month - 1))
  else of? (d.year - 1) 12 31

/-- The days from the first of March 0000 to 1970-01-01. A year that starts in March has its leap
day at the end, and eras of 400 years all have the same length. -/
def daysToEpoch : Int := 719468

def daysInEra : Int := 146097

/-- The days from 1970-01-01 to a date. -/
def toDays (d : Date) : Int :=
  let year := if d.month ≤ 2 then d.year - 1 else d.year
  let yearOfEra := year % 400
  let monthFromMarch := (d.month + 9) % 12
  let dayOfYear := (153 * monthFromMarch + 2) / 5 + d.day - 1
  year / 400 * daysInEra + yearOfEra * 365 + yearOfEra / 4 - yearOfEra / 100 + dayOfYear -
    daysToEpoch

/-- The date a number of days after 1970-01-01. -/
def ofDays? (days : Int) : Option Date :=
  let shifted := days + daysToEpoch
  let era := shifted / daysInEra
  let dayOfEra := (shifted % daysInEra).toNat
  let yearOfEra := (dayOfEra - dayOfEra / 1460 + dayOfEra / 36524 - dayOfEra / 146096) / 365
  let dayOfYear := dayOfEra - (365 * yearOfEra + yearOfEra / 4 - yearOfEra / 100)
  let monthFromMarch := (5 * dayOfYear + 2) / 153
  let day := dayOfYear - (153 * monthFromMarch + 2) / 5 + 1
  let month := if monthFromMarch < 10 then monthFromMarch + 3 else monthFromMarch - 9
  let year := (yearOfEra : Int) + era * 400 + if month ≤ 2 then 1 else 0
  of? year month day

end Date

end PredictionMarket
