import PredictionMarket.Fixed
import PredictionMarket.Market.Basic
import PredictionMarket.Number.Places
import PredictionMarket.Number.Shortest

/-!
# What is shown of a market

Prices, shares of the volume, the pool and the time left, as numbers and as texts.

## Main definitions

* `Market.decimalPrice?`, `Market.pricesText`: the price of a share.
* `percentage`, `volumePercentages`: shares of a total in whole percent.
* `countdown`: the time left in its two coarsest units.
* `shortAddress`: the two ends of a long address.
-/

namespace PredictionMarket

/-- The price of a share of one side as a number. -/
def Market.decimalPrice? (m : Market) (side : Side) : Option Binary64 :=
  (m.price? side).map Fixed.toBinary64

/-- A price as shown, with a dash for none. -/
def priceText : Option Binary64 → String
  | some p => p.positional
  | none => "-"

/-- Both prices of a market with three places, zero for none. -/
def Market.pricesText (m : Market) : String :=
  let text side := ((m.decimalPrice? side).getD .zero).withPlaces 3
  "Y: " ++ text .yes ++ " | N: " ++ text .no

/-- The balance of a pool with two places. -/
def poolText (balance : UInt64) : String :=
  (Fixed.toBinary64 balance).withPlaces 2 ++ " U"

/-- The rounded share of a value in a total, in whole percent; zero in a total of zero. Both
numbers are rounded to binary numbers first, and a share that no word of thirty-two bits holds
becomes the greatest one. -/
def share (value : UInt64) (total : Nat) : UInt32 :=
  if total = 0 then 0
  else
    let ratio := Binary64.ofNat value.toNat / .ofNat total * .ofNat 100
    UInt32.ofNat (min ratio.round (UInt32.size - 1))

/-- The share of a value in a total, in whole percent. -/
def percentage (value total : UInt64) : UInt32 :=
  share value total.toNat

/-- The shares of YES and NO in the volume, in whole percent. -/
def volumePercentages (yes no : UInt64) : UInt32 × UInt32 :=
  let total := yes.toNat + no.toNat
  (share yes total, share no total)

/-- The shares of YES and NO in the volume of a market. -/
def Market.percentages (m : Market) : UInt32 × UInt32 :=
  volumePercentages m.yes m.no

/-- The milliseconds in a minute. -/
def minuteMillis : Nat := 60 * 1000

/-- The milliseconds in an hour. -/
def hourMillis : Nat := 60 * minuteMillis

/-- The milliseconds in a day. -/
def dayMillis : Nat := 24 * hourMillis

/-- A time span in days and hours, in hours and minutes, or in minutes alone. -/
def spanText (left : Nat) : String :=
  let days := left / dayMillis
  let hours := left % dayMillis / hourMillis
  let minutes := left % hourMillis / minuteMillis
  if 0 < days then toString days ++ "d " ++ toString hours ++ "h"
  else if 0 < hours then toString hours ++ "h " ++ toString minutes ++ "m"
  else toString minutes ++ "m"

/-- The time from `now` to an end. -/
def countdown (endTime : UInt64) (now : Int) : String :=
  if endTime.toNat ≤ now.toNat then "Ended" else spanText (endTime.toNat - now.toNat)

/-- The first six and the last four characters of an ASCII address of more than ten; other
addresses stay as they are. -/
def shortAddress (address : String) : String :=
  let cs := address.toList
  if 10 < cs.length && cs.all (·.toNat < 0x80) then
    String.ofList (cs.take 6) ++ "..." ++ String.ofList (cs.drop (cs.length - 4))
  else address

end PredictionMarket
