import PredictionMarket.Side

/-!
# Markets

`Market` is a binary market as the index reports it. Times are milliseconds since 1970-01-01 UTC,
amounts are billionths.
-/

namespace PredictionMarket

/-- A binary market. -/
structure Market where
  address : String
  topic : String
  description : String
  /-- The volume traded on YES so far. -/
  yes : UInt64
  /-- The volume traded on NO so far. -/
  no : UInt64
  startTime : UInt64
  endTime : UInt64
  /-- What the pool holds. -/
  balance : UInt64
  yesPrice : Option UInt64
  noPrice : Option UInt64
  oracleConfig : String
deriving DecidableEq, Repr

namespace Market

variable (m : Market)

/-- The price of a share of one side. A price of zero is no price. -/
def price? (side : Side) : Option UInt64 :=
  (match side with
    | .yes => m.yesPrice
    | .no => m.noPrice).filter (0 < ·)

/-- The volume traded on one side so far. -/
def volume : Side → UInt64
  | .yes => m.yes
  | .no => m.no

/-- Whether trading is over at a time, which counts as 1970 if it lies before. -/
def isEndedAt (now : Int) : Bool :=
  m.endTime.toNat ≤ now.toNat

end Market

end PredictionMarket
