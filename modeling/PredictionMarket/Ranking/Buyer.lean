import PredictionMarket.Json.Codec

/-!
# Buyers in a ranking
-/

namespace PredictionMarket

/-- What an account bought of one side of a market. -/
structure Buyer where
  address : String
  /-- The amount in billionths. -/
  amount : UInt64
  lastBuyTime : Instant
  transactionCount : UInt32
deriving DecidableEq, Repr

open Json

namespace Buyer

def toTerm (b : Buyer) : Term :=
  .ofMembers [
    ("address", .ofString b.address),
    ("buyAmount", .ofWord b.amount),
    ("lastBuyTime", .ofInstant b.lastBuyTime),
    ("transactionCount", .ofNat b.transactionCount.toNat)]

def ofTerm? (t : Term) : Option Buyer :=
  match t.slots? ["address", "buyAmount", "lastBuyTime", "transactionCount"] with
  | some [address, amount, lastBuyTime, transactionCount] => do
    return {
      address := ← address.required Term.string?
      amount := ← amount.required Term.word?
      lastBuyTime := ← lastBuyTime.required Term.instant?
      transactionCount := ← transactionCount.required Term.word32? }
  | _ => none

instance : Codec Buyer where
  toTerm := toTerm
  ofTerm? := ofTerm?

end Buyer

end PredictionMarket
