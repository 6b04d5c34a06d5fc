import PredictionMarket.Fixed
import PredictionMarket.Json.Codec

/-!
# The coins of an owner

`Holdings` are the coins that an owner can pay with, in the order in which the index lists them.

## Main definitions

* `Holdings.total`: what the coins are worth together.
* `Holdings.fundingCoins`: the coins from the most to the least valuable one.
-/

namespace PredictionMarket

/-- A coin object and what it is worth. -/
structure Coin where
  id : String
  balance : UInt64
deriving DecidableEq, Repr

/-- The coins of an owner. -/
structure Holdings where
  owner : String
  coins : List Coin
deriving DecidableEq, Repr

namespace Holdings

/-- What the coins are worth together, the greatest word standing for more. -/
def total (h : Holdings) : UInt64 :=
  h.coins.foldl (fun total c => Fixed.add total c.balance) 0

/-- The coins in descending order of balance; equal ones stay in their order. -/
def fundingCoins (h : Holdings) : List Coin :=
  h.coins.mergeSort fun a b => b.balance ≤ a.balance

end Holdings

open Json

namespace Coin

def toTerm (c : Coin) : Term :=
  .ofMembers [("object_id", .ofString c.id), ("balance", .ofWord c.balance)]

def ofTerm? (t : Term) : Option Coin :=
  match t.slots? ["object_id", "balance"] with
  | some [id, balance] => do
    return { id := ← id.required Term.string?, balance := ← balance.required Term.word? }
  | _ => none

end Coin

namespace Holdings

def toTerm (h : Holdings) : Term :=
  .ofMembers [("owner", .ofString h.owner), ("usdc", .array (h.coins.map Coin.toTerm))]

def ofTerm? (t : Term) : Option Holdings :=
  match t.slots? ["owner", "usdc"] with
  | some [owner, coins] => do
    return {
      owner := ← owner.required Term.string?
      coins := ← coins.required (Term.list? Coin.ofTerm?) }
  | _ => none

instance : Codec Holdings where
  toTerm := toTerm
  ofTerm? := ofTerm?

end Holdings

end PredictionMarket
