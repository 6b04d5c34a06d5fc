import PredictionMarket.Holdings
import PredictionMarket.Order.Basic
import PredictionMarket.Market.Basic
import PredictionMarket.Trade.Error
import PredictionMarket.Transaction.Calls

/-!
# Paying for a transaction

The coins of an owner are merged into the most valuable one, and what a transaction takes is split
off from that one.

## Main definitions

* `OrderRequest.cost`: what an order takes.
* `Funds.ofHoldings`: the coins to pay with, if they are enough.
* `Funds.transaction`: a transaction paid from these coins.
-/

namespace PredictionMarket

/-- What an order on a market takes: for a market order the quantity times the price, if a word
holds it; for a limit order its amount. -/
def OrderRequest.cost (m : Market) : OrderRequest → Except TradeError UInt64
  | market side quantity =>
    match m.price? side with
    | none => .error (.noMarketPrice m.address side)
    | some price =>
      let cost := quantity.toNat * price.toNat
      if cost < UInt64.size then .ok (UInt64.ofNat cost)
      else .error (.input (.invalidQuantity (toString quantity.toNat)))
  | limit _ amount _ => .ok amount

/-- The coins that a sender pays with. -/
structure Funds where
  sender : Address
  /-- The most valuable coin. -/
  primary : Argument
  /-- The other coins, which are merged into it. -/
  others : List Argument

namespace Funds

/-- The coins of an owner, if there are any, they are worth enough and the owner has an address. -/
def ofHoldings (owner : String) (h : Holdings) (need : UInt64) : Except TradeError Funds :=
  match h.fundingCoins with
  | [] => .error (.noFundingCoin owner)
  | primary :: others =>
    if h.total < need then .error (.insufficientFunds need h.total)
    else
      match Address.ofSender owner with
      | .error e => .error (.remote e.message)
      | .ok sender => .ok ⟨sender, .object primary.id, others.map fun c => .object c.id⟩

/-- A transaction that merges the coins and then spends from the primary one. -/
def transaction {α : Type} (f : Funds) (spend : Argument → Assembly α) : Transaction :=
  Assembly.transaction f.sender do
    Assembly.merge f.primary f.others
    spend f.primary

end Funds

/-- The amounts that adding liquidity takes, in billionths. -/
structure Liquidity where
  lpAmount : UInt64
  /-- The amount of the order that is put into the book for each side. -/
  seedAmount : UInt64
  seedPrice : UInt64
deriving DecidableEq, Repr

namespace Liquidity

/-- The amounts used where none are set. -/
def default : Liquidity := ⟨50000000000, 50000000000, 27500000000⟩

/-- What adding liquidity takes, the greatest word standing for more. -/
def cost (l : Liquidity) : UInt64 :=
  Fixed.add l.lpAmount (Fixed.mul l.seedAmount 2)

end Liquidity

namespace Assembly

variable (p : Packages)

/-- An order to buy that stays in the book until it is cancelled. -/
def restingBid (side : Side) (amount price salt : UInt64) : BookOrder :=
  { amount, price, isBid := true, side, expiry := 0, salt }

/-- Pays for shares from a coin. -/
def buyShares (market : String) (side : Side) (quantity cost : UInt64) (primary : Argument) :
    Assembly Argument := do
  let coin ← split primary cost
  buy p market side coin quantity

/-- Pays for an order in the book from a coin. -/
def placeBid (owner market : String) (side : Side) (amount price salt : UInt64)
    (primary : Argument) : Assembly Argument := do
  let coin ← split primary amount
  createOrder p owner market (restingBid side amount price salt) coin

/-- Pays for the liquidity of a market from a coin: a share of the pool, then an order for each
side. -/
def addLiquidity (owner market : String) (l : Liquidity) (yesSalt noSalt : UInt64)
    (primary : Argument) : Assembly Argument := do
  let poolCoin ← split primary l.lpAmount
  let yesCoin ← split primary l.seedAmount
  let noCoin ← split primary l.seedAmount
  let _ ← provideLiquidity p market poolCoin l.lpAmount
  let _ ← createOrder p owner market (restingBid .yes l.seedAmount l.seedPrice yesSalt) yesCoin
  createOrder p owner market (restingBid .no l.seedAmount l.seedPrice noSalt) noCoin

end Assembly

end PredictionMarket
