import PredictionMarket.Market.View
import PredictionMarket.Number.Literal
import PredictionMarket.Order.Basic
import PredictionMarket.Text.Blank
import PredictionMarket.Trade.Error

/-!
# Estimating and validating an order

`Draft.estimate` shows what a draft would cost, and `Draft.request` turns it into an order.

## Main definitions

* `positive?`, `wholeShares?`: the two readings of a typed quantity.
* `Estimate`: price, total and what is valid in a draft.
* `Estimate.canSubmit`: whether the confirm control is offered.
* `Draft.request`: the order, or what is wrong with the draft.
-/

namespace PredictionMarket

/-- A finite number above zero, with white space around it. -/
def positive? (s : String) : Option Binary64 :=
  (Literal.binary64? (Text.trim s)).filter fun x => x.isFinite && x.isPositive

/-- A positive whole number of shares, with white space around it. -/
def wholeShares? (s : String) : Option UInt64 :=
  (Literal.word? (Text.trim s)).filter (0 < ·)

/-- What a draft would cost, and which parts of it are valid. -/
structure Estimate where
  side : Option Side
  kind : OrderKind
  /-- The price of a share, zero if there is none yet. -/
  price : Binary64
  quantity : Option Binary64
  /-- Price times quantity with four places. -/
  total : String
  /-- Whether the quantity is a whole number of shares. -/
  isWholeShares : Bool
  isLimitPriceValid : Bool
  /-- What to tell the user about the limit price. -/
  hint : Option String
deriving DecidableEq

/-- The sentence shown beside a limit price that is not valid. -/
def limitPriceHint : String := "Please enter a valid limit price."

namespace Estimate

variable (e : Estimate)

def priceText : String :=
  e.price.withPlaces 4

/-- The quantity as shown, zero if there is none. -/
def quantityText : String :=
  (e.quantity.getD .zero).positional

def isQuantityValid : Bool :=
  e.quantity.isSome

/-- Whether the confirm control is offered: there is a side, the inputs that the kind of order
needs are valid, and there is a price to trade at. -/
def canSubmit : Bool :=
  let isOrderValid :=
    match e.kind with
    | .market => e.isWholeShares
    | .limit => e.isLimitPriceValid
  e.side.isSome && e.isQuantityValid && isOrderValid && e.price.isPositive

end Estimate

namespace Draft

variable (d : Draft)

/-- The estimate of a draft, where the market trades at a price. -/
def estimate (marketPrice : Binary64) : Estimate :=
  let quantity := positive? d.quantity
  let limitPrice := positive? d.limitPrice
  let price :=
    match d.kind with
    | .market => marketPrice
    | .limit => limitPrice.getD .zero
  { side := d.side
    kind := d.kind
    price
    quantity
    total :=
      match quantity with
      | some q => if price.isPositive then (price * q).withPlaces 4 else "0.0000"
      | none => "0.0000"
    isWholeShares := (wholeShares? d.quantity).isSome
    isLimitPriceValid := limitPrice.isSome
    hint :=
      if d.kind = .limit ∧ limitPrice = none ∧ d.limitPrice ≠ "" then some limitPriceHint
      else none }

/-- The estimate of a draft at the price that a market has for its side. -/
def estimateFor (m : Market) : Estimate :=
  d.estimate ((d.side.bind m.decimalPrice?).getD .zero)

/-- The order that a draft describes. A market order takes whole shares, a limit order any
quantity and price of at least a billionth. -/
def request : Except InputError OrderRequest := do
  let some side := d.side | throw .noSideSelected
  match d.kind with
  | .market =>
    let some quantity := wholeShares? d.quantity | throw (.invalidQuantity d.quantity)
    return .market side quantity
  | .limit =>
    let some amount := (positive? d.quantity).bind Fixed.ofBinary64?
      | throw (.invalidQuantity d.quantity)
    let some price := (positive? d.limitPrice).bind Fixed.ofBinary64?
      | throw (.invalidLimitPrice d.limitPrice)
    return .limit side amount price

end Draft

end PredictionMarket
