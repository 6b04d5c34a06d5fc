import PredictionMarket.Side

/-!
# Orders

An order is entered as a `Draft` of texts and leaves as an `OrderRequest` of words.
-/

namespace PredictionMarket

/-- The two kinds of orders. -/
inductive OrderKind where
  /-- Whole shares at the current price. -/
  | market
  /-- Any amount at a price of one's own. -/
  | limit
deriving DecidableEq, Repr

def OrderKind.label : OrderKind → String
  | market => "MARKET"
  | limit => "LIMIT"

/-- An order as typed so far. -/
structure Draft where
  side : Option Side
  kind : OrderKind
  quantity : String
  limitPrice : String
deriving DecidableEq, Repr

/-- The draft that order entry starts with. -/
def Draft.empty : Draft := ⟨none, .market, "", ""⟩

/-- An order that is ready to become a transaction. -/
inductive OrderRequest where
  /-- Whole shares at the current price of the market. -/
  | market (side : Side) (quantity : UInt64)
  /-- An amount at a price, both in billionths. -/
  | limit (side : Side) (amount price : UInt64)
deriving DecidableEq, Repr

namespace OrderRequest

def side : OrderRequest → Side
  | market side _ => side
  | limit side _ _ => side

def kind : OrderRequest → OrderKind
  | market .. => .market
  | limit .. => .limit

end OrderRequest

end PredictionMarket
