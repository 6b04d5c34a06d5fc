import PredictionMarket.Side
import PredictionMarket.Transaction.Assembly

/-!
# The calls of the market

The functions on the chain that markets, order books and oracles offer, with their arguments.

## Main definitions

* `Packages`: where these functions live.
* `Assembly.buy`, `Assembly.createOrder` and others: one call each.
-/

namespace PredictionMarket

/-- The identifiers on the chain that calls refer to. -/
structure Packages where
  market : String
  oracle : String
  usdcType : String
  clock : String
deriving DecidableEq, Repr

/-- An order to rest in the book of a market, amounts in billionths. -/
structure BookOrder where
  amount : UInt64
  price : UInt64
  isBid : Bool
  side : Side
  /-- When the order lapses, zero for never. -/
  expiry : UInt64
  /-- A number that tells otherwise equal orders apart. -/
  salt : UInt64
deriving DecidableEq, Repr

def Side.buyFunction : Side → String
  | .yes => "buy_yes"
  | .no => "buy_no"

namespace Assembly

variable (p : Packages)

/-- Buys whole shares of one side at the current price. -/
def buy (market : String) (side : Side) (payment : Argument) (quantity : UInt64) :
    Assembly Argument :=
  call (p.market ++ "::market::" ++ side.buyFunction)
    [.object market, payment, .u64 quantity, .object p.clock]

/-- Puts an order into the book, with a coin to pay for it. -/
def createOrder (owner market : String) (o : BookOrder) (coin : Argument) : Assembly Argument :=
  call (p.market ++ "::orderbook::create_order")
    [.address owner, .object market, .u64 o.amount, .u64 o.price,
      .u8 (if o.isBid then 1 else 0), .u8 o.side.flag, .u64 o.expiry, .u64 o.salt, coin]

/-- Adds a coin to the pool of a market. -/
def provideLiquidity (market : String) (coin : Argument) (amount : UInt64) : Assembly Argument :=
  call (p.market ++ "::market::provide_liquidity") [.object market, coin, .u64 amount]

def createMarket (topic description : String) (startTime endTime : UInt64) : Assembly Argument :=
  call (p.market ++ "::market::create_market")
    [.string topic, .string description, .u64 startTime, .u64 endTime]

/-- The outputs of the two calls that register an oracle. -/
structure OracleHandles where
  holder : Argument
  config : Argument

/-- Registers resolution code with its stored prompt and puts the result into a holder. -/
def createOracle (codeHash blobId : String) : Assembly OracleHandles := do
  let config ← call (p.oracle ++ "::oracle::create_config") [.string codeHash, .string blobId]
  let holder ← call (p.oracle ++ "::oracle::create_truth_oracle_holder") [config]
  return ⟨holder, config⟩

end Assembly

end PredictionMarket
