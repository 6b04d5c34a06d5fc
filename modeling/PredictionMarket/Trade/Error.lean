import PredictionMarket.Side
import PredictionMarket.Text.Quoted

/-!
# Why a trade did not go through

`TradeError` lists the causes, and `TradeError.message` words them.
-/

namespace PredictionMarket

/-- What is wrong with an order as typed. -/
inductive InputError where
  | noSideSelected
  | invalidQuantity (text : String)
  | invalidLimitPrice (text : String)
deriving DecidableEq, Repr

/-- The sentence shown for an order that is wrong as typed. -/
def InputError.message : InputError → String
  | noSideSelected => "No side selected"
  | invalidQuantity text => "Invalid quantity: " ++ Text.quoted text
  | invalidLimitPrice text => "Invalid limit price: " ++ Text.quoted text

/-- Why a trade did not go through. -/
inductive TradeError where
  /-- The order is wrong as typed, and the user can mend it. -/
  | input (e : InputError)
  | noMarketPrice (market : String) (side : Side)
  | marketEnded (market : String)
  | noWallet
  | noFundingCoin (owner : String)
  /-- The coins of the owner are worth less than the order takes. -/
  | insufficientFunds (need available : UInt64)
  | submissionInProgress
  /-- The transaction was executed and failed. -/
  | rejected (digest reason : String)
  /-- The index, the wallet or the transaction itself refused. -/
  | remote (cause : String)
deriving DecidableEq, Repr

namespace TradeError

def message : TradeError → String
  | input e => e.message
  | noMarketPrice market side => "Market " ++ market ++ " has no " ++ side.label ++ " price"
  | marketEnded market => "Market " ++ market ++ " has ended"
  | noWallet => "No connected wallet"
  | noFundingCoin owner => "No USDC found for " ++ owner
  | insufficientFunds need available =>
    "Insufficient USDC: need " ++ toString need.toNat ++ ", have " ++ toString available.toNat
  | submissionInProgress => "A submission is already in progress"
  | rejected digest reason => "Transaction " ++ digest ++ " failed: " ++ reason
  | remote cause => "Remote call failed: " ++ cause

/-- Whether the user can mend the error by typing. -/
def isInput : TradeError → Bool
  | input _ => true
  | _ => false

end TradeError

end PredictionMarket
