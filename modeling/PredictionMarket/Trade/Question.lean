import PredictionMarket.Dialogue
import PredictionMarket.Journal
import PredictionMarket.Store
import PredictionMarket.Trade.Error
import PredictionMarket.Transaction.Basic
import PredictionMarket.Wallet.Effects

/-!
# What trading asks of its surroundings

Trading reads the clock, asks an index for coins, hands transactions to a wallet and rows to a
journal. `Trade.Session` is a dialogue of such questions that knows what was last read.
-/

namespace PredictionMarket

namespace Trade

/-- A question that trading puts. -/
inductive Question where
  /-- What time it is. -/
  | now
  /-- A number by chance. -/
  | salt
  /-- Which coins an owner has; the index answers. -/
  | holdings (owner : String)
  /-- How a transaction went; the wallet signs and executes it. -/
  | execute (t : Transaction)
  /-- Adds a row to the journal. -/
  | record (row : Journal.Row)

/-- The answers to a question. An index and a wallet may refuse, with a reason. -/
def Question.Answer : Question → Type
  | now => Instant
  | salt => UInt64
  | holdings _ => Except String Holdings
  | execute _ => Except String Effects
  | record _ => Unit

/-- A dialogue of trading, over what was last read. -/
abbrev Session := StateT Store (Dialogue Question.Answer)

/-- A dialogue of trading that may stop with an error. -/
abbrev Attempt := ExceptT TradeError Session

namespace Session

def put (q : Question) : Session q.Answer :=
  StateT.lift (Dialogue.put q)

/-- Asks the index for the coins of an owner, and keeps them. -/
def refreshHoldings (owner : String) : Session (Except String Holdings) := do
  let reply : Except String Holdings ← put (.holdings owner)
  modify (·.refreshHoldings reply)
  return reply

end Session

end Trade

end PredictionMarket
