import PredictionMarket.Order.Estimate
import PredictionMarket.Trade.Trader

/-!
# Order entry

A `Flow` takes the order that a user enters for one market from choosing a side to the end of its
submission. Time passes only where an operation is told the time.

## Main definitions

* `Phase`: where order entry stands.
* `Flow.selectSide`, `Flow.setQuantity` and others: input, which is refused where it does not fit.
* `Flow.begin`, `Flow.complete`, `Flow.confirm`: the submission.
-/

namespace PredictionMarket

/-- Where order entry stands. -/
inductive Phase where
  | idle
  /-- A side is chosen. -/
  | sideSelected (side : Side)
  /-- An order is on its way. -/
  | submitting (side : Side)
  /-- The market has ended. -/
  | closed
deriving DecidableEq, Repr

/-- Which actions are offered on a market. -/
structure Controls where
  trading : Bool
  addLiquidity : Bool
  resolve : Bool
deriving DecidableEq, Repr

/-- The actions offered on a market at a time: no trading once it has ended. -/
def Market.controls (m : Market) (now : Int) : Controls :=
  ⟨!m.isEndedAt now, true, true⟩

/-- Order entry for a market. -/
structure Flow where
  market : Market
  draft : Draft
  phase : Phase
deriving DecidableEq, Repr

namespace Flow

/-- Order entry that starts at a time. -/
def start (m : Market) (now : Int) : Flow :=
  ⟨m, .empty, if m.isEndedAt now then .closed else .idle⟩

variable (f : Flow)

/-- Closes order entry if the market has ended at a time. -/
def refresh (now : Int) : Flow :=
  if f.market.isEndedAt now then { f with phase := .closed } else f

/-- The actions offered at a time; no trading where order entry is closed. -/
def controls (now : Int) : Controls :=
  let c := f.market.controls now
  { c with trading := c.trading && f.phase != .closed }

/-- Whether a side can be chosen. -/
def isOpen : Bool :=
  match f.phase with
  | .idle | .sideSelected _ => true
  | _ => false

/-- Whether a side is chosen and no order on its way. -/
def hasSide : Bool :=
  match f.phase with
  | .sideSelected _ => true
  | _ => false

/-- Chooses a side, if one can be chosen, and tells whether it was. -/
def selectSide (side : Side) : Bool × Flow :=
  if f.isOpen then
    (true, { f with draft := { f.draft with side := some side }, phase := .sideSelected side })
  else (false, f)

/-- Takes the choice of a side back. -/
def clearSide : Flow :=
  if f.hasSide then { f with draft := { f.draft with side := none }, phase := .idle } else f

/-- Enters a quantity, if a side is chosen, and tells whether it was entered. -/
def setQuantity (text : String) : Bool × Flow :=
  if f.hasSide then (true, { f with draft := { f.draft with quantity := text } }) else (false, f)

/-- Enters a limit price, if a side is chosen, and tells whether it was entered. -/
def setLimitPrice (text : String) : Bool × Flow :=
  if f.hasSide then (true, { f with draft := { f.draft with limitPrice := text } })
  else (false, f)

/-- Chooses the kind of order, if a side can be chosen, and tells whether it was. What was typed
stays. -/
def setKind (kind : OrderKind) : Bool × Flow :=
  if f.isOpen then (true, { f with draft := { f.draft with kind := kind } }) else (false, f)

/-- The estimate of the order, once a side is chosen. -/
def estimate : Option Estimate :=
  if f.hasSide then some (f.draft.estimateFor f.market) else none

/-- Whether the estimate is shown: a side is chosen and a quantity typed. -/
def isEstimateVisible : Bool :=
  f.hasSide && !Text.isAllBlank f.draft.quantity

/-- The order that can be submitted now. -/
def ready : Except TradeError OrderRequest :=
  match f.phase with
  | .closed => .error (.marketEnded f.market.address)
  | .submitting _ => .error .submissionInProgress
  | .idle => .error (.input .noSideSelected)
  | .sideSelected _ =>
    match f.draft.request with
    | .ok request => .ok request
    | .error e => .error (.input e)

/-- Order entry with an order on its way. -/
def submitted : Flow :=
  match f.phase with
  | .sideSelected side => { f with phase := .submitting side }
  | _ => f

/-- Starts a submission at a time. Where that is refused, the draft stays as typed. -/
def begin (now : Int) : Except TradeError OrderRequest × Flow :=
  let f := f.refresh now
  match f.ready with
  | .ok request => (.ok request, f.submitted)
  | .error e => (.error e, f)

/-- Ends a submission at a time, whatever came of it: quantity and side are cleared. -/
def complete (now : Int) : Flow :=
  { f with
    draft := { f.draft with quantity := "", side := none }
    phase := if f.market.isEndedAt now then .closed else .idle }

/-- Submits the order to a trader. -/
def confirm (trader : Trader) : Trade.Session (Except TradeError Effects × Flow) := do
  let now : Instant ← Trade.Session.put .now
  match f.begin now.toMillis with
  | (.error e, f) => return (.error e, f)
  | (.ok request, f) =>
    let outcome ← trader.submit f.market request
    let now : Instant ← Trade.Session.put .now
    return (outcome, f.complete now.toMillis)

end Flow

end PredictionMarket
