import PredictionMarket.CommandLine.Command
import PredictionMarket.Program.Lines
import PredictionMarket.Program.Setup

/-!
# Commands of markets and trading

The commands that list markets, that estimate and submit orders, and those that a trader has beside
them.

## Main definitions

* `Program.markets`: the list of markets.
* `Program.quote`, `Program.buy`: an order, estimated or submitted.
* `Program.addLiquidity`, `Program.resolve`, `Program.createMarket`: the other actions.

## Design notes

A wallet and a journal are looked for once the market is known, and a transaction is made only after
the estimate was printed and can be submitted.
-/

namespace PredictionMarket

/-- The order entry of a ticket, from a flow in which a side is chosen on. -/
def CommandLine.OrderTicket.enter (o : OrderTicket) (f : Flow) : Flow :=
  let f :=
    match o.limit with
    | some price => ((f.setKind .limit).2.setLimitPrice price).2
    | none => f
  (f.setQuantity o.quantity).2

namespace Program

open CommandLine

/-- The result of trading, or its complaint. -/
def traded {α : Type} (outcome : Except TradeError α) : Host.Attempt α :=
  Host.attempt (outcome.mapError TradeError.message)

variable (s : Setup)

def readMarkets : Host.Attempt Store := do
  let reply : Http.Reply ← (Host.send .index s.timeout s.index.marketsCall.request :)
  let markets ← Host.attempt (s.index.markets reply)
  return Store.empty.replaceMarkets markets

def readMarket (address : String) : Host.Attempt (Market × Store) := do
  let known ← readMarkets s
  match known.market? address with
  | some m => return (m, known)
  | none => throw ("Market " ++ address ++ " not found")

def markets : Host.Attempt Unit := do
  let known ← readMarkets s
  let now : Instant ← (Host.now :)
  Host.report (known.markets.flatMap fun m => m.lines now.toMillis)

/-- The order entry of a ticket for a market that is open now. -/
def enter (m : Market) (o : OrderTicket) : Host.Attempt Flow := do
  let now : Instant ← (Host.now :)
  match (Flow.start m now.toMillis).selectSide o.side with
  | (true, f) => return o.enter f
  | (false, _) => throw ("Market " ++ m.address ++ " has ended")

/-- Prints the estimate of an order, which has to be one that can be submitted. -/
def printEstimate (f : Flow) : Host.Attempt Unit := do
  match f.estimate with
  | none => throw "No side selected"
  | some e =>
    Host.report (e.lines f.market)
    if !e.canSubmit then throw "Order is not complete"

def quote (o : OrderTicket) : Host.Attempt Unit := do
  let (m, _) ← readMarket s o.market
  printEstimate (← enter m o)

/-- Estimates and submits an order. -/
def buy (o : OrderTicket) : Host.Attempt Unit := do
  let (m, known) ← readMarket s o.market
  let place ← s.surroundings
  let f ← enter m o
  printEstimate f
  let (outcome, _) ← (place.hold known (f.confirm s.trader) : Host.Session _)
  let effects ← traded outcome
  Host.report ["Submitted: " ++ effects.digest]

def addLiquidity (address : String) : Host.Attempt Unit := do
  let (m, known) ← readMarket s address
  let place ← s.surroundings
  let outcome ← (place.hold known (s.trader.addLiquidity m) : Host.Session _)
  let effects ← traded outcome
  Host.report ["Liquidity added: " ++ effects.digest]

/-- Asks for the resolution of a market. -/
def resolve (address : String) : Host.Attempt Unit := do
  let (m, known) ← readMarket s address
  let place ← s.surroundings
  let request : ResolveRequest ← (place.hold known (s.trader.resolve m) :)
  Host.report [request.line]

/-- The start of a market: the one that is given, or now. -/
def startTime : Option UInt64 → Host.Attempt UInt64
  | some start => return start
  | none => do
    let now : Instant ← (Host.now :)
    return Fixed.cap now.toMillis.toNat

/-- The end of a market that is open for some hours, or the last moment there is. -/
def endTime (start hours : UInt64) : UInt64 :=
  Fixed.cap (start.toNat + hours.toNat * hourMillis)

def createMarket (topic description : String) (start : Option UInt64) (hours : UInt64) :
    Host.Attempt Unit := do
  let start ← startTime start
  let place ← s.surroundings
  let session := s.trader.createMarket topic description start (endTime start hours)
  let outcome ← (place.hold .empty session : Host.Session _)
  let effects ← traded outcome
  Host.report ["Market created: " ++ effects.digest]

end Program

end PredictionMarket
