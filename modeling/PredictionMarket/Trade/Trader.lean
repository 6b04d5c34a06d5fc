import PredictionMarket.Text.Blank
import PredictionMarket.Trade.Funds
import PredictionMarket.Trade.Question

/-!
# Trading

A `Trader` builds transactions for the account that is connected and hands them to its wallet.
Every operation is a dialogue with the surroundings, so nothing else can happen in it.

## Main definitions

* `Trader.submit`, `Trader.addLiquidity`: trades on a market, which the journal lists in any case.
* `Trader.createMarket`, `Trader.createOracle`: creations, which the journal lists if the wallet was
  asked.
* `Trader.resolve`: the wish that a market be resolved.
-/

namespace PredictionMarket

/-- An account with what its transactions refer to. -/
structure Trader where
  /-- The account of the wallet, if one is connected. -/
  account : Option String
  packages : Packages
  liquidity : Liquidity
  /-- Whether actions are listed in a journal. -/
  hasJournal : Bool
deriving DecidableEq, Repr

/-- A wish that a market be resolved. -/
structure ResolveRequest where
  market : String
  requestedAt : Instant
  hasEnded : Bool
deriving DecidableEq, Repr

/-- What an action is listed as in the journal. -/
structure Action where
  market : String
  name : String
  side : Option Side
  quantity : Option UInt64
  price : Option UInt64
deriving DecidableEq, Repr

namespace Action

/-- The action that submits an order. -/
def ofRequest (m : Market) : OrderRequest → Action
  | .market side quantity => ⟨m.address, "buy", some side, some quantity, m.price? side⟩
  | .limit side amount price => ⟨m.address, "limit", some side, some amount, some price⟩

/-- The action that adds liquidity. -/
def ofLiquidity (m : Market) (l : Liquidity) : Action :=
  ⟨m.address, "add_liquidity", none, some l.lpAmount, some l.seedPrice⟩

/-- An action without a market. -/
def creation (name : String) : Action := ⟨"", name, none, none, none⟩

/-- The row of an action with its outcome. -/
def row (a : Action) (timestamp : Instant) (outcome : Except TradeError Effects) : Journal.Row :=
  { timestamp
    market := a.market
    action := a.name
    side := a.side.map Side.label
    quantity := a.quantity
    price := a.price
    digest :=
      match outcome with
      | .ok effects => some effects.digest
      | .error (.rejected digest _) => some digest
      | .error _ => none
    status :=
      match outcome with
      | .ok _ => "ok"
      | .error (.rejected _ reason) => "failed: " ++ reason
      | .error e => "error: " ++ e.message }

end Action

/-- The outcome of a transaction that a wallet was asked to execute. -/
def settle : Except String Effects → Except TradeError Effects
  | .error cause => .error (.remote cause)
  | .ok effects =>
    if effects.success then .ok effects
    else .error (.rejected effects.digest (effects.error.getD "unknown failure"))

namespace Trader

open Trade

variable (t : Trader)

/-- The account that is connected; an empty text is none. -/
def address : Option String :=
  t.account.filter (· != "")

/-- The account that is connected, without which there is no trade. -/
def owner : Except TradeError String :=
  match t.address with
  | some a => .ok a
  | none => .error .noWallet

/-- Lists an action in the journal, if there is one. -/
def record (a : Action) (outcome : Except TradeError Effects) : Session Unit := do
  if t.hasJournal then
    let now : Instant ← Session.put .now
    Session.put (.record (a.row now outcome))

/-- An outcome as an attempt. -/
def attempt {α : Type} (outcome : Except TradeError α) : Attempt α :=
  ExceptT.mk (pure outcome)

/-- Hands a transaction to the wallet. -/
def execute (tx : Transaction) : Attempt Effects := do
  let reply : Except String Effects ← (Session.put (.execute tx) :)
  attempt (settle reply)

/-- The coins to pay a sum with, as the index lists them now. -/
def fund (owner : String) (need : UInt64) : Attempt Funds := do
  let reply ← (Session.refreshHoldings owner : Session _)
  match reply with
  | .error cause => throw (.remote cause)
  | .ok h => attempt (Funds.ofHoldings owner h need)

/-- Executes an order, if the market is open and the account can pay for it. -/
def place (m : Market) (request : OrderRequest) : Attempt Effects := do
  let now : Instant ← (Session.put .now :)
  if m.isEndedAt now.toMillis then throw (.marketEnded m.address)
  let owner ← attempt t.owner
  let cost ← attempt (request.cost m)
  let funds ← fund owner cost
  match request with
  | .market side quantity =>
    execute (funds.transaction (Assembly.buyShares t.packages m.address side quantity cost))
  | .limit side amount price =>
    let salt : UInt64 ← (Session.put .salt :)
    execute (funds.transaction
      (Assembly.placeBid t.packages owner m.address side amount price salt))

/-- Executes an order and lists it in the journal. -/
def submit (m : Market) (request : OrderRequest) : Session (Except TradeError Effects) := do
  let outcome ← (t.place m request).run
  t.record (.ofRequest m request) outcome
  return outcome

/-- Adds liquidity, if the account can pay for it. -/
def provide (m : Market) : Attempt Effects := do
  let owner ← attempt t.owner
  let funds ← fund owner t.liquidity.cost
  let yesSalt : UInt64 ← (Session.put .salt :)
  let noSalt : UInt64 ← (Session.put .salt :)
  execute (funds.transaction
    (Assembly.addLiquidity t.packages owner m.address t.liquidity yesSalt noSalt))

/-- Adds liquidity to the pool and to both sides of the book, and lists that in the journal. A
market that has ended takes liquidity too. -/
def addLiquidity (m : Market) : Session (Except TradeError Effects) := do
  let outcome ← (t.provide m).run
  t.record (.ofLiquidity m t.liquidity) outcome
  return outcome

/-- Asks for the resolution of a market, which the oracle decides about. -/
def resolve (m : Market) : Session ResolveRequest := do
  if t.hasJournal then
    let now : Instant ← Session.put .now
    Session.put (.record (.event now m.address "resolve requested"))
  let requestedAt : Instant ← Session.put .now
  let now : Instant ← Session.put .now
  return ⟨m.address, requestedAt, m.isEndedAt now.toMillis⟩

/-- The sender of a transaction that takes no coins. -/
def sender : Except TradeError Address := do
  let owner ← t.owner
  match Address.ofSender owner with
  | .ok a => .ok a
  | .error e => .error (.remote e.message)

/-- Executes a creation and lists it in the journal, unless it was refused before. -/
def create (name : String) (prepared : Except TradeError Transaction) :
    Session (Except TradeError Effects) := do
  match prepared with
  | .error e => return .error e
  | .ok tx =>
    let outcome ← (execute tx).run
    t.record (.creation name) outcome
    return outcome

/-- The transaction that creates a market, whose topic must not be blank and which must end after
it starts. -/
def marketCreation (topic description : String) (startTime endTime : UInt64) :
    Except TradeError Transaction := do
  let _ ← t.owner
  if Text.isAllBlank topic then throw (.remote "Market topic is empty")
  if endTime ≤ startTime then
    throw (.remote ("End time " ++ toString endTime.toNat ++ " is not after start time " ++
      toString startTime.toNat))
  let sender ← t.sender
  return Assembly.transaction sender
    (Assembly.createMarket t.packages topic description startTime endTime)

def createMarket (topic description : String) (startTime endTime : UInt64) :
    Session (Except TradeError Effects) :=
  t.create "create_market" (t.marketCreation topic description startTime endTime)

/-- The transaction that registers an oracle. -/
def oracleCreation (codeHash blobId : String) : Except TradeError Transaction := do
  let sender ← t.sender
  return Assembly.transaction sender (Assembly.createOracle t.packages codeHash blobId)

/-- Registers resolution code and its stored prompt with the oracle. -/
def createOracle (codeHash blobId : String) : Session (Except TradeError Effects) :=
  t.create "create_oracle_config" (t.oracleCreation codeHash blobId)

end Trader

end PredictionMarket
