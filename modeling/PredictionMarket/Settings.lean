import PredictionMarket.Environment.Variables
import PredictionMarket.Toml.Reader
import PredictionMarket.Toml.Record
import PredictionMarket.Trade.Trader

/-!
# Settings

`Settings` come from a TOML text and may be changed by the `Environment`, the variables that a
program is started with.

## Main definitions

* `Settings.ofText?`: the settings of a text.
* `Environment.ofVariables`: what the variables say.
* `Settings.inEnvironment`: the settings that hold in an environment.
-/

namespace PredictionMarket

/-- Where the servers are. -/
structure Network where
  /-- The index of the ledger. -/
  index : String
  /-- The application with the chat and the rankings. -/
  app : String
  /-- The publisher of stored texts. -/
  publisher : String
  /-- How many seconds a request may take. -/
  timeout : UInt64
deriving DecidableEq, Repr

/-- How long a publisher keeps a text. -/
structure Retention where
  epochs : UInt32
  deletable : Bool
deriving DecidableEq, Repr

/-- Where trades are listed. -/
structure JournalFile where
  isUsed : Bool
  path : String
deriving DecidableEq, Repr

/-- What a program works with. -/
structure Settings where
  /-- Whether transactions are built but not executed. -/
  isDryRun : Bool
  network : Network
  packages : Packages
  /-- The seconds between two looks at a chat. -/
  pollingInterval : UInt64
  liquidity : Liquidity
  retention : Retention
  journal : JournalFile
deriving DecidableEq, Repr

namespace Settings

open Toml

/-- The part of a text that says whether it is a dry run. -/
def isDryRun? (v : Value) : Option Bool :=
  match v.fields? ["dry_run"] with
  | some [isDryRun] => required Value.boolean? isDryRun
  | _ => none

/-- The part of a text on servers. -/
def network? (v : Value) : Option Network :=
  match v.fields? ["graphql_url", "app_url", "walrus_publisher_url", "request_timeout_secs"] with
  | some [index, app, publisher, timeout] => do
    return {
      index := ← required Value.string? index
      app := ← required Value.string? app
      publisher := ← required Value.string? publisher
      timeout := ← orElse 30 Value.word? timeout }
  | _ => none

/-- The part of a text on packages. -/
def packages? (v : Value) : Option Packages :=
  match v.fields? ["market", "oracle", "usdc_type", "clock"] with
  | some [market, oracle, usdcType, clock] => do
    return {
      market := ← required Value.string? market
      oracle := ← required Value.string? oracle
      usdcType := ← required Value.string? usdcType
      clock := ← orElse "0x6" Value.string? clock }
  | _ => none

/-- The seconds between two looks at a chat where nothing else is said. -/
def defaultInterval : UInt64 := 30

/-- The part of a text on the chat. -/
def pollingInterval? (v : Value) : Option UInt64 :=
  match v.fields? ["polling_interval_secs"] with
  | some [interval] => orElse defaultInterval Value.word? interval
  | _ => none

/-- The part of a text on adding liquidity. -/
def liquidity? (v : Value) : Option Liquidity :=
  match v.fields? ["lp_amount", "seed_order_amount", "seed_order_price"] with
  | some [lpAmount, seedAmount, seedPrice] => do
    return {
      lpAmount := ← orElse Liquidity.default.lpAmount Value.word? lpAmount
      seedAmount := ← orElse Liquidity.default.seedAmount Value.word? seedAmount
      seedPrice := ← orElse Liquidity.default.seedPrice Value.word? seedPrice }
  | _ => none

/-- How long a publisher keeps a text where nothing else is said. -/
def defaultRetention : Retention := ⟨3, true⟩

/-- The part of a text on a publisher. -/
def retention? (v : Value) : Option Retention :=
  match v.fields? ["epochs", "deletable"] with
  | some [epochs, deletable] => do
    return {
      epochs := ← orElse defaultRetention.epochs Value.word32? epochs
      deletable := ← orElse defaultRetention.deletable Value.boolean? deletable }
  | _ => none

/-- The part of a text on the journal. -/
def journal? (v : Value) : Option JournalFile :=
  match v.fields? ["csv_logging", "csv_log_path"] with
  | some [isUsed, path] => do
    return { isUsed := ← required Value.boolean? isUsed, path := ← required Value.string? path }
  | _ => none

/-- The settings in a table. -/
def ofTable? (t : Table) : Option Settings := do
  return {
    isDryRun := ← required isDryRun? (t.lookup "system")
    network := ← required network? (t.lookup "network")
    packages := ← required packages? (t.lookup "packages")
    pollingInterval := ← orElse defaultInterval pollingInterval? (t.lookup "chat")
    liquidity := ← orElse .default liquidity? (t.lookup "liquidity")
    retention := ← orElse defaultRetention retention? (t.lookup "walrus")
    journal := ← required journal? (t.lookup "monitoring") }

def ofText? (s : String) : Option Settings :=
  (Document.ofText? s).bind fun d => ofTable? d.root

end Settings

/-- What the variables of a program say. -/
structure Environment where
  /-- The account that is connected. -/
  account : Option String
  /-- Where transactions are signed and executed. -/
  signer : Option String
  index : Option String
  app : Option String
  isDryRun : Option Bool
deriving DecidableEq, Repr

namespace Environment

/-- The text of a variable, unless it is blank. -/
def value? (vars : Variables) (name : String) : Option String :=
  (vars.text? name).filter fun v => !Text.isAllBlank v

/-- A truth value as a word. -/
def truth? (s : String) : Option Bool :=
  if s == "true" then some true else if s == "false" then some false else none

/-- Why variables are refused. -/
inductive Refusal where
  /-- The variable for dry runs is no truth value. -/
  | dryRun (value : String)
deriving DecidableEq, Repr

def Refusal.message : Refusal → String
  | dryRun value => "DRY_RUN must be true or false, got " ++ value

/-- What variables say about dry runs. -/
def dryRun (vars : Variables) : Except Refusal (Option Bool) :=
  match value? vars "DRY_RUN" with
  | none => .ok none
  | some v =>
    match truth? v with
    | some b => .ok (some b)
    | none => .error (.dryRun v)

/-- What variables say. -/
def ofVariables (vars : Variables) : Except Refusal Environment := do
  return {
    account := value? vars "NEREUS_WALLET_ADDRESS"
    signer := value? vars "NEREUS_SIGNER_URL"
    index := value? vars "NEREUS_GRAPHQL_URL"
    app := value? vars "NEREUS_APP_URL"
    isDryRun := ← dryRun vars }

end Environment

/-- The settings with what an environment says otherwise. -/
def Settings.inEnvironment (s : Settings) (e : Environment) : Settings :=
  { s with
    isDryRun := e.isDryRun.getD s.isDryRun
    network := { s.network with
      index := e.index.getD s.network.index
      app := e.app.getD s.network.app } }

end PredictionMarket
