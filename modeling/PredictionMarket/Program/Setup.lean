import PredictionMarket.App
import PredictionMarket.Environment.File
import PredictionMarket.Program.Surroundings
import PredictionMarket.Publisher

/-!
# How a program is set up

A program starts with the variables of its environment, to which a file in its directory or in one
above it may add, and with a file of settings. Where both say something, the variables count.

## Main definitions

* `Setup.completeVariables`: the variables that count.
* `Setup.load`: reading the files.
* `Setup.surroundings`: where a program trades, once that is known and the journal is there.
-/

namespace PredictionMarket

/-- What a program works with. -/
structure Setup where
  /-- The settings that hold in the environment. -/
  settings : Settings
  environment : Environment
deriving DecidableEq, Repr

namespace Setup

/-- The name of a file that may add to the variables. -/
def variablesFile : String := ".env"

/-- The paths at which there may be such a file, that in the directory of the program first. -/
def variablesPaths (directoriesAbove : Nat) : List String :=
  (List.range (directoriesAbove + 1)).map fun n =>
    String.join (List.replicate n "../") ++ variablesFile

/-- The variables of the program with those that the nearest file adds. -/
def completeVariables (vars : Variables) : Host.Session Variables := do
  match ← Host.put .directoriesAbove with
  | none => return vars
  | some above =>
    match ← Host.firstFile? (variablesPaths above) with
    | none => return vars
    | some path =>
      let lines : List String ← Host.put (.readLines path)
      return EnvironmentFile.lines vars lines

/-- The setup for an environment and for the text of a file of settings. -/
def make (environment : Environment) (path : String) (text : Option String) :
    Except String Setup :=
  match text with
  | none => .error ("Failed to read config file: " ++ path)
  | some text =>
    match Settings.ofText? text with
    | some settings => .ok ⟨settings.inEnvironment environment, environment⟩
    | none => .error ("Failed to parse config file: " ++ path)

/-- Reads the setup from the variables and from a file of settings. -/
def load (vars : Variables) (path : String) : Host.Attempt Setup := do
  let vars : Variables ← (completeVariables vars :)
  let environment ←
    Host.attempt ((Environment.ofVariables vars).mapError Environment.Refusal.message)
  let text : Option String ← (Host.readFile path :)
  Host.attempt (make environment path text)

variable (s : Setup)

/-- How many seconds a request may take. -/
def timeout : UInt64 :=
  s.settings.network.timeout

def index : Index where
  endpoint := s.settings.network.index
  package := s.settings.packages.market
  coinType := s.settings.packages.usdcType

def app : App :=
  ⟨s.settings.network.app⟩

def publisher : Publisher :=
  ⟨s.settings.network.publisher, s.settings.retention⟩

def trader : Trader where
  account := s.environment.account
  packages := s.settings.packages
  liquidity := s.settings.liquidity
  hasJournal := s.settings.journal.isUsed

/-- What executes transactions; without a signer, only a dry run is possible. -/
def wallet : Except String Wallet :=
  if s.settings.isDryRun then .ok .dryRun
  else
    match s.environment.signer with
    | some base => .ok (.signer ⟨base⟩)
    | none => .error "NEREUS_SIGNER_URL must be set when dry_run is disabled"

/-- Makes the journal, unless there is one or none is used. -/
def openJournal : Host.Attempt Unit := do
  if s.settings.journal.isUsed then
    let path := s.settings.journal.path
    let isThere : Bool ← (Host.put (.hasFile path) :)
    if !isThere then
      let isMade : Bool ← (Host.put (.createFile path (Journal.opened none)) :)
      if !isMade then throw ("Failed to create trade journal: " ++ path)

/-- Where the program trades. -/
def surroundings : Host.Attempt Surroundings := do
  let wallet ← Host.attempt s.wallet
  s.openJournal
  return ⟨s.index, wallet, s.settings.journal.path, s.timeout⟩

end Setup

end PredictionMarket
