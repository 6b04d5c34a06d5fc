import PredictionMarket.Program.Conversation
import PredictionMarket.Program.Trading

/-!
# The program

`Program.run` is the whole program as a dialogue with its host: it understands the arguments, reads
its setup, carries out a command and ends in an `Ending`.

## Main definitions

* `Program.rankings`, `Program.uploadPrompt`: the commands of the remaining servers.
* `Program.carryOut`: the command that was given.
* `Program.run`: the program.
-/

namespace PredictionMarket

namespace Program

open CommandLine (Invocation Stop)

/-- How the program ends. -/
inductive Ending where
  | success
  /-- The arguments are refused. -/
  | misuse
  | failure (complaint : String)
  /-- A chat goes on until the user stops it. -/
  | following (f : Following)

namespace Ending

/-- The code that the host is told. -/
def code : Ending → UInt32
  | success => 0
  | misuse => 2
  | failure _ => 1
  | following _ => 0

/-- The end of an attempt. -/
def ofOutcome : Except String Ending → Ending
  | .ok e => e
  | .error complaint => failure complaint

end Ending

/-- The sentence in which a complaint is shown. -/
def complaintLine (complaint : String) : String :=
  "Error: " ++ complaint

def versionLine : String := "nereus 0.1.0"

def usage : List String :=
  ["Usage: nereus [--config <FILE>] <COMMAND>", "", "Commands:"] ++
    CommandLine.Command.names.map ("  " ++ ·)

variable (s : Setup)

/-- What the server says about the buyers of both sides, about which it is asked together. -/
def readBuyers (market : String) : Host.Session Rankings.Replies := do
  let yes := s.app.buyersCall market .yes
  let no := s.app.buyersCall market .no
  let (first, second) ← Host.put (.sendBoth s.timeout yes.request no.request)
  return ⟨⟨first.delay, yes.result first.reply⟩, ⟨second.delay, no.result second.reply⟩⟩

/-- Prints the buyers of a market. -/
def rankings (market : String) : Host.Attempt Unit := do
  let (outcome, panel) ←
    ((RankingPanel.empty.turnTo market).run (readBuyers s) : Host.Session _)
  let _ ← Host.attempt outcome
  Host.report panel.rankings.lines

/-- Stores a prompt. -/
def storePrompt (title prompt : String) : Host.Attempt Blob := do
  let asOf ← Host.attempt ((Prompt.make title prompt).mapError UploadError.message)
  let now : Instant ← (Host.now :)
  let content := (asOf now).text
  let request := (s.publisher.call content).request
  let reply : Http.Reply ← (Host.send .publisher s.timeout request :)
  Host.attempt ((s.publisher.stored content reply).mapError UploadError.message)

/-- Stores a prompt and registers the resolution code that it belongs to. -/
def uploadPrompt (title prompt : String) (codeHash : Option String) : Host.Attempt Unit := do
  let blob ← storePrompt s title prompt
  Host.report [blob.line]
  match codeHash with
  | none => return ()
  | some codeHash =>
    let place ← s.surroundings
    let outcome ← (place.hold .empty (s.trader.createOracle codeHash blob.id) : Host.Session _)
    let effects ← traded outcome
    Host.report ["Oracle config created: " ++ effects.digest]

/-- Carries out a command. -/
def carryOut (c : CommandLine.Command) : Host.Attempt Ending := do
  match c with
  | .markets => markets s
  | .quote order => quote s order
  | .buy order => buy s order
  | .addLiquidity market => addLiquidity s market
  | .resolve market => resolve s market
  | .chat market message follow =>
    let following ← chat s market message
    if follow then return .following following
  | .rankings market => rankings s market
  | .book side => Host.report (Book.illustrative side).lines
  | .uploadPrompt title prompt codeHash => uploadPrompt s title prompt codeHash
  | .createMarket topic description start hours => createMarket s topic description start hours
  return .success

/-- Ends where the arguments lead to no command. -/
def stop : Stop → Host.Session Ending
  | .help => do
    Host.printAll usage
    return .success
  | .version => do
    Host.print versionLine
    return .success
  | .refused => return .misuse

/-- The program for its arguments and variables. -/
def run (args : List String) (vars : Variables) : Host.Session Ending := do
  match Invocation.ofArguments args with
  | .error reason => stop reason
  | .ok invocation =>
    let attempt : Host.Attempt Ending := do
      let s ← Setup.load vars invocation.settings
      carryOut s invocation.command
    return .ofOutcome (← attempt.run)

end Program

end PredictionMarket
