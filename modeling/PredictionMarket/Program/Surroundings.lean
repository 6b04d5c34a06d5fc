import PredictionMarket.Index.Query
import PredictionMarket.Program.Host
import PredictionMarket.Settings
import PredictionMarket.Wallet.Signer

/-!
# Where a program trades

Trading asks an index, a wallet and a journal. A program has these by way of its host: the index and
the signer are servers, the journal is a file, and in a dry run there is no signer at all.

## Main definitions

* `Wallet`: a signer, or none.
* `Surroundings.answer`: the answers to the questions of trading.
* `Surroundings.hold`: a dialogue of trading as one with the host.
-/

namespace PredictionMarket

/-- What executes transactions. -/
inductive Wallet where
  /-- Nothing does; every transaction is reported as a success. -/
  | dryRun
  | signer (s : Signer)
deriving DecidableEq, Repr

namespace Wallet

/-- A word as sixteen hexadecimal digits. -/
def hexadecimal (n : UInt64) : String :=
  let ds := Nat.toDigits 16 n.toNat
  String.ofList (List.replicate (16 - ds.length) '0' ++ ds)

/-- What is reported of a transaction that nothing executes. -/
def dryRunEffects (n : UInt64) : Effects :=
  { digest := "dryrun-" ++ hexadecimal n, success := true, error := none }

end Wallet

/-- Where a program trades. -/
structure Surroundings where
  index : Index
  wallet : Wallet
  /-- The file that holds the journal. -/
  journal : String
  /-- How many seconds a request may take. -/
  timeout : UInt64
deriving DecidableEq, Repr

namespace Surroundings

variable (s : Surroundings)

/-- How a transaction went. -/
def execute (t : Transaction) : Host.Session (Except String Effects) := do
  match s.wallet with
  | .dryRun =>
    let n : UInt64 ← Host.put .number
    return .ok (Wallet.dryRunEffects n)
  | .signer signer =>
    let reply ← Host.send .signer s.timeout (signer.call t).request
    return (signer.call t).result reply

/-- The answer to a question of trading. A row that cannot be added to the journal is lost. -/
def answer : (q : Trade.Question) → Host.Session q.Answer
  | .now => Host.now
  | .salt => Host.put .number
  | .holdings owner => do
    let reply ← Host.send .index s.timeout (s.index.holdingsCall owner).request
    return s.index.holdings owner reply
  | .execute t => s.execute t
  | .record row => do
    let _ ← Host.put (.extendFile s.journal row.line)
    return ()

/-- The result of a dialogue of trading, over what was last read. -/
def hold {α : Type} (known : Store) (session : Trade.Session α) : Host.Session α := do
  let (a, _) ← (session.run known).run s.answer
  return a

end Surroundings

end PredictionMarket
