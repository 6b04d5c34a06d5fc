import PredictionMarket.Transaction.Basic

/-!
# Assembling transactions

An `Assembly` adds commands to a transaction one by one. Adding a command gives a handle to its
first output, which later commands take as an argument.

## Main definitions

* `Assembly.call`, `Assembly.split`, `Assembly.merge`: adding a command.
* `Assembly.transaction`: the transaction of a sender.
-/

namespace PredictionMarket

/-- A computation that adds commands to those of a transaction. -/
abbrev Assembly := StateM (Array Command)

/-- The reason why a text is refused as a sender. -/
structure InvalidSender where
  text : String
deriving DecidableEq, Repr

def InvalidSender.message (e : InvalidSender) : String :=
  "Invalid sender address: " ++ e.text

/-- The address of a sender. -/
def Address.ofSender (s : String) : Except InvalidSender Address :=
  match ofText? s with
  | some a => .ok a
  | none => .error ⟨s⟩

namespace Assembly

/-- The first output of the command at a position, counted in sixteen bits. -/
def handle (position : Nat) : Argument :=
  .result (UInt16.ofNat position) 0

/-- Adds a command and gives its handle. -/
def add (c : Command) : Assembly Argument := fun commands =>
  (handle commands.size, commands.push c)

def call (target : String) (arguments : List Argument) : Assembly Argument :=
  add (.call target arguments)

/-- Splits an amount off a coin and gives the new coin. -/
def split (coin : Argument) (amount : UInt64) : Assembly Argument :=
  add (.split coin [.u64 amount])

/-- Merges coins into another one. Nothing is added if there are none. -/
def merge (destination : Argument) (sources : List Argument) : Assembly Unit :=
  if sources.isEmpty then pure () else discard (add (.merge destination sources))

/-- The transaction with the commands that an assembly adds. -/
def transaction {α : Type} (sender : Address) (a : Assembly α) : Transaction :=
  ⟨sender.text, (StateT.run a #[]).2.toList⟩

end Assembly

end PredictionMarket
