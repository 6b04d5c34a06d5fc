import PredictionMarket.Number.Literal

/-!
# Transactions

A transaction is a list of commands of one sender. An argument of a command is a constant, an
object on the chain, or the result of an earlier command. Signing and execution belong to the
wallet.

## Main definitions

* `Address`: `0x` and one to sixty-four hexadecimal digits.
* `Constant`, `Argument`, `Command`, `Transaction`.
-/

namespace PredictionMarket

/-- Whether a text is `0x` with one to sixty-four hexadecimal digits after it. -/
def isAddress (s : String) : Bool :=
  match s.toList with
  | '0' :: 'x' :: digits =>
    1 ≤ digits.length && digits.length ≤ 64 && digits.all Literal.isHexDigit
  | _ => false

/-- The address of an account. -/
structure Address where
  text : String
  isAddress : isAddress text = true
deriving DecidableEq, Repr

/-- The address that a text is. -/
def Address.ofText? (s : String) : Option Address :=
  if h : PredictionMarket.isAddress s = true then some ⟨s, h⟩ else none

/-- A value that a transaction carries with it. -/
inductive Constant where
  | u8 (n : UInt8)
  | u64 (n : UInt64)
  | bool (b : Bool)
  | string (s : String)
  | address (s : String)
deriving DecidableEq, Repr

/-- An argument of a command. -/
inductive Argument where
  | constant (c : Constant)
  | object (id : String)
  /-- An output of the command at an index. -/
  | result (index output : UInt16)
deriving DecidableEq, Repr

/-- A step of a transaction. -/
inductive Command where
  | call (target : String) (arguments : List Argument)
  | split (coin : Argument) (amounts : List Argument)
  | merge (destination : Argument) (sources : List Argument)
deriving DecidableEq, Repr

/-- A list of commands to execute for a sender. -/
structure Transaction where
  sender : String
  commands : List Command
deriving DecidableEq, Repr

namespace Argument

def u8 (n : UInt8) : Argument := constant (.u8 n)

def u64 (n : UInt64) : Argument := constant (.u64 n)

def bool (b : Bool) : Argument := constant (.bool b)

def string (s : String) : Argument := constant (.string s)

def address (s : String) : Argument := constant (.address s)

end Argument

def Command.target? : Command → Option String
  | call target _ => some target
  | _ => none

def Transaction.targets (t : Transaction) : List String :=
  t.commands.filterMap Command.target?

end PredictionMarket
