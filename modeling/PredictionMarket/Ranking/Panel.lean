import PredictionMarket.Dialogue
import PredictionMarket.Fixed
import PredictionMarket.Ranking.Buyer
import PredictionMarket.Side

/-!
# Rankings

`Rankings` are the buyers of both sides of a market, best first, as the server orders them. The
`RankingPanel` shows them for one market at a time.

## Main definitions

* `Rankings.top`: the buyers shown of a side.
* `Rankings.Replies`: what the server says about the two sides, and when.
* `RankingPanel.turnTo`: how the panel comes to show a market, with the fetch in it.
-/

namespace PredictionMarket

/-- The amount that a buyer is shown with. -/
def Buyer.displayAmount (b : Buyer) : Binary64 :=
  Fixed.toBinary64 b.amount

/-- The buyers of both sides of a market. -/
structure Rankings where
  yes : List Buyer
  no : List Buyer
deriving DecidableEq, Repr

namespace Rankings

def empty : Rankings := ⟨[], []⟩

variable (r : Rankings)

def side : Side → List Buyer
  | .yes => r.yes
  | .no => r.no

def shownCount : Nat := 10

def top (side : Side) : List Buyer :=
  (r.side side).take shownCount

/-- What is said about one side, after a delay. -/
structure Reply where
  delay : Nat
  buyers : Except String (List Buyer)

/-- What is said about both sides, which are asked about together. -/
structure Replies where
  yes : Reply
  no : Reply

/-- A reply that is a failure. -/
def Reply.failure? (r : Reply) : Option String :=
  match r.buyers with
  | .ok _ => none
  | .error cause => some cause

namespace Replies

variable (r : Replies)

/-- Whether the failure of YES comes before NO is asked about at all. -/
def isYesOnly : Bool :=
  r.yes.failure?.isSome && r.yes.delay == 0

/-- Whether the reply about YES is looked at before that about NO. YES is asked about first, and of
two replies that come later at the same time the one about NO is looked at first. -/
def isYesFirst : Bool :=
  r.yes.delay == 0 || r.yes.delay < r.no.delay

/-- The failure that is seen first, with its side. -/
def firstFailure? : Option (Side × String) :=
  match r.yes.failure?, r.no.failure? with
  | some yes, some no => some (if r.isYesFirst then (.yes, yes) else (.no, no))
  | some yes, none => some (.yes, yes)
  | none, some no => some (.no, no)
  | none, none => none

/-- The rankings, if both sides succeed. -/
def result : Except String Rankings :=
  match r.firstFailure?, r.yes.buyers, r.no.buyers with
  | some (_, cause), _, _ => .error cause
  | none, .ok yes, .ok no => .ok ⟨yes, no⟩
  | none, .error cause, _ => .error cause
  | none, _, .error cause => .error cause

/-- The sides that are asked about. -/
def asked : List Side :=
  if r.isYesOnly then [.yes] else [.yes, .no]

/-- How many replies are seen before everything is settled. -/
def finished : Nat :=
  match r.firstFailure? with
  | some (.yes, _) => if r.isYesFirst then 1 else 2
  | some (.no, _) => if r.isYesFirst then 2 else 1
  | none => 2

end Replies

end Rankings

/-- The rankings of one market at a time. -/
structure RankingPanel where
  market : Option String
  rankings : Rankings
deriving DecidableEq, Repr

namespace RankingPanel

def empty : RankingPanel := ⟨none, .empty⟩

variable (p : RankingPanel)

/-- Whether the server has to be asked for a market: it has a name and is not shown already. -/
def needs (market : String) : Bool :=
  market != "" && p.market != some market

/-- The panel is asked for a market. It gives up what it shows before it asks the server, and takes
the market back if that fails. The answer tells whether the server was asked. -/
def turnTo (market : String) :
    Dialogue (fun _ : String => Rankings.Replies) (Except String Bool × RankingPanel) :=
  if p.needs market then
    .ask market fun replies =>
      let opened : RankingPanel := { market := some market, rankings := .empty }
      match replies.result with
      | .ok rankings => .done (.ok true, { opened with rankings })
      | .error cause => .done (.error cause, { opened with market := none })
  else .done (.ok false, p)

end RankingPanel

end PredictionMarket
