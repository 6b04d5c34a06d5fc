import PredictionMarket.Proofs.Dialogue
import PredictionMarket.Ranking.Panel

/-!
# What a ranking panel shows

A panel is asked for one market after the other. It fetches the buyers of both sides of a market
that it does not show already, and while it does so it has given up what it showed before.

## Main definitions

* `RankingPanel.Call`: a market that is asked for, and what the server would say about it.
* `RankingPanel.run`, `RankingPanel.fetches`: calls in a row, and the fetches made in them.

## Main results

* `RankingPanel.turn_cases`: what one call can come to.
* `RankingPanel.shows_last_fetch`: what the panel shows after any calls, and what the next one does.
-/

namespace PredictionMarket

/-! ### The two sides of a fetch -/

namespace Rankings.Replies

variable (r : Replies)

/-- Both sides succeed, with the buyers of these rankings. -/
def Gives (rankings : Rankings) : Prop :=
  r.yes.buyers = .ok rankings.yes ∧ r.no.buyers = .ok rankings.no

/-- One of the sides fails, for this cause. -/
def Fails (cause : String) : Prop :=
  r.yes.buyers = .error cause ∨ r.no.buyers = .error cause

/-- There are rankings if both sides succeed, and else the cause of one that fails. -/
theorem result_cases :
    (∃ rankings, r.Gives rankings ∧ r.result = .ok rankings) ∨
      ∃ cause, r.Fails cause ∧ r.result = .error cause := by
  obtain ⟨⟨yesDelay, yes⟩, noDelay, no⟩ := r
  cases yes with
  | ok yes =>
    cases no with
    | ok no => exact .inl ⟨⟨yes, no⟩, ⟨rfl, rfl⟩, rfl⟩
    | error no => exact .inr ⟨no, .inr rfl, rfl⟩
  | error yes =>
    cases no with
    | ok no => exact .inr ⟨yes, .inl rfl, rfl⟩
    | error no =>
      -- Both fail, and the times of the two replies decide.
      simp only [result, firstFailure?, Reply.failure?]
      split
      · exact .inr ⟨yes, .inl rfl, rfl⟩
      · exact .inr ⟨no, .inr rfl, rfl⟩

end Rankings.Replies

namespace RankingPanel

open Dialogue

/-- A fetch of the buyers of both sides of a market, with what the server said. -/
abbrev Fetch := Exchange fun _ : String => Rankings.Replies

/-- The market that is asked for, with what the server says if it is asked about it then. -/
structure Call where
  market : String
  replies : Rankings.Replies

variable (p : RankingPanel)

/-- The fetches in a call, the answer and the panel after it. -/
def turn (c : Call) : List Fetch × Except String Bool × RankingPanel :=
  (p.turnTo c.market).heldWith fun _ _ => c.replies

/-- The panel after some calls. -/
def run (calls : List Call) : RankingPanel :=
  calls.foldl (fun p c => (p.turn c).2.2) p

/-- The fetches made in some calls, the first one first. -/
def fetches (p : RankingPanel) : List Call → List Fetch
  | [] => []
  | c :: calls => (p.turn c).1 ++ (p.turn c).2.2.fetches calls

variable {p : RankingPanel} {market : String}

/-- A fetch is needed for a market that is named and not the one on show. -/
theorem needs_iff : p.needs market = true ↔ market ≠ "" ∧ p.market ≠ some market := by
  simp only [needs, Bool.and_eq_true, bne_iff_ne]

/-- What is given up before a fetch is what is missing after one that fails. -/
theorem turn_of_needs {c : Call} (h : p.needs c.market = true) :
    p.turn c = ([⟨c.market, c.replies⟩],
      match c.replies.result with
      | .ok rankings => (.ok true, ⟨some c.market, rankings⟩)
      | .error cause => (.error cause, .empty)) := by
  rw [turn, turnTo, if_pos h, heldWith]
  cases c.replies.result <;> rfl

/-- A turn to the market on show fetches nothing and changes nothing. -/
theorem turn_of_not_needs {c : Call} (h : ¬p.needs c.market = true) :
    p.turn c = ([], .ok false, p) := by
  rw [turn, turnTo, if_neg h]
  rfl

/-- What one call can come to. -/
theorem turn_cases (p : RankingPanel) (c : Call) :
    ((c.market = "" ∨ p.market = some c.market) ∧ p.turn c = ([], .ok false, p)) ∨
      c.market ≠ "" ∧ p.market ≠ some c.market ∧
        ((∃ rankings, c.replies.Gives rankings ∧
            p.turn c = ([⟨c.market, c.replies⟩], .ok true, ⟨some c.market, rankings⟩)) ∨
          ∃ cause, c.replies.Fails cause ∧
            p.turn c = ([⟨c.market, c.replies⟩], .error cause, .empty)) := by
  by_cases hneeds : p.needs c.market = true
  · obtain ⟨hname, hother⟩ := needs_iff.1 hneeds
    refine .inr ⟨hname, hother, ?_⟩
    have hturn := turn_of_needs hneeds
    obtain ⟨rankings, hgives, hresult⟩ | ⟨cause, hfails, hresult⟩ := c.replies.result_cases
    · rw [hresult] at hturn
      exact .inl ⟨rankings, hgives, hturn⟩
    · rw [hresult] at hturn
      exact .inr ⟨cause, hfails, hturn⟩
  · have hshown := hneeds
    rw [needs_iff, Decidable.not_and_iff_not_or_not, Decidable.not_not, Decidable.not_not] at hshown
    exact .inl ⟨hshown, turn_of_not_needs hneeds⟩

/-! ### What is shown after calls -/

/-- What a panel shows if a fetch was the last one that was made: the rankings that it gave, or
nothing if it failed. If none was made it shows nothing either. -/
inductive Shows : Option Fetch → RankingPanel → Prop where
  | nothing : Shows none .empty
  | failed {market : String} {replies : Rankings.Replies} {cause : String}
    (h : replies.Fails cause) : Shows (some ⟨market, replies⟩) .empty
  | rankings {market : String} {replies : Rankings.Replies} {rankings : Rankings}
    (hname : market ≠ "") (h : replies.Gives rankings) :
    Shows (some ⟨market, replies⟩) ⟨some market, rankings⟩

/-- One call keeps the relation to the last fetch. -/
theorem Shows.turn {last : Option Fetch} (h : Shows last p) (c : Call) :
    Shows ((p.turn c).1.getLast?.or last) (p.turn c).2.2 := by
  obtain ⟨-, hturn⟩ | ⟨hname, -, ⟨rankings, hgives, hturn⟩ | ⟨cause, hfails, hturn⟩⟩ :=
    turn_cases p c
  · rw [hturn]
    exact h
  · rw [hturn]
    exact .rankings hname hgives
  · rw [hturn]
    exact .failed hfails

/-- Along the calls the panel shows the last fetch, of the calls or from before them. -/
theorem Shows.run {last : Option Fetch} (h : Shows last p) (calls : List Call) :
    Shows ((p.fetches calls).getLast?.or last) (p.run calls) := by
  induction calls generalizing p last with
  | nil => exact h
  | cons c calls ih =>
    have hrest := ih (h.turn c)
    rwa [← Option.or_assoc, ← List.getLast?_append] at hrest

/-- A market that is shown stays so without a fetch, until another one with a name is asked for. -/
theorem run_of_shown (hshown : p.market = some market) {calls : List Call}
    (hcalls : ∀ c ∈ calls, c.market = "" ∨ c.market = market) :
    p.fetches calls = [] ∧ p.run calls = p := by
  induction calls with
  | nil => exact ⟨rfl, rfl⟩
  | cons c calls ih =>
    obtain ⟨hc, hrest⟩ := List.forall_mem_cons.1 hcalls
    have hneeds : ¬p.needs c.market = true := by
      rw [needs_iff]
      rintro ⟨hname, hother⟩
      exact hother (hshown.trans (congrArg some (hc.resolve_left hname).symm))
    obtain ⟨hfetches, hrun⟩ := ih hrest
    rw [fetches, run, List.foldl_cons, turn_of_not_needs hneeds]
    exact ⟨hfetches, hrun⟩

/-- After any calls the panel shows what the last fetch gave, for the market that it was made for,
or nothing. The next call fetches exactly if its market has a name and is not shown, and then shows
both sides or nothing. What is shown is not fetched again until another market is asked for. -/
theorem shows_last_fetch (calls : List Call) :
    let p := empty.run calls
    Shows (empty.fetches calls).getLast? p ∧
    (∀ c : Call,
      ((c.market = "" ∨ p.market = some c.market) ∧ p.turn c = ([], .ok false, p)) ∨
        c.market ≠ "" ∧ p.market ≠ some c.market ∧
          ((∃ rankings, c.replies.Gives rankings ∧
              p.turn c = ([⟨c.market, c.replies⟩], .ok true, ⟨some c.market, rankings⟩)) ∨
            ∃ cause, c.replies.Fails cause ∧
              p.turn c = ([⟨c.market, c.replies⟩], .error cause, .empty))) ∧
    ∀ market later, p.market = some market →
      (∀ c ∈ later, c.market = "" ∨ c.market = market) →
        p.fetches later = [] ∧ p.run later = p := by
  intro p
  have hshows := Shows.nothing.run calls
  rw [Option.or_none] at hshows
  exact ⟨hshows, turn_cases p, fun market later hshown => run_of_shown hshown⟩

end RankingPanel

end PredictionMarket
