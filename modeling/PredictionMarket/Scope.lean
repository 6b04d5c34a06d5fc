/-!
# Scopes

A `Scope` can be cancelled, once and for all. Work that is guarded by a scope gives a result only if
the scope is not cancelled by the end of it. Time is counted in milliseconds.

## Main definitions

* `Scope.cancel`, `Scope.cancelAt`: the end of a scope, now or when an alarm goes off.
* `Scope.guard`: work inside a scope.
* `Scope.await`: waiting for the end of a scope.

## Design notes

At the end of a wait whoever waited goes on first: an alarm that is set for that very time has not
gone off yet.
-/

namespace PredictionMarket

/-- A scope at a time. -/
structure Scope where
  now : Nat
  isCancelled : Bool
  /-- When the scope is going to be cancelled, if that is known. -/
  alarm : Option Nat
deriving DecidableEq, Repr

namespace Scope

/-- A scope that nobody cancels. -/
def start : Scope := ⟨0, false, none⟩

variable (s : Scope)

/-- The scope after it is cancelled. -/
def cancel : Scope :=
  { s with isCancelled := true }

/-- The scope with a time at which it is cancelled, if it is not cancelled sooner. -/
def cancelAt (time : Nat) : Scope :=
  { s with alarm := some (match s.alarm with | some t => min t time | none => time) }

/-- When the alarm goes off, if that is before a time. -/
def alarmBefore? (time : Nat) : Option Nat :=
  s.alarm.filter (· < time)

/-- The scope when its alarm goes off. -/
def alarmed (time : Nat) : Scope :=
  { s with now := max s.now time, isCancelled := true }

/-- The end of work that the scope did not interrupt, which may cancel the scope itself. -/
def conclude {α : Type} (finish : Nat) (cancelsInside : Bool) (result : α) : Option α × Scope :=
  let after := { s with now := finish }
  if cancelsInside then (none, after.cancel) else (some result, after)

/-- Work that takes a time span and may cancel the scope itself at its end. There is no result if
the scope is cancelled before the end or by it, and waiting stops when it is. -/
def guard {α : Type} (span : Nat) (cancelsInside : Bool) (result : α) : Option α × Scope :=
  let finish := s.now + span
  if s.isCancelled then (none, s)
  else
    match s.alarmBefore? finish with
    | some time => (none, s.alarmed time)
    | none => s.conclude finish cancelsInside result

/-- Waits for the end of the scope, but no longer than a time span, and tells whether it came. -/
def await (span : Nat) : Bool × Scope :=
  let finish := s.now + span
  if s.isCancelled then (true, s)
  else
    match s.alarmBefore? finish with
    | some time => (true, s.alarmed time)
    | none => (false, { s with now := finish })

end Scope

end PredictionMarket
