/-!
# Computations that put questions

A `Dialogue` is a computation that may put questions to its surroundings and goes on with the
answers. Trading asks an index and a wallet, the command line asks files and servers. What the
surroundings are is left open, so that a statement about a dialogue holds for all of them.

## Main definitions

* `Dialogue`: a tree of questions with results at its leaves.
* `Dialogue.run`: a dialogue held with surroundings of any kind.
* `Dialogue.Held`: that a dialogue gives a result after certain questions and answers.
-/

namespace PredictionMarket

/-- A computation that puts questions `q` and is given answers of type `R q`. -/
inductive Dialogue {Q : Type} (R : Q → Type) (α : Type) : Type where
  | done (a : α)
  | ask (q : Q) (next : R q → Dialogue R α)

namespace Dialogue

variable {Q : Type} {R : Q → Type} {α β : Type}

/-- A dialogue that goes on with another one. -/
def bind : Dialogue R α → (α → Dialogue R β) → Dialogue R β
  | done a, f => f a
  | ask q next, f => ask q fun r => (next r).bind f

instance : Monad (Dialogue R) where
  pure := done
  bind := bind

/-- A dialogue that goes on with nothing is itself. -/
theorem bind_done (d : Dialogue R α) : d.bind done = d := by
  induction d with
  | done a => rfl
  | ask q next ih => exact congrArg (ask q) (funext ih)

/-- Going on with two dialogues in a row may be put together either way. -/
theorem bind_bind {γ : Type} (d : Dialogue R α) (f : α → Dialogue R β) (g : β → Dialogue R γ) :
    (d.bind f).bind g = d.bind fun a => (f a).bind g := by
  induction d with
  | done a => rfl
  | ask q next ih => exact congrArg (ask q) (funext ih)

instance : LawfulMonad (Dialogue R) :=
  LawfulMonad.mk' (Dialogue R) (fun d => bind_done d) (fun _ _ => rfl) bind_bind

def put (q : Q) : Dialogue R (R q) :=
  ask q done

/-- The result of a dialogue with surroundings that answer in a monad. -/
def run {m : Type → Type} [Monad m] (answer : (q : Q) → m (R q)) : Dialogue R α → m α
  | done a => pure a
  | ask q next => do (next (← answer q)).run answer

/-- A question together with the answer to it. -/
structure Exchange (R : Q → Type) where
  question : Q
  answer : R question

/-- The dialogue can end in a result after the exchanges of a list. -/
inductive Held : Dialogue R α → List (Exchange R) → α → Prop where
  | done (a : α) : Held (Dialogue.done a) [] a
  | ask {q : Q} {next : R q → Dialogue R α} (r : R q) {es : List (Exchange R)} {a : α}
      (h : Held (next r) es a) : Held (Dialogue.ask q next) (⟨q, r⟩ :: es) a

end Dialogue

end PredictionMarket
