import PredictionMarket.Program.Host
import PredictionMarket.Proofs.Dialogue

/-!
# Runs of a program

What a program does is told by its runs, the exchanges with its host and the outcome. Most of its
parts never have exchanges of a certain kind. Rules put such parts together, and add them to the one
part that may ask the signer.

## Main definitions

* `Host.Attempt.Runs`: a run of a part that may stop with a complaint.
* `Host.asksSigner`: the requests to the signer.
* `Host.Session.Avoids`, `Host.Attempt.Avoids`: parts that never have exchanges of some kind.
* `Host.Attempt.AsksOnce`: parts that ask the signer once or never, and only where it is permitted.
-/

namespace PredictionMarket

namespace Host

/-- A question to the host with the answer to it. -/
abbrev Exchange := Dialogue.Exchange Question.Answer

/-- A request is sent to the signer. -/
def asksSigner (e : Exchange) : Bool :=
  match e.question with
  | .send .signer _ _ => true
  | _ => false

/-- Something is printed or a file concerned, but no server asked. -/
def isLocal (e : Exchange) : Bool :=
  match e.question with
  | .print _ | .directoriesAbove | .examine _ | .readLines _ | .readFile _ | .hasFile _
  | .createFile .. | .extendFile .. => true
  | _ => false

/-- What is printed or concerns a file is no request to the signer. -/
theorem asksSigner_of_isLocal (e : Exchange) (h : isLocal e = true) : asksSigner e = false := by
  obtain ⟨q, r⟩ := e
  cases q <;> first | rfl | cases h

variable {α β : Type} {p : Exchange → Bool} {permit : List Exchange → Prop}

namespace Session

variable (p) in
/-- The session has no exchange of a kind, whatever the host answers. -/
def Avoids (s : Session α) : Prop :=
  ∀ es a, s.Held es a → ∀ e ∈ es, p e = false

theorem avoids_pure (a : α) : Avoids p (pure a) := by
  intro es b h
  obtain ⟨rfl, -⟩ := Dialogue.held_done_iff.1 h
  exact List.forall_mem_nil _

/-- A question avoids a kind of exchange if no answer to it makes it one. -/
theorem avoids_put {q : Question} (h : ∀ r, p ⟨q, r⟩ = false) : Avoids p (put q) := by
  intro es a hheld
  obtain ⟨r, rest, rfl, hrest⟩ := Dialogue.held_ask_iff.1 hheld
  obtain ⟨rfl, -⟩ := Dialogue.held_done_iff.1 hrest
  exact List.forall_mem_singleton.2 (h r)

/-- Two steps avoid what each of them avoids. -/
theorem avoids_bind {s : Session α} {f : α → Session β} (hs : s.Avoids p)
    (hf : ∀ a, (f a).Avoids p) : (s >>= f).Avoids p := by
  intro es b h
  obtain ⟨es₁, a, es₂, h₁, h₂, rfl⟩ := Dialogue.held_bind_iff.1 h
  exact List.forall_mem_append.2 ⟨hs es₁ a h₁, hf a es₂ b h₂⟩

/-- Printing lines is local. -/
theorem avoids_printAll (h : ∀ e, isLocal e = true → p e = false) (lines : List String) :
    Avoids p (printAll lines) := by
  induction lines with
  | nil => exact avoids_pure ()
  | cons line lines ih => exact avoids_bind (avoids_put fun _ => h _ rfl) fun _ => ih

end Session

namespace Attempt

/-- An attempt has these exchanges and this outcome. -/
def Runs (a : Attempt α) (es : List Exchange) (outcome : Except String α) : Prop :=
  Dialogue.Held a.run es outcome

/-- An attempt in two steps stops at the error of the first, or goes on with its result. -/
theorem runs_bind_iff {a : Attempt α} {f : α → Attempt β} {outcome : Except String β}
    {es : List Exchange} :
    Runs (a >>= f) es outcome ↔
      (∃ e, outcome = .error e ∧ Runs a es (.error e)) ∨
      ∃ es₁ x es₂, Runs a es₁ (.ok x) ∧ Runs (f x) es₂ outcome ∧ es = es₁ ++ es₂ := by
  refine Dialogue.held_bind_iff.trans ?_
  constructor
  · rintro ⟨es₁, r, es₂, h₁, h₂, rfl⟩
    cases r with
    | error e =>
      obtain ⟨rfl, rfl⟩ := Dialogue.held_done_iff.1 h₂
      exact .inl ⟨e, rfl, (List.append_nil es₁).symm ▸ h₁⟩
    | ok x => exact .inr ⟨es₁, x, es₂, h₁, h₂, rfl⟩
  · rintro (⟨e, rfl, h⟩ | ⟨es₁, x, es₂, h₁, h₂, rfl⟩)
    · exact ⟨es, .error e, [], h, Dialogue.held_done_iff.2 ⟨rfl, rfl⟩, (List.append_nil es).symm⟩
    · exact ⟨es₁, .ok x, es₂, h₁, h₂, rfl⟩

/-- What is decided already is decided without an exchange. -/
theorem runs_outcome_iff {r outcome : Except String α} {es : List Exchange} :
    Runs (attempt r) es outcome ↔ es = [] ∧ outcome = r :=
  Dialogue.held_done_iff

theorem runs_pure_iff {a : α} {outcome : Except String α} {es : List Exchange} :
    Runs (pure a) es outcome ↔ es = [] ∧ outcome = .ok a :=
  Dialogue.held_done_iff

theorem runs_throw_iff {e : String} {outcome : Except String α} {es : List Exchange} :
    Runs (throw e) es outcome ↔ es = [] ∧ outcome = .error e :=
  Dialogue.held_done_iff

/-- A session inside an attempt does not fail. -/
theorem runs_lift_iff {s : Session α} {outcome : Except String α} {es : List Exchange} :
    Runs (liftM s) es outcome ↔ ∃ a, outcome = .ok a ∧ s.Held es a := by
  refine (Dialogue.held_bind_iff (d := s) (f := fun a => .done (Except.ok a))).trans ?_
  constructor
  · rintro ⟨es₁, a, es₂, h₁, h₂, rfl⟩
    obtain ⟨rfl, rfl⟩ := Dialogue.held_done_iff.1 h₂
    exact ⟨a, rfl, (List.append_nil es₁).symm ▸ h₁⟩
  · rintro ⟨a, rfl, h⟩
    exact ⟨es, a, [], h, .done _, (List.append_nil es).symm⟩

/-- A question inside an attempt is one exchange. -/
theorem runs_put_iff {q : Question} {outcome : Except String q.Answer} {es : List Exchange} :
    Runs (liftM (put q)) es outcome ↔ ∃ r, outcome = .ok r ∧ es = [⟨q, r⟩] := by
  rw [runs_lift_iff]
  refine exists_congr fun r => and_congr_right fun _ => ?_
  constructor
  · intro h
    obtain ⟨_, rest, rfl, hrest⟩ := Dialogue.held_ask_iff.1 h
    obtain ⟨rfl, rfl⟩ := Dialogue.held_done_iff.1 hrest
    rfl
  · rintro rfl
    exact .ask r (.done r)

/-- What is done after a question depends on the answer. -/
theorem runs_put_bind_iff {q : Question} {f : q.Answer → Attempt β} {outcome : Except String β}
    {es : List Exchange} :
    Runs (liftM (put q) >>= f) es outcome ↔
      ∃ r rest, es = ⟨q, r⟩ :: rest ∧ Runs (f r) rest outcome := by
  rw [runs_bind_iff]
  constructor
  · rintro (⟨e, -, h⟩ | ⟨es₁, x, es₂, h₁, h₂, rfl⟩)
    · obtain ⟨_, heq, -⟩ := runs_put_iff.1 h
      cases heq
    · obtain ⟨_, heq, rfl⟩ := runs_put_iff.1 h₁
      cases heq
      exact ⟨x, es₂, rfl, h₂⟩
  · rintro ⟨r, rest, rfl, h⟩
    exact .inr ⟨[⟨q, r⟩], r, rest, runs_put_iff.2 ⟨r, rfl, rfl⟩, h, rfl⟩

variable (p) in
/-- The attempt has no exchange of a kind, whatever the host answers. -/
def Avoids (a : Attempt α) : Prop :=
  Session.Avoids p a.run

/-- What is decided already avoids everything. -/
theorem avoids_outcome (r : Except String α) : Avoids p (attempt r) :=
  Session.avoids_pure r

theorem avoids_pure (a : α) : Avoids p (pure a) :=
  avoids_outcome (.ok a)

/-- An attempt in two steps avoids what each of them avoids. -/
theorem avoids_bind {a : Attempt α} {f : α → Attempt β} (ha : a.Avoids p)
    (hf : ∀ x, (f x).Avoids p) : (a >>= f).Avoids p := by
  intro es outcome h
  obtain ⟨e, -, h⟩ | ⟨es₁, x, es₂, h₁, h₂, rfl⟩ := runs_bind_iff.1 h
  · exact ha es _ h
  · exact List.forall_mem_append.2 ⟨ha es₁ _ h₁, hf x es₂ outcome h₂⟩

/-- The attempt asks the signer once or never, and only where what was said before permits it. -/
def AsksOnce (a : Attempt α) (permit : List Exchange → Prop) : Prop :=
  ∀ es outcome, a.Runs es outcome → AtMostOnce asksSigner permit es

/-- What a stronger condition permits is permitted by a weaker one. -/
theorem AsksOnce.mono {a : Attempt α} {permit' : List Exchange → Prop} (h : a.AsksOnce permit)
    (himp : ∀ before, permit before → permit' before) : a.AsksOnce permit' :=
  fun es outcome hruns => (h es outcome hruns).mono himp

/-- What an attempt that never asks the signer tells adds to what permits the rest to do it. -/
theorem AsksOnce.bind {a : Attempt α} {f : α → Attempt β} (ha : a.Avoids asksSigner)
    (hf : ∀ es x, a.Runs es (.ok x) → (f x).AsksOnce fun before => permit (es ++ before)) :
    (a >>= f).AsksOnce permit := by
  intro es outcome h
  obtain ⟨e, -, h⟩ | ⟨es₁, x, es₂, h₁, h₂, rfl⟩ := runs_bind_iff.1 h
  · exact .inl (ha es _ h)
  · exact .append_left (ha es₁ _ h₁) (hf es₁ x h₁ es₂ outcome h₂)

end Attempt

end Host

end PredictionMarket
