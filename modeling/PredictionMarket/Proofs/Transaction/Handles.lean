import PredictionMarket.Transaction.Calls

/-!
# What handles name

A handle is given for the command that a step adds, and it should name that command in the finished
transaction. It counts positions in sixteen bits, so beyond them it names a command before.

## Main definitions

* `Step`, `performAll`: sequences of steps, each of which may give handles.
* `Gives`: the handles that are given, each with its command and the position of that.

## Main results

* `gives_iff`: the handles that a sequence of steps gives.
* `handle_names_command_iff`: which of them name their commands, and which are the same.
-/

namespace PredictionMarket

/-- Whether a command merges coins, which has no output. -/
def Command.isMerge : Command → Bool
  | merge .. => true
  | _ => false

namespace Assembly

/-- A step of an assembly. Its arguments may be handles that steps before it gave. -/
inductive Step where
  | call (target : String) (arguments : List Argument)
  | split (coin : Argument) (amount : UInt64)
  | merge (destination : Argument) (sources : List Argument)
  | buy (market : String) (side : Side) (payment : Argument) (quantity : UInt64)
  | createOrder (owner market : String) (o : BookOrder) (coin : Argument)
  | provideLiquidity (market : String) (coin : Argument) (amount : UInt64)
  | createMarket (topic description : String) (startTime endTime : UInt64)
  | createOracle (codeHash blobId : String)

variable (p : Packages)

/-- Performs a step and gives its handles, in the order of the commands that they are for. -/
def Step.perform : Step → Assembly (List Argument)
  | call target arguments => return [← Assembly.call target arguments]
  | split coin amount => return [← Assembly.split coin amount]
  | merge destination sources => do
    Assembly.merge destination sources
    return []
  | buy market side payment quantity => return [← Assembly.buy p market side payment quantity]
  | createOrder owner market o coin => return [← Assembly.createOrder p owner market o coin]
  | provideLiquidity market coin amount =>
    return [← Assembly.provideLiquidity p market coin amount]
  | createMarket topic description startTime endTime =>
    return [← Assembly.createMarket p topic description startTime endTime]
  | createOracle codeHash blobId => do
    let handles ← Assembly.createOracle p codeHash blobId
    return [handles.config, handles.holder]

/-- Performs steps one after the other. -/
def performAll : List Step → Assembly Unit
  | [] => pure ()
  | s :: later => do
    discard (s.perform p)
    performAll later

/-- The handles that a step gives after some commands. -/
def Step.handles (before : List Command) (s : Step) : List Argument :=
  ((s.perform p).run before.toArray).1

/-- The commands that a step adds to those before. -/
def Step.adds (before : List Command) (s : Step) : List Command :=
  ((s.perform p).run before.toArray).2.toList.drop before.length

/-- The commands that are there after some steps. -/
def built (before : List Command) (steps : List Step) : List Command :=
  ((performAll p steps).run before.toArray).2.toList

/-- One of the steps gives a handle for a command, which it adds at a position. -/
inductive Gives : List Command → List Step → Argument → Nat → Command → Prop
  | now {before s later k a c} (hhandle : (s.handles p before)[k]? = some a)
      (hadded : (s.adds p before)[k]? = some c) :
      Gives before (s :: later) a (before.length + k) c
  | later {before s later a i c} (h : Gives (before ++ s.adds p before) later a i c) :
      Gives before (s :: later) a i c

/-- A step gives a handle for each command that it adds, or it merges and gives none. -/
theorem Step.run_perform (s : Step) (before : List Command) :
    (∃ added, (∀ c ∈ added, c.isMerge = false) ∧
        (s.perform p).run before.toArray =
          ((List.range' before.length added.length).map handle, (before ++ added).toArray)) ∨
      ∃ added, (∀ c ∈ added, c.isMerge = true) ∧
        (s.perform p).run before.toArray = ([], (before ++ added).toArray) := by
  have hsingle (c : Command) (hc : c.isMerge = false) :
      ∃ added, (∀ c ∈ added, Command.isMerge c = false) ∧
        (do return [← add c] : Assembly (List Argument)).run before.toArray =
          ((List.range' before.length added.length).map handle, (before ++ added).toArray) := by
    refine ⟨[c], by simpa using hc, ?_⟩
    rw [← List.push_toArray]
    rfl
  cases s with
  | call => exact .inl (hsingle (.call _ _) rfl)
  | split => exact .inl (hsingle (.split _ _) rfl)
  | buy => exact .inl (hsingle (.call _ _) rfl)
  | createOrder => exact .inl (hsingle (.call _ _) rfl)
  | provideLiquidity => exact .inl (hsingle (.call _ _) rfl)
  | createMarket => exact .inl (hsingle (.call _ _) rfl)
  | merge destination sources =>
    refine .inr ?_
    cases sources with
    | nil =>
      refine ⟨[], by simp, ?_⟩
      rw [List.append_nil]
      rfl
    | cons first others =>
      refine ⟨[.merge destination (first :: others)], by simp [Command.isMerge], ?_⟩
      rw [← List.push_toArray]
      rfl
  | createOracle codeHash blobId =>
    -- The second call takes the handle of the first one.
    let config : Command :=
      .call (p.oracle ++ "::oracle::create_config") [.string codeHash, .string blobId]
    let holder : Command :=
      .call (p.oracle ++ "::oracle::create_truth_oracle_holder") [handle before.length]
    refine .inl ⟨[config, holder], by simp [config, holder, Command.isMerge], ?_⟩
    rw [List.append_cons, ← List.push_toArray, ← List.push_toArray]
    change ([handle before.length, handle (before.toArray.push config).size], _) = _
    rw [Array.size_push]
    rfl

/-- What a step gives and adds is read off its run. -/
theorem Step.of_run_perform {s : Step} {before added : List Command} {handles : List Argument}
    (hrun : (s.perform p).run before.toArray = (handles, (before ++ added).toArray)) :
    s.handles p before = handles ∧ s.adds p before = added := by
  simp [Step.handles, Step.adds, hrun]

/-- A step appends its commands to those before. -/
theorem Step.commands_run_perform (s : Step) (before : List Command) :
    ((s.perform p).run before.toArray).2 = (before ++ s.adds p before).toArray := by
  obtain ⟨added, -, hrun⟩ | ⟨added, -, hrun⟩ := s.run_perform p before <;>
    rw [(Step.of_run_perform p hrun).2, hrun]

/-- The handles of a step are those of the commands that it adds, merges apart. -/
theorem Step.handle_iff {s : Step} {before : List Command} {k : Nat} {a : Argument}
    {c : Command} (hadded : (s.adds p before)[k]? = some c) :
    (s.handles p before)[k]? = some a ↔ c.isMerge = false ∧ a = handle (before.length + k) := by
  obtain ⟨added, hkind, hrun⟩ | ⟨added, hkind, hrun⟩ := s.run_perform p before
  all_goals
    obtain ⟨hhandles, hadds⟩ := Step.of_run_perform p hrun
    rw [hadds] at hadded
    have hmerge := hkind c (List.mem_of_getElem? hadded)
  · obtain ⟨hlt, -⟩ := List.getElem?_eq_some_iff.1 hadded
    simp [hhandles, hlt, hmerge, eq_comm]
  · simp [hhandles, hmerge]

theorem built_nil (before : List Command) : built p before [] = before :=
  rfl

theorem built_cons (before : List Command) (s : Step) (later : List Step) :
    built p before (s :: later) = built p (before ++ s.adds p before) later := by
  rw [built, built, ← s.commands_run_perform p before]
  rfl

theorem built_append (before : List Command) (past later : List Step) :
    built p before (past ++ later) = built p (built p before past) later := by
  induction past generalizing before with
  | nil => rfl
  | cons s past ih => rw [List.cons_append, built_cons, built_cons, ih]

/-- Steps leave the commands before them where they are. -/
theorem exists_built_eq_append (before : List Command) (steps : List Step) :
    ∃ rest, built p before steps = before ++ rest := by
  induction steps generalizing before with
  | nil => exact ⟨[], (List.append_nil before).symm⟩
  | cons s later ih =>
    obtain ⟨rest, hrest⟩ := ih (before ++ s.adds p before)
    refine ⟨s.adds p before ++ rest, ?_⟩
    rw [built_cons, hrest, List.append_assoc]

variable {p}

/-- A handle that is given belongs to a command at its place, which is no merge. -/
theorem Gives.eq_handle {before : List Command} {steps : List Step} {a : Argument} {i : Nat}
    {c : Command} (h : Gives p before steps a i c) :
    (built p before steps)[i]? = some c ∧ before.length ≤ i ∧ c.isMerge = false ∧ a = handle i := by
  induction h with
  | @now before s later k a c hhandle hadded =>
    obtain ⟨hmerge, rfl⟩ := (Step.handle_iff p hadded).1 hhandle
    have hplace : (before ++ s.adds p before)[before.length + k]? = some c := by
      rw [List.getElem?_append_right (Nat.le_add_right _ _), Nat.add_sub_cancel_left, hadded]
    obtain ⟨hlt, -⟩ := List.getElem?_eq_some_iff.1 hplace
    obtain ⟨rest, hrest⟩ := exists_built_eq_append p (before ++ s.adds p before) later
    refine ⟨?_, Nat.le_add_right _ _, hmerge, rfl⟩
    rw [built_cons, hrest, List.getElem?_append_left hlt, hplace]
  | later h ih =>
    -- Later steps start after more commands, and leave the same ones at the end.
    obtain ⟨hplace, hle, hmerge, rfl⟩ := ih
    rw [List.length_append] at hle
    refine ⟨?_, by omega, hmerge, rfl⟩
    rwa [built_cons]

/-- Every command but a merge is given with the handle of its place. -/
theorem gives_handle {before : List Command} {steps : List Step} {i : Nat} {c : Command}
    (hplace : (built p before steps)[i]? = some c) (hle : before.length ≤ i)
    (hmerge : c.isMerge = false) : Gives p before steps (handle i) i c := by
  induction steps generalizing before with
  | nil =>
    rw [built_nil, List.getElem?_eq_none hle] at hplace
    cases hplace
  | cons s later ih =>
    rw [built_cons] at hplace
    by_cases hlt : i < (before ++ s.adds p before).length
    · -- The step itself adds the command.
      obtain ⟨rest, hrest⟩ := exists_built_eq_append p (before ++ s.adds p before) later
      rw [hrest, List.getElem?_append_left hlt, List.getElem?_append_right hle] at hplace
      obtain ⟨k, rfl⟩ := Nat.exists_eq_add_of_le hle
      rw [Nat.add_sub_cancel_left] at hplace
      exact .now ((Step.handle_iff p hplace).2 ⟨hmerge, rfl⟩) hplace
    · exact .later (ih hplace (Nat.le_of_not_lt hlt))

/-- The handles that steps give are those of the positions of the commands that they add, merges
apart. -/
theorem gives_iff {before : List Command} {steps : List Step} {a : Argument} {i : Nat}
    {c : Command} :
    Gives p before steps a i c ↔
      (built p before steps)[i]? = some c ∧ before.length ≤ i ∧ c.isMerge = false ∧
        a = handle i := by
  constructor
  · exact Gives.eq_handle
  · rintro ⟨hplace, hle, hmerge, rfl⟩
    exact gives_handle hplace hle hmerge

/-- A handle names the place as far as sixteen bits hold it. -/
theorem handle_names_iff (i : Nat) :
    ∃ index, handle i = .result index 0 ∧ (index.toNat = i ↔ i < UInt16.size) := by
  refine ⟨.ofNat i, rfl, ?_⟩
  rw [UInt16.toNat_ofNat']
  exact Nat.mod_eq_iff_lt (by decide)

/-- Two places have the same handle just if sixteen bits do not tell them apart. -/
theorem handle_eq_handle_iff (i j : Nat) :
    handle i = handle j ↔ i % UInt16.size = j % UInt16.size := by
  rw [handle, handle, Argument.result.injEq, and_iff_left rfl, ← UInt16.toNat_inj,
    UInt16.toNat_ofNat', UInt16.toNat_ofNat']

/-- The commands of a transaction are those that its steps build. -/
theorem commands_performAll (sender : Address) (steps : List Step) :
    (transaction sender (performAll p steps)).commands = built p [] steps :=
  rfl

/-- A handle names its command exactly if sixteen bits count that far, and two handles are the same
exactly if their positions differ by a multiple of what sixteen bits count. Every command but a
merge has one, and a merge of no coins leaves all of them as they are. -/
theorem handle_names_command_iff (p : Packages) (sender : Address) (steps : List Step) :
    let commands := (transaction sender (performAll p steps)).commands
    (∀ i c, (∃ a, Gives p [] steps a i c) ↔ commands[i]? = some c ∧ c.isMerge = false) ∧
      (∀ a i c, Gives p [] steps a i c →
        ∃ index, a = .result index 0 ∧ (index.toNat = i ↔ i < UInt16.size)) ∧
      (∀ a i c b j d, Gives p [] steps a i c → Gives p [] steps b j d →
        (a = b ↔ i % UInt16.size = j % UInt16.size)) ∧
      ∀ past destination later, steps = past ++ .merge destination [] :: later →
        commands = (transaction sender (performAll p (past ++ later))).commands ∧
          ∀ a i c, Gives p [] steps a i c ↔ Gives p [] (past ++ later) a i c := by
  intro commands
  have hcommands : commands = built p [] steps := commands_performAll sender steps
  refine ⟨?_, ?_, ?_, ?_⟩
  · intro i c
    rw [hcommands]
    constructor
    · rintro ⟨a, h⟩
      obtain ⟨hplace, -, hmerge, -⟩ := gives_iff.1 h
      exact ⟨hplace, hmerge⟩
    · rintro ⟨hplace, hmerge⟩
      exact ⟨handle i, gives_handle hplace (Nat.zero_le i) hmerge⟩
  · intro a i c h
    obtain ⟨-, -, -, rfl⟩ := gives_iff.1 h
    exact handle_names_iff i
  · intro a i c b j d h h'
    obtain ⟨-, -, -, rfl⟩ := gives_iff.1 h
    obtain ⟨-, -, -, rfl⟩ := gives_iff.1 h'
    exact handle_eq_handle_iff i j
  · rintro past destination later rfl
    have hadds (before : List Command) :
        (Step.merge destination []).adds p before = [] := by
      change before.drop before.length = []
      exact List.drop_length
    have hbuilt :
        built p [] (past ++ .merge destination [] :: later) = built p [] (past ++ later) := by
      rw [built_append, built_append, built_cons, hadds, List.append_nil]
    rw [commands_performAll, hcommands, hbuilt]
    refine ⟨rfl, fun a i c => ?_⟩
    rw [gives_iff, gives_iff, hbuilt]

/-- The split comes after two calls and a merge of no coins, so it is at the position two. -/
theorem handle_after_merge_of_none :
    let p : Packages := ⟨"0x2", "0x3", "0x4::usdc::USDC", "0x6"⟩
    let coin : Argument := .object "0xc0"
    let steps : List Step := [.createOracle "0x7" "prompt", .merge coin [], .split coin 10]
    ∃ a index, Gives p [] steps a 2 (.split coin [.u64 10]) ∧ a = .result index 0 ∧
      index.toNat = 2 := by
  intro p coin steps
  obtain ⟨hcommands, hnames, -⟩ := handle_names_command_iff p ⟨"0x1", by decide⟩ steps
  obtain ⟨a, h⟩ := (hcommands 2 (.split coin [.u64 10])).2 ⟨rfl, rfl⟩
  obtain ⟨index, ha, hindex⟩ := hnames a 2 _ h
  exact ⟨a, index, h, ha, hindex.2 (by decide)⟩

/-- Calls are built one after the other. -/
theorem built_replicate_call (target : String) (n : Nat) (before : List Command) :
    built p before (.replicate n (.call target [])) = before ++ .replicate n (.call target []) := by
  induction n generalizing before with
  | zero => exact (List.append_nil before).symm
  | succ n ih =>
    have hadds : (Step.call target []).adds p before = [.call target []] := by
      change (before.toArray.push (.call target [])).toList.drop before.length = _
      rw [Array.toList_push, List.drop_left]
    rw [List.replicate_succ, List.replicate_succ, built_cons, hadds, ih, List.append_assoc,
      List.singleton_append]

/-- Every one of many calls gives the handle of its place. -/
theorem gives_replicate_call (target : String) {n i : Nat} (h : i < n) :
    Gives p [] (.replicate n (.call target [])) (handle i) i (.call target []) := by
  refine gives_handle ?_ (Nat.zero_le i) rfl
  rw [built_replicate_call, List.nil_append, List.getElem?_replicate, if_pos h]

/-- Sixteen bits do not tell the command after `65536` others from the first one. -/
theorem handle_of_first_given_again :
    let p : Packages := ⟨"0x2", "0x3", "0x4::usdc::USDC", "0x6"⟩
    let steps := List.replicate (UInt16.size + 1) (Step.call "0x1::m::f" [])
    Gives p [] steps (.result 0 0) 0 (.call "0x1::m::f" []) ∧
      Gives p [] steps (.result 0 0) UInt16.size (.call "0x1::m::f" []) := by
  intro p steps
  have hfirst : handle 0 = .result 0 0 := rfl
  have hlast : handle UInt16.size = .result 0 0 := by decide
  constructor
  · rw [← hfirst]
    exact gives_replicate_call _ (Nat.succ_pos _)
  · rw [← hlast]
    exact gives_replicate_call _ (Nat.lt_succ_self _)

end Assembly

end PredictionMarket
