import Mathlib.Data.List.Nodup
import PredictionMarket.Proofs.Transaction.Commands
import PredictionMarket.Proofs.Transaction.Handles

/-!
# Coins are used once

A transaction splits coins off and pays for calls with them. `Linear` says of a list of commands
that handles only name what is there already and that no coin is lost or used twice. It is preserved
when a split or a call is added, so it holds of every transaction that is put together from them.

## Main definitions

* `ChainFunction`, `Packages.target`: the functions that are called, and what they are called by.
* `Linear`: the state of a list of commands, with the coins that are still to be used.
-/

namespace PredictionMarket

/-- A function on the chain. -/
inductive ChainFunction where
  | buy (side : Side)
  | createOrder
  | provideLiquidity
  | createMarket
  | createConfig
  | createHolder
deriving DecidableEq, Repr

namespace ChainFunction

/-- The name of a function in its package. -/
def path : ChainFunction → String
  | buy .yes => "::market::buy_yes"
  | buy .no => "::market::buy_no"
  | createOrder => "::orderbook::create_order"
  | provideLiquidity => "::market::provide_liquidity"
  | createMarket => "::market::create_market"
  | createConfig => "::oracle::create_config"
  | createHolder => "::oracle::create_truth_oracle_holder"

/-- The place of the coin among the arguments, for a function that takes one. -/
def coinPlace? : ChainFunction → Option Nat
  | buy _ => some 1
  | createOrder => some 8
  | provideLiquidity => some 1
  | createMarket | createConfig | createHolder => none

/-- The place among the arguments of the amount that the coin is said to have. -/
def amountPlace? : ChainFunction → Option Nat
  | createOrder => some 2
  | provideLiquidity => some 2
  | buy _ | createMarket | createConfig | createHolder => none

/-- No name ends in another one. -/
theorem eq_of_path_suffix {f g : ChainFunction} (h : f.path.toList <:+ g.path.toList) : f = g := by
  revert h
  rcases f with (_ | _) | _ | _ | _ | _ | _ <;>
    rcases g with (_ | _) | _ | _ | _ | _ | _ <;> decide

end ChainFunction

namespace Packages

/-- What a function is called by. -/
def target (p : Packages) (f : ChainFunction) : String :=
  match f with
  | .createConfig | .createHolder => p.oracle ++ f.path
  | _ => p.market ++ f.path

/-- A target ends in the path of its function. -/
theorem path_suffix_target (p : Packages) (f : ChainFunction) :
    f.path.toList <:+ (p.target f).toList := by
  cases f <;> exact ⟨_, (String.toList_append ..).symm⟩

/-- Whatever the packages are, two functions are not called by the same text. -/
theorem target_injective (p : Packages) : Function.Injective p.target := by
  intro f g h
  have hf := p.path_suffix_target f
  rw [h] at hf
  -- One of the two names ends in the other, since the texts are the same.
  obtain hfg | hgf := List.suffix_or_suffix_of_suffix hf (p.path_suffix_target g)
  · exact ChainFunction.eq_of_path_suffix hfg
  · exact (ChainFunction.eq_of_path_suffix hgf).symm

end Packages

/-- The arguments of a command. -/
def Command.arguments : Command → List Argument
  | call _ arguments => arguments
  | split coin amounts => coin :: amounts
  | merge destination sources => destination :: sources

/-- Whether an argument is a result of a command. -/
def Argument.isResult : Argument → Bool
  | result .. => true
  | _ => false

open Assembly

/-- The command at a position gives something: it splits a coin or it makes an oracle's config. -/
def IsSource (p : Packages) (commands : List Command) (i : Nat) : Prop :=
  (∃ coin amounts, commands[i]? = some (.split coin amounts)) ∨
    ∃ arguments, commands[i]? = some (.call (p.target .createConfig) arguments)

/-- The coin that is split off at a position goes into one later call, once, and nowhere else. -/
def UsedOnce (commands : List Command) (i : Nat) : Prop :=
  ∃ j target arguments, i < j ∧ commands[j]? = some (.call target arguments) ∧
    arguments.count (handle i) = 1 ∧
    ∀ k c, commands[k]? = some c → k ≠ j → handle i ∉ c.arguments

/-- The argument is the coin that a split of an amount gives. -/
def IsCoinOf (commands : List Command) (a : Argument) (amount : UInt64) : Prop :=
  ∃ i coin, a = handle i ∧ commands[i]? = some (.split coin [.u64 amount])

/-- A command at a position names only what is there already. A merge comes first, a split gives one
coin, and a function that takes a coin is given one, of the amount that it is told. -/
structure Command.InOrder (p : Packages) (commands : List Command) (j : Nat) (c : Command) :
    Prop where
  references : ∀ index output, .result index output ∈ c.arguments →
    index.toNat < j ∧ output = 0 ∧ IsSource p commands index.toNat
  merge : ∀ destination sources, c = .merge destination sources → j = 0
  split : ∀ coin amounts, c = .split coin amounts → ∃ amount, amounts = [.u64 amount]
  function : ∀ target arguments, c = .call target arguments → ∃ f, target = p.target f
  payment : ∀ f arguments, c = .call (p.target f) arguments →
    ∀ place, f.coinPlace? = some place → ∃ a amount, arguments[place]? = some a ∧
      IsCoinOf commands a amount ∧
      ∀ q, f.amountPlace? = some q → arguments[q]? = some (.u64 amount)

/-- Every command is in order, and every coin is used once, apart from those that are split off at
the positions listed as unused, which no command takes. -/
structure Linear (p : Packages) (commands : List Command) (unused : List Nat) : Prop where
  inOrder : ∀ (j : Nat) c, commands[j]? = some c → c.InOrder p commands j
  used : ∀ (i : Nat) coin amounts, commands[i]? = some (.split coin amounts) → i ∉ unused →
    UsedOnce commands i
  untouched : ∀ i ∈ unused, (∃ coin amounts, commands[i]? = some (.split coin amounts)) ∧
    ∀ c ∈ commands, handle i ∉ c.arguments
  nodup : unused.Nodup

section Handles

/-- Commands that are few enough have different handles. -/
theorem handle_inj {i j : Nat} (hi : i < UInt16.size) (hj : j < UInt16.size)
    (h : handle i = handle j) : i = j := by
  rwa [handle_eq_handle_iff, Nat.mod_eq_of_lt hi, Nat.mod_eq_of_lt hj] at h

variable {arguments : List Argument} {positions : List Nat}
  (hresults : arguments.filter Argument.isResult = positions.map handle)
include hresults

/-- A result among the arguments is the handle of one of the positions. -/
theorem exists_eq_handle {index output : UInt16} (hmem : .result index output ∈ arguments) :
    ∃ i ∈ positions, .result index output = handle i := by
  have hfilter : .result index output ∈ arguments.filter Argument.isResult :=
    List.mem_filter.2 ⟨hmem, rfl⟩
  rw [hresults] at hfilter
  obtain ⟨i, hi, heq⟩ := List.mem_map.1 hfilter
  exact ⟨i, hi, heq.symm⟩

variable (hsize : ∀ i ∈ positions, i < UInt16.size)
include hsize

/-- A place that is not among the positions has no handle among the arguments. -/
theorem handle_notMem_of_notMem {i : Nat} (hlt : i < UInt16.size) (hi : i ∉ positions) :
    handle i ∉ arguments := by
  intro hmem
  obtain ⟨k, hk, heq⟩ := exists_eq_handle hresults hmem
  exact hi (handle_inj hlt (hsize k hk) heq ▸ hk)

/-- With distinct positions every handle is used once. -/
theorem count_handle (hnodup : positions.Nodup) {i : Nat} (hi : i ∈ positions) :
    arguments.count (handle i) = 1 := by
  rw [← List.count_filter (rfl : (handle i).isResult = true), hresults]
  refine List.count_eq_one_of_mem (hnodup.map_on fun a ha b hb heq => ?_) (List.mem_map_of_mem hi)
  exact handle_inj (hsize a ha) (hsize b hb) heq

end Handles

section Push

variable {p : Packages} {commands : List Command} {c : Command}

/-- A command of a longer list is one of the list before, or the last. -/
theorem getElem?_concat_iff {α : Type} {l : List α} {a b : α} {i : Nat} :
    (l ++ [a])[i]? = some b ↔ l[i]? = some b ∨ i = l.length ∧ b = a := by
  obtain hlt | rfl | hgt := Nat.lt_trichotomy i l.length
  · rw [List.getElem?_append_left hlt]
    simp [Nat.ne_of_lt hlt]
  · simp [eq_comm]
  · have hlength : (l ++ [a]).length ≤ i := by
      rw [List.length_append]
      exact hgt
    rw [List.getElem?_eq_none hlength, List.getElem?_eq_none (Nat.le_of_lt hgt)]
    simp [Nat.ne_of_gt hgt]

/-- What was used once stays so if the new command does not use it. -/
theorem UsedOnce.push {i : Nat} (h : UsedOnce commands i) (hc : handle i ∉ c.arguments) :
    UsedOnce (commands ++ [c]) i := by
  obtain ⟨j, target, arguments, hlt, hcall, hcount, hothers⟩ := h
  refine ⟨j, target, arguments, hlt, getElem?_concat_iff.2 (.inl hcall), hcount, ?_⟩
  intro k d hd hne
  obtain hd | ⟨-, rfl⟩ := getElem?_concat_iff.1 hd
  · exact hothers k d hd hne
  · exact hc

/-- A source stays one when commands are appended. -/
theorem IsSource.push {i : Nat} (h : IsSource p commands i) : IsSource p (commands ++ [c]) i := by
  obtain ⟨coin, amounts, hsplit⟩ | ⟨arguments, hcall⟩ := h
  · exact .inl ⟨coin, amounts, getElem?_concat_iff.2 (.inl hsplit)⟩
  · exact .inr ⟨arguments, getElem?_concat_iff.2 (.inl hcall)⟩

/-- A source stands among the commands. -/
theorem IsSource.lt_length {i : Nat} (h : IsSource p commands i) : i < commands.length := by
  obtain ⟨_, _, hsome⟩ | ⟨_, hsome⟩ := h <;> exact (List.getElem?_eq_some_iff.1 hsome).1

/-- A coin of some amount stays one when commands are appended. -/
theorem IsCoinOf.push {a : Argument} {amount : UInt64} (h : IsCoinOf commands a amount) :
    IsCoinOf (commands ++ [c]) a amount := by
  obtain ⟨i, coin, rfl, hsplit⟩ := h
  exact ⟨i, coin, rfl, getElem?_concat_iff.2 (.inl hsplit)⟩

/-- A split makes a coin of its amount. -/
theorem isCoinOf_split (coin : Argument) (amount : UInt64) :
    IsCoinOf (commands ++ [.split coin [.u64 amount]]) (handle commands.length) amount :=
  ⟨_, coin, rfl, getElem?_concat_iff.2 (.inr ⟨rfl, rfl⟩)⟩

/-- What is in order stays so when commands are added. -/
theorem Command.InOrder.push {j : Nat} {d : Command} (h : d.InOrder p commands j) :
    d.InOrder p (commands ++ [c]) j where
  references index output hmem := by
    obtain ⟨hlt, hzero, hsource⟩ := h.references index output hmem
    exact ⟨hlt, hzero, hsource.push⟩
  merge := h.merge
  split := h.split
  function := h.function
  payment f arguments hcall place hplace := by
    obtain ⟨a, amount, ha, hcoin, hamount⟩ := h.payment f arguments hcall place hplace
    exact ⟨a, amount, ha, hcoin.push, hamount⟩

end Push

namespace Linear

variable {p : Packages} {commands : List Command} {unused taken : List Nat} {c : Command}

theorem nil : Linear p [] [] where
  inOrder _ _ h := by simp at h
  used _ _ _ h := by simp at h
  untouched _ h := by simp at h
  nodup := List.nodup_nil

/-- A command that is in order keeps the commands in order. -/
theorem inOrder_push (h : Linear p commands unused) (hc : c.InOrder p commands commands.length)
    (j : Nat) (d : Command) (hd : (commands ++ [c])[j]? = some d) :
    d.InOrder p (commands ++ [c]) j := by
  obtain hd | ⟨rfl, rfl⟩ := getElem?_concat_iff.1 hd
  · exact (h.inOrder j d hd).push
  · exact hc.push

/-- No handle names a command that is still to come. -/
theorem handle_notMem (h : Linear p commands unused) (hsize : commands.length < UInt16.size)
    (hc : c ∈ commands) : handle commands.length ∉ c.arguments := by
  intro hmem
  obtain ⟨j, hj⟩ := List.mem_iff_getElem?.1 hc
  obtain ⟨hlt, -⟩ := (h.inOrder j c hj).references _ _ hmem
  obtain ⟨hj, -⟩ := List.getElem?_eq_some_iff.1 hj
  rw [UInt16.toNat_ofNat_of_lt' hsize] at hlt
  omega

/-- A command that is no split uses up the coins that it takes, and it may take those that are not
used yet. -/
theorem push (h : Linear p commands (taken ++ unused)) (hc : c.InOrder p commands commands.length)
    (hsplit : ∀ coin amounts, c ≠ .split coin amounts)
    (htaken : ∀ i ∈ taken, ∃ target arguments, c = .call target arguments ∧
      arguments.count (handle i) = 1)
    (hkept : ∀ (i : Nat) coin amounts, commands[i]? = some (.split coin amounts) → i ∉ taken →
      handle i ∉ c.arguments) :
    Linear p (commands ++ [c]) unused where
  inOrder := h.inOrder_push hc
  used := by
    intro i coin amounts hsome hi
    obtain hold | ⟨-, heq⟩ := getElem?_concat_iff.1 hsome
    · by_cases hin : i ∈ taken
      · -- The new command takes the coin, and none before it does.
        obtain ⟨target, arguments, rfl, hcount⟩ := htaken i hin
        refine ⟨commands.length, target, arguments, (List.getElem?_eq_some_iff.1 hold).1,
          getElem?_concat_iff.2 (.inr ⟨rfl, rfl⟩), hcount, ?_⟩
        intro k d hd hne
        obtain hd | ⟨rfl, -⟩ := getElem?_concat_iff.1 hd
        · exact (h.untouched i (List.mem_append_left _ hin)).2 d (List.mem_of_getElem? hd)
        · exact absurd rfl hne
      · have hnot : i ∉ taken ++ unused := fun hmem => (List.mem_append.1 hmem).elim hin hi
        exact (h.used i coin amounts hold hnot).push (hkept i coin amounts hold hin)
    · exact absurd heq.symm (hsplit coin amounts)
  untouched := by
    intro i hi
    obtain ⟨⟨coin, amounts, hold⟩, hcommands⟩ := h.untouched i (List.mem_append_right _ hi)
    refine ⟨⟨coin, amounts, getElem?_concat_iff.2 (.inl hold)⟩, fun d hd => ?_⟩
    obtain hd | hd := List.mem_append.1 hd
    · exact hcommands d hd
    · obtain rfl := List.mem_singleton.1 hd
      have hnot : i ∉ taken := fun hin => (List.nodup_append.1 h.nodup).2.2 i hin i hi rfl
      exact hkept i coin amounts hold hnot
  nodup := (List.nodup_append.1 h.nodup).2.1

/-- A coin that is split off an object is not used yet. -/
theorem push_split (h : Linear p commands unused) (hsize : commands.length < UInt16.size)
    {coin : Argument} (hcoin : coin.isResult = false) (amount : UInt64) :
    Linear p (commands ++ [.split coin [.u64 amount]]) (unused ++ [commands.length]) := by
  have hnone : ∀ index output,
      .result index output ∉ (Command.split coin [.u64 amount]).arguments := by
    intro index output hmem
    obtain rfl | hmem := List.mem_cons.1 hmem
    · cases hcoin
    · cases List.mem_singleton.1 hmem
  have hc : (Command.split coin [.u64 amount]).InOrder p commands commands.length :=
    { references := fun index output hmem => absurd hmem (hnone index output)
      merge := fun _ _ heq => by cases heq
      split := fun _ _ heq => ⟨amount, (Command.split.inj heq).2.symm⟩
      function := fun _ _ heq => by cases heq
      payment := fun _ _ heq => by cases heq }
  constructor
  case inOrder => exact h.inOrder_push hc
  case used =>
    intro i _ _ hsome hi
    obtain hold | ⟨rfl, -⟩ := getElem?_concat_iff.1 hsome
    · exact (h.used i _ _ hold fun hmem => hi (List.mem_append_left _ hmem)).push (hnone _ _)
    · exact absurd (List.mem_append_right _ (List.mem_singleton_self _)) hi
  case untouched =>
    intro i hi
    have hlast : ∀ d ∈ commands ++ [Command.split coin [.u64 amount]],
        (∀ d ∈ commands, handle i ∉ d.arguments) → handle i ∉ d.arguments := by
      intro d hd hcommands
      obtain hd | hd := List.mem_append.1 hd
      · exact hcommands d hd
      · exact List.mem_singleton.1 hd ▸ hnone _ _
    obtain hi | hi := List.mem_append.1 hi
    · obtain ⟨⟨coin, amounts, hold⟩, hcommands⟩ := h.untouched i hi
      exact ⟨⟨coin, amounts, getElem?_concat_iff.2 (.inl hold)⟩, fun d hd => hlast d hd hcommands⟩
    · -- The position is a new one, which no command before can name.
      obtain rfl := List.mem_singleton.1 hi
      exact ⟨⟨_, _, getElem?_concat_iff.2 (.inr ⟨rfl, rfl⟩)⟩,
        fun d hd => hlast d hd fun d hd => h.handle_notMem hsize hd⟩
  case nodup =>
    refine List.nodup_append.2 ⟨h.nodup, List.nodup_singleton _, ?_⟩
    intro i hi k hk
    obtain ⟨⟨_, _, hold⟩, -⟩ := h.untouched i hi
    rw [List.mem_singleton.1 hk]
    exact Nat.ne_of_lt (List.getElem?_eq_some_iff.1 hold).1

/-- A call takes coins that are not used yet, and may name configs. -/
theorem push_call {configs : List Nat} (h : Linear p commands (taken ++ unused))
    (hsize : commands.length < UInt16.size) (f : ChainFunction) {arguments : List Argument}
    (hresults : arguments.filter Argument.isResult = (taken ++ configs).map handle)
    (hnodup : (taken ++ configs).Nodup)
    (hconfigs : ∀ i ∈ configs, ∃ arguments,
      commands[i]? = some (.call (p.target .createConfig) arguments))
    (hpays : ∀ place, f.coinPlace? = some place → ∃ a amount, arguments[place]? = some a ∧
      IsCoinOf commands a amount ∧
      ∀ q, f.amountPlace? = some q → arguments[q]? = some (.u64 amount)) :
    Linear p (commands ++ [.call (p.target f) arguments]) unused := by
  have hsource : ∀ i ∈ taken ++ configs, IsSource p commands i := by
    intro i hi
    obtain hi | hi := List.mem_append.1 hi
    · exact .inl (h.untouched i (List.mem_append_left _ hi)).1
    · exact .inr (hconfigs i hi)
  have hlt : ∀ i ∈ taken ++ configs, i < UInt16.size := fun i hi =>
    Nat.lt_trans (hsource i hi).lt_length hsize
  have hc : (Command.call (p.target f) arguments).InOrder p commands commands.length :=
    { references := by
        intro index output hmem
        obtain ⟨i, hi, heq⟩ := exists_eq_handle hresults hmem
        obtain ⟨rfl, rfl⟩ := Argument.result.inj heq
        rw [UInt16.toNat_ofNat_of_lt' (hlt i hi)]
        exact ⟨(hsource i hi).lt_length, rfl, hsource i hi⟩
      merge := fun _ _ heq => by cases heq
      split := fun _ _ heq => by cases heq
      function := fun _ _ heq => ⟨f, (Command.call.inj heq).1.symm⟩
      payment := by
        intro g _ heq place hplace
        obtain ⟨htarget, rfl⟩ := Command.call.inj heq
        obtain rfl := p.target_injective htarget
        exact hpays place hplace }
  refine h.push hc (fun _ _ heq => by cases heq) ?_ ?_
  · intro i hi
    exact ⟨_, _, rfl, count_handle hresults hlt hnodup (List.mem_append_left _ hi)⟩
  · intro i coin amounts hsome hi
    refine handle_notMem_of_notMem hresults hlt
      (Nat.lt_trans (List.getElem?_eq_some_iff.1 hsome).1 hsize) fun hmem => ?_
    -- A split is no call, so the position is not one of a config either.
    obtain hmem | hmem := List.mem_append.1 hmem
    · exact hi hmem
    · obtain ⟨_, hcall⟩ := hconfigs i hmem
      rw [hsome] at hcall
      cases hcall

/-- A call whose arguments are constants uses up nothing. -/
theorem push_constants (h : Linear p commands unused) (hsize : commands.length < UInt16.size)
    (f : ChainFunction) (hplace : f.coinPlace? = none) {arguments : List Argument}
    (hresults : arguments.filter Argument.isResult = []) :
    Linear p (commands ++ [.call (p.target f) arguments]) unused := by
  have hstart : Linear p commands ([] ++ unused) := h
  have hmap : arguments.filter Argument.isResult = ([] ++ []).map handle := hresults
  have hnone : ∀ i ∈ ([] : List Nat), ∃ arguments,
      commands[i]? = some (.call (p.target .createConfig) arguments) := by simp
  refine hstart.push_call hsize f hmap List.nodup_nil hnone ?_
  rw [hplace]
  rintro place ⟨⟩

/-- The coins of the owner are objects, so merging them takes no handle. -/
theorem of_merges {f : Funds} (hprimary : f.primary.isResult = false)
    (hothers : ∀ a ∈ f.others, a.isResult = false) : Linear p f.merges [] := by
  unfold Funds.merges
  by_cases hempty : f.others.isEmpty = true
  · rw [if_pos hempty]
    exact nil
  rw [if_neg hempty]
  have hnone : ∀ index output,
      .result index output ∉ (Command.merge f.primary f.others).arguments := by
    intro index output hmem
    have hobject : (Argument.result index output).isResult = false := by
      obtain heq | hmem := List.mem_cons.1 hmem
      · exact heq ▸ hprimary
      · exact hothers _ hmem
    cases hobject
  have hc : (Command.merge f.primary f.others).InOrder p [] 0 :=
    { references := fun index output hmem => absurd hmem (hnone index output)
      merge := fun _ _ _ => rfl
      split := fun _ _ heq => by cases heq
      function := fun _ _ heq => by cases heq
      payment := fun _ _ heq => by cases heq }
  have hstart : Linear p [] ([] ++ []) := nil
  exact hstart.push hc (fun _ _ heq => by cases heq) (by simp) fun i _ _ _ _ => hnone _ _

/-- An order uses up the coin that was split off for it. -/
theorem push_order {i : Nat} (h : Linear p commands (i :: unused))
    (hsize : commands.length < UInt16.size) {amount : UInt64}
    (hcoin : IsCoinOf commands (handle i) amount) (owner market : String)
    {request : OrderRequest} (hamount : request.Takes amount) (salt : UInt64) :
    Linear p (commands ++ [request.call p owner market salt (handle i)]) unused := by
  have hnone : ∀ j ∈ ([] : List Nat), ∃ arguments,
      commands[j]? = some (.call (p.target .createConfig) arguments) := by simp
  have htaken : Linear p commands ([i] ++ unused) := h
  cases request with
  | market side quantity =>
    have hcall : (OrderRequest.market side quantity).call p owner market salt (handle i) =
        .call (p.target (.buy side))
          [.object market, handle i, .u64 quantity, .object p.clock] := by
      cases side <;> rfl
    rw [hcall]
    refine htaken.push_call hsize (.buy side) rfl (List.nodup_singleton i) hnone ?_
    rintro place ⟨⟩
    exact ⟨handle i, amount, rfl, hcoin, fun q hq => by cases hq⟩
  | limit side a price =>
    obtain rfl := hamount
    refine htaken.push_call hsize .createOrder rfl (List.nodup_singleton i) hnone ?_
    rintro place ⟨⟩
    exact ⟨handle i, a, rfl, hcoin, fun q hq => by cases hq; rfl⟩

/-- The pool uses up the coin that was split off for it. -/
theorem push_provideLiquidity {i : Nat} (h : Linear p commands (i :: unused))
    (hsize : commands.length < UInt16.size) {amount : UInt64}
    (hcoin : IsCoinOf commands (handle i) amount) (market : String) :
    Linear p (commands ++ [.call (p.target .provideLiquidity)
      [.object market, handle i, .u64 amount]]) unused := by
  have htaken : Linear p commands ([i] ++ unused) := h
  refine htaken.push_call hsize .provideLiquidity rfl (List.nodup_singleton i) (by simp) ?_
  rintro place ⟨⟩
  exact ⟨handle i, amount, rfl, hcoin, fun q hq => by cases hq; rfl⟩

section Funds

variable {f : Funds} (hprimary : f.primary.isResult = false)
  (hothers : ∀ a ∈ f.others, a.isResult = false) (owner market : String)
include hprimary hothers

/-- The transaction of an order uses every coin it makes. -/
theorem spend {request : OrderRequest} {cost : UInt64} (hcost : request.Takes cost)
    (salt : UInt64) :
    Linear p (f.transaction (request.spend p owner market cost salt)).commands [] := by
  have hsize := f.length_merges_add_lt
  have hstart : Linear p f.merges [] := of_merges hprimary hothers
  have hsplit := hstart.push_split (by omega) hprimary cost
  rw [f.commands_spend p owner market hcost, List.append_cons]
  refine hsplit.push_order ?_ (isCoinOf_split _ _) owner market hcost salt
  rw [List.length_append, List.length_singleton]
  omega

/-- The transaction of liquidity uses every coin it makes. -/
theorem addLiquidity (l : Liquidity) (yesSalt noSalt : UInt64) :
    Linear p (f.transaction (Assembly.addLiquidity p owner market l yesSalt noSalt)).commands
      [] := by
  have hsize := f.length_merges_add_lt
  have hstart : Linear p f.merges [] := of_merges hprimary hothers
  -- The three coins are split off first, and then used in the same order.
  have hpool := hstart.push_split (by omega) hprimary l.lpAmount
  have hyes := hpool.push_split (by simp; omega) hprimary l.seedAmount
  have hno := hyes.push_split (by simp; omega) hprimary l.seedAmount
  have hpaid := hno.push_provideLiquidity (by simp; omega) (isCoinOf_split _ _).push.push market
  have hseed : ∀ side, (OrderRequest.limit side l.seedAmount l.seedPrice).Takes l.seedAmount :=
    fun _ => rfl
  have hbid := hpaid.push_order (by simp; omega) (isCoinOf_split _ _).push.push owner market
    (hseed .yes) yesSalt
  have hask := hbid.push_order (by simp; omega) (isCoinOf_split _ _).push.push owner market
    (hseed .no) noSalt
  rw [f.commands_addLiquidity, Liquidity.commands]
  simp only [List.append_assoc, List.cons_append, List.nil_append, List.length_append,
    List.length_singleton] at hask
  exact hask

end Funds

theorem createMarket (sender : Address) (topic description : String)
    (startTime endTime : UInt64) :
    Linear p (transaction sender
      (Assembly.createMarket p topic description startTime endTime)).commands [] := by
  rw [commands_transaction_createMarket]
  exact nil.push_constants (by decide) .createMarket rfl rfl

theorem createOracle (sender : Address) (codeHash blobId : String) :
    Linear p (transaction sender (Assembly.createOracle p codeHash blobId)).commands [] := by
  rw [commands_transaction_createOracle]
  have hconfig : Linear p [.call (p.target .createConfig) [.string codeHash, .string blobId]]
      ([] ++ []) := nil.push_constants (by decide) .createConfig rfl rfl
  have hsource : ∀ i ∈ [0], ∃ arguments,
      [Command.call (p.target .createConfig) [.string codeHash, .string blobId]][i]? =
        some (.call (p.target .createConfig) arguments) := by
    intro i hi
    obtain rfl := List.mem_singleton.1 hi
    exact ⟨_, rfl⟩
  refine hconfig.push_call ?_ .createHolder rfl (List.nodup_singleton 0) hsource ?_
  · simp [UInt16.size]
  · rintro place ⟨⟩

end Linear

end PredictionMarket
