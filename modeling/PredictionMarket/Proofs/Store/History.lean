import Mathlib.Data.List.Induction
import PredictionMarket.Proofs.Store.Entries

/-!
# What a store shows after a history

A store starts empty and is written to again and again. What it shows is what was written last: the
last list of markets that it was given or that the index gave it, and the last holdings of every
owner. Refusals of the index leave no trace.

## Main definitions

* `Store.performAll`: operations one after the other.
* `Store.lastListed`, `Store.lastGiven?`: what was written last.
* `Store.Shows`: the invariant, that a store shows what was written last.

## Main results

* `Store.shows_last_written`: what a store shows after any operations.
-/

namespace PredictionMarket

namespace Store

variable {s : Store} {past : List Operation}

/-- The store after operations. -/
def performAll (s : Store) (ops : List Operation) : Store :=
  ops.foldl (fun s op => (s.perform op).2) s

/-- The list of markets that an operation brings, if it succeeds. -/
def Operation.listed? : Operation → Option (List Market)
  | replaceMarkets markets | refreshMarkets (.ok markets) => some markets
  | _ => none

/-- The holdings that an operation brings, if it succeeds. -/
def Operation.given? : Operation → Option Holdings
  | setHoldings h | refreshHoldings (.ok h) => some h
  | _ => none

/-- The last list of markets that operations brought. -/
def lastListed (ops : List Operation) : List Market :=
  (ops.filterMap Operation.listed?).getLast?.getD []

/-- The last holdings of an owner that operations brought. -/
def lastGiven? (ops : List Operation) (owner : String) : Option Holdings :=
  ((ops.filterMap Operation.given?).filter (·.owner == owner)).getLast?

/-- The store shows what was written last. -/
structure Shows (s : Store) (past : List Operation) : Prop where
  market : ∀ a, s.market? a = ((lastListed past).filter (·.address == a)).getLast?
  holdings : ∀ owner, s.holdings? owner = lastGiven? past owner

/-- Markets do not touch the holdings. -/
theorem owners_foldl_insert (s : Store) (markets : List Market) :
    (markets.foldl insert s).owners = s.owners := by
  induction markets generalizing s with
  | nil => rfl
  | cons m markets ih =>
    rw [List.foldl_cons, ih]
    rfl

/-- A new list of markets leaves the holdings of every owner. -/
theorem holdings?_replaceMarkets (s : Store) (markets : List Market) (owner : String) :
    (s.replaceMarkets markets).holdings? owner = s.holdings? owner := by
  rw [holdings?, replaceMarkets, owners_foldl_insert]
  rfl

/-- The last operation decides on the list if it brings one. -/
theorem lastListed_concat (past : List Operation) (op : Operation) :
    lastListed (past ++ [op]) = op.listed?.getD (lastListed past) := by
  cases hop : op.listed? with
  | none => simp [lastListed, hop]
  | some markets => simp [lastListed, hop]

/-- The last operation decides on the holdings of the owner it gives some for. -/
theorem lastGiven?_concat (past : List Operation) (op : Operation) (owner : String) :
    lastGiven? (past ++ [op]) owner =
      (op.given?.filter (·.owner == owner)).or (lastGiven? past owner) := by
  cases hop : op.given? with
  | none => simp [lastGiven?, hop]
  | some h =>
    by_cases howner : h.owner = owner
    · simp [lastGiven?, hop, howner, Option.filter]
    · simp [lastGiven?, hop, howner, Option.filter]

namespace Shows

/-- A new store shows that nothing was written. -/
theorem empty : Shows empty [] :=
  ⟨fun _ => rfl, fun _ => rfl⟩

/-- What brings neither markets nor holdings does not show. -/
theorem unchanged (h : s.Shows past) {op : Operation} (hlisted : op.listed? = none)
    (hgiven : op.given? = none) : s.Shows (past ++ [op]) := by
  refine ⟨fun a => ?_, fun owner => ?_⟩
  · rw [lastListed_concat, hlisted]
    exact h.market a
  · rw [lastGiven?_concat, hgiven]
    exact h.holdings owner

/-- A list of markets is shown from then on, and the holdings as before. -/
theorem replaceMarkets (h : s.Shows past) {op : Operation} {markets : List Market}
    (hlisted : op.listed? = some markets) (hgiven : op.given? = none) :
    (s.replaceMarkets markets).Shows (past ++ [op]) := by
  refine ⟨fun a => ?_, fun owner => ?_⟩
  · rw [lastListed_concat, hlisted]
    exact market?_replaceMarkets s markets a
  · rw [lastGiven?_concat, hgiven, holdings?_replaceMarkets]
    exact h.holdings owner

/-- Holdings are shown from then on, and the markets as before. -/
theorem setHoldings (h : s.Shows past) {op : Operation} {new : Holdings}
    (hlisted : op.listed? = none) (hgiven : op.given? = some new) :
    (s.setHoldings new).Shows (past ++ [op]) := by
  refine ⟨fun a => ?_, fun owner => ?_⟩
  · rw [lastListed_concat, hlisted]
    exact h.market a
  · rw [lastGiven?_concat, hgiven, holdings?_setHoldings]
    by_cases howner : owner = new.owner
    · simp [howner, Option.filter]
    · simp [howner, Ne.symm howner, Option.filter, h.holdings owner]

/-- Every operation is shown from then on; a failed one changes nothing. -/
theorem perform (h : s.Shows past) (op : Operation) :
    (s.perform op).2.Shows (past ++ [op]) := by
  cases op with
  | replaceMarkets markets => exact h.replaceMarkets rfl rfl
  | setHoldings new => exact h.setHoldings rfl rfl
  | refreshMarkets reply =>
    cases reply with
    | ok markets => exact h.replaceMarkets rfl rfl
    | error cause => exact h.unchanged rfl rfl
  | refreshHoldings reply =>
    cases reply with
    | ok new => exact h.setHoldings rfl rfl
    | error cause => exact h.unchanged rfl rfl

/-- A store shows what was written last, after any operations. -/
theorem performAll (ops : List Operation) : (Store.empty.performAll ops).Shows ops := by
  induction ops using List.reverseRecOn with
  | nil => exact empty
  | append_singleton past op ih =>
    rw [Store.performAll, List.foldl_concat]
    exact ih.perform op

end Shows

/-- After any operations on an empty store, a market is found under its address if it is the last
one with that address in the last list, and exactly the markets that are found are listed, in
strictly ascending order of their ends and addresses, wherever the store keeps them. Holdings are
the last ones of their owner. When the index refuses, the reason is passed on and nothing else
happens. -/
theorem shows_last_written (ops : List Operation) :
    let s := empty.performAll ops
    (∀ a, s.market? a = ((lastListed ops).filter (·.address == a)).getLast?) ∧
      (∀ m, m ∈ s.markets ↔ s.market? m.address = some m) ∧
      s.markets.Pairwise Precedes ∧
      (∀ other : Store, other.entries.Perm s.entries → other.markets = s.markets) ∧
      s.size = s.markets.length ∧
      (∀ owner, s.holdings? owner = lastGiven? ops owner) ∧
      ∀ cause, s.perform (.refreshMarkets (.error cause)) = (.listed (.error cause), s) ∧
        s.perform (.refreshHoldings (.error cause)) = (.held (.error cause), s) := by
  intro s
  have h : s.Shows ops := .performAll ops
  refine ⟨h.market, fun m => ?_, pairwise_markets s, fun other => markets_of_perm,
    (perm_markets s).length_eq.symm, h.holdings, fun cause => ⟨rfl, rfl⟩⟩
  rw [(perm_markets s).mem_iff]
  exact mem_entries_iff s m

/-- The second market at an address stays in the place of the first one, also when the index refuses
to list any, and a store that keeps its markets the other way round lists the same ones. -/
theorem second_market_listed_after_refusal :
    let market (address topic : String) : Market :=
      ⟨address, topic, "", 0, 0, 0, 4000000000000, 0, none, none, ""⟩
    let s := empty.performAll
      [.replaceMarkets [market "0xb" "first", market "0xa" "other", market "0xb" "second"],
        .refreshMarkets (.error "index unavailable")]
    let other := empty.performAll
      [.replaceMarkets [market "0xa" "other", market "0xb" "second"]]
    s.market? "0xb" = some (market "0xb" "second") ∧ market "0xb" "second" ∈ s.markets ∧
      other.entries.Perm s.entries ∧ other.markets = s.markets := by
  intro market s other
  obtain ⟨hmarket, hlisted, -, horder, -⟩ := shows_last_written
    [.replaceMarkets [market "0xb" "first", market "0xa" "other", market "0xb" "second"],
      .refreshMarkets (.error "index unavailable")]
  have hfound : s.market? "0xb" = some (market "0xb" "second") := (hmarket "0xb").trans (by decide)
  have hperm : other.entries.Perm s.entries := .swap _ _ _
  exact ⟨hfound, (hlisted (market "0xb" "second")).2 hfound, hperm, horder other hperm⟩

end Store

end PredictionMarket
