import Mathlib.Data.List.Perm.Subperm
import PredictionMarket.Proofs.Store.History

/-!
# Stages of a new list of markets

A new list takes the place of the old one in stages, and whoever reads a store may do so at any of
them. What is found is then the old market or the new one, and a market that is in both lists is
found throughout.

## Main definitions

* `Store.IsStage`: the invariant of the stages, by what is found.

## Main results

* `Store.IsStage.insert`: one market more.
* `Store.market_stays_through_stages`: what is found at all stages.
-/

namespace PredictionMarket

namespace Store

variable {s stage : Store} {markets : List Market} {m : Market}

/-- A store on the way from an old one to a new list. -/
structure IsStage (old : Store) (new : List Market) (stage : Store) : Prop where
  /-- What is found is old or new. -/
  shown : ∀ a, stage.market? a = old.market? a ∨ stage.market? a = new.find? (·.address == a)
  /-- What is old and new is found. -/
  stays : ∀ a, (old.market? a).isSome = true → (new.find? (·.address == a)).isSome = true →
    (stage.market? a).isSome = true
  /-- What is not new is gone from the first stage on. -/
  gone : ∀ a, new.find? (·.address == a) = none → stage.market? a = none

/-- An address is listed just if a market with it is found. -/
theorem mem_addresses_iff (markets : List Market) (a : String) :
    a ∈ markets.map Market.address ↔ (markets.find? (·.address == a)).isSome = true := by
  simp

namespace IsStage

/-- Dropping what is not in the list is the first stage. -/
theorem retain (s : Store) (markets : List Market) :
    IsStage s markets (s.retain (markets.map Market.address)) := by
  have hkept {a : String} (ha : (markets.find? (·.address == a)).isSome = true) :
      (s.retain (markets.map Market.address)).market? a = s.market? a := by
    rw [market?_retain, if_pos ((mem_addresses_iff markets a).2 ha)]
  have hgone {a : String} (ha : markets.find? (·.address == a) = none) :
      (s.retain (markets.map Market.address)).market? a = none := by
    rw [market?_retain, if_neg]
    rw [mem_addresses_iff, ha]
    exact Bool.false_ne_true
  refine ⟨fun a => ?_, fun a hold hnew => ?_, fun a => hgone⟩
  · cases hnew : markets.find? (·.address == a) with
    | none => exact .inr (hgone hnew)
    | some m => exact .inl (hkept (hnew ▸ rfl))
  · rwa [hkept hnew]

/-- A market of the list shows at its address and nowhere else. -/
theorem insert (h : IsStage s markets stage) (hlist : (markets.map Market.address).Nodup)
    (hm : m ∈ markets) : IsStage s markets (stage.insert m) := by
  have hfound := find?_address_of_mem hlist hm
  refine ⟨fun a => ?_, fun a hold hnew => ?_, fun a hnew => ?_⟩
  all_goals
    rw [market?_insert]
    split
  · next ha => exact .inr (ha ▸ hfound.symm)
  · exact h.shown a
  · rfl
  · exact h.stays a hold hnew
  · next ha =>
    rw [ha, hfound] at hnew
    cases hnew
  · exact h.gone a hnew

/-- Inserting one listed market after the other goes through stages only. -/
theorem of_mem_scanl (h : IsStage s markets stage) (hlist : (markets.map Market.address).Nodup)
    {added : List Market} (hadded : added ⊆ markets) :
    ∀ later ∈ added.scanl Store.insert stage, IsStage s markets later := by
  induction added generalizing stage with
  | nil =>
    rintro later hlater
    rw [List.scanl_nil, List.mem_singleton] at hlater
    exact hlater ▸ h
  | cons m added ih =>
    obtain ⟨hm, hrest⟩ := List.cons_subset.1 hadded
    rw [List.scanl_cons]
    exact List.forall_mem_cons.2 ⟨h, ih (h.insert hlist hm) hrest⟩

/-- Every market of a stage has an address of the list, and no other market has it. -/
theorem size_le (h : IsStage s markets stage) :
    stage.size ≤ (markets.map Market.address).length := by
  have hsubset : stage.entries.map Market.address ⊆ markets.map Market.address := by
    intro a ha
    obtain ⟨m, hm, rfl⟩ := List.mem_map.1 ha
    rw [mem_addresses_iff, Option.isSome_iff_ne_none]
    intro hnone
    have hgone := h.gone m.address hnone
    rw [(mem_entries_iff stage m).1 hm] at hgone
    cases hgone
  rw [size, ← List.length_map Market.address]
  exact stage.distinctAddresses.length_le_of_subset hsubset

end IsStage

/-- On the way from the store that has dropped what is gone to the one with the new list, what is
found at an address is the old market or the new one at every stage. There is one throughout where
both lists have one, and none where neither has. There are never more markets than the new list
has. -/
theorem market_stays_through_stages (s : Store) (hlist : (markets.map Market.address).Nodup) :
    (s.replacement markets).head? = some (s.retain (markets.map Market.address)) ∧
      (s.replacement markets).getLast? = some (s.replaceMarkets markets) ∧
      ∀ stage ∈ s.replacement markets,
        (∀ a, stage.market? a = s.market? a ∨
          stage.market? a = markets.find? (·.address == a)) ∧
        (∀ a, (s.market? a).isSome = true → (markets.find? (·.address == a)).isSome = true →
          (stage.market? a).isSome = true) ∧
        (∀ a, s.market? a = none → markets.find? (·.address == a) = none →
          stage.market? a = none) ∧
        stage.size ≤ (markets.map Market.address).length := by
  refine ⟨List.head?_scanl, List.getLast?_scanl, fun stage hstage => ?_⟩
  have hinv : IsStage s markets stage :=
    (IsStage.retain s markets).of_mem_scanl hlist (List.Subset.refl _) stage hstage
  exact ⟨hinv.shown, hinv.stays, fun a _ => hinv.gone a, hinv.size_le⟩

/-- A market with a new description is there throughout while another one goes and a third one
comes. -/
theorem described_market_stays :
    let market (address description : String) : Market :=
      ⟨address, "", description, 0, 0, 0, 4000000000000, 0, none, none, ""⟩
    let s := empty.performAll [.replaceMarkets [market "0xa" "", market "0xb" "old"]]
    let list := [market "0xc" "", market "0xb" "new"]
    (list.map Market.address).Nodup ∧
      ∀ stage ∈ s.replacement list, (stage.market? "0xb").isSome = true ∧ stage.size ≤ 2 := by
  intro market s list
  have hlist : (list.map Market.address).Nodup := by decide
  obtain ⟨-, -, hstages⟩ := market_stays_through_stages s hlist
  refine ⟨hlist, fun stage hstage => ?_⟩
  obtain ⟨-, hstays, -, hsize⟩ := hstages stage hstage
  exact ⟨hstays "0xb" (by decide) (by decide), hsize⟩

end Store

end PredictionMarket
