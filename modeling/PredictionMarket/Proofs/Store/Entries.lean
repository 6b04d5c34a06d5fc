import Mathlib.Data.List.Nodup
import PredictionMarket.Store

/-!
# What is found in a store

The markets of a store are found by their addresses, of which no two are the same. What dropping and
adding markets does to the store is said by what is found afterwards, wherever the store keeps it.

## Main definitions

* `Store.Precedes`: the strict order in which markets are listed.

## Main results

* `Store.market?_replaceMarkets`: what is found after a new list.
* `Store.mem_entries_iff`: the markets of a store are those that are found.
* `Store.pairwise_markets`, `Store.markets_of_perm`: the order of the markets, which does not depend
  on the one in which the store keeps them.
-/

namespace PredictionMarket

namespace Store

variable {s : Store}

/-! ### Looking up a market -/

/-- Of the markets before, those are kept that are named. -/
theorem market?_retain (s : Store) (addresses : List String) (a : String) :
    (s.retain addresses).market? a = if a ∈ addresses then s.market? a else none := by
  unfold retain market?
  rw [List.find?_filter]
  by_cases ha : a ∈ addresses
  · rw [if_pos ha]
    refine congrFun (congrArg List.find? (funext fun e => ?_)) s.entries
    by_cases he : e.address = a
    · simp [he, ha]
    · simp [he]
  · rw [if_neg ha, List.find?_eq_none]
    rintro e - he
    simp only [List.contains_eq_mem, Bool.decide_and, Bool.and_eq_true, decide_eq_true_eq,
      beq_iff_eq] at he
    exact ha (he.2 ▸ he.1)

/-- A market that is inserted is found by its address. -/
theorem market?_insert (s : Store) (m : Market) (a : String) :
    (s.insert m).market? a = if a = m.address then some m else s.market? a := by
  change (inserted s.entries m).find? (·.address == a) = _
  unfold inserted market?
  by_cases hany : s.entries.any (·.address == m.address) = true
  · -- The market takes the place of the one at its address.
    rw [if_pos hany]
    have hsame : ((·.address == a) ∘ fun e => if e.address == m.address then m else e) =
        fun e : Market => e.address == a := by
      funext e
      by_cases he : e.address = m.address
      · simp [he]
      · simp [he]
    rw [List.find?_map, hsame]
    cases hx : s.entries.find? (·.address == a) with
    | none =>
      have ha : a ≠ m.address := by
        rintro rfl
        obtain ⟨e, he, heq⟩ := List.any_eq_true.1 hany
        exact List.find?_eq_none.1 hx e he heq
      rw [if_neg ha]
      rfl
    | some x =>
      have haddress : x.address = a := by simpa using List.find?_some hx
      by_cases ha : a = m.address
      · simp [haddress, ha]
      · simp [haddress, ha]
  · -- No market is there yet, so it comes after the others.
    rw [if_neg hany]
    have hnone : s.entries.find? (·.address == m.address) = none := by
      simpa [List.find?_eq_none] using hany
    rw [List.find?_append]
    by_cases ha : a = m.address
    · simp [ha, hnone]
    · simp [ha, Ne.symm ha]

/-- Of the markets that are inserted the last of an address is found. -/
theorem market?_foldl_insert (s : Store) (markets : List Market) (a : String) :
    (markets.foldl insert s).market? a =
      (markets.filter (·.address == a)).getLast?.or (s.market? a) := by
  induction markets generalizing s with
  | nil => rfl
  | cons m markets ih =>
    rw [List.foldl_cons, ih, market?_insert, List.filter_cons]
    by_cases ha : a = m.address
    · simp [ha, List.getLast?_cons]
    · simp [ha, Ne.symm ha]

/-- After a new list of markets, the last one with an address is found there, and none if there is
none in the list. -/
theorem market?_replaceMarkets (s : Store) (markets : List Market) (a : String) :
    (s.replaceMarkets markets).market? a = (markets.filter (·.address == a)).getLast? := by
  rw [replaceMarkets, market?_foldl_insert, market?_retain]
  by_cases ha : a ∈ markets.map Market.address
  · obtain ⟨m, hm, rfl⟩ := List.mem_map.1 ha
    have hne : markets.filter (·.address == m.address) ≠ [] :=
      List.ne_nil_of_mem (List.mem_filter.2 ⟨hm, beq_self_eq_true _⟩)
    rw [List.getLast?_eq_some_getLast hne]
    rfl
  · rw [if_neg ha, Option.or_none]

/-! ### One market an address -/

/-- In a list without repeated addresses a market is found under its own. -/
theorem find?_address_of_mem {markets : List Market} (h : (markets.map Market.address).Nodup)
    {m : Market} (hm : m ∈ markets) : markets.find? (·.address == m.address) = some m := by
  cases hx : markets.find? (·.address == m.address) with
  | none => exact absurd (beq_self_eq_true _) (List.find?_eq_none.1 hx m hm)
  | some x =>
    have haddress : x.address = m.address := by simpa using List.find?_some hx
    rw [List.inj_on_of_nodup_map h (List.mem_of_find?_eq_some hx) hm haddress]

/-- The markets of a store are those that are found under their addresses. -/
theorem mem_entries_iff (s : Store) (m : Market) :
    m ∈ s.entries ↔ s.market? m.address = some m :=
  ⟨find?_address_of_mem s.distinctAddresses, List.mem_of_find?_eq_some⟩

/-! ### The order of the markets -/

/-- A market ends before another one, or at the same time and has the lesser address. -/
def Precedes (a b : Market) : Prop :=
  a.endTime < b.endTime ∨ a.endTime = b.endTime ∧ a.address < b.address

/-- Markets are ordered by their end, then by address. -/
theorem isBefore_iff (a b : Market) :
    isBefore a b = true ↔
      a.endTime < b.endTime ∨ a.endTime = b.endTime ∧ a.address ≤ b.address := by
  simp [isBefore]

theorem isBefore_trans (a b c : Market) (hab : isBefore a b = true) (hbc : isBefore b c = true) :
    isBefore a c = true := by
  rw [isBefore_iff] at *
  obtain hab | ⟨hab, hab'⟩ := hab
  · obtain hbc | ⟨hbc, -⟩ := hbc
    · exact .inl (UInt64.lt_trans hab hbc)
    · exact .inl (hbc ▸ hab)
  · obtain hbc | ⟨hbc, hbc'⟩ := hbc
    · exact .inl (hab ▸ hbc)
    · exact .inr ⟨hab.trans hbc, String.le_trans hab' hbc'⟩

theorem isBefore_total (a b : Market) : (isBefore a b || isBefore b a) = true := by
  rw [Bool.or_eq_true, isBefore_iff, isBefore_iff]
  by_cases hab : a.endTime < b.endTime
  · exact .inl (.inl hab)
  by_cases hba : b.endTime < a.endTime
  · exact .inr (.inl hba)
  have heq := UInt64.le_antisymm (UInt64.not_lt.1 hba) (UInt64.not_lt.1 hab)
  obtain hle | hle := String.le_total a.address b.address
  · exact .inl (.inr ⟨heq, hle⟩)
  · exact .inr (.inr ⟨heq.symm, hle⟩)

/-- Of two different addresses one comes strictly first. -/
theorem precedes_of_isBefore {a b : Market} (h : isBefore a b = true)
    (hne : a.address ≠ b.address) : Precedes a b := by
  obtain h | ⟨h, hle⟩ := (isBefore_iff a b).1 h
  · exact .inl h
  · exact .inr ⟨h, Decidable.byContradiction fun hlt =>
      hne (String.le_antisymm hle (String.not_lt.1 hlt))⟩

/-- The markets on show are the entries, each of them once. -/
theorem perm_markets (s : Store) : s.markets.Perm s.entries :=
  List.mergeSort_perm _ _

/-- The markets on show are in order. -/
theorem pairwise_isBefore_markets (s : Store) :
    s.markets.Pairwise fun a b => isBefore a b = true :=
  List.pairwise_mergeSort isBefore_trans isBefore_total s.entries

/-- The markets are listed in strictly ascending order. -/
theorem pairwise_markets (s : Store) : s.markets.Pairwise Precedes := by
  have hne : s.markets.Pairwise fun a b => a.address ≠ b.address :=
    List.pairwise_map.1 (((perm_markets s).map _).nodup_iff.2 s.distinctAddresses)
  exact ((pairwise_isBefore_markets s).and hne).imp fun h => precedes_of_isBefore h.1 h.2

/-- The order in which a store keeps its markets does not show. -/
theorem markets_of_perm {other : Store} (hperm : other.entries.Perm s.entries) :
    other.markets = s.markets := by
  have hasymm : ∀ a b, Precedes a b → Precedes b a → a = b := by
    rintro a b (hab | ⟨hab, hab'⟩) (hba | ⟨hba, hba'⟩)
    · exact absurd hba (UInt64.lt_asymm hab)
    · exact absurd hab (hba ▸ UInt64.lt_irrefl _)
    · exact absurd hba (hab ▸ UInt64.lt_irrefl _)
    · exact absurd hba' (String.lt_asymm hab')
  have hsame := (perm_markets other).trans (hperm.trans (perm_markets s).symm)
  exact hsame.eq_of_pairwise (fun a b _ _ => hasymm a b) (pairwise_markets other)
    (pairwise_markets s)

end Store

end PredictionMarket
