import Mathlib.Tactic.Ring
import PredictionMarket.Trade.Funds

/-!
# The coins that pay

What coins are worth together is counted in words that stop at the greatest one. The counts are
compared with those over unbounded numbers, and the order in which coins are used is described
without the way they are sorted.

## Main definitions

* `Holdings.sum`: what coins are worth together, over unbounded numbers.
* `Holdings.Descending`: a list of coins in the order in which they are used.
* `IsHexAddress`: a text that is the address of an account.
-/

namespace PredictionMarket

namespace Holdings

/-- What coins are worth together, over unbounded numbers. -/
def sum (coins : List Coin) : Nat :=
  (coins.map fun c => c.balance.toNat).sum

/-- A capped sum that starts at some word counts everything up to the greatest word. -/
theorem toNat_foldl_add (coins : List Coin) (start : UInt64) :
    (coins.foldl (fun total c => Fixed.add total c.balance) start).toNat =
      min (start.toNat + sum coins) Fixed.maximum := by
  induction coins generalizing start with
  | nil =>
    have h := Fixed.toNat_le_maximum start
    simp only [List.foldl_nil, sum, List.map_nil, List.sum_nil]
    omega
  | cons c coins ih =>
    have h : sum (c :: coins) = c.balance.toNat + sum coins := rfl
    rw [List.foldl_cons, ih, Fixed.toNat_add, h]
    omega

/-- The total is the sum of the coins, cut to the greatest word. -/
theorem toNat_total (h : Holdings) : h.total.toNat = min (sum h.coins) Fixed.maximum := by
  rw [total, toNat_foldl_add, UInt64.toNat_zero, Nat.zero_add]

/-- Capping what the coins are worth does not change whether they cover a word. -/
theorem total_lt_iff (h : Holdings) (need : UInt64) :
    h.total < need ↔ sum h.coins < need.toNat := by
  have hneed := Fixed.toNat_le_maximum need
  rw [UInt64.lt_iff_toNat_lt, toNat_total]
  omega

/-- The coins of a list in descending order of balance, equal ones in the order of the list. -/
structure Descending (coins inUse : List Coin) : Prop where
  perm : inUse.Perm coins
  sorted : inUse.Pairwise fun a b => b.balance ≤ a.balance
  stable : ∀ balance : UInt64,
    inUse.filter (·.balance = balance) = coins.filter (·.balance = balance)

/-- Coins are used from the greatest on. -/
theorem descending_fundingCoins (h : Holdings) : Descending h.coins h.fundingCoins := by
  have htrans : ∀ a b c : Coin, decide (b.balance ≤ a.balance) = true →
      decide (c.balance ≤ b.balance) = true → decide (c.balance ≤ a.balance) = true := by
    intro a b c hab hbc
    exact decide_eq_true (UInt64.le_trans (of_decide_eq_true hbc) (of_decide_eq_true hab))
  have htotal : ∀ a b : Coin,
      (decide (b.balance ≤ a.balance) || decide (a.balance ≤ b.balance)) = true := by
    intro a b
    simpa only [Bool.or_eq_true, decide_eq_true_eq] using UInt64.le_total b.balance a.balance
  refine ⟨List.mergeSort_perm _ _, ?_, ?_⟩
  · exact (List.pairwise_mergeSort htrans htotal h.coins).imp of_decide_eq_true
  · intro balance
    -- The coins of one balance are in order as they stand, so sorting keeps them as a sublist.
    have heq : (h.coins.filter (·.balance = balance)).Pairwise fun a b =>
        decide (b.balance ≤ a.balance) = true := by
      refine List.pairwise_of_forall_mem_list fun a ha b hb => ?_
      have ha := of_decide_eq_true (List.mem_filter.1 ha).2
      have hb := of_decide_eq_true (List.mem_filter.1 hb).2
      exact decide_eq_true (hb ▸ ha ▸ UInt64.le_refl _)
    have hsub := (List.sublist_mergeSort htrans htotal heq List.filter_sublist).filter
      (fun c => decide (c.balance = balance))
    rw [List.filter_filter] at hsub
    simp only [Bool.and_self] at hsub
    exact (hsub.eq_of_length (((List.mergeSort_perm _ _).filter _).length_eq.symm)).symm

end Holdings

/-- The text is `0x` with one to sixty-four hexadecimal digits after it. -/
def IsHexAddress (s : String) : Prop :=
  ∃ digits : List Char, s.toList = '0' :: 'x' :: digits ∧ 1 ≤ digits.length ∧
    digits.length ≤ 64 ∧ ∀ c ∈ digits, Literal.isHexDigit c = true

/-- The test for an address is exact. -/
theorem isAddress_iff (s : String) : isAddress s = true ↔ IsHexAddress s := by
  unfold isAddress IsHexAddress
  constructor
  · intro h
    split at h
    · next digits heq =>
      simp only [Bool.and_eq_true, decide_eq_true_eq, List.all_eq_true] at h
      exact ⟨digits, heq, h.1.1, h.1.2, h.2⟩
    · cases h
  · rintro ⟨digits, heq, hpos, hle, hdigits⟩
    rw [heq]
    simp only [Bool.and_eq_true, decide_eq_true_eq, List.all_eq_true]
    exact ⟨⟨hpos, hle⟩, hdigits⟩

instance (s : String) : Decidable (IsHexAddress s) :=
  decidable_of_iff _ (isAddress_iff s)

example : IsHexAddress "0xa11ce" ∧ ¬IsHexAddress "0x" := by decide

namespace Address

/-- An address is one by its text. -/
theorem isHexAddress (a : Address) : IsHexAddress a.text :=
  (isAddress_iff a.text).1 a.isAddress

/-- A sender is taken as it is written. -/
theorem ofSender_eq_ok_iff {s : String} {a : Address} : ofSender s = .ok a ↔ a.text = s := by
  unfold ofSender ofText?
  constructor
  · intro h
    by_cases hs : PredictionMarket.isAddress s = true
    · rw [dif_pos hs] at h
      cases h
      rfl
    · rw [dif_neg hs] at h
      cases h
  · rintro rfl
    rw [dif_pos a.isAddress]

/-- Any text but an address is refused as a sender. -/
theorem ofSender_eq_error_iff {s : String} {e : InvalidSender} :
    ofSender s = .error e ↔ ¬IsHexAddress s ∧ e = ⟨s⟩ := by
  rw [← isAddress_iff]
  unfold ofSender ofText?
  by_cases hs : PredictionMarket.isAddress s = true
  · simp [hs]
  · simp [hs, eq_comm]

end Address

namespace Funds

/-- The coins do exactly if there are any, they cover the sum and the owner has an address. -/
theorem ofHoldings_eq_ok_iff {owner : String} {h : Holdings} {need : UInt64} {f : Funds} :
    ofHoldings owner h need = .ok f ↔
      ∃ primary others, h.fundingCoins = primary :: others ∧ need.toNat ≤ Holdings.sum h.coins ∧
        f.sender.text = owner ∧ f.primary = .object primary.id ∧
        f.others = others.map fun c => .object c.id := by
  unfold ofHoldings
  cases hcoins : h.fundingCoins with
  | nil => simp
  | cons primary others =>
    have hshort := h.total_lt_iff need
    constructor
    · intro hok
      dsimp only at hok
      by_cases hlt : h.total < need
      · rw [if_pos hlt] at hok
        cases hok
      rw [if_neg hlt] at hok
      cases hsender : Address.ofSender owner with
      | error e =>
        rw [hsender] at hok
        cases hok
      | ok sender =>
        rw [hsender] at hok
        cases hok
        exact ⟨primary, others, rfl, Nat.le_of_not_lt (mt hshort.2 hlt),
          Address.ofSender_eq_ok_iff.1 hsender, rfl, rfl⟩
    · rintro ⟨_, _, heq, hle, hsender, hprimary, hothers⟩
      cases heq
      dsimp only
      rw [if_neg fun hlt => Nat.not_lt_of_le hle (hshort.1 hlt),
        Address.ofSender_eq_ok_iff.2 hsender]
      obtain ⟨sender, _, _⟩ := f
      cases hprimary
      cases hothers
      rfl

/-- Whoever has an address and coins enough can pay. -/
theorem exists_ofHoldings {owner : String} {h : Holdings} {need : UInt64}
    (haddress : IsHexAddress owner) (hcoins : h.coins ≠ [])
    (hle : need.toNat ≤ Holdings.sum h.coins) : ∃ f, ofHoldings owner h need = .ok f := by
  cases hfunding : h.fundingCoins with
  | nil =>
    have hperm := h.descending_fundingCoins.perm
    rw [hfunding] at hperm
    exact absurd hperm.nil_eq.symm hcoins
  | cons primary others =>
    have hsender := (isAddress_iff owner).2 haddress
    exact ⟨⟨⟨owner, hsender⟩, .object primary.id, others.map fun c => .object c.id⟩,
      ofHoldings_eq_ok_iff.2 ⟨primary, others, hfunding, hle, rfl, rfl, rfl⟩⟩

end Funds

end PredictionMarket
