import PredictionMarket.Proofs.Number.Closest
import PredictionMarket.Proofs.Order.Estimate

/-!
# Whole shares as typed

A quantity is read twice: as whole shares, which an order takes, and as a number, which its estimate
shows. Whatever is whole shares is a number as well.

## Main definitions

* `IsWholeText`: a whole number in digits, with zeros, a sign and white space that do not count.

## Main results

* `wholeShares?_eq_some_iff`: the texts that are whole shares.
* `wholeShares_shown_as_nearest`: the number that is shown for them.
-/

namespace PredictionMarket

open Binary64

/-! ### White space at the ends -/

namespace Text

/-- White space in front is dropped up to what is none. -/
theorem dropWhile_isBlank_append {before rest : List Char} (h : ∀ c ∈ before, isBlank c = true)
    (hrest : ∀ c ∈ rest.head?, isBlank c = false) : (before ++ rest).dropWhile isBlank = rest := by
  rw [List.dropWhile_append_of_pos h]
  cases rest with
  | nil => rfl
  | cons c cs => exact List.dropWhile_cons_of_neg (Bool.eq_false_iff.1 (hrest c rfl))

/-- Around a text without white space any amount of it is taken off. -/
theorem trimChars_append {before cs after : List Char} (hbefore : ∀ c ∈ before, isBlank c = true)
    (hafter : ∀ c ∈ after, isBlank c = true) (hne : cs ≠ [])
    (hcs : ∀ c ∈ cs, isBlank c = false) : trimChars (before ++ cs ++ after) = cs := by
  have hfirst : ∀ c ∈ (cs ++ after).head?, isBlank c = false := by
    rw [List.head?_append_of_ne_nil _ hne]
    exact fun c hc => hcs c (List.mem_of_mem_head? hc)
  have hlast : ∀ c ∈ cs.reverse.head?, isBlank c = false :=
    fun c hc => hcs c (List.mem_reverse.1 (List.mem_of_mem_head? hc))
  rw [trimChars, dropEndWhile, dropBlank, List.append_assoc,
    dropWhile_isBlank_append hbefore hfirst,
    List.reverse_append,
    dropWhile_isBlank_append (fun c hc => hafter c (List.mem_reverse.1 hc)) hlast,
    List.reverse_reverse]

/-- What is taken off the ends of a text is white space. -/
theorem exists_append_trimChars (cs : List Char) :
    ∃ before after, cs = before ++ trimChars cs ++ after ∧ (∀ c ∈ before, isBlank c = true) ∧
      ∀ c ∈ after, isBlank c = true := by
  let rest := dropBlank cs
  refine ⟨cs.takeWhile isBlank, (rest.reverse.takeWhile isBlank).reverse, ?_,
    fun c hc => List.mem_takeWhile_imp hc,
    fun c hc => List.mem_takeWhile_imp (List.mem_reverse.1 hc)⟩
  have hend : trimChars cs ++ (rest.reverse.takeWhile isBlank).reverse = rest := by
    rw [trimChars, dropEndWhile, ← List.reverse_append, List.takeWhile_append_dropWhile,
      List.reverse_reverse]
  rw [List.append_assoc, hend]
  exact List.takeWhile_append_dropWhile.symm

end Text

/-! ### The text of a whole number -/

/-- A whole number in digits, with zeros in front, a plus sign or none, and white space around. -/
def IsWholeText (n : ℕ) (s : String) : Prop :=
  ∃ before sign zeros after,
    s.toList = before ++ (sign ++ (List.replicate zeros '0' ++ Nat.toDigits 10 n)) ++ after ∧
      (sign = [] ∨ sign = ['+']) ∧ (∀ c ∈ before, Text.isBlank c = true) ∧
      ∀ c ∈ after, Text.isBlank c = true

variable {s : String} {q : UInt64}

/-- What is accepted as whole shares is the text of that whole number. -/
theorem isWholeText_of_wholeShares? (h : wholeShares? s = some q) : IsWholeText q.toNat s := by
  have hpos := (positive?_of_wholeShares? h).2
  obtain ⟨hread, -⟩ := Option.filter_eq_some_iff.1 h
  have hdigits := Literal.word?_eq_some hread
  rw [Text.trim, String.toList_ofList] at hdigits
  obtain ⟨-, hall, hvalue⟩ := Literal.unsigned?_eq_some hdigits
  obtain ⟨zeros, hzeros⟩ := Literal.exists_zeros_append hall (hvalue ▸ hpos)
  obtain ⟨before, after, hs, hbefore, hafter⟩ := Text.exists_append_trimChars s.toList
  obtain ⟨sign, hcs, hsign⟩ := Literal.exists_sign_append_dropPlus (Text.trimChars s.toList)
  refine ⟨before, sign, zeros, after, ?_, hsign, hbefore, hafter⟩
  rw [← hvalue, ← hzeros, ← hcs]
  exact hs

/-- Every text of a whole number above zero is accepted as such. -/
theorem wholeShares?_of_isWholeText (hpos : 0 < q) (h : IsWholeText q.toNat s) :
    wholeShares? s = some q := by
  obtain ⟨before, sign, zeros, after, hs, hsign, hbefore, hafter⟩ := h
  have hdigits : ∀ c ∈ List.replicate zeros '0' ++ Nat.toDigits 10 q.toNat, c.isDigit = true :=
    fun _ => isDigit_of_mem_zeros_append
  have hvalue := value_zeros_append zeros q.toNat
  have hne : List.replicate zeros '0' ++ Nat.toDigits 10 q.toNat ≠ [] :=
    List.append_ne_nil_of_right_ne_nil _ Nat.toDigits_ne_nil
  generalize List.replicate zeros '0' ++ Nat.toDigits 10 q.toNat = ds at *
  have hplain : ∀ c ∈ sign ++ ds, Text.isBlank c = false := by
    intro c hc
    obtain hc | hc := List.mem_append.1 hc
    · obtain rfl | rfl := hsign
      · cases hc
      · rw [List.mem_singleton.1 hc]
        decide
    · exact Text.isBlank_of_isDigit (hdigits c hc)
  have hword : Literal.word? (Text.trim s) = some q := by
    rw [Text.trim, hs, Text.trimChars_append hbefore hafter
        (List.append_ne_nil_of_right_ne_nil _ hne) hplain]
    exact Literal.word?_of_digits hsign hne hdigits hvalue
  rw [wholeShares?, hword, Option.filter_some, if_pos (decide_eq_true hpos)]

/-- Whole shares are typed as a whole number above zero. -/
theorem wholeShares?_eq_some_iff :
    wholeShares? s = some q ↔ 0 < q ∧ IsWholeText q.toNat s := by
  constructor
  · intro h
    exact ⟨UInt64.lt_iff_toNat_lt.2 (positive?_of_wholeShares? h).2, isWholeText_of_wholeShares? h⟩
  · rintro ⟨hpos, htext⟩
    exact wholeShares?_of_isWholeText hpos htext

/-! ### The number that is shown -/

/-- A word is rounded to the number nearest to it. -/
theorem Binary64.isNearest_ofNat {n : ℕ} (hpos : 0 < n) (h : n < 2 ^ 64) :
    IsNearest n (ofNat n) := by
  have hnearest := isNearest_nearest Nat.one_pos (near_ofNat hpos h).finite
  rwa [Nat.cast_one, div_one] at hnearest

/-- The number that is read for whole shares. -/
theorem exists_positive?_of_wholeShares? (h : wholeShares? s = some q) :
    ∃ x, positive? s = some x ∧ x.isPositive = true ∧ IsNearest q.toNat x := by
  obtain ⟨hread, hpos⟩ := positive?_of_wholeShares? h
  obtain ⟨-, hpositive, -⟩ := finite_and_positive_of_positive? hread
  exact ⟨_, hread, hpositive, isNearest_ofNat hpos q.toNat_lt⟩

/-- The texts that are whole shares, from one share to as many as a word counts, and what is shown
for them: the positive number nearest to the shares. So the estimate of every order for whole shares
shows its quantity, at whatever price. -/
theorem wholeShares_shown_as_nearest :
    (∀ s q, wholeShares? s = some q ↔ 0 < q ∧ IsWholeText q.toNat s) ∧
      (∀ s q, wholeShares? s = some q →
        ∃ x, positive? s = some x ∧ x.isPositive = true ∧ IsNearest q.toNat x) ∧
      ∀ (d : Draft) (request : OrderRequest), d.kind = .market → d.request = .ok request →
        ∃ side q, request = .market side q ∧ wholeShares? d.quantity = some q ∧
          ∀ price, (d.estimate price).isQuantityValid = true ∧
            ∃ x, (d.estimate price).quantity = some x ∧ x.isPositive = true ∧
              IsNearest q.toNat x := by
  refine ⟨fun s q => wholeShares?_eq_some_iff, fun s q => exists_positive?_of_wholeShares?, ?_⟩
  intro d request hkind hrequest
  obtain ⟨side, -, ⟨-, q, hquantity, heq⟩ | ⟨hlimit, -⟩⟩ := Draft.request_eq_ok hrequest
  · obtain ⟨x, hread, hpositive, hnearest⟩ := exists_positive?_of_wholeShares? hquantity
    refine ⟨side, q, heq, hquantity, fun price => ?_⟩
    rw [Estimate.isQuantityValid, d.quantity_estimate, hread]
    exact ⟨rfl, x, rfl, hpositive, hnearest⟩
  · cases hkind.symm.trans hlimit

/-- The greatest word, with all that does not count around it. -/
theorem greatest_word_of_shares :
    let d : Draft := ⟨some .yes, .market, " +0018446744073709551615\n", ""⟩
    d.request = .ok (.market .yes 18446744073709551615) ∧
      (d.estimate .zero).isQuantityValid = true ∧
      ∃ x, (d.estimate .zero).quantity = some x ∧ IsNearest 18446744073709551615 x := by
  intro d
  have htext : IsWholeText (18446744073709551615 : UInt64).toNat d.quantity :=
    ⟨[' '], ['+'], 2, ['\n'], by decide, .inr rfl, List.forall_mem_singleton.2 (by decide),
      List.forall_mem_singleton.2 (by decide)⟩
  have hquantity : wholeShares? d.quantity = some 18446744073709551615 :=
    wholeShares?_of_isWholeText (by decide) htext
  have hrequest : d.request = .ok (.market .yes 18446744073709551615) := by
    simp only [Draft.request, d, hquantity]
    rfl
  obtain ⟨-, -, horders⟩ := wholeShares_shown_as_nearest
  obtain ⟨side, q, heq, -, hestimate⟩ := horders d _ rfl hrequest
  obtain ⟨hvalid, x, hx, -, hnearest⟩ := hestimate .zero
  cases heq
  have hword : (18446744073709551615 : UInt64).toNat = 18446744073709551615 := rfl
  rw [hword, Nat.cast_ofNat] at hnearest
  exact ⟨hrequest, hvalid, x, hx, hnearest⟩

end PredictionMarket
