import Mathlib.Algebra.Group.Nat.Defs
import Mathlib.Data.List.TakeWhile
import PredictionMarket.Number.Literal
import PredictionMarket.Number.Places

/-!
# Whole numbers as decimal numbers

A word in decimal digits is read back. A whole number that is read as a word is read as the nearest
binary number by the reader of decimal numbers.

## Main results

* `Literal.word?_toString`: a word in digits.
* `Literal.exists_zeros_append`: digits are those of their value, up to zeros in front.
* `Literal.binary64?_of_word?`: the two readings of a whole number.
-/

namespace PredictionMarket

/-! ### Zeros in front of digits -/

theorem isDigit_of_mem_zeros_append {zeros n : Nat} {c : Char}
    (h : c ∈ List.replicate zeros '0' ++ Nat.toDigits 10 n) : c.isDigit = true := by
  obtain h | h := List.mem_append.1 h
  · rw [List.eq_of_mem_replicate h]
    decide
  · exact Nat.isDigit_of_mem_toDigits (by decide) (by decide) h

/-- Zeros in front do not change the number. -/
theorem value_zeros_append (zeros n : Nat) :
    Literal.value (List.replicate zeros '0' ++ Nat.toDigits 10 n) = n := by
  rw [Literal.value, Nat.ofDigitChars_append, Nat.ofDigitChars_replicate_zero, Nat.mul_zero,
    Nat.ofDigitChars_ten_toDigits]

theorem isDigit_of_mem_zeroPadded {width n : Nat} {c : Char} (h : c ∈ zeroPadded width n) :
    c.isDigit = true :=
  isDigit_of_mem_zeros_append h

/-- A number filled up with zeros is the number. -/
theorem value_zeroPadded (width n : Nat) : Literal.value (zeroPadded width n) = n :=
  value_zeros_append _ n

/-- A number that fits the width is filled up to it. -/
theorem length_zeroPadded {width n : Nat} (hpos : 0 < width) (h : n < 10 ^ width) :
    (zeroPadded width n).length = width := by
  have hle := (Nat.length_toDigits_le_iff (by decide) hpos).2 h
  simp only [zeroPadded, List.length_append, List.length_replicate]
  omega

theorem zeroPadded_ne_nil (width n : Nat) : zeroPadded width n ≠ [] :=
  List.append_ne_nil_of_right_ne_nil _ Nat.toDigits_ne_nil

namespace Literal

/-! ### Numbers in digits -/

theorem isDigit_of_mem_toDigits {n : Nat} {c : Char} (h : c ∈ Nat.toDigits 10 n) :
    c.isDigit = true :=
  Nat.isDigit_of_mem_toDigits (by decide) (by decide) h

/-- A number starts with a digit. -/
theorem toDigits_eq_cons (n : Nat) : ∃ d ds, Nat.toDigits 10 n = d :: ds ∧ d.isDigit = true := by
  obtain ⟨d, ds, hdigits⟩ :=
    List.exists_cons_of_ne_nil (Nat.toDigits_ne_nil (b := 10) (n := n))
  exact ⟨d, ds, hdigits, isDigit_of_mem_toDigits (hdigits ▸ List.mem_cons_self)⟩

/-- The digits of a number are worth the number. -/
theorem value_toDigits (n : Nat) : value (Nat.toDigits 10 n) = n :=
  Nat.ofDigitChars_ten_toDigits

/-- A plus sign is all that is dropped in front. -/
theorem exists_sign_append_dropPlus (cs : List Char) :
    ∃ sign, cs = sign ++ dropPlus cs ∧ (sign = [] ∨ sign = ['+']) := by
  unfold dropPlus
  split
  · exact ⟨['+'], rfl, .inr rfl⟩
  · exact ⟨[], rfl, .inl rfl⟩

/-- What stands behind a plus sign is left once the sign is dropped. -/
theorem dropPlus_sign_append {sign ds : List Char} (hsign : sign = [] ∨ sign = ['+'])
    (hds : ∀ c ∈ ds, c.isDigit = true) : dropPlus (sign ++ ds) = ds := by
  obtain rfl | rfl := hsign
  · unfold dropPlus
    split
    · next cs hplus =>
      rw [List.nil_append] at hplus
      rw [hplus] at hds
      exact absurd (hds '+' List.mem_cons_self) (by decide)
    · rfl
  · rfl

/-- A word in digits, after a plus sign or none. -/
theorem word?_of_digits {sign ds : List Char} {n : UInt64} (hsign : sign = [] ∨ sign = ['+'])
    (hne : ds ≠ []) (hds : ∀ c ∈ ds, c.isDigit = true) (hvalue : value ds = n.toNat) :
    word? (String.ofList (sign ++ ds)) = some n := by
  have hread : unsigned? ds = some n.toNat := by
    rw [unsigned?, List.isEmpty_eq_false_iff.2 hne, List.all_eq_true.2 hds, hvalue]
    rfl
  rw [word?, natural?, String.toList_ofList, dropPlus_sign_append hsign hds, hread,
    Option.filter_some, if_pos (decide_eq_true n.toNat_lt_size), Option.map_some,
    UInt64.ofNat_toNat]

/-- A word is read back from its digits. -/
theorem word?_toString (n : UInt64) : word? (toString n.toNat) = some n := by
  have hsign : ([] : List Char) = [] ∨ [] = ['+'] := .inl rfl
  have hread := word?_of_digits hsign Nat.toDigits_ne_nil (fun _ => isDigit_of_mem_toDigits)
    (value_toDigits n.toNat)
  rwa [List.nil_append, ← Nat.toString_eq_ofList_toDigits] at hread

/-! ### The digits of a value -/

/-- The place of a digit among the digits is the one it is written by. -/
theorem digitChar_sub_zero {c : Char} (h : c.isDigit = true) :
    c.toNat - '0'.toNat < 10 ∧ Nat.digitChar (c.toNat - '0'.toNat) = c := by
  have hrange : 48 ≤ c.toNat ∧ c.toNat ≤ 57 := by
    simpa [Char.isDigit, UInt32.le_iff_toNat_le] using h
  have hzero : '0'.toNat = 48 := rfl
  have hlt : c.toNat - '0'.toNat < 10 := by omega
  refine ⟨hlt, Char.toNat_inj.1 ?_⟩
  rw [Nat.toNat_digitChar_of_lt_ten hlt]
  omega

/-- Past the first digit that is not zero, the digits of a text are those of its value. -/
theorem toDigits_append_of_all {n : Nat} {cs : List Char} (hn : 0 < n)
    (h : ∀ c ∈ cs, c.isDigit = true) :
    Nat.toDigits 10 n ++ cs = Nat.toDigits 10 (Nat.ofDigitChars 10 cs n) := by
  induction cs generalizing n with
  | nil => rw [List.append_nil, Nat.ofDigitChars_nil]
  | cons c cs ih =>
    obtain ⟨hlt, hchar⟩ := digitChar_sub_zero (h c List.mem_cons_self)
    rw [Nat.ofDigitChars_cons, ← ih (by omega) fun d hd => h d (List.mem_cons_of_mem c hd),
      ← Nat.toDigits_append_toDigits (by decide) hn hlt, Nat.toDigits_of_lt_base hlt, hchar,
      List.append_assoc, List.singleton_append]

/-- Digits with a value above zero are those of the value, with zeros in front. -/
theorem exists_zeros_append {cs : List Char} (h : ∀ c ∈ cs, c.isDigit = true)
    (hpos : 0 < value cs) :
    ∃ zeros, cs = List.replicate zeros '0' ++ Nat.toDigits 10 (value cs) := by
  induction cs with
  | nil => cases hpos
  | cons c cs ih =>
    have hcs : ∀ d ∈ cs, d.isDigit = true := fun d hd => h d (List.mem_cons_of_mem c hd)
    obtain ⟨hlt, hchar⟩ := digitChar_sub_zero (h c List.mem_cons_self)
    have hvalue : value (c :: cs) = Nat.ofDigitChars 10 cs (c.toNat - '0'.toNat) := by
      rw [value, Nat.ofDigitChars_cons, Nat.mul_zero, Nat.zero_add]
    obtain hzero | hfirst := Nat.eq_zero_or_pos (c.toNat - '0'.toNat)
    · rw [hzero] at hvalue hchar
      change value (c :: cs) = value cs at hvalue
      rw [hvalue] at hpos ⊢
      obtain ⟨zeros, hrest⟩ := ih hcs hpos
      refine ⟨zeros + 1, ?_⟩
      rw [List.replicate_succ, List.cons_append, ← hrest, ← hchar]
      rfl
    · refine ⟨0, ?_⟩
      rw [hvalue, ← toDigits_append_of_all hfirst hcs, Nat.toDigits_of_lt_base hlt, hchar]
      rfl

/-! ### The two readings of a whole number -/

/-- What is read as a natural number are digits, and its value is theirs. -/
theorem unsigned?_eq_some {cs : List Char} {n : Nat} (h : unsigned? cs = some n) :
    cs ≠ [] ∧ (∀ c ∈ cs, c.isDigit = true) ∧ value cs = n := by
  unfold unsigned? at h
  split at h
  · cases h
  · next hdigits =>
    simp only [Bool.or_eq_true, List.isEmpty_iff, Bool.not_eq_true', not_or,
      Bool.not_eq_false, List.all_eq_true] at hdigits
    cases h
    exact ⟨hdigits.1, hdigits.2, rfl⟩

/-- What is read as a word is a natural number, with a plus sign at most. -/
theorem word?_eq_some {s : String} {q : UInt64} (h : word? s = some q) :
    unsigned? (dropPlus s.toList) = some q.toNat := by
  obtain ⟨n, hn, rfl⟩ := Option.map_eq_some_iff.1 h
  obtain ⟨hsome, hlt⟩ := Option.filter_eq_some_iff.1 hn
  rw [UInt64.toNat_ofNat_of_lt' (of_decide_eq_true hlt)]
  exact hsome

/-- If all characters are digits, nothing comes after the digits. -/
theorem digits_of_all {cs : List Char} (h : ∀ c ∈ cs, c.isDigit = true) : digits cs = (cs, []) := by
  unfold digits
  rw [List.takeWhile_eq_self_iff.2 h, List.dropWhile_eq_nil_iff.2 h]

/-- Digits alone are a magnitude without an exponent. -/
theorem magnitude?_of_all {cs : List Char} (hne : cs ≠ []) (h : ∀ c ∈ cs, c.isDigit = true) :
    magnitude? cs = some ⟨value cs, 0⟩ := by
  have hempty : cs.isEmpty = false := List.isEmpty_eq_false_iff.2 hne
  unfold magnitude?
  simp only [digits_of_all h, hempty, List.append_nil]
  rfl

theorem toLower_of_isDigit {c : Char} (h : c.isDigit = true) : c.toLower = c := by
  refine dif_neg fun hupper => ?_
  unfold Char.isDigit at h
  simp only [Bool.and_eq_true, decide_eq_true_eq] at h
  exact absurd (UInt32.le_trans hupper.1 h.2) (by decide)

/-- Digits and points spell none of the words for a number. -/
theorem unsignedBinary64?_of_plain {cs : List Char}
    (h : ∀ c ∈ cs, c.isDigit = true ∨ c = '.') :
    unsignedBinary64? cs = (magnitude? cs).map Magnitude.toBinary64 := by
  have hlower : cs.map Char.toLower = cs := by
    refine (List.map_congr_left fun c hc => ?_).trans (List.map_id cs)
    obtain hdigit | rfl := h c hc
    · exact toLower_of_isDigit hdigit
    · rfl
  have hword : ∀ word : String, (∃ c ∈ word.toList, ¬(c.isDigit = true ∨ c = '.')) →
      (String.ofList cs == word) = false := by
    rintro word ⟨c, hc, hnot⟩
    refine beq_eq_false_iff_ne.2 ?_
    rintro rfl
    rw [String.toList_ofList] at hc
    exact hnot (h c hc)
  unfold unsignedBinary64?
  rw [hlower]
  simp only [hword "inf" ⟨'i', by decide⟩, hword "infinity" ⟨'i', by decide⟩,
    hword "nan" ⟨'n', by decide⟩, Bool.or_self, Bool.false_eq_true, if_false]

/-- Digits alone are read as the number nearest to their value. -/
theorem unsignedBinary64?_of_all {cs : List Char} (hne : cs ≠ [])
    (h : ∀ c ∈ cs, c.isDigit = true) :
    unsignedBinary64? cs = some (Magnitude.toBinary64 ⟨value cs, 0⟩) := by
  rw [unsignedBinary64?_of_plain fun c hc => .inl (h c hc), magnitude?_of_all hne h,
    Option.map_some]

/-- A whole number that fits a word is rounded once. -/
theorem toBinary64_of_lt {n : Nat} (h : n < UInt64.size) :
    Magnitude.toBinary64 ⟨n, 0⟩ = .ofNat n := by
  have hlength : (Nat.toDigits 10 n).length ≤ 20 :=
    (Nat.length_toDigits_le_iff (by decide) (by decide)).2 (Nat.lt_trans h (by decide))
  unfold Magnitude.toBinary64 exponentLimit
  by_cases hzero : n = 0
  · rw [hzero]
    decide +kernel
  · simp only [beq_eq_false_iff_ne.2 hzero, Bool.false_or, decide_eq_true_eq]
    rw [if_neg (by omega), if_neg (by omega), Int.neg_zero, Int.toNat_zero]
    change Binary64.nearest (n * 1) 1 = Binary64.nearest n 1
    rw [Nat.mul_one]

/-- What is read as a word is read as the number of it. -/
theorem binary64?_of_word? {s : String} {q : UInt64} (h : word? s = some q) :
    binary64? s = some (.ofNat q.toNat) := by
  obtain ⟨hne, hall, hvalue⟩ := unsigned?_eq_some (word?_eq_some h)
  have hread : unsignedBinary64? (dropPlus s.toList) = some (.ofNat q.toNat) := by
    rw [unsignedBinary64?_of_all hne hall, hvalue, toBinary64_of_lt q.toNat_lt_size]
  unfold binary64?
  split
  · next cs hminus =>
    rw [hminus] at hall
    exact absurd (hall '-' List.mem_cons_self) (by decide)
  · exact hread

end Literal

end PredictionMarket
