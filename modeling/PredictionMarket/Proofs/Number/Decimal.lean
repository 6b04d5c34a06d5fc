import PredictionMarket.Proofs.Number.Digits
import PredictionMarket.Proofs.Number.Recount

/-!
# Decimal numbers with nine places

A number in digits, with a point and up to nine places after it, is a whole number of billionths. It
is read as the binary number nearest to these.

## Main definitions

* `Literal.Writes`: digits and a point, and the billionths they write.

## Main results

* `Literal.binary64?_of_writes`: the number that is read.
-/

namespace PredictionMarket

namespace Literal

/-- A decimal number in digits, and how many billionths it is. -/
inductive Writes : List Char → ℕ → Prop where
  /-- A whole number. -/
  | whole {ds : List Char} (hne : ds ≠ []) (hds : ∀ c ∈ ds, c.isDigit = true) :
    Writes ds (value ds * 10 ^ 9)
  /-- A number with up to nine places, with digits on at least one side of the point. -/
  | places {ds fs : List Char} (hne : ds ++ fs ≠ []) (hds : ∀ c ∈ ds, c.isDigit = true)
    (hfs : ∀ c ∈ fs, c.isDigit = true) (hlength : fs.length ≤ 9) :
    Writes (ds ++ '.' :: fs) (value (ds ++ fs) * 10 ^ (9 - fs.length))

/-- The digits in front of a point end there. -/
theorem digits_append_point {ds : List Char} (hds : ∀ c ∈ ds, c.isDigit = true)
    (rest : List Char) : digits (ds ++ '.' :: rest) = (ds, '.' :: rest) := by
  unfold digits
  rw [List.takeWhile_append_of_pos hds, List.dropWhile_append_of_pos hds,
    List.takeWhile_cons_of_neg (by decide), List.dropWhile_cons_of_neg (by decide),
    List.append_nil]

namespace Writes

variable {cs : List Char} {n : ℕ}

/-- A plain decimal number consists of digits and a point. -/
theorem isDigit_or_point (h : Writes cs n) : ∀ c ∈ cs, c.isDigit = true ∨ c = '.' := by
  cases h with
  | whole hne hds => exact fun c hc => .inl (hds c hc)
  | places hne hds hfs hlength =>
    intro c hc
    obtain hc | hc := List.mem_append.1 hc
    · exact .inl (hds c hc)
    obtain rfl | hc := List.mem_cons.1 hc
    · exact .inr rfl
    · exact .inl (hfs c hc)

/-- A given text, taken apart at its point. -/
theorem of_places {s : String} (ds fs : List Char) (hs : s.toList = ds ++ '.' :: fs)
    (hn : n = value (ds ++ fs) * 10 ^ (9 - fs.length)) (hne : ds ++ fs ≠ [])
    (hds : ds.all Char.isDigit = true) (hfs : fs.all Char.isDigit = true)
    (hlength : fs.length ≤ 9) : Writes s.toList n := by
  rw [hs, hn]
  exact .places hne (List.all_eq_true.1 hds) (List.all_eq_true.1 hfs) hlength

/-- The digits without the point, and the places after it. -/
theorem exists_magnitude?_eq (h : Writes cs n) :
    ∃ coefficient places : ℕ, magnitude? cs = some ⟨coefficient, -places⟩ ∧ places ≤ 9 ∧
      n = coefficient * 10 ^ (9 - places) := by
  cases h with
  | whole hne hds =>
    refine ⟨value cs, 0, magnitude?_of_all hne hds, by decide, ?_⟩
    rw [Nat.sub_zero]
  | @places ds fs hne hds hfs hlength =>
    refine ⟨value (ds ++ fs), fs.length, ?_, hlength, rfl⟩
    have hsome : (ds.isEmpty && fs.isEmpty) = false := by
      rw [← Bool.not_eq_true, Bool.and_eq_true, List.isEmpty_iff, List.isEmpty_iff]
      rintro ⟨rfl, rfl⟩
      exact hne rfl
    simp only [magnitude?, digits_append_point hds, digits_of_all hfs, hsome,
      Bool.false_eq_true, if_false, exponent?, Option.map_some, Int.zero_sub]

end Writes

/-- Up to fifty-three binary digits, the quotient is neither too great for a number nor too small.
-/
theorem toBinary64_of_places {coefficient places : ℕ} (hplaces : places ≤ 9)
    (hpos : 0 < coefficient) (hlt : coefficient * 10 ^ (9 - places) < 2 ^ 53) :
    Magnitude.toBinary64 ⟨coefficient, -places⟩ =
      .nearest (coefficient * 10 ^ (9 - places)) (10 ^ 9) := by
  -- Fifty-three binary digits are no more than sixteen decimal ones.
  have hcoefficient : coefficient < 10 ^ 16 :=
    lt_of_le_of_lt (Nat.le_mul_of_pos_right _ (by positivity)) (hlt.trans (by decide))
  have hlength : (Nat.toDigits 10 coefficient).length ≤ 16 :=
    (Nat.length_toDigits_le_iff (by decide) (by decide)).2 hcoefficient
  have hscale : 10 ^ 9 = 10 ^ places * 10 ^ (9 - places) := by
    rw [← Nat.pow_add, Nat.add_sub_cancel' hplaces]
  have hmagnitude : Magnitude.toBinary64 ⟨coefficient, -places⟩ =
      .nearest coefficient (10 ^ places) := by
    unfold Magnitude.toBinary64 exponentLimit
    simp only [beq_eq_false_iff_ne.2 hpos.ne', Bool.false_or, decide_eq_true_eq]
    rw [if_neg (by omega), if_neg (by omega), Int.neg_neg, Int.toNat_natCast,
      Int.toNat_of_nonpos (by omega)]
    exact congrArg (Binary64.nearest · _) (Nat.mul_one coefficient)
  rw [hmagnitude, hscale, Binary64.nearest_mul_mul _ _ (by positivity)]

/-- A number in digits and up to nine places is read as the number nearest to its billionths. -/
theorem binary64?_of_writes {s : String} {n : ℕ} (h : Writes s.toList n) (hpos : 0 < n)
    (hlt : n < 2 ^ 53) : binary64? s = some (.nearest n (10 ^ 9)) := by
  have hplain := h.isDigit_or_point
  obtain ⟨coefficient, places, hmagnitude, hplaces, rfl⟩ := h.exists_magnitude?_eq
  have hread : unsignedBinary64? s.toList =
      some (.nearest (coefficient * 10 ^ (9 - places)) (10 ^ 9)) := by
    rw [unsignedBinary64?_of_plain hplain, hmagnitude, Option.map_some,
      toBinary64_of_places hplaces (Nat.pos_of_mul_pos_right hpos) hlt]
  -- Neither sign is a digit or the point.
  have hsign : ∀ c, c = '-' ∨ c = '+' → ∀ cs, s.toList ≠ c :: cs := by
    rintro c hc cs hcons
    rw [hcons] at hplain
    have hc' := hplain c List.mem_cons_self
    obtain rfl | rfl := hc <;> revert hc' <;> decide
  have hplus : dropPlus s.toList = s.toList := by
    unfold dropPlus
    split
    · next cs hcons => exact absurd hcons (hsign '+' (.inr rfl) cs)
    · rfl
  unfold binary64?
  split
  · next cs hcons => exact absurd hcons (hsign '-' (.inl rfl) cs)
  · rwa [hplus]

end Literal

end PredictionMarket
