import Mathlib.Data.List.TakeWhile
import PredictionMarket.Book
import PredictionMarket.Number.Shortest
import PredictionMarket.Proofs.Number.Places

/-!
# Amounts in groups of three digits

An amount is shown with commas between its thousands and without zeros at the end of its decimals.
The text with two places can be had back from what is shown.

## Main definitions

* `IsGrouped`: digits with commas between their groups.
* `IsTrimmed`: decimals without the zeros at their end.
* `restored`: a text without its commas, and with the zeros at its end.

## Main results

* `isGrouped_grouped`, `isTrimmed_trimmedFraction`: how the two parts of an amount are shown.
* `amountText_keeps_number`: what is shown for a finite number.
-/

namespace PredictionMarket

/-! ### Groups of digits -/

section Groups

variable {c : Char} {cs group : List Char}

/-- A digit in front of whole groups stands before a comma. -/
theorem grouped_cons_of_dvd (hne : cs ≠ []) (h : cs.length % 3 = 0) :
    grouped (c :: cs) = c :: ',' :: grouped cs := by
  rw [grouped, h, List.isEmpty_eq_false_iff.2 hne]
  rfl

/-- A digit in front of a group that is not full joins it. -/
theorem grouped_cons_of_not_dvd (h : cs.length % 3 ≠ 0) :
    grouped (c :: cs) = c :: grouped cs := by
  rw [grouped, beq_eq_false_iff_ne.2 h]
  rfl

/-- Up to three digits are a single group. -/
theorem grouped_of_length_le (h : cs.length ≤ 3) : grouped cs = cs := by
  match cs, h with
  | [], _ | [_], _ | [_, _], _ | [_, _, _], _ => rfl

/-- Three digits more are a group of their own. -/
theorem grouped_append (hne : cs ≠ []) (hgroup : group.length = 3) :
    grouped (cs ++ group) = grouped cs ++ ',' :: group := by
  induction cs with
  | nil => exact absurd rfl hne
  | cons c cs ih =>
    obtain rfl | hcs := eq_or_ne cs []
    · have hsome : group ≠ [] := List.ne_nil_of_length_eq_add_one hgroup
      rw [List.singleton_append, grouped_cons_of_dvd hsome (by omega),
        grouped_of_length_le hgroup.le]
      rfl
    -- The digits of the group do not change where the commas stand before it.
    have hmod : (cs ++ group).length % 3 = cs.length % 3 := by
      rw [List.length_append, hgroup, Nat.add_mod_right]
    rw [List.cons_append]
    by_cases h : cs.length % 3 = 0
    · rw [grouped_cons_of_dvd (List.append_ne_nil_of_left_ne_nil hcs _) (hmod.trans h),
        grouped_cons_of_dvd hcs h, ih hcs]
      rfl
    · rw [grouped_cons_of_not_dvd (hmod.symm ▸ h), grouped_cons_of_not_dvd h, ih hcs]
      rfl

/-- Digits as they are shown with commas between their groups: a first one of up to three, and
others of three. -/
def IsGrouped (digits shown : List Char) : Prop :=
  ∃ (first : List Char) (groups : List (List Char)), digits = first ++ groups.flatten ∧
    shown = first ++ groups.flatMap (',' :: ·) ∧
    1 ≤ first.length ∧ first.length ≤ 3 ∧ ∀ g ∈ groups, g.length = 3

/-- Digits in groups are grouped: the first group has at most three, all others three. -/
theorem isGrouped_grouped (hne : cs ≠ []) : IsGrouped cs (grouped cs) := by
  induction hlength : cs.length using Nat.strong_induction_on generalizing cs with
  | _ n ih =>
    subst hlength
    by_cases hshort : cs.length ≤ 3
    · refine ⟨cs, [], ?_, ?_, List.length_pos_iff.2 hne, hshort, List.forall_mem_nil _⟩
      · rw [List.flatten_nil, List.append_nil]
      · rw [grouped_of_length_le hshort, List.flatMap_nil, List.append_nil]
    -- The last three are a group, and those before them fall into groups.
    obtain ⟨front, last, rfl, hlast⟩ : ∃ front last, cs = front ++ last ∧ last.length = 3 := by
      refine ⟨cs.take (cs.length - 3), cs.drop (cs.length - 3), ?_, ?_⟩
      · rw [List.take_append_drop]
      · rw [List.length_drop]
        omega
    rw [List.length_append, hlast] at hshort ih
    have hfront : front ≠ [] := List.length_pos_iff.1 (by omega)
    obtain ⟨first, groups, hflat, hgrouped, hpos, hle, hgroups⟩ :=
      ih front.length (by omega) hfront rfl
    refine ⟨first, groups ++ [last], ?_, ?_, hpos, hle,
      List.forall_mem_append.2 ⟨hgroups, List.forall_mem_singleton.2 hlast⟩⟩
    · rw [List.flatten_append, List.flatten_singleton, ← List.append_assoc, ← hflat]
    · rw [grouped_append hfront hlast, List.flatMap_append, List.flatMap_singleton,
        ← List.append_assoc, ← hgrouped]

/-- Without the commas the digits are as before. -/
theorem filter_grouped (h : ',' ∉ cs) : (grouped cs).filter (· != ',') = cs := by
  induction cs with
  | nil => rfl
  | cons c cs ih =>
    have hc : c ≠ ',' := (List.ne_of_not_mem_cons h).symm
    have hcs := ih (List.not_mem_of_not_mem_cons h)
    rw [grouped]
    split <;> simp [hc, hcs]

end Groups

/-! ### Decimals without the zeros at their end -/

/-- Decimals as they are shown: none if all are zeros, and else a point and all up to the last one
that is not zero. -/
def IsTrimmed (decimals shown : List Char) : Prop :=
  (∃ zeros, decimals = List.replicate zeros '0' ∧ shown = []) ∨
    ∃ kept zeros, decimals = kept ++ List.replicate zeros '0' ∧ shown = '.' :: kept ∧
      kept ≠ [] ∧ kept.getLast? ≠ some '0'

/-- What is shown of decimals lacks the zeros at their end and nothing else. -/
theorem isTrimmed_trimmedFraction (decimals : List Char) :
    IsTrimmed decimals (trimmedFraction decimals) := by
  let kept := (decimals.reverse.dropWhile (· == '0')).reverse
  let zeros := (decimals.reverse.takeWhile (· == '0')).length
  have hzeros : decimals.reverse.takeWhile (· == '0') = List.replicate zeros '0' :=
    List.eq_replicate_of_mem fun c hc => by simpa using List.mem_takeWhile_imp hc
  have hsplit : decimals = kept ++ List.replicate zeros '0' := by
    rw [← List.reverse_replicate, ← hzeros, ← List.reverse_append,
      List.takeWhile_append_dropWhile, List.reverse_reverse]
  have htrimmed : trimmedFraction decimals = if kept.isEmpty then [] else '.' :: kept := rfl
  obtain hnil | hkept := eq_or_ne kept []
  · refine .inl ⟨zeros, ?_, ?_⟩
    · rwa [hnil, List.nil_append] at hsplit
    · rw [htrimmed, hnil]
      rfl
  · refine .inr ⟨kept, zeros, hsplit, ?_, hkept, fun hlast => ?_⟩
    · rw [htrimmed, List.isEmpty_eq_false_iff.2 hkept]
      rfl
    · rw [List.getLast?_reverse] at hlast
      have hnot := List.head?_dropWhile_not (· == '0') decimals.reverse
      rw [hlast] at hnot
      cases hnot

/-! ### The text with its places -/

/-- A decimal text with zeros at its end up to a number of places. -/
def withZeros (places : ℕ) (cs : List Char) : List Char :=
  let fraction := (cs.dropWhile (· != '.')).drop 1
  cs.takeWhile (· != '.') ++ '.' :: (fraction ++ List.replicate (places - fraction.length) '0')

/-- A text without its commas, and with zeros at its end up to a number of places. -/
def restored (places : ℕ) (shown : List Char) : List Char :=
  withZeros places (shown.filter (· != ','))

section Places

variable {cs sign whole decimals : List Char}

theorem forall_bne_of_not_mem {c : Char} (h : c ∉ cs) : ∀ d ∈ cs, (d != c) = true :=
  fun _ hd => bne_iff_ne.2 (ne_of_mem_of_not_mem hd h)

/-- The characters before a point. -/
theorem takeWhile_point (h : '.' ∉ cs) (rest : List Char) :
    (cs ++ '.' :: rest).takeWhile (· != '.') = cs := by
  have hcs := forall_bne_of_not_mem h
  rw [List.takeWhile_append_of_pos hcs, List.takeWhile_cons_of_neg (by decide), List.append_nil]

/-- The point and what comes after it. -/
theorem dropWhile_point (h : '.' ∉ cs) (rest : List Char) :
    (cs ++ '.' :: rest).dropWhile (· != '.') = '.' :: rest := by
  have hcs := forall_bne_of_not_mem h
  rw [List.dropWhile_append_of_pos hcs, List.dropWhile_cons_of_neg (by decide)]

/-- A text that has a point gets zeros behind its decimals. -/
theorem withZeros_point (h : '.' ∉ cs) (places : ℕ) (kept : List Char) :
    withZeros places (cs ++ '.' :: kept) =
      cs ++ '.' :: (kept ++ List.replicate (places - kept.length) '0') := by
  simp only [withZeros, takeWhile_point h, dropWhile_point h, List.drop_one, List.tail_cons]

/-- A text without a point gets one, and zeros behind it. -/
theorem withZeros_whole (h : '.' ∉ cs) (places : ℕ) :
    withZeros places cs = cs ++ '.' :: List.replicate places '0' := by
  have hcs := forall_bne_of_not_mem h
  simp only [withZeros, List.takeWhile_eq_self_iff.2 hcs, List.dropWhile_eq_nil_iff.2 hcs,
    List.drop_nil, List.length_nil, Nat.sub_zero, List.nil_append]

/-- What is no digit does not occur in digits after a sign, unless it is the sign. -/
theorem not_mem_sign_append {c : Char} (hc : c.isDigit = false) (hminus : c ≠ '-')
    (hsign : sign = [] ∨ sign = ['-']) (hwhole : ∀ d ∈ whole, d.isDigit = true) :
    c ∉ sign ++ whole := by
  have hdigits : c ∉ whole := fun hmem => by
    rw [hwhole c hmem] at hc
    cases hc
  obtain rfl | rfl := hsign
  · exact hdigits
  · exact List.not_mem_cons_of_ne_of_not_mem hminus hdigits

/-- A text with a sign, a point and decimals is shown with its digits in groups and without zeros at
its end. -/
theorem groupedText_eq (hsign : sign = [] ∨ sign = ['-'])
    (hwhole : ∀ c ∈ whole, c.isDigit = true) :
    groupedText (sign ++ whole ++ '.' :: decimals) =
      sign ++ grouped whole ++ trimmedFraction decimals := by
  have hpoint : '.' ∉ sign ++ whole := not_mem_sign_append rfl (by decide) hsign hwhole
  simp only [groupedText, takeWhile_point hpoint, dropWhile_point hpoint, List.drop_one,
    List.tail_cons]
  obtain rfl | rfl := hsign
  · rw [List.nil_append, List.nil_append]
    split
    · exact absurd (hwhole '-' List.mem_cons_self) (by decide)
    · rfl
  · rfl

/-- What a text leaves out can be put back. -/
theorem restored_groupedText (hsign : sign = [] ∨ sign = ['-'])
    (hwhole : ∀ c ∈ whole, c.isDigit = true) (hdecimals : ∀ c ∈ decimals, c.isDigit = true) :
    restored decimals.length (groupedText (sign ++ whole ++ '.' :: decimals)) =
      sign ++ whole ++ '.' :: decimals := by
  have hpoint : '.' ∉ sign ++ whole := not_mem_sign_append rfl (by decide) hsign hwhole
  have hcomma : ',' ∉ whole := not_mem_sign_append rfl (by decide) (.inl rfl) hwhole
  have hcomma' : ',' ∉ decimals := not_mem_sign_append rfl (by decide) (.inl rfl) hdecimals
  have hplain : (sign ++ grouped whole).filter (· != ',') = sign ++ whole := by
    rw [List.filter_append, filter_grouped hcomma]
    obtain rfl | rfl := hsign <;> rfl
  rw [groupedText_eq hsign hwhole, restored, List.filter_append, hplain]
  obtain ⟨zeros, rfl, htrimmed⟩ | ⟨kept, zeros, rfl, htrimmed, -⟩ :=
    isTrimmed_trimmedFraction decimals
  · rw [htrimmed, List.filter_nil, List.append_nil, withZeros_whole hpoint, List.length_replicate]
  · have hkept : ',' ∉ '.' :: kept :=
      List.not_mem_cons_of_ne_of_not_mem (by decide) fun hmem =>
        hcomma' (List.mem_append_left _ hmem)
    rw [htrimmed, List.filter_eq_self.2 (forall_bne_of_not_mem hkept), withZeros_point hpoint,
      List.length_append, List.length_replicate, Nat.add_sub_cancel_left]

end Places

/-! ### Amounts -/

namespace Binary64

variable {x : Binary64}

/-- The sign of a number is a minus or nothing. -/
theorem toList_sign (x : Binary64) : x.sign.toList = [] ∨ x.sign.toList = ['-'] := by
  unfold sign
  split
  · exact .inr rfl
  · exact .inl rfl

/-- A finite number written to some places is a sign, digits, a point and so many decimals. -/
theorem exists_withPlaces {places : ℕ} (hpos : 0 < places) (h : x.isFinite = true) :
    ∃ whole decimals, (x.withPlaces places).toList = x.sign.toList ++ whole ++ '.' :: decimals ∧
      whole ≠ [] ∧ decimals.length = places ∧ ∀ c ∈ whole ++ decimals, c.isDigit = true := by
  obtain ⟨whole, decimals, htext, hwhole, hlength, hdigits⟩ :=
    isDecimal_placesText hpos (x.unitsAt places)
  rw [String.toList_ofList] at htext
  refine ⟨whole, decimals, ?_, hwhole, hlength, hdigits⟩
  unfold withPlaces sign
  simp only [isNaN_of_isFinite h, isInfinite_of_isFinite h, Bool.false_eq_true, if_false,
    String.toList_ofList, htext]
  cases x.isNegative <;> rfl

end Binary64

/-- The text of a finite number with two places is a sign if the number is below zero, a whole part
and two decimals. It is shown with the whole part in groups of three digits and without zeros at the
end of the decimals, and can be had back from what is shown. -/
theorem amountText_keeps_number {x : Binary64} (h : x.isFinite = true) :
    ∃ whole decimals shownWhole shownDecimals : List Char,
      (x.withPlaces 2).toList = x.sign.toList ++ whole ++ '.' :: decimals ∧
      (amountText x).toList = x.sign.toList ++ shownWhole ++ shownDecimals ∧
      whole ≠ [] ∧ decimals.length = 2 ∧ (∀ c ∈ whole ++ decimals, c.isDigit = true) ∧
      IsGrouped whole shownWhole ∧ IsTrimmed decimals shownDecimals ∧
      restored 2 (amountText x).toList = (x.withPlaces 2).toList := by
  obtain ⟨whole, decimals, htext, hne, hlength, hdigits⟩ :=
    Binary64.exists_withPlaces two_pos h
  obtain ⟨hwhole, hdecimals⟩ := List.forall_mem_append.1 hdigits
  have hshown :
      (amountText x).toList = groupedText (x.sign.toList ++ whole ++ '.' :: decimals) := by
    rw [amountText, String.toList_ofList, htext]
  refine ⟨whole, decimals, grouped whole, trimmedFraction decimals, htext, ?_, hne, hlength,
    hdigits, isGrouped_grouped hne, isTrimmed_trimmedFraction decimals, ?_⟩
  · rw [hshown, groupedText_eq x.toList_sign hwhole]
  · rw [hshown, htext, ← hlength, restored_groupedText x.toList_sign hwhole hdecimals]

/-- An amount of six digits below zero, which is rounded to one of seven. -/
theorem amountText_of_million :
    let x : Binary64 := .neg (.nearest 999999999 1000)
    x.isFinite = true ∧ amountText x = "-1,000,000" ∧
      restored 2 (amountText x).toList = "-1000000.00".toList := by
  intro x
  have hfinite : x.isFinite = true := by decide +kernel
  have htext : x.withPlaces 2 = "-1000000.00" := by decide +kernel
  have hshown : amountText x = "-1,000,000" := by decide +kernel
  obtain ⟨-, -, -, -, -, -, -, -, -, -, -, hrestored⟩ := amountText_keeps_number hfinite
  exact ⟨hfinite, hshown, htext ▸ hrestored⟩

end PredictionMarket
