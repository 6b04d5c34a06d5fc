import Mathlib.Algebra.Group.Nat.Defs
import Mathlib.Data.List.TakeWhile
import PredictionMarket.Proofs.Number.Digits
import PredictionMarket.Time.Reader

/-!
# The written form of instants

An instant in its written form is read back as it was, so two instants with the same form are the
same. The form has digits in it and few other characters.

## Main results

* `Instant.ofText?_text`: what is written is read back.
* `Instant.text_injective`: different instants are written differently.
* `Instant.isTextChar_of_mem_text`: the characters of the written form.
-/

namespace PredictionMarket

namespace Instant

open Text (dropBlank)

/-- The text does not go on with a digit. -/
def EndsDigits (rest : List Char) : Prop :=
  rest.takeWhile Char.isDigit = []

/-- In front of any other character the digits end. -/
theorem endsDigits_cons {c : Char} (h : c.isDigit = false) (rest : List Char) :
    EndsDigits (c :: rest) := by
  simp [EndsDigits, h]

/-- Where no digit follows, none follows in a shorter rest. -/
theorem EndsDigits.take {rest : List Char} (h : EndsDigits rest) (n : Nat) :
    EndsDigits (rest.take n) := by
  cases rest with
  | nil => rwa [List.take_nil]
  | cons c rest =>
    have hc : c.isDigit = false := by simpa [EndsDigits] using h
    cases n with
    | zero => rfl
    | succ n => exact endsDigits_cons hc _

/-- Where no digit follows, dropping digits drops nothing. -/
theorem EndsDigits.dropWhile {rest : List Char} (h : EndsDigits rest) :
    rest.dropWhile Char.isDigit = rest := by
  have happend := List.takeWhile_append_dropWhile (p := Char.isDigit) (l := rest)
  rwa [h, List.nil_append] at happend

section Reading

variable {ds rest : List Char}

/-- Digits are taken up to the end of them. -/
theorem takeWhile_digits (hds : ∀ c ∈ ds, c.isDigit = true) (hrest : EndsDigits rest) :
    (ds ++ rest).takeWhile Char.isDigit = ds := by
  rw [List.takeWhile_append_of_pos hds, hrest, List.append_nil]

/-- So many digits are taken as there are, if a limit leaves room for them. -/
theorem takeWhile_take_digits {n : Nat} (hds : ∀ c ∈ ds, c.isDigit = true) (hle : ds.length ≤ n)
    (hrest : EndsDigits rest) : ((ds ++ rest).take n).takeWhile Char.isDigit = ds := by
  rw [List.take_append, List.take_of_length_le hle, takeWhile_digits hds (hrest.take _)]

/-- Digits within the limit are read as their number. -/
theorem number?_digits {n : Nat} (hds : ∀ c ∈ ds, c.isDigit = true) (hne : ds ≠ [])
    (hle : ds.length ≤ n) (hrest : EndsDigits rest) :
    number? n (ds ++ rest) = some (Literal.value ds, rest) := by
  unfold number?
  rw [takeWhile_take_digits hds hle hrest]
  simp [hne]

/-- Digits without a limit are read as their number. -/
theorem longNumber?_digits (hds : ∀ c ∈ ds, c.isDigit = true) (hne : ds ≠ [])
    (hrest : EndsDigits rest) : longNumber? (ds ++ rest) = some (Literal.value ds, rest) := by
  unfold longNumber? Literal.digits
  rw [takeWhile_digits hds hrest, List.dropWhile_append_of_pos hds, hrest.dropWhile]
  simp [hne]

/-- In front of any other character there is no blank to drop. -/
theorem dropBlank_cons {c : Char} (h : Text.isBlank c = false) (rest : List Char) :
    dropBlank (c :: rest) = c :: rest := by
  simp [dropBlank, h]

/-- In front of digits there is no blank to drop. -/
theorem dropBlank_digits (hds : ∀ c ∈ ds, c.isDigit = true) (hne : ds ≠ []) (rest : List Char) :
    dropBlank (ds ++ rest) = ds ++ rest := by
  obtain ⟨d, ds, rfl⟩ := List.exists_cons_of_ne_nil hne
  exact dropBlank_cons (Text.isBlank_of_isDigit (hds d List.mem_cons_self)) _

/-- Two digits are read as their number. -/
theorem pair?_zeroPadded {n : Nat} (h : n < 100) (hrest : EndsDigits rest) :
    pair? (zeroPadded 2 n ++ rest) = some (n, rest) := by
  have hds : ∀ c ∈ zeroPadded 2 n, c.isDigit = true := fun _ => isDigit_of_mem_zeroPadded
  have hne := zeroPadded_ne_nil 2 n
  unfold pair?
  rw [dropBlank_digits hds hne, number?_digits hds hne (length_zeroPadded (by decide) h).le hrest,
    value_zeroPadded]

/-- A mark that stands there is read. -/
theorem mark?_cons {c : Char} (h : Text.isBlank c = false) (rest : List Char) :
    mark? c (c :: rest) = some rest := by
  unfold mark?
  rw [dropBlank_cons h]
  simp

/-- The year is read from what it was written as, with a sign where it has one. -/
theorem year?_yearText (year : Int) (hrest : EndsDigits rest) :
    year? (yearText year ++ rest) = some (year, rest) := by
  have hds : ∀ c ∈ zeroPadded 4 year.natAbs, c.isDigit = true := fun _ =>
    isDigit_of_mem_zeroPadded
  have hne := zeroPadded_ne_nil 4 year.natAbs
  have hlong := longNumber?_digits hds hne hrest
  rw [value_zeroPadded] at hlong
  unfold yearText year?
  by_cases hshort : 0 ≤ year ∧ year ≤ 9999
  · -- Four digits, the first of which is not taken for a sign.
    rw [if_pos (by simpa using hshort), dropBlank_digits hds hne]
    have hlength : (zeroPadded 4 year.natAbs).length = 4 :=
      length_zeroPadded (by decide) (by omega)
    have hnumber := number?_digits hds hne hlength.le hrest
    rw [value_zeroPadded] at hnumber
    split
    · next cs heq =>
      obtain ⟨d, ds, hcons⟩ := List.exists_cons_of_ne_nil hne
      rw [hcons] at heq hds
      obtain ⟨rfl, -⟩ := List.cons.inj heq
      exact absurd (hds '-' List.mem_cons_self) (by decide)
    · next cs heq =>
      obtain ⟨d, ds, hcons⟩ := List.exists_cons_of_ne_nil hne
      rw [hcons] at heq hds
      obtain ⟨rfl, -⟩ := List.cons.inj heq
      exact absurd (hds '+' List.mem_cons_self) (by decide)
    · simp only [hnumber, Option.map_some, Int.natAbs_of_nonneg hshort.1]
  · rw [if_neg (by simpa using hshort)]
    by_cases hneg : year < 0
    · rw [if_pos hneg, List.cons_append, dropBlank_cons (by decide)]
      simp only [hlong, Option.map_some, Option.some.injEq, Prod.mk.injEq, and_true]
      omega
    · rw [if_neg hneg, List.cons_append, dropBlank_cons (by decide)]
      simp only [hlong, Option.map_some, Option.some.injEq, Prod.mk.injEq, and_true]
      omega

/-- Up to nine digits behind a point are read as nanoseconds, filled up with zeros. -/
theorem nanos?_point (hds : ∀ c ∈ ds, c.isDigit = true) (hne : ds ≠ []) (hle : ds.length ≤ 9)
    (hrest : EndsDigits rest) :
    nanos? ('.' :: ds ++ rest) = some (Literal.value ds * Nat.pow 10 (9 - ds.length), rest) := by
  rw [List.cons_append, nanos?, takeWhile_take_digits hds hle hrest,
    List.dropWhile_append_of_pos hds, hrest.dropWhile]
  simp [hne]

/-- A fraction of some width is read as so many nanoseconds. -/
theorem nanos?_fraction {width n : Nat} (hpos : 0 < width) (hle : width ≤ 9)
    (hlt : n < 10 ^ width) (hrest : EndsDigits rest) :
    nanos? ('.' :: zeroPadded width n ++ rest) = some (n * 10 ^ (9 - width), rest) := by
  have hlength := length_zeroPadded hpos hlt
  rw [nanos?_point (fun _ => isDigit_of_mem_zeroPadded) (zeroPadded_ne_nil width n)
    (hlength.trans_le hle) hrest, hlength, value_zeroPadded]
  rfl

/-- The fraction of a second is read from what it was written as, in whichever width. -/
theorem nanos?_fractionText {n : Nat} (h : n < nanosInSecond) (hrest : EndsDigits rest)
    (hpoint : rest.head? ≠ some '.') : nanos? (fractionText n ++ rest) = some (n, rest) := by
  unfold nanosInSecond at h
  unfold fractionText
  simp only [beq_iff_eq]
  split_ifs with hzero hmilli hmicro
  · subst hzero
    cases rest with
    | nil => rfl
    | cons c rest =>
      have hc : c ≠ '.' := by simpa using hpoint
      rw [List.nil_append, nanos?]
      simpa using hc
  · rw [nanos?_fraction (by decide) (by decide) (by omega) hrest]
    congr 2
    omega
  · rw [nanos?_fraction (by decide) (by decide) (by omega) hrest]
    congr 2
    omega
  · rw [nanos?_fraction (by decide) (by decide) (by omega) hrest]
    simp

/-- The fraction, or what comes after it, ends the digits in front of it. -/
theorem endsDigits_fractionText (hrest : EndsDigits rest) (nanos : Nat) :
    EndsDigits (fractionText nanos ++ rest) := by
  unfold fractionText
  split_ifs
  · exact hrest
  all_goals exact endsDigits_cons (by decide) _

/-- The date is read from what it was written as. -/
theorem date?_text (d : Date) (hrest : EndsDigits rest) :
    date? (yearText d.year ++
        '-' :: (zeroPadded 2 d.month ++ '-' :: (zeroPadded 2 d.day ++ rest))) =
      some (d, rest) := by
  have hdate := d.isDate
  simp only [isDate, Bool.and_eq_true, decide_eq_true_eq] at hdate
  have hdays : daysInMonth d.year d.month ≤ 31 := by
    unfold daysInMonth
    split_ifs <;> decide
  have hdash (rest : List Char) : EndsDigits ('-' :: rest) := endsDigits_cons (by decide) rest
  simp only [date?, year?_yearText d.year (hdash _), Option.bind_eq_bind, Option.bind_some,
    mark?_cons (show Text.isBlank '-' = false by decide),
    pair?_zeroPadded (show d.month < 100 by omega) (hdash _),
    pair?_zeroPadded (show d.day < 100 by omega) hrest]
  rw [show Date.of? d.year d.month d.day = some d from dif_pos d.isDate]
  rfl

/-- The time of day is read from what it was written as. -/
theorem time?_text (t : Instant) (hrest : EndsDigits rest) (hpoint : rest.head? ≠ some '.') :
    time? t.date (zeroPadded 2 t.hour ++ ':' :: (zeroPadded 2 t.minute ++
      ':' :: (secondText t.second t.nanos ++ rest))) = some (t, rest) := by
  have htime := t.isTimeOfDay
  simp only [PredictionMarket.isTimeOfDay, Bool.and_eq_true, Bool.or_eq_true, beq_iff_eq,
    decide_eq_true_eq] at htime
  obtain ⟨⟨⟨hhour, hminute⟩, hsecond⟩, hnanos⟩ := htime
  have hcolon (rest : List Char) : EndsDigits (':' :: rest) := endsDigits_cons (by decide) rest
  have hmod : t.nanos % nanosInSecond < nanosInSecond := Nat.mod_lt _ (by decide)
  have hof : of? t.date t.hour t.minute t.second t.nanos = some t := dif_pos t.isTimeOfDay
  have hsecond' : t.second + t.nanos / nanosInSecond < 100 := by
    unfold nanosInSecond at *
    omega
  simp only [time?, secondText, List.append_assoc, Option.bind_eq_bind, Option.bind_some,
    mark?_cons (show Text.isBlank ':' = false by decide),
    pair?_zeroPadded (show t.hour < 100 by omega) (hcolon _),
    pair?_zeroPadded (show t.minute < 100 by omega) (hcolon _),
    pair?_zeroPadded hsecond' (endsDigits_fractionText hrest _),
    nanos?_fractionText hmod hrest hpoint]
  -- A leap second is read as such, and no other second is.
  by_cases hleap : t.nanos < nanosInSecond
  · rw [Nat.div_eq_of_lt hleap, Nat.mod_eq_of_lt hleap, Nat.add_zero, if_neg (by omega)]
    simp only [hof]
    rfl
  · obtain ⟨hlast, hlt⟩ := hnanos.resolve_left hleap
    have hdiv : t.nanos / nanosInSecond = 1 := by unfold nanosInSecond at *; omega
    have hsum : nanosInSecond + t.nanos % nanosInSecond = t.nanos := by
      unfold nanosInSecond at *
      omega
    rw [hdiv, hlast, if_pos rfl, hsum]
    simp only [← hlast, hof]
    rfl

end Reading

theorem minutesEarlier?_zero (t : Instant) : t.minutesEarlier? 0 = some t := by
  have htime := t.isTimeOfDay
  simp only [PredictionMarket.isTimeOfDay, Bool.and_eq_true, decide_eq_true_eq] at htime
  obtain ⟨⟨⟨hhour, hminute⟩, -⟩, -⟩ := htime
  have hof : of? t.date t.hour t.minute t.second t.nanos = some t := dif_pos t.isTimeOfDay
  unfold minutesEarlier? minutesInDay
  rw [if_neg (by omega), if_neg (by omega)]
  have hminutes : (((t.hour * 60 + t.minute - 0 : Int) % (24 * 60)).toNat) =
      t.hour * 60 + t.minute := by omega
  have hhour' : (t.hour * 60 + t.minute) / 60 = t.hour := by omega
  have hminute' : (t.hour * 60 + t.minute) % 60 = t.minute := by omega
  simp only [Option.bind_eq_bind, Option.bind_some, hminutes, hhour', hminute', hof]

/-- An instant is read back from its written form, under either name of the time zone. -/
theorem ofText?_text (t : Instant) {zone : String} (hzone : zone = "+00:00" ∨ zone = "Z") :
    ofText? (t.text zone) = some t := by
  have hsign : EndsDigits zone.toList ∧ zone.toList.head? ≠ some '.' ∧
      offset? (dropBlank zone.toList) = some (0, []) := by
    obtain rfl | rfl := hzone <;> exact ⟨by unfold EndsDigits; decide, by decide, by decide⟩
  obtain ⟨hends, hpoint, hoffset⟩ := hsign
  have hmark (rest : List Char) : EndsDigits ('T' :: rest) := endsDigits_cons (by decide) rest
  unfold ofText? text
  simp only [String.toList_ofList, List.append_assoc, List.cons_append,
    date?_text t.date (hmark _), Option.bind_eq_bind, Option.bind_some, separator?]
  simp only [beq_self_eq_true, Bool.true_or, if_true, Option.bind_some,
    time?_text t hends hpoint, hoffset, List.all_nil, minutesEarlier?_zero]

/-- Two times have different texts. -/
theorem text_injective : Function.Injective (text "+00:00") := by
  intro a b h
  have hread := ofText?_text a (.inl rfl)
  rw [h, ofText?_text b (.inl rfl)] at hread
  exact (Option.some.inj hread).symm

/-- A digit, a sign, a colon, a point or the letter before the time of day. -/
def IsTextChar (c : Char) : Prop :=
  c.isDigit = true ∨ c ∈ ['+', '-', ':', '.', 'T']

instance (c : Char) : Decidable (IsTextChar c) :=
  inferInstanceAs (Decidable (_ ∨ _))

theorem isTextChar_zeroPadded (width n : Nat) : ∀ c ∈ zeroPadded width n, IsTextChar c :=
  fun _ hc => .inl (isDigit_of_mem_zeroPadded hc)

theorem isTextChar_yearText (year : Int) : ∀ c ∈ yearText year, IsTextChar c := by
  unfold yearText
  split_ifs
  · exact isTextChar_zeroPadded 4 _
  · exact List.forall_mem_cons.2 ⟨by decide, isTextChar_zeroPadded 4 _⟩
  · exact List.forall_mem_cons.2 ⟨by decide, isTextChar_zeroPadded 4 _⟩

theorem isTextChar_fractionText (nanos : Nat) : ∀ c ∈ fractionText nanos, IsTextChar c := by
  unfold fractionText
  split_ifs
  · exact List.forall_mem_nil _
  all_goals exact List.forall_mem_cons.2 ⟨by decide, isTextChar_zeroPadded _ _⟩

/-- The text of a time has digits, signs, marks and the letter between date and time. -/
theorem isTextChar_of_mem_text {t : Instant} {c : Char} (h : c ∈ (t.text "+00:00").toList) :
    IsTextChar c := by
  suffices hall : ∀ c ∈ (t.text "+00:00").toList, IsTextChar c from hall c h
  have hpair := isTextChar_zeroPadded 2
  have hzone : ∀ c ∈ "+00:00".toList, IsTextChar c := by
    simp only [String.reduceToList, List.forall_mem_cons]
    exact ⟨by decide, by decide, by decide, by decide, by decide, by decide, List.forall_mem_nil _⟩
  simp only [text, secondText, String.toList_ofList, List.forall_mem_append, List.forall_mem_cons]
  refine ⟨⟨⟨⟨⟨⟨isTextChar_yearText _, ?_, hpair _⟩, ?_, hpair _⟩, ?_, hpair _⟩, ?_, hpair _⟩, ?_,
    hpair _, isTextChar_fractionText _⟩, hzone⟩
  all_goals decide

end Instant

end PredictionMarket
