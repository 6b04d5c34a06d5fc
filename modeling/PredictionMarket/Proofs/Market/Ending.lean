import PredictionMarket.Flow
import PredictionMarket.Proofs.Number.Digits
import PredictionMarket.Proofs.Trade.Session

/-!
# The end of a market

Whether a market has ended is asked in four places: of the market itself, where its actions are
offered, where order entry starts, and where the time left is shown. Each compares two times on its
own, one a word and the other a whole number that may be below zero.

## Main definitions

* `IsSpan`: the text of a time span in the two coarsest units that it fills.

## Main results

* `Market.views_of_end_agree`: the four agree at all times, and the time left is exact.
-/

namespace PredictionMarket

/-- A text that gives a time span of some milliseconds in days and hours, in hours and minutes if
it is less than a day, or in minutes if it is less than an hour. What is left of the smaller unit is
cut off. -/
inductive IsSpan (left : Nat) : String → Prop where
  | days {d h : Nat} (hd : 1 ≤ d) (hh : h < 24) (hleft : 24 * d + h = left / 3600000) :
    IsSpan left (toString d ++ "d " ++ toString h ++ "h")
  | hours {h m : Nat} (hh : 1 ≤ h) (hday : h < 24) (hm : m < 60)
    (hleft : 60 * h + m = left / 60000) : IsSpan left (toString h ++ "h " ++ toString m ++ "m")
  | minutes {m : Nat} (hm : m < 60) (hleft : m = left / 60000) : IsSpan left (toString m ++ "m")

/-- The text of a time span gives this span. -/
theorem isSpan_spanText (left : Nat) : IsSpan left (spanText left) := by
  have hday : dayMillis = 86400000 := by decide
  have hhour : hourMillis = 3600000 := by decide
  have hminute : minuteMillis = 60000 := by decide
  unfold spanText
  rw [hday, hhour, hminute]
  dsimp only
  split
  · exact .days (by omega) (by omega) (by omega)
  · split
    · exact .hours (by omega) (by omega) (by omega) (by omega)
    · -- Less than an hour is left, so the minutes past it are all there are.
      exact .minutes (by omega) (by omega)

/-- A time span starts with a digit. -/
theorem IsSpan.exists_digit {left : Nat} {s : String} (h : IsSpan left s) :
    ∃ c cs, s.toList = c :: cs ∧ c.isDigit = true := by
  have hnumber (n : Nat) (unit : String) :
      ∃ c cs, (toString n ++ unit).toList = c :: cs ∧ c.isDigit = true := by
    obtain ⟨c, cs, hdigits, hc⟩ := Literal.toDigits_eq_cons n
    refine ⟨c, cs ++ unit.toList, ?_, hc⟩
    rw [String.toList_append, Nat.toString_eq_ofList_toDigits, String.toList_ofList, hdigits,
      List.cons_append]
  cases h with
  | days | hours =>
    rw [String.append_assoc, String.append_assoc]
    exact hnumber _ _
  | minutes => exact hnumber _ _

/-- No time span reads as an ended market does. -/
theorem IsSpan.ne_ended {left : Nat} {s : String} (h : IsSpan left s) : s ≠ "Ended" := by
  rintro rfl
  obtain ⟨c, cs, hcs, hc⟩ := h.exists_digit
  obtain ⟨rfl, -⟩ := List.cons.inj (hcs : 'E' :: _ = c :: cs)
  revert hc
  decide

namespace Market

variable (m : Market)

/-- A market has ended once the time, or 1970 if that is later, has reached its end. -/
theorem isEndedAt_iff (now : Int) :
    m.isEndedAt now = true ↔ (m.endTime.toNat : Int) ≤ max now 0 := by
  unfold isEndedAt
  rw [decide_eq_true_eq]
  omega

/-- A market that has ended stays so. -/
theorem isEndedAt_mono {now later : Int} (h : m.isEndedAt now = true) (hle : now ≤ later) :
    m.isEndedAt later = true := by
  rw [isEndedAt_iff] at h ⊢
  omega

/-- The order controls are on as long as the market has not ended. -/
theorem trading_controls (now : Int) : (m.controls now).trading = !m.isEndedAt now :=
  rfl

/-- A flow that is started after the end is closed. -/
theorem phase_start_eq_closed_iff (now : Int) :
    (Flow.start m now).phase = .closed ↔ m.isEndedAt now = true := by
  unfold Flow.start
  split
  · next h => exact iff_of_true rfl h
  · next h => exact iff_of_false nofun h

/-- What is shown of the time left: that there is none, or the span from now to the end. -/
theorem countdown_cases (now : Int) :
    (m.isEndedAt now = true ∧ countdown m.endTime now = "Ended") ∨
      ∃ left : Nat, m.isEndedAt now = false ∧ 0 < left ∧
        (left : Int) = m.endTime.toNat - max now 0 ∧ IsSpan left (countdown m.endTime now) := by
  unfold countdown
  by_cases hended : m.endTime.toNat ≤ now.toNat
  · exact .inl ⟨decide_eq_true hended, if_pos hended⟩
  · refine .inr ⟨m.endTime.toNat - now.toNat, decide_eq_false hended, by omega, by omega, ?_⟩
    rw [if_neg hended]
    exact isSpan_spanText _

/-- At every time the countdown has run out, trading is not offered and new order entry is closed
exactly if the market has ended, and a market that has ended stays so. As long as it has not, the
countdown shows the milliseconds from now, or from 1970 if that is later, to the end. -/
theorem views_of_end_agree (now : Int) :
    (countdown m.endTime now = "Ended" ↔ m.isEndedAt now = true) ∧
    ((m.controls now).trading = false ↔ m.isEndedAt now = true) ∧
    ((Flow.start m now).phase = .closed ↔ m.isEndedAt now = true) ∧
    (m.isEndedAt now = true → ∀ later, now ≤ later → m.isEndedAt later = true) ∧
    (m.isEndedAt now = false → ∃ left : Nat, 0 < left ∧
      (left : Int) = m.endTime.toNat - max now 0 ∧ IsSpan left (countdown m.endTime now)) := by
  refine ⟨?_, ?_, m.phase_start_eq_closed_iff now, fun h later => m.isEndedAt_mono h, ?_⟩
  · obtain ⟨hended, htext⟩ | ⟨left, hopen, -, -, hspan⟩ := m.countdown_cases now
    · exact iff_of_true htext hended
    · exact iff_of_false hspan.ne_ended (Bool.eq_false_iff.1 hopen)
  · rw [trading_controls, Bool.not_eq_false']
  · intro hopen
    obtain ⟨hended, -⟩ | ⟨left, -, hleft⟩ := m.countdown_cases now
    · exact absurd hended (Bool.eq_false_iff.1 hopen)
    · exact ⟨left, hleft⟩

/-- A day and an hour before the end of the sample market, less a millisecond. -/
theorem day_left_of_sample :
    sample.isEndedAt 3999910000001 = false ∧
      IsSpan 89999999 (countdown sample.endTime 3999910000001) ∧
      countdown sample.endTime 3999910000001 = "1d 0h" := by
  have hopen : sample.isEndedAt 3999910000001 = false := by decide
  obtain ⟨-, -, -, -, hspan⟩ := sample.views_of_end_agree 3999910000001
  obtain ⟨left, -, hleft, htext⟩ := hspan hopen
  obtain rfl : left = 89999999 := by
    have hend : sample.endTime.toNat = 4000000000000 := by decide
    omega
  exact ⟨hopen, htext, by decide +kernel⟩

end Market

end PredictionMarket
