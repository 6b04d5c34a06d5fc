import PredictionMarket.Order.Estimate
import PredictionMarket.Proofs.Number.Decimal

/-!
# Orders at a limit in billionths

Quantity and limit price of an order are typed as decimal numbers and sent in billionths. Where the
numbers as typed are whole numbers of billionths, those sent may differ by one from them.

## Main definitions

* `Draft.IsPlainLimit`: a draft in plain decimal numbers, with the billionths they write.

## Main results

* `Draft.limit_scales_iff`: what is sent for such a draft, and when that is what it says.
* `Draft.request_of_dvd`: numbers that are binary fractions too are sent as they are typed.
* `Draft.billionth_lost_of_four_and_a_tenth`: a number that is not.
-/

namespace PredictionMarket

open Binary64

/-- A plain decimal number above zero is read as the number nearest to it. -/
theorem positive?_of_writes {s : String} {n : ℕ} (h : Literal.Writes s.toList n) (hpos : 0 < n)
    (hlt : n < 2 ^ 53) : positive? s = some (.nearest n (10 ^ 9)) := by
  have htrim : Text.trim s = s := by
    refine Text.trim_of_forall_not_isBlank fun c hc => ?_
    obtain hdigit | rfl := h.isDigit_or_point c hc
    · exact Text.isBlank_of_isDigit hdigit
    · decide
  have hone : (1 : ℚ) ≤ n := by exact_mod_cast hpos
  have hhigh : (n : ℚ) < 2 ^ 53 := by exact_mod_cast hlt
  have hnear : Near 1 ((n : ℚ) / (10 ^ 9 : ℕ)) (nearest n (10 ^ 9)) := by
    refine near_nearest_of_bounds (e := 53) (by decide) (by decide) ?_ ?_
    · rw [div_le_div_iff₀ (by norm_num) (by norm_num)]
      push_cast
      linarith
    · rw [div_lt_iff₀ (by norm_num)]
      push_cast
      linarith
  have hpositive := hnear.isPositive (by positivity) (by decide)
  rw [positive?, htrim, Literal.binary64?_of_writes h hpos hlt, Option.filter_some, hnear.finite,
    hpositive]
  rfl

/-- The billionths of what is typed, counted again. -/
theorem exists_billionths_of_writes {s : String} {n : ℕ} (h : Literal.Writes s.toList n)
    (hpos : 0 < n) (hlt : n < 2 ^ 53) :
    ∃ raw, (positive? s).bind Fixed.ofBinary64? = some raw ∧
      (raw.toNat : ℤ) = n + Fixed.slip n := by
  obtain ⟨raw, hraw, hcount⟩ := Fixed.ofBinary64?_nearest hpos hlt
  exact ⟨raw, by rw [positive?_of_writes h hpos hlt, Option.bind_some, hraw], hcount⟩

namespace Draft

/-- An order at a limit in plain decimal numbers, for `n` billionths at a price of `p`. -/
structure IsPlainLimit (d : Draft) (n p : ℕ) : Prop where
  kind : d.kind = .limit
  quantity : Literal.Writes d.quantity.toList n
  limitPrice : Literal.Writes d.limitPrice.toList p
  quantity_pos : 0 < n
  quantity_lt : n < 2 ^ 53
  limitPrice_pos : 0 < p
  limitPrice_lt : p < 2 ^ 53

variable {d : Draft} {side : Side} {n p : ℕ}

/-- Both numbers are counted again. -/
theorem exists_request_of_isPlainLimit (hside : d.side = some side) (h : d.IsPlainLimit n p) :
    ∃ amount price, d.request = .ok (.limit side amount price) ∧
      (amount.toNat : ℤ) = n + Fixed.slip n ∧ (price.toNat : ℤ) = p + Fixed.slip p := by
  obtain ⟨amount, hamount, hn⟩ :=
    exists_billionths_of_writes h.quantity h.quantity_pos h.quantity_lt
  obtain ⟨price, hprice, hp⟩ :=
    exists_billionths_of_writes h.limitPrice h.limitPrice_pos h.limitPrice_lt
  refine ⟨amount, price, ?_, hn, hp⟩
  simp only [request, hside, h.kind, hamount, hprice]
  rfl

/-- The request has the numbers of the draft exactly if neither of them slips. -/
theorem request_eq_iff (hside : d.side = some side) (h : d.IsPlainLimit n p) :
    d.request = .ok (.limit side (.ofNat n) (.ofNat p)) ↔
      Fixed.slip n = 0 ∧ Fixed.slip p = 0 := by
  obtain ⟨amount, price, hrequest, hamount, hprice⟩ := exists_request_of_isPlainLimit hside h
  have hn : (UInt64.ofNat n).toNat = n :=
    UInt64.toNat_ofNat_of_lt' (h.quantity_lt.trans (by decide))
  have hp : (UInt64.ofNat p).toNat = p :=
    UInt64.toNat_ofNat_of_lt' (h.limitPrice_lt.trans (by decide))
  rw [hrequest]
  constructor
  · intro heq
    cases heq
    omega
  · rintro ⟨hslip, hslip'⟩
    have hsame : amount = .ofNat n := UInt64.toNat_inj.1 (by omega)
    have hsame' : price = .ofNat p := UInt64.toNat_inj.1 (by omega)
    rw [hsame, hsame']

/-- Numbers that are binary fractions too, as two shares at a half, are sent as they are typed. -/
theorem request_of_dvd (hside : d.side = some side) (h : d.IsPlainLimit n p)
    (hn : 10 ^ 9 ∣ n * 2 ^ 29) (hp : 10 ^ 9 ∣ p * 2 ^ 29) :
    d.request = .ok (.limit side (.ofNat n) (.ofNat p)) :=
  (request_eq_iff hside h).2 ⟨Fixed.slip_eq_zero_of_dvd hn, Fixed.slip_eq_zero_of_dvd hp⟩

/-- A draft in plain decimal numbers becomes an order whose numbers are those of the draft, or one
billionth more or less. They are the same exactly if neither of them slips. -/
theorem limit_scales_iff (hside : d.side = some side) (h : d.IsPlainLimit n p) :
    (∃ amount price, d.request = .ok (.limit side amount price) ∧
      (amount.toNat : ℤ) = n + Fixed.slip n ∧ (price.toNat : ℤ) = p + Fixed.slip p) ∧
    (d.request = .ok (.limit side (.ofNat n) (.ofNat p)) ↔
      Fixed.slip n = 0 ∧ Fixed.slip p = 0) :=
  ⟨exists_request_of_isPlainLimit hside h, request_eq_iff hside h⟩

/-- Seven hundredths at a price of fifty-seven hundredths, neither of which is a binary fraction. -/
theorem seven_hundredths_scale :
    let d : Draft := ⟨some .yes, .limit, "0.07", "0.57"⟩
    d.side = some .yes ∧ d.IsPlainLimit 70000000 570000000 ∧
      d.request = .ok (.limit .yes 70000000 570000000) := by
  intro d
  have hplain : d.IsPlainLimit 70000000 570000000 :=
    { kind := rfl
      quantity := .of_places ['0'] ['0', '7'] (by decide) (by decide) (by decide) (by decide)
        (by decide) (by decide)
      limitPrice := .of_places ['0'] ['5', '7'] (by decide) (by decide) (by decide) (by decide)
        (by decide) (by decide)
      quantity_pos := by decide
      quantity_lt := by decide
      limitPrice_pos := by decide
      limitPrice_lt := by decide }
  exact ⟨rfl, hplain, (limit_scales_iff rfl hplain).2.2 ⟨by decide, by decide⟩⟩

/-- Four shares and a tenth of one are sent as a billionth less. -/
theorem billionth_lost_of_four_and_a_tenth :
    ¬ ∀ (d : Draft) (side : Side) (n p : ℕ), d.side = some side → d.IsPlainLimit n p →
      d.request = .ok (.limit side (.ofNat n) (.ofNat p)) := by
  intro hscales
  let d : Draft := ⟨some .yes, .limit, "4.1", "0.5"⟩
  have hplain : d.IsPlainLimit 4100000000 500000000 :=
    { kind := rfl
      quantity := .of_places ['4'] ['1'] (by decide) (by decide) (by decide) (by decide)
        (by decide) (by decide)
      limitPrice := .of_places ['0'] ['5'] (by decide) (by decide) (by decide) (by decide)
        (by decide) (by decide)
      quantity_pos := by decide
      quantity_lt := by decide
      limitPrice_pos := by decide
      limitPrice_lt := by decide }
  have hsent : d.request = .ok (.limit .yes 4099999999 500000000) := by decide +kernel
  have hsame := hsent.symm.trans (hscales d .yes 4100000000 500000000 rfl hplain)
  revert hsame
  decide

end Draft

end PredictionMarket
