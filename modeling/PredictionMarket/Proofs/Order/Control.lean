import PredictionMarket.Proofs.Number.Threshold
import PredictionMarket.Proofs.Order.Estimate

/-!
# When the confirm control is offered

The control and the order are decided apart, from the same texts. The control asks for numbers above
zero, the order for numbers that a word counts in billionths.

## Main definitions

* `Draft.IsReady`: an order can be built and there is a price for it.
* `Draft.IsCountable`: what is typed for a limit order can be counted.

## Main results

* `Draft.canSubmit_agrees_iff`: the drafts for which the control tells whether an order is ready.
-/

namespace PredictionMarket

open Binary64

/-- A typed number is a word of billionths exactly if it can be counted. -/
theorem isSome_ofBinary64?_of_positive? {s : String} {x : Binary64} (h : positive? s = some x) :
    (Fixed.ofBinary64? x).isSome = true ↔ Fixed.IsCountable x := by
  obtain ⟨hfinite, -, hnonneg⟩ := finite_and_positive_of_positive? h
  exact Fixed.isSome_ofBinary64?_iff hfinite hnonneg

namespace Draft

/-- An order can be built from the draft, and its estimate has a price above zero. -/
def IsReady (d : Draft) (m : Market) : Prop :=
  (∃ request, d.request = .ok request) ∧ (d.estimateFor m).price.isPositive = true

/-- The quantity and the price of a limit order with a side can be counted in billionths, if both
are numbers above zero. -/
def IsCountable (d : Draft) : Prop :=
  d.kind = .limit → d.side ≠ none → ∀ x p, positive? d.quantity = some x →
    positive? d.limitPrice = some p → Fixed.IsCountable x ∧ Fixed.IsCountable p

variable {d : Draft}

/-- A market order can be built from a side and a quantity in whole shares. -/
theorem exists_request_iff_of_market (hkind : d.kind = .market) :
    (∃ request, d.request = .ok request) ↔
      d.side.isSome = true ∧ (wholeShares? d.quantity).isSome = true := by
  constructor
  · rintro ⟨request, h⟩
    obtain ⟨side, hside, ⟨-, quantity, hquantity, -⟩ | ⟨hlimit, -⟩⟩ := request_eq_ok h
    · rw [hside, hquantity]
      exact ⟨rfl, rfl⟩
    · cases hkind.symm.trans hlimit
  · rintro ⟨hside, hquantity⟩
    obtain ⟨side, hside⟩ := Option.isSome_iff_exists.1 hside
    obtain ⟨quantity, hquantity⟩ := Option.isSome_iff_exists.1 hquantity
    refine ⟨.market side quantity, ?_⟩
    simp only [request, hside, hkind, hquantity]
    rfl

/-- A limit order can be built from a side and two numbers that can be counted in billionths. -/
theorem exists_request_iff_of_limit (hkind : d.kind = .limit) :
    (∃ request, d.request = .ok request) ↔
      d.side.isSome = true ∧ ((positive? d.quantity).bind Fixed.ofBinary64?).isSome = true ∧
        ((positive? d.limitPrice).bind Fixed.ofBinary64?).isSome = true := by
  constructor
  · rintro ⟨request, h⟩
    obtain ⟨side, hside, ⟨hmarket, -⟩ | ⟨-, amount, price, hamount, hprice, -⟩⟩ := request_eq_ok h
    · cases hkind.symm.trans hmarket
    · rw [hside, hamount, hprice]
      exact ⟨rfl, rfl, rfl⟩
  · rintro ⟨hside, hamount, hprice⟩
    obtain ⟨side, hside⟩ := Option.isSome_iff_exists.1 hside
    obtain ⟨amount, hamount⟩ := Option.isSome_iff_exists.1 hamount
    obtain ⟨price, hprice⟩ := Option.isSome_iff_exists.1 hprice
    refine ⟨.limit side amount price, ?_⟩
    simp only [request, hside, hkind, hamount, hprice]
    rfl

variable (m : Market)

/-- Whole shares are a number above zero as well. So for shares at the current price the two agree
on the quantity. -/
theorem canSubmit_iff_of_market (hkind : d.kind = .market) :
    (d.estimateFor m).canSubmit = true ↔ d.IsReady m := by
  rw [IsReady, exists_request_iff_of_market hkind]
  simp only [Estimate.canSubmit, Estimate.isQuantityValid, estimateFor, estimate, hkind,
    Bool.and_eq_true]
  constructor
  · rintro ⟨⟨⟨hside, -⟩, hwhole⟩, hprice⟩
    exact ⟨⟨hside, hwhole⟩, hprice⟩
  · rintro ⟨⟨hside, hwhole⟩, hprice⟩
    obtain ⟨quantity, hquantity⟩ := Option.isSome_iff_exists.1 hwhole
    obtain ⟨hread, -⟩ := positive?_of_wholeShares? hquantity
    exact ⟨⟨⟨hside, by rw [hread]; rfl⟩, hwhole⟩, hprice⟩

/-- The submit control of a limit order is on for a side and two numbers above zero. -/
theorem canSubmit_iff_of_limit (hkind : d.kind = .limit) :
    (d.estimateFor m).canSubmit = true ↔
      d.side.isSome = true ∧ (∃ x, positive? d.quantity = some x) ∧
        ∃ p, positive? d.limitPrice = some p := by
  simp only [Estimate.canSubmit, Estimate.isQuantityValid, estimateFor, estimate, hkind,
    Bool.and_eq_true, Option.isSome_iff_exists]
  constructor
  · rintro ⟨⟨⟨hside, hquantity⟩, hlimitPrice⟩, -⟩
    exact ⟨hside, hquantity, hlimitPrice⟩
  · rintro ⟨hside, hquantity, p, hp⟩
    obtain ⟨-, hpositive, -⟩ := finite_and_positive_of_positive? hp
    exact ⟨⟨⟨hside, hquantity⟩, p, hp⟩, by rwa [hp]⟩

/-- A limit order is ready to be built just if both of its numbers can be counted. -/
theorem isReady_iff_of_limit (hkind : d.kind = .limit) :
    d.IsReady m ↔
      d.side.isSome = true ∧ (∃ x, positive? d.quantity = some x ∧ Fixed.IsCountable x) ∧
        ∃ p, positive? d.limitPrice = some p ∧ Fixed.IsCountable p := by
  have hcount (s : String) : ((positive? s).bind Fixed.ofBinary64?).isSome = true ↔
      ∃ x, positive? s = some x ∧ Fixed.IsCountable x := by
    cases hx : positive? s with
    | none => simp
    | some x => simp [isSome_ofBinary64?_of_positive? hx]
  rw [IsReady, exists_request_iff_of_limit hkind, hcount, hcount]
  constructor
  · rintro ⟨h, -⟩
    exact h
  · rintro ⟨hside, hquantity, p, hp, hpCount⟩
    obtain ⟨-, hpositive, -⟩ := finite_and_positive_of_positive? hp
    refine ⟨⟨hside, hquantity, p, hp, hpCount⟩, ?_⟩
    simpa only [estimateFor, estimate, hkind, hp, Option.getD_some]

/-- Whenever an order is ready the control is offered. It is offered only then exactly if the draft
is no limit order with a number that a word does not count. -/
theorem canSubmit_agrees_iff (d : Draft) (m : Market) :
    (d.IsReady m → (d.estimateFor m).canSubmit = true) ∧
      (((d.estimateFor m).canSubmit = true ↔ d.IsReady m) ↔ d.IsCountable) := by
  cases hkind : d.kind with
  | market =>
    have hagree := canSubmit_iff_of_market m hkind
    refine ⟨hagree.2, ?_⟩
    simp [hagree, IsCountable, hkind]
  | limit =>
    -- The control asks for the two numbers, the order also for both to be counted.
    rw [canSubmit_iff_of_limit m hkind, isReady_iff_of_limit m hkind]
    constructor
    · rintro ⟨hside, ⟨x, hx, -⟩, p, hp, -⟩
      exact ⟨hside, ⟨x, hx⟩, p, hp⟩
    constructor
    · intro hagree _ hside x p hx hp
      have hsome : d.side.isSome = true := Option.isSome_iff_ne_none.2 hside
      obtain ⟨-, ⟨_, hx', hxCount⟩, _, hp', hpCount⟩ := hagree.1 ⟨hsome, ⟨x, hx⟩, p, hp⟩
      cases hx.symm.trans hx'
      cases hp.symm.trans hp'
      exact ⟨hxCount, hpCount⟩
    · intro hcountable
      constructor
      · rintro ⟨hside, ⟨x, hx⟩, p, hp⟩
        obtain ⟨hxCount, hpCount⟩ :=
          hcountable hkind (Option.isSome_iff_ne_none.1 hside) x p hx hp
        exact ⟨hside, ⟨x, hx, hxCount⟩, p, hp, hpCount⟩
      · rintro ⟨hside, ⟨x, hx, -⟩, p, hp, -⟩
        exact ⟨hside, ⟨x, hx⟩, p, hp⟩

theorem canSubmit_two_at_half_price :
    let d : Draft := ⟨some .yes, .limit, "2", "0.5"⟩
    d.IsReady .sample ∧ (d.estimateFor .sample).canSubmit = true ∧ d.IsCountable := by
  intro d
  have hrequest : d.request = .ok (.limit .yes 2000000000 500000000) := by decide +kernel
  have hprice : (d.estimateFor .sample).price.isPositive = true := by decide +kernel
  have hready : d.IsReady .sample := ⟨⟨_, hrequest⟩, hprice⟩
  obtain ⟨hoffered, hagree⟩ := canSubmit_agrees_iff d .sample
  exact ⟨hready, hoffered hready, hagree.1 ⟨fun _ => hready, hoffered⟩⟩

/-- A tenth of a billionth is a number above zero. The control is offered for it, and no order can
be built. -/
theorem canSubmit_below_a_billionth :
    ¬ ∀ (d : Draft) (m : Market), (d.estimateFor m).canSubmit = true ↔ d.IsReady m := by
  intro hagree
  let d : Draft := ⟨some .yes, .limit, "0.0000000001", "0.5"⟩
  have hoffered : (d.estimateFor .sample).canSubmit = true := by decide +kernel
  have hrefused : d.request = .error (.invalidQuantity "0.0000000001") := by decide +kernel
  obtain ⟨⟨request, hbuilt⟩, -⟩ := (hagree d .sample).1 hoffered
  rw [hrefused] at hbuilt
  cases hbuilt

end Draft

end PredictionMarket
