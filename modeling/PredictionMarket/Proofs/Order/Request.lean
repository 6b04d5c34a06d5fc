import PredictionMarket.Order.Estimate

/-!
# The order of a draft

What a draft says of the order that is built from it.
-/

namespace PredictionMarket

namespace Draft

variable {d : Draft}

/-- What a draft with a side comes to: an order for whole shares, an order at a limit price, or a
refusal for one of the two texts. -/
theorem request_of_side {side : Side} (hside : d.side = some side) :
    (∃ quantity, d.kind = .market ∧ wholeShares? d.quantity = some quantity ∧
        d.request = .ok (.market side quantity)) ∨
      (∃ amount price, d.kind = .limit ∧
        (positive? d.quantity).bind Fixed.ofBinary64? = some amount ∧
        (positive? d.limitPrice).bind Fixed.ofBinary64? = some price ∧
        d.request = .ok (.limit side amount price)) ∨
      d.request = .error (.invalidQuantity d.quantity) ∨
      d.request = .error (.invalidLimitPrice d.limitPrice) := by
  cases hkind : d.kind with
  | market =>
    cases hquantity : wholeShares? d.quantity with
    | none =>
      refine .inr (.inr (.inl ?_))
      simp only [Draft.request, hside, hkind, hquantity]
      rfl
    | some quantity =>
      refine .inl ⟨quantity, rfl, rfl, ?_⟩
      simp only [Draft.request, hside, hkind, hquantity]
      rfl
  | limit =>
    cases hamount : (positive? d.quantity).bind Fixed.ofBinary64? with
    | none =>
      refine .inr (.inr (.inl ?_))
      simp only [Draft.request, hside, hkind, hamount]
      rfl
    | some amount =>
    cases hprice : (positive? d.limitPrice).bind Fixed.ofBinary64? with
    | none =>
      refine .inr (.inr (.inr ?_))
      simp only [Draft.request, hside, hkind, hamount, hprice]
      rfl
    | some price =>
      refine .inr (.inl ⟨amount, price, rfl, rfl, rfl, ?_⟩)
      simp only [Draft.request, hside, hkind, hamount, hprice]
      rfl

/-- Without a side there is no request, and this is the first thing that is said. -/
theorem request_of_no_side (hside : d.side = none) : d.request = .error .noSideSelected := by
  simp only [Draft.request, hside]
  rfl

/-- A draft with a side is not refused for want of one. -/
theorem request_ne_noSideSelected {side : Side} (hside : d.side = some side) :
    d.request ≠ .error .noSideSelected := by
  obtain ⟨_, -, -, h⟩ | ⟨_, _, -, -, -, h⟩ | h | h := request_of_side hside <;>
    rw [h] <;> exact nofun

/-- A request has the side of the draft and the numbers that were typed, by its kind. -/
theorem request_eq_ok {request : OrderRequest} (h : d.request = .ok request) :
    ∃ side, d.side = some side ∧
      ((d.kind = .market ∧ ∃ quantity, wholeShares? d.quantity = some quantity ∧
          request = .market side quantity) ∨
        (d.kind = .limit ∧ ∃ amount price,
          (positive? d.quantity).bind Fixed.ofBinary64? = some amount ∧
          (positive? d.limitPrice).bind Fixed.ofBinary64? = some price ∧
          request = .limit side amount price)) := by
  cases hside : d.side with
  | none =>
    rw [request_of_no_side hside] at h
    cases h
  | some side =>
    refine ⟨side, rfl, ?_⟩
    obtain ⟨quantity, hkind, hquantity, hok⟩ | ⟨amount, price, hkind, hamount, hprice, hok⟩ |
      herror | herror := request_of_side hside
    · cases hok.symm.trans h
      exact .inl ⟨hkind, quantity, hquantity, rfl⟩
    · cases hok.symm.trans h
      exact .inr ⟨hkind, amount, price, hamount, hprice, rfl⟩
    · cases herror.symm.trans h
    · cases herror.symm.trans h

/-- An order has the side and the kind of its draft. -/
theorem side_and_kind_of_request_eq_ok {request : OrderRequest} (h : d.request = .ok request) :
    d.side = some request.side ∧ request.kind = d.kind := by
  obtain ⟨side, hside, ⟨hkind, quantity, -, rfl⟩ | ⟨hkind, amount, price, -, -, rfl⟩⟩ :=
    request_eq_ok h
  · exact ⟨hside, hkind.symm⟩
  · exact ⟨hside, hkind.symm⟩

end Draft

end PredictionMarket
