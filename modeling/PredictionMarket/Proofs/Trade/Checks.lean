import PredictionMarket.Proofs.Trade.Funding
import PredictionMarket.Proofs.Trade.Paths

/-!
# The checks of an order

An order is checked before the index is asked and again by what the index lists. The checks are
lists, and the first one that fails decides about the error. Costs are products of naturals here.

## Main definitions

* `OrderRequest.worth`: what an order takes, over unbounded numbers.
* `firstFailure`: the error of the first check that fails.
* `Trader.ownChecks`, `Trade.fundChecks`: the checks before the index is asked, and those after.
-/

namespace PredictionMarket

/-- The price of a share of one side, zero for none. -/
def Market.quote (m : Market) (side : Side) : Nat :=
  match side with
  | .yes => (m.yesPrice.getD 0).toNat
  | .no => (m.noPrice.getD 0).toNat

/-- What an order takes, over unbounded numbers. -/
def OrderRequest.worth (m : Market) : OrderRequest → Nat
  | .market side quantity => quantity.toNat * m.quote side
  | .limit _ amount _ => amount.toNat

/-- A check, with the error that it stands for. -/
structure Check where
  isFailed : Bool
  error : TradeError

/-- The error of the first check that fails. -/
def firstFailure (checks : List Check) : Option TradeError :=
  (checks.find? (·.isFailed)).map (·.error)

@[simp]
theorem firstFailure_nil : firstFailure [] = none := rfl

/-- The first of several checks decides if it fails; if not, the others do. -/
@[simp]
theorem firstFailure_cons (c : Check) (checks : List Check) :
    firstFailure (c :: checks) = if c.isFailed then some c.error else firstFailure checks := by
  unfold firstFailure
  rw [List.find?_cons]
  cases c.isFailed <;> rfl

/-- The failure is the one of some check that fails. -/
theorem exists_of_firstFailure_eq_some {checks : List Check} {e : TradeError}
    (h : firstFailure checks = some e) : ∃ c ∈ checks, c.isFailed = true ∧ c.error = e := by
  obtain ⟨c, hfind, rfl⟩ := Option.map_eq_some_iff.1 h
  exact ⟨c, List.mem_of_find?_eq_some hfind, List.find?_some hfind, rfl⟩

/-- The checks that only an order for shares at the current price has to pass. -/
def OrderRequest.costChecks (m : Market) : OrderRequest → List Check
  | .market side quantity =>
    [⟨m.quote side = 0, .noMarketPrice m.address side⟩,
      ⟨2 ^ 64 ≤ quantity.toNat * m.quote side,
        .input (.invalidQuantity (toString quantity.toNat))⟩]
  | .limit .. => []

/-- The checks before the index is asked. -/
def Trader.ownChecks (t : Trader) (m : Market) (request : OrderRequest) (now : Instant) :
    List Check :=
  [⟨m.endTime.toNat ≤ now.toMillis.toNat, .marketEnded m.address⟩,
    ⟨t.account.getD "" = "", .noWallet⟩] ++ request.costChecks m

/-- The checks of what the index replies, for a need over unbounded numbers. -/
def Trade.fundChecks (owner : String) (need : Nat) : Except String Holdings → List Check
  | .error cause => [⟨true, .remote cause⟩]
  | .ok h =>
    [⟨h.coins = [], .noFundingCoin owner⟩,
      ⟨Holdings.sum h.coins < need,
        .insufficientFunds (.ofNat need) (.ofNat (min (Holdings.sum h.coins) (2 ^ 64 - 1)))⟩,
      ⟨¬IsHexAddress owner, .remote ("Invalid sender address: " ++ owner)⟩]

/-- The error of an outcome, if it is one. -/
def refusal? {α : Type} : Except TradeError α → Option TradeError
  | .error e => some e
  | .ok _ => none

/-- A side has a price if its quote is not zero. -/
theorem Market.price?_eq (m : Market) (side : Side) :
    m.price? side =
      if m.quote side = 0 then none else some (UInt64.ofNat (m.quote side)) := by
  have hfilter : ∀ price? : Option UInt64, price?.filter (0 < ·) =
      if (price?.getD 0).toNat = 0 then none else some (.ofNat (price?.getD 0).toNat) := by
    intro price?
    cases price? with
    | none => rfl
    | some price =>
      rw [Option.filter_some, Option.getD_some, UInt64.ofNat_toNat]
      by_cases hzero : price.toNat = 0
      · simp [UInt64.lt_iff_toNat_lt, hzero]
      · simp [UInt64.lt_iff_toNat_lt, hzero, Nat.pos_of_ne_zero hzero]
  -- Both sides are the same look-up in another field.
  cases side <;> exact hfilter _

/-- A quote fits a word. -/
theorem Market.quote_lt (m : Market) (side : Side) : m.quote side < UInt64.size := by
  cases side <;> exact UInt64.toNat_lt_size _

namespace OrderRequest

variable (m : Market)

/-- The cost of an order for shares is the product, if there is a price and a word holds it. -/
theorem cost_market (side : Side) (quantity : UInt64) :
    (market side quantity).cost m =
      if m.quote side = 0 then .error (.noMarketPrice m.address side)
      else if quantity.toNat * m.quote side < UInt64.size then
        .ok (.ofNat (quantity.toNat * m.quote side))
      else .error (.input (.invalidQuantity (toString quantity.toNat))) := by
  rw [cost, m.price?_eq]
  by_cases hquote : m.quote side = 0
  · rw [if_pos hquote, if_pos hquote]
  · rw [if_neg hquote, if_neg hquote]
    dsimp only
    rw [UInt64.toNat_ofNat_of_lt' (m.quote_lt side)]

/-- The cost is refused as the checks of it say. -/
theorem firstFailure_costChecks (request : OrderRequest) :
    firstFailure (request.costChecks m) = refusal? (request.cost m) := by
  cases request with
  | limit side amount price => rfl
  | market side quantity =>
    have hsize : UInt64.size = 2 ^ 64 := rfl
    simp only [costChecks, cost_market, firstFailure_cons, firstFailure_nil, decide_eq_true_eq]
    by_cases hquote : m.quote side = 0
    · rw [if_pos hquote, if_pos hquote]
      rfl
    rw [if_neg hquote, if_neg hquote]
    by_cases hcost : quantity.toNat * m.quote side < UInt64.size
    · rw [if_pos hcost, if_neg (by omega)]
      rfl
    · rw [if_neg hcost, if_pos (by omega)]
      rfl

/-- A cost is not wrapped around. -/
theorem toNat_of_cost_eq_ok {request : OrderRequest} {c : UInt64} (h : request.cost m = .ok c) :
    c.toNat = request.worth m := by
  cases request with
  | limit side amount price =>
    cases h
    rfl
  | market side quantity =>
    rw [cost_market] at h
    by_cases hquote : m.quote side = 0
    · rw [if_pos hquote] at h
      cases h
    rw [if_neg hquote] at h
    by_cases hcost : quantity.toNat * m.quote side < UInt64.size
    · rw [if_pos hcost] at h
      cases h
      exact UInt64.toNat_ofNat_of_lt' hcost
    · rw [if_neg hcost] at h
      cases h

/-- A cost with the worth of the order is the one it takes. -/
theorem takes_of_toNat_eq_worth {request : OrderRequest} {c : UInt64}
    (h : c.toNat = request.worth m) : request.Takes c := by
  cases request with
  | market side quantity => exact trivial
  | limit side amount price => exact (UInt64.toNat_inj.1 h).symm

end OrderRequest

namespace Trader

variable (t : Trader)

/-- Having no account and having an empty one is the same. -/
theorem owner_eq :
    t.owner = if t.account.getD "" = "" then .error .noWallet else .ok (t.account.getD "") := by
  unfold owner address
  cases t.account with
  | none => rfl
  | some a =>
    rw [Option.filter_some, Option.getD_some]
    by_cases hempty : a = ""
    · rw [if_pos hempty, hempty]
      rfl
    · rw [if_neg hempty, if_pos (bne_iff_ne.2 hempty)]

/-- The owner is the account, unless that is missing or empty. -/
theorem owner_eq_ok_iff {a : String} : t.owner = .ok a ↔ t.account = some a ∧ a ≠ "" := by
  rw [owner_eq]
  cases t.account with
  | none => simp
  | some b =>
    rw [Option.getD_some, Option.some_inj]
    by_cases hempty : b = ""
    · rw [if_pos hempty]
      simp [hempty, eq_comm]
    · rw [if_neg hempty, Except.ok.injEq]
      exact ⟨fun heq => ⟨heq, heq ▸ hempty⟩, And.left⟩

variable {t} in
/-- An order that is cleared is one of the connected account, at its exact cost. -/
theorem cleared_eq_ok {m : Market} {request : OrderRequest} {now : Instant} {owner : String}
    {cost : UInt64} (h : t.cleared m request now = .ok (owner, cost)) :
    t.account = some owner ∧ cost.toNat = request.worth m := by
  unfold cleared at h
  by_cases hended : m.isEndedAt now.toMillis = true
  · rw [if_pos hended] at h
    cases h
  rw [if_neg hended] at h
  cases howner : t.owner with
  | error e =>
    rw [howner] at h
    cases h
  | ok a =>
    cases hcost : request.cost m with
    | error e =>
      rw [howner, hcost] at h
      cases h
    | ok c =>
      rw [howner, hcost] at h
      cases h
      exact ⟨(t.owner_eq_ok_iff.1 howner).1, request.toNat_of_cost_eq_ok m hcost⟩

/-- An order is refused before the index is asked as the checks say. -/
theorem firstFailure_ownChecks (m : Market) (request : OrderRequest) (now : Instant) :
    firstFailure (t.ownChecks m request now) = refusal? (t.cleared m request now) := by
  unfold ownChecks cleared Market.isEndedAt
  simp only [List.cons_append, List.nil_append, firstFailure_cons, decide_eq_true_eq, owner_eq,
    request.firstFailure_costChecks m]
  by_cases hended : m.endTime.toNat ≤ now.toMillis.toNat
  · rw [if_pos hended, if_pos hended]
    rfl
  rw [if_neg hended, if_neg hended]
  by_cases hempty : t.account.getD "" = ""
  · rw [if_pos hempty, if_pos hempty]
    rfl
  rw [if_neg hempty, if_neg hempty]
  cases request.cost m <;> rfl

variable {t} in
/-- What an order is refused for before the index is asked. -/
theorem cleared_eq_error {m : Market} {request : OrderRequest} {now : Instant} {e : TradeError}
    (h : t.cleared m request now = .error e) :
    e = .marketEnded m.address ∨ e = .noWallet ∨
      ∃ side quantity, request = .market side quantity ∧
        (e = .noMarketPrice m.address side ∨
          e = .input (.invalidQuantity (toString quantity.toNat)) ∧
            2 ^ 64 ≤ quantity.toNat * m.quote side) := by
  have hfailure := t.firstFailure_ownChecks m request now
  rw [h] at hfailure
  obtain ⟨c, hc, hfailed, rfl⟩ := exists_of_firstFailure_eq_some hfailure
  obtain hc | hc := List.mem_append.1 hc
  · simp only [List.mem_cons, List.not_mem_nil, or_false] at hc
    obtain rfl | rfl := hc
    · exact .inl rfl
    · exact .inr (.inl rfl)
  · refine .inr (.inr ?_)
    cases request with
    | market side quantity =>
      simp only [OrderRequest.costChecks, List.mem_cons, List.not_mem_nil, or_false] at hc
      obtain rfl | rfl := hc
      · exact ⟨side, quantity, rfl, .inl rfl⟩
      · exact ⟨side, quantity, rfl, .inr ⟨rfl, of_decide_eq_true hfailed⟩⟩
    | limit side amount price => cases hc

end Trader

namespace Trade

/-- Funds are refused as the checks of the reply say. -/
theorem firstFailure_fundChecks (owner : String) (need : UInt64)
    (reply : Except String Holdings) :
    firstFailure (fundChecks owner need.toNat reply) = refusal? (funded owner need reply) := by
  cases reply with
  | error cause => rfl
  | ok h =>
    -- The coins are looked at in another order, which changes neither their number nor their sum.
    have hlength : h.fundingCoins.length = h.coins.length := List.length_mergeSort _
    have htotal : UInt64.ofNat (min (Holdings.sum h.coins) (2 ^ 64 - 1)) = h.total := by
      change UInt64.ofNat (min (Holdings.sum h.coins) Fixed.maximum) = h.total
      rw [← h.toNat_total, UInt64.ofNat_toNat]
    unfold fundChecks funded Funds.ofHoldings
    simp only [firstFailure_cons, firstFailure_nil, decide_eq_true_eq, ← h.total_lt_iff, htotal,
      UInt64.ofNat_toNat]
    cases hcoins : h.fundingCoins with
    | nil =>
      rw [hcoins] at hlength
      rw [if_pos (List.eq_nil_of_length_eq_zero hlength.symm)]
      rfl
    | cons primary others =>
      have hne : h.coins ≠ [] := by
        rintro heq
        rw [hcoins, heq] at hlength
        cases hlength
      rw [if_neg hne]
      dsimp only
      by_cases hshort : h.total < need
      · rw [if_pos hshort, if_pos hshort]
        rfl
      rw [if_neg hshort, if_neg hshort]
      cases hsender : Address.ofSender owner with
      | error e =>
        obtain ⟨hnot, rfl⟩ := Address.ofSender_eq_error_iff.1 hsender
        rw [if_pos hnot]
        rfl
      | ok sender =>
        obtain rfl := Address.ofSender_eq_ok_iff.1 hsender
        rw [if_neg (not_not_intro sender.isHexAddress)]
        rfl

/-- What an order is refused for by what the index replies. -/
theorem funded_eq_error {owner : String} {need : UInt64} {reply : Except String Holdings}
    {e : TradeError} (h : funded owner need reply = .error e) :
    (∃ cause, e = .remote cause) ∨ e = .noFundingCoin owner ∨
      ∃ available, e = .insufficientFunds need available := by
  have hfailure := firstFailure_fundChecks owner need reply
  rw [h] at hfailure
  obtain ⟨c, hc, -, rfl⟩ := exists_of_firstFailure_eq_some hfailure
  cases reply with
  | error cause =>
    obtain rfl := List.mem_singleton.1 hc
    exact .inl ⟨cause, rfl⟩
  | ok holdings =>
    simp only [fundChecks, List.mem_cons, List.not_mem_nil, or_false] at hc
    obtain rfl | rfl | rfl := hc
    · exact .inr (.inl rfl)
    · rw [UInt64.ofNat_toNat]
      exact .inr (.inr ⟨_, rfl⟩)
    · exact .inl ⟨_, rfl⟩

/-- What an order fails for by what the wallet replies. -/
theorem settle_eq_error {reply : Except String Effects} {e : TradeError}
    (h : settle reply = .error e) :
    (∃ cause, e = .remote cause) ∨ ∃ digest reason, e = .rejected digest reason := by
  cases reply with
  | error cause =>
    cases h
    exact .inl ⟨cause, rfl⟩
  | ok effects =>
    unfold settle at h
    dsimp only at h
    split at h <;> cases h
    exact .inr ⟨_, _, rfl⟩

end Trade

end PredictionMarket
