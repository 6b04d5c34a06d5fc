import PredictionMarket.Proofs.Trade.Checks
import PredictionMarket.Proofs.Transaction.Linear

/-!
# Everything that is handed to the wallet

The four operations of a trader put their transactions together in different ways. All of them use
coins once.

## Main definitions

* `Trader.Operation`, `Trader.perform`: what a trader can be asked for.
* `Transaction.calls`: the calls of a transaction with their arguments.

## Main results

* `Trader.perform_uses_coins_once`: every transaction that an operation hands to the wallet is
  linear.
-/

namespace PredictionMarket

/-- The calls of a transaction with their arguments. -/
def Transaction.calls (tx : Transaction) : List (String × List Argument) :=
  tx.commands.filterMap fun
    | .call target arguments => some (target, arguments)
    | _ => none

/-- The calls that add liquidity, with the results of three commands as coins: a share of the pool,
then a bid on YES and a bid on NO. -/
def Liquidity.calls (l : Liquidity) (p : Packages) (owner market : String)
    (yesSalt noSalt : UInt64) (pool yes no : UInt16) : List (String × List Argument) :=
  [(p.market ++ "::market::provide_liquidity",
      [.object market, .result pool 0, .u64 l.lpAmount]),
    (p.market ++ "::orderbook::create_order",
      [.address owner, .object market, .u64 l.seedAmount, .u64 l.seedPrice, .u8 1, .u8 1, .u64 0,
        .u64 yesSalt, .result yes 0]),
    (p.market ++ "::orderbook::create_order",
      [.address owner, .object market, .u64 l.seedAmount, .u64 l.seedPrice, .u8 1, .u8 0, .u64 0,
        .u64 noSalt, .result no 0])]

/-- The error does not come from a transaction that was executed. -/
def TradeError.IsRefusal : TradeError → Prop
  | rejected .. => False
  | _ => True

/-- Funds are never refused by the wallet. -/
theorem Trade.isRefusal_of_funded_eq_error {owner : String} {need : UInt64}
    {reply : Except String Holdings} {e : TradeError} (h : funded owner need reply = .error e) :
    e.IsRefusal := by
  obtain ⟨_, rfl⟩ | rfl | ⟨_, rfl⟩ := funded_eq_error h <;> trivial

namespace Funds

/-- The coins of the funds are inputs of the transaction and not results of its commands. -/
theorem isResult_of_ofHoldings {owner : String} {h : Holdings} {need : UInt64} {f : Funds}
    (hf : ofHoldings owner h need = .ok f) :
    f.primary.isResult = false ∧ ∀ a ∈ f.others, a.isResult = false := by
  obtain ⟨primary, others, -, -, -, hprimary, hothers⟩ := ofHoldings_eq_ok_iff.1 hf
  rw [hprimary, hothers]
  exact ⟨rfl, List.forall_mem_map.2 fun c _ => rfl⟩

/-- The calls that add liquidity take three different splits. -/
theorem calls_addLiquidity (f : Funds) (p : Packages) (owner market : String) (l : Liquidity)
    (yesSalt noSalt : UInt64) :
    ∃ a b c : UInt16, [a, b, c].Nodup ∧
      (f.transaction (Assembly.addLiquidity p owner market l yesSalt noSalt)).calls =
        l.calls p owner market yesSalt noSalt a b c := by
  have hnone : f.merges.filterMap (fun
      | .call target arguments => some (target, arguments)
      | _ => none) = [] := by
    unfold merges
    cases f.others.isEmpty <;> rfl
  refine ⟨.ofNat f.merges.length, .ofNat (f.merges.length + 1), .ofNat (f.merges.length + 2),
    ?_, ?_⟩
  · -- There is one merge at most, so the three positions are known.
    have hle := f.length_merges_le
    obtain hlength | hlength : f.merges.length = 0 ∨ f.merges.length = 1 := by omega
    · rw [hlength]
      decide
    · rw [hlength]
      decide
  · rw [Transaction.calls, commands_addLiquidity, List.filterMap_append, hnone]
    rfl

end Funds

namespace Trader

open Trade

variable (t : Trader)

/-- What a trader can be asked for that ends in a transaction. -/
inductive Operation where
  | submit (m : Market) (request : OrderRequest)
  | addLiquidity (m : Market)
  | createMarket (topic description : String) (startTime endTime : UInt64)
  | createOracle (codeHash blobId : String)

/-- The dialogue of an operation. -/
def perform : Operation → Session (Except TradeError Effects)
  | .submit m request => t.submit m request
  | .addLiquidity m => t.addLiquidity m
  | .createMarket topic description startTime endTime =>
    t.createMarket topic description startTime endTime
  | .createOracle codeHash blobId => t.createOracle codeHash blobId

variable {t : Trader} {known after : Store} {es : List Exchange}
  {outcome : Except TradeError Effects}

/-- A result of two steps is one of the second, on what the first gave. -/
theorem eq_ok_of_bind_eq_ok {ε α β : Type} {x : Except ε α} {f : α → Except ε β} {b : β}
    (h : x >>= f = .ok b) : ∃ a, x = .ok a ∧ f a = .ok b := by
  cases x with
  | error e => cases h
  | ok a => exact ⟨a, rfl, h⟩

/-- A market is created by a transaction of a valid sender. -/
theorem marketCreation_eq_ok {topic description : String} {startTime endTime : UInt64}
    {tx : Transaction} (h : t.marketCreation topic description startTime endTime = .ok tx) :
    ∃ sender, t.sender = .ok sender ∧ tx = Assembly.transaction sender
      (Assembly.createMarket t.packages topic description startTime endTime) := by
  obtain ⟨owner, -, h⟩ := eq_ok_of_bind_eq_ok h
  by_cases hblank : Text.isAllBlank topic = true
  · rw [if_pos hblank] at h
    cases h
  rw [if_neg hblank] at h
  by_cases hend : endTime ≤ startTime
  · simp only [if_pos hend] at h
    cases h
  simp only [if_neg hend] at h
  obtain ⟨sender, hsender, h⟩ := eq_ok_of_bind_eq_ok h
  cases h
  exact ⟨sender, hsender, rfl⟩

/-- An oracle is created by a transaction of a valid sender. -/
theorem oracleCreation_eq_ok {codeHash blobId : String} {tx : Transaction}
    (h : t.oracleCreation codeHash blobId = .ok tx) :
    ∃ sender, t.sender = .ok sender ∧ tx = Assembly.transaction sender
      (Assembly.createOracle t.packages codeHash blobId) := by
  obtain ⟨sender, hsender, h⟩ := eq_ok_of_bind_eq_ok h
  cases h
  exact ⟨sender, hsender, rfl⟩

/-- An error of two steps is one of the first, or of the second on what the first gave. -/
theorem eq_error_of_bind_eq_error {ε α β : Type} {x : Except ε α} {f : α → Except ε β} {e : ε}
    (h : x >>= f = .error e) : x = .error e ∨ ∃ a, x = .ok a ∧ f a = .error e := by
  cases x with
  | error e =>
    cases h
    exact .inl rfl
  | ok a => exact .inr ⟨a, rfl, h⟩

/-- A missing owner is refused before the wallet is asked. -/
theorem isRefusal_of_owner_eq_error {e : TradeError} (h : t.owner = .error e) : e.IsRefusal := by
  rw [owner_eq] at h
  split at h <;> cases h
  trivial

/-- So is a sender that is no address. -/
theorem isRefusal_of_sender_eq_error {e : TradeError} (h : t.sender = .error e) : e.IsRefusal := by
  obtain howner | ⟨owner, -, h⟩ := eq_error_of_bind_eq_error h
  · exact isRefusal_of_owner_eq_error howner
  · split at h <;> cases h
    trivial

/-- The creation of a market fails by a refusal only. -/
theorem isRefusal_of_marketCreation_eq_error {topic description : String}
    {startTime endTime : UInt64} {e : TradeError}
    (h : t.marketCreation topic description startTime endTime = .error e) : e.IsRefusal := by
  obtain howner | ⟨owner, -, h⟩ := eq_error_of_bind_eq_error h
  · exact isRefusal_of_owner_eq_error howner
  by_cases hblank : Text.isAllBlank topic = true
  · rw [if_pos hblank] at h
    cases h
    trivial
  rw [if_neg hblank] at h
  by_cases hend : endTime ≤ startTime
  · simp only [if_pos hend] at h
    cases h
    trivial
  simp only [if_neg hend] at h
  obtain hsender | ⟨sender, -, h⟩ := eq_error_of_bind_eq_error h
  · exact isRefusal_of_sender_eq_error hsender
  · cases h

/-- The creation of an oracle fails by a refusal only. -/
theorem isRefusal_of_oracleCreation_eq_error {codeHash blobId : String} {e : TradeError}
    (h : t.oracleCreation codeHash blobId = .error e) : e.IsRefusal := by
  obtain hsender | ⟨sender, -, h⟩ := eq_error_of_bind_eq_error h
  · exact isRefusal_of_sender_eq_error hsender
  · cases h

/-- An operation is refused and nothing is handed over, or the wallet is asked once and what it
replies is the outcome. -/
theorem perform_refused_or_handed {op : Operation}
    (h : (t.perform op).Runs known es outcome after) :
    (walletCalls es = [] ∧ ∃ e, outcome = .error e ∧ e.IsRefusal) ∨
      ∃ tx reply, walletCalls es = [(tx, reply)] ∧ outcome = settle reply := by
  cases op with
  | submit m request =>
    obtain ⟨now, -, ⟨e, hcleared, rfl, -, -, hnone⟩ | ⟨_, _, reply, -, -, -, hpath⟩⟩ :=
      runs_submit h
    · refine .inl ⟨hnone, e, rfl, ?_⟩
      obtain rfl | rfl | ⟨_, _, -, rfl | ⟨rfl, -⟩⟩ := cleared_eq_error hcleared <;> trivial
    obtain ⟨e, hfunded, rfl, hnone⟩ | ⟨_, _, effects, -, hone, rfl⟩ := hpath
    · exact .inl ⟨hnone, e, rfl, isRefusal_of_funded_eq_error hfunded⟩
    · exact .inr ⟨_, effects, hone, rfl⟩
  | addLiquidity m =>
    obtain ⟨es₁, es₂, hprovide, hjournaled, rfl⟩ := runs_recorded_iff.1 h
    rw [hjournaled.walletCalls_append]
    obtain ⟨e, howner, rfl, rfl, -⟩ | ⟨owner, -, hspending⟩ := runs_provide hprovide
    · exact .inl ⟨rfl, e, rfl, isRefusal_of_owner_eq_error howner⟩
    obtain ⟨reply, -, -, ⟨e, hfunded, rfl, hnone⟩ | ⟨_, tx, effects, -, -, hone, rfl⟩⟩ :=
      hspending.calls
    · exact .inl ⟨hnone, e, rfl, isRefusal_of_funded_eq_error hfunded⟩
    · exact .inr ⟨tx, effects, hone, rfl⟩
  | createMarket topic description startTime endTime =>
    obtain ⟨-, -, ⟨e, hprepared, rfl, rfl⟩ | ⟨tx, effects, -, hone, rfl⟩⟩ := runs_create h
    · exact .inl ⟨rfl, e, rfl, isRefusal_of_marketCreation_eq_error hprepared⟩
    · exact .inr ⟨tx, effects, hone, rfl⟩
  | createOracle codeHash blobId =>
    obtain ⟨-, -, ⟨e, hprepared, rfl, rfl⟩ | ⟨tx, effects, -, hone, rfl⟩⟩ := runs_create h
    · exact .inl ⟨rfl, e, rfl, isRefusal_of_oracleCreation_eq_error hprepared⟩
    · exact .inr ⟨tx, effects, hone, rfl⟩

/-- What is handed over by an order uses coins once. -/
theorem linear_of_submit {m : Market} {request : OrderRequest}
    (h : (t.submit m request).Runs known es outcome after) :
    ∀ call ∈ walletCalls es, Linear t.packages call.1.commands [] := by
  rintro ⟨tx, effects⟩ hcall
  obtain ⟨now, owner, cost, holdings, funds, salt, hcleared, -, hfunds, rfl⟩ :=
    handed_of_submit h hcall
  obtain ⟨hprimary, hothers⟩ := Funds.isResult_of_ofHoldings hfunds
  have htakes := OrderRequest.takes_of_toNat_eq_worth m (cleared_eq_ok hcleared).2
  exact Linear.spend hprimary hothers owner m.address htakes salt

/-- What is handed over by adding liquidity uses coins once, and its calls are a share of the pool,
a bid on YES and a bid on NO. -/
theorem linear_of_addLiquidity {m : Market}
    (h : (t.addLiquidity m).Runs known es outcome after) :
    ∀ call ∈ walletCalls es, Linear t.packages call.1.commands [] ∧
      ∃ yes no, ∃ a b c : UInt16, [a, b, c].Nodup ∧
        call.1.calls = t.liquidity.calls t.packages call.1.sender m.address yes no a b c := by
  rintro ⟨tx, effects⟩ hcall
  obtain ⟨owner, holdings, funds, yes, no, -, -, hfunds, rfl⟩ := handed_of_addLiquidity h hcall
  obtain ⟨hprimary, hothers⟩ := Funds.isResult_of_ofHoldings hfunds
  obtain ⟨primary, others, -, -, rfl, -, -⟩ := Funds.ofHoldings_eq_ok_iff.1 hfunds
  obtain ⟨a, b, c, hnodup, hcalls⟩ := funds.calls_addLiquidity t.packages funds.sender.text
    m.address t.liquidity yes no
  exact ⟨Linear.addLiquidity hprimary hothers _ m.address t.liquidity yes no,
    yes, no, a, b, c, hnodup, hcalls⟩

/-- What is created by a linear transaction reaches the wallet in it. -/
theorem linear_of_create {name : String} {prepared : Except TradeError Transaction}
    (hprepared : ∀ tx, prepared = .ok tx → Linear t.packages tx.commands [])
    (h : (t.create name prepared).Runs known es outcome after) :
    ∀ call ∈ walletCalls es, Linear t.packages call.1.commands [] := by
  intro call hcall
  obtain ⟨-, -, ⟨e, -, -, rfl⟩ | ⟨tx, effects, hok, hone, -⟩⟩ := runs_create h
  · cases hcall
  · rw [hone] at hcall
    obtain rfl := List.mem_singleton.1 hcall
    exact hprepared tx hok

/-- Every transaction that an operation hands to the wallet uses coins once. The calls that add
liquidity each have a coin of their own, whether the market has ended or not. -/
theorem perform_uses_coins_once {op : Operation}
    (h : (t.perform op).Runs known es outcome after) :
    ∀ call ∈ walletCalls es, Linear t.packages call.1.commands [] ∧
      ∀ m, op = .addLiquidity m → ∃ yesSalt noSalt, ∃ pool yes no : UInt16, [pool, yes, no].Nodup ∧
        call.1.calls =
          t.liquidity.calls t.packages call.1.sender m.address yesSalt noSalt pool yes no := by
  intro call hcall
  cases op with
  | submit m request => exact ⟨linear_of_submit h call hcall, fun _ heq => by cases heq⟩
  | addLiquidity m =>
    obtain ⟨hlinear, hcalls⟩ := linear_of_addLiquidity h call hcall
    exact ⟨hlinear, fun _ heq => by cases heq; exact hcalls⟩
  | createMarket topic description startTime endTime =>
    refine ⟨linear_of_create (fun tx hok => ?_) h call hcall, fun _ heq => by cases heq⟩
    obtain ⟨sender, -, rfl⟩ := marketCreation_eq_ok hok
    exact Linear.createMarket sender topic description startTime endTime
  | createOracle codeHash blobId =>
    refine ⟨linear_of_create (fun tx hok => ?_) h call hcall, fun _ heq => by cases heq⟩
    obtain ⟨sender, -, rfl⟩ := oracleCreation_eq_ok hok
    exact Linear.createOracle sender codeHash blobId

/-- The default amounts, paid with two coins. -/
theorem perform_uses_coins_once_with_two_coins :
    ∃ call ∈ walletCalls (((sample.perform (.addLiquidity .sample)).run .empty).heldWith
        (plainAnswer [⟨"0xc0", 3⟩, ⟨"0xc1", 200000000000⟩])).1,
      Linear sample.packages call.1.commands [] ∧ call.1.calls.length = 3 := by
  have hruns := Dialogue.held_heldWith (plainAnswer [⟨"0xc0", 3⟩, ⟨"0xc1", 200000000000⟩])
    ((sample.perform (.addLiquidity .sample)).run .empty)
  have hanswer := @Dialogue.eq_answer_of_mem_heldWith _ _ _
    (plainAnswer [⟨"0xc0", 3⟩, ⟨"0xc1", 200000000000⟩])
    ((sample.perform (.addLiquidity .sample)).run .empty)
  have howner : sample.owner = .ok "0xa11ce" := rfl
  have hhanded := walletCalls_addLiquidity_ne_nil hruns howner fun reply hreply => by
    obtain ⟨-, rfl : reply = .ok ⟨"0xa11ce", [⟨"0xc0", 3⟩, ⟨"0xc1", 200000000000⟩]⟩⟩ :=
      hanswer hreply
    exact Funds.exists_ofHoldings (by decide) (by decide) (by decide)
  obtain ⟨call, hcall⟩ := List.exists_mem_of_ne_nil _ hhanded
  obtain ⟨hlinear, hcalls⟩ := perform_uses_coins_once hruns call hcall
  obtain ⟨_, _, _, _, _, -, heq⟩ := hcalls _ rfl
  exact ⟨call, hcall, hlinear, by rw [heq]; rfl⟩

end Trader

end PredictionMarket
