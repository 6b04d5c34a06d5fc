import PredictionMarket.Proofs.Trade.Session
import PredictionMarket.Proofs.Transaction.Commands

/-!
# The paths of trading

A trade is either refused or handed to the wallet. `Trade.Spending` lists the runs of the part that
orders and liquidity share: the index is asked for coins, and if they are enough the wallet is asked
to execute a transaction.

## Main definitions

* `Trade.funded`: the coins to pay with, by the reply of the index.
* `Trade.Spending`: the runs that spend coins.
* `Trader.cleared`: what is checked of an order before the index is asked.
-/

namespace PredictionMarket

namespace Trade

/-- The coins to pay with, by the reply of the index. -/
def funded (owner : String) (need : UInt64) : Except String Holdings → Except TradeError Funds
  | .error cause => .error (.remote cause)
  | .ok h => Funds.ofHoldings owner h need

/-- Funds come from holdings that the index replied with. -/
theorem funded_eq_ok {owner : String} {need : UInt64} {reply : Except String Holdings}
    {f : Funds} (h : funded owner need reply = .ok f) :
    ∃ holdings, reply = .ok holdings ∧ Funds.ofHoldings owner holdings need = .ok f := by
  cases reply with
  | error cause => cases h
  | ok holdings => exact ⟨holdings, rfl, h⟩

/-- The runs that spend the coins of an owner on a transaction, which is built from them. Numbers
may be drawn for it. -/
inductive Spending (owner : String) (need : UInt64)
    (built : Funds → Transaction → Prop) (known : Store) :
    List Exchange → Except TradeError Effects → Store → Prop where
  /-- The index fails, or the coins do not do. -/
  | refused {reply : Except String Holdings} {e : TradeError}
      (h : funded owner need reply = .error e) :
      Spending owner need built known [.index owner reply] (.error e)
        (known.refreshHoldings reply)
  /-- The wallet is asked. -/
  | handed {holdings : Holdings} {funds : Funds} {tx : Transaction}
      {reply : Except String Effects} (salts : List UInt64)
      (h : Funds.ofHoldings owner holdings need = .ok funds) (hb : built funds tx) :
      Spending owner need built known
        (.index owner (.ok holdings) :: (salts.map .draw ++ [.wallet tx reply]))
        (settle reply) (known.setHoldings holdings)

namespace Spending

variable {owner : String} {need : UInt64} {built : Funds → Transaction → Prop}
  {known after : Store} {es : List Exchange} {outcome : Except TradeError Effects}

/-- The index is asked once, and what it lists is known afterwards. The wallet is asked exactly if
the coins do. -/
theorem calls (h : Spending owner need built known es outcome after) :
    ∃ reply, indexCalls es = [(owner, reply)] ∧ after = known.refreshHoldings reply ∧
      ((∃ e, funded owner need reply = .error e ∧ outcome = .error e ∧ walletCalls es = []) ∨
        ∃ funds tx effects, funded owner need reply = .ok funds ∧ built funds tx ∧
          walletCalls es = [(tx, effects)] ∧ outcome = settle effects) := by
  cases h with
  | refused h => exact ⟨_, rfl, rfl, .inl ⟨_, h, rfl, rfl⟩⟩
  | @handed holdings funds tx effects salts h hb =>
    refine ⟨.ok holdings, ?_, rfl, .inr ⟨funds, tx, effects, h, hb, ?_, rfl⟩⟩
    · change (owner, .ok holdings) :: indexCalls (salts.map Exchange.draw ++ _) = _
      rw [indexCalls_append, indexCalls_draws]
      rfl
    · change walletCalls (salts.map Exchange.draw ++ _) = _
      rw [walletCalls_append, walletCalls_draws]
      rfl

/-- What the wallet is asked to execute is paid with coins that the index listed. -/
theorem of_mem_walletCalls (h : Spending owner need built known es outcome after)
    {tx : Transaction} {effects : Except String Effects} (hcall : (tx, effects) ∈ walletCalls es) :
    ∃ holdings funds, indexCalls es = [(owner, .ok holdings)] ∧
      Funds.ofHoldings owner holdings need = .ok funds ∧ built funds tx := by
  obtain ⟨reply, hreply, -, hpath⟩ := h.calls
  obtain ⟨e, -, -, hnone⟩ | ⟨funds, _, _, hfunds, hbuilt, hone, -⟩ := hpath
  · rw [hnone] at hcall
    cases hcall
  rw [hone] at hcall
  cases List.mem_singleton.1 hcall
  obtain ⟨holdings, rfl, hfunds⟩ := funded_eq_ok hfunds
  exact ⟨holdings, funds, hreply, hfunds, hbuilt⟩

/-- If the coins that the index lists do, the wallet is asked. -/
theorem walletCalls_ne_nil (h : Spending owner need built known es outcome after)
    (hindex : ∀ reply, (owner, reply) ∈ indexCalls es →
      ∃ funds, funded owner need reply = .ok funds) : walletCalls es ≠ [] := by
  obtain ⟨reply, hreply, -, hpath⟩ := h.calls
  obtain ⟨funds, hfunds⟩ := hindex reply (hreply ▸ List.mem_singleton_self _)
  obtain ⟨e, hfunded, -, -⟩ | ⟨_, _, _, -, -, hone, -⟩ := hpath
  · rw [hfunds] at hfunded
    cases hfunded
  · rw [hone]
    exact List.cons_ne_nil _ _

end Spending

/-- Funding asks the index once, decides on the reply, and keeps the holdings of it. -/
theorem runs_fund_iff {owner : String} {need : UInt64} {outcome : Except TradeError Funds}
    {known after : Store} {es : List Exchange} :
    (Trader.fund owner need).Runs known es outcome after ↔
      ∃ reply, es = [.index owner reply] ∧ outcome = funded owner need reply ∧
        after = known.refreshHoldings reply := by
  rw [Trader.fund, Attempt.runs_lift_bind_iff]
  constructor
  · rintro ⟨es₁, reply, between, es₂, h₁, h₂, rfl⟩
    obtain ⟨rfl, rfl⟩ := Session.runs_refreshHoldings_iff.1 h₁
    cases reply with
    | error cause =>
      obtain ⟨rfl, rfl, rfl⟩ := Attempt.runs_throw_iff.1 h₂
      exact ⟨_, rfl, rfl, rfl⟩
    | ok h =>
      obtain ⟨rfl, rfl, rfl⟩ := Attempt.runs_outcome_iff.1 h₂
      exact ⟨_, rfl, rfl, rfl⟩
  · rintro ⟨reply, rfl, rfl, rfl⟩
    refine ⟨_, reply, _, [], Session.runs_refreshHoldings_iff.2 ⟨rfl, rfl⟩, ?_, rfl⟩
    cases reply with
    | error cause => exact Attempt.runs_throw_iff.2 ⟨rfl, rfl, rfl⟩
    | ok h => exact Attempt.runs_outcome_iff.2 ⟨rfl, rfl, rfl⟩

/-- Executing asks the wallet once and leaves the store as it is. -/
theorem runs_execute_iff {tx : Transaction} {outcome : Except TradeError Effects}
    {known after : Store} {es : List Exchange} :
    (Trader.execute tx).Runs known es outcome after ↔
      ∃ reply, es = [.wallet tx reply] ∧ outcome = settle reply ∧ after = known := by
  refine Attempt.runs_put_bind_iff.trans ?_
  constructor
  · rintro ⟨reply, rest, rfl, h⟩
    obtain ⟨rfl, rfl, rfl⟩ := Attempt.runs_outcome_iff.1 h
    exact ⟨reply, rfl, rfl, rfl⟩
  · rintro ⟨reply, rfl, rfl, rfl⟩
    exact ⟨reply, [], rfl, Attempt.runs_outcome_iff.2 ⟨rfl, rfl, rfl⟩⟩

/-- An attempt that asks for coins and then hands over what it builds from them spends them. -/
theorem spending_of_runs_fund_bind {owner : String} {need : UInt64}
    {built : Funds → Transaction → Prop} {f : Funds → Attempt Effects} {known after : Store}
    {es : List Exchange} {outcome : Except TradeError Effects}
    (h : Attempt.Runs (Trader.fund owner need >>= f) known es outcome after)
    (hf : ∀ funds between rest, (f funds).Runs between rest outcome after →
      ∃ (salts : List UInt64) (tx : Transaction) (effects : Except String Effects),
        rest = salts.map Exchange.draw ++ [.wallet tx effects] ∧
          outcome = settle effects ∧ after = between ∧ built funds tx) :
    Spending owner need built known es outcome after := by
  obtain ⟨e, rfl, hfund⟩ | ⟨es₁, funds, between, es₂, hfund, hspend, rfl⟩ :=
    Attempt.runs_bind_iff.1 h
  · obtain ⟨reply, rfl, he, rfl⟩ := runs_fund_iff.1 hfund
    exact .refused he.symm
  · obtain ⟨reply, rfl, hfunds, rfl⟩ := runs_fund_iff.1 hfund
    obtain ⟨salts, tx, effects, rfl, rfl, rfl, hbuilt⟩ := hf funds _ es₂ hspend
    obtain ⟨holdings, rfl, hpaid⟩ := funded_eq_ok hfunds.symm
    exact .handed salts hpaid hbuilt

end Trade

namespace Trader

open Trade

variable (t : Trader)

/-- The account and the cost of an order that nothing speaks against before the index is asked. -/
def cleared (m : Market) (request : OrderRequest) (now : Instant) :
    Except TradeError (String × UInt64) :=
  if m.isEndedAt now.toMillis then .error (.marketEnded m.address)
  else
    match t.owner, request.cost m with
    | .error e, _ => .error e
    | .ok _, .error e => .error e
    | .ok owner, .ok cost => .ok (owner, cost)

variable {t : Trader} {known after : Store} {es : List Exchange}
  {outcome : Except TradeError Effects}

/-- An order is refused at once, or coins are spent on it. -/
theorem runs_place {m : Market} {request : OrderRequest}
    (h : (t.place m request).Runs known es outcome after) :
    ∃ now rest, es = .clock now :: rest ∧
      ((∃ e, t.cleared m request now = .error e ∧ rest = [] ∧ outcome = .error e ∧
          after = known) ∨
        ∃ owner cost, t.cleared m request now = .ok (owner, cost) ∧
          Spending owner cost
            (fun funds tx => ∃ salt,
              tx = funds.transaction (request.spend t.packages owner m.address cost salt))
            known rest outcome after) := by
  obtain ⟨(now : Instant), rest, rfl, hrest⟩ := Attempt.runs_put_bind_iff.1 h
  refine ⟨now, rest, rfl, ?_⟩
  dsimp only at hrest
  -- The checks come one after the other, and the first that fails ends the run.
  by_cases hended : m.isEndedAt now.toMillis = true
  · rw [if_pos hended] at hrest
    obtain ⟨e, rfl, hthrow⟩ | ⟨es₁, x, between, es₂, hthrow, -, -⟩ :=
      Attempt.runs_bind_iff.1 hrest
    · obtain ⟨rfl, heq, rfl⟩ := Attempt.runs_throw_iff.1 hthrow
      cases heq
      exact .inl ⟨_, if_pos hended, rfl, rfl, rfl⟩
    · obtain ⟨-, hx, -⟩ := Attempt.runs_throw_iff.1 hthrow
      cases hx
  · rw [if_neg hended] at hrest
    obtain ⟨e, howner, rfl, rfl, rfl⟩ | ⟨owner, howner, hrest⟩ :=
      Attempt.runs_outcome_bind_iff.1 hrest
    · refine .inl ⟨e, ?_, rfl, rfl, rfl⟩
      rw [cleared, if_neg hended, howner]
    obtain ⟨e, hcost, rfl, rfl, rfl⟩ | ⟨cost, hcost, hrest⟩ :=
      Attempt.runs_outcome_bind_iff.1 hrest
    · refine .inl ⟨e, ?_, rfl, rfl, rfl⟩
      rw [cleared, if_neg hended, howner, hcost]
    refine .inr ⟨owner, cost, ?_, ?_⟩
    · rw [cleared, if_neg hended, howner, hcost]
    refine spending_of_runs_fund_bind hrest fun funds between rest hspend => ?_
    cases request with
    | market side quantity =>
      -- No number is drawn for shares, so any stands for it.
      obtain ⟨effects, rfl, rfl, rfl⟩ := runs_execute_iff.1 hspend
      exact ⟨[], _, effects, rfl, rfl, rfl, 0, rfl⟩
    | limit side amount price =>
      obtain ⟨salt, es₁, rfl, hexecute⟩ := Attempt.runs_put_bind_iff.1 hspend
      obtain ⟨effects, rfl, rfl, rfl⟩ := runs_execute_iff.1 hexecute
      exact ⟨[salt], _, effects, rfl, rfl, rfl, salt, rfl⟩

/-- Coins are spent on liquidity, unless no account is connected. -/
theorem runs_provide {m : Market} (h : (t.provide m).Runs known es outcome after) :
    (∃ e, t.owner = .error e ∧ es = [] ∧ outcome = .error e ∧ after = known) ∨
      ∃ owner, t.owner = .ok owner ∧
        Spending owner t.liquidity.cost
          (fun funds tx => ∃ yes no, tx = funds.transaction
            (Assembly.addLiquidity t.packages owner m.address t.liquidity yes no))
          known es outcome after := by
  obtain ⟨e, howner, rfl, rfl, rfl⟩ | ⟨owner, howner, hrest⟩ := Attempt.runs_outcome_bind_iff.1 h
  · exact .inl ⟨e, howner, rfl, rfl, rfl⟩
  refine .inr ⟨owner, howner, ?_⟩
  refine spending_of_runs_fund_bind hrest fun funds between rest hspend => ?_
  obtain ⟨yes, es₁, rfl, hno⟩ := Attempt.runs_put_bind_iff.1 hspend
  obtain ⟨no, es₂, rfl, hexecute⟩ := Attempt.runs_put_bind_iff.1 hno
  obtain ⟨effects, rfl, rfl, rfl⟩ := runs_execute_iff.1 hexecute
  exact ⟨[yes, no], _, effects, rfl, rfl, rfl, yes, no, rfl⟩

/-- Coins that do are spent on liquidity, whatever the wallet replies. -/
theorem provide_runs (m : Market) (known : Store) {owner : String} {holdings : Holdings}
    {funds : Funds} (howner : t.owner = .ok owner)
    (hfunds : Funds.ofHoldings owner holdings t.liquidity.cost = .ok funds) (yes no : UInt64)
    (effects : Except String Effects) :
    (t.provide m).Runs known
      [.index owner (.ok holdings), .draw yes, .draw no,
        .wallet (funds.transaction (Assembly.addLiquidity t.packages owner m.address t.liquidity
          yes no)) effects]
      (settle effects) (known.setHoldings holdings) := by
  refine Attempt.runs_outcome_bind_iff.2 (.inr ⟨owner, howner, ?_⟩)
  have hfund : (fund owner t.liquidity.cost).Runs known [.index owner (.ok holdings)] (.ok funds)
      (known.setHoldings holdings) :=
    runs_fund_iff.2 ⟨.ok holdings, rfl, hfunds.symm, rfl⟩
  refine Attempt.runs_bind_iff.2 (.inr ⟨_, funds, _, _, hfund, ?_, rfl⟩)
  refine Attempt.runs_put_bind_iff.2 ⟨yes, _, rfl, ?_⟩
  refine Attempt.runs_put_bind_iff.2 ⟨no, _, rfl, ?_⟩
  exact runs_execute_iff.2 ⟨effects, rfl, rfl, rfl⟩

variable (t) in
/-- The exchanges in which an outcome is listed in the journal, if there is one. -/
def Journaled (a : Action) (outcome : Except TradeError Effects) (es : List Exchange) : Prop :=
  t.hasJournal = false ∧ es = [] ∨
    t.hasJournal = true ∧ ∃ now, es = [.clock now, .journal (a.row now outcome)]

namespace Journaled

variable {a : Action}

/-- The journal concerns neither the index nor the wallet. -/
theorem indexCalls_append (h : t.Journaled a outcome es) (before : List Exchange) :
    indexCalls (before ++ es) = indexCalls before := by
  rw [Trade.indexCalls_append]
  obtain ⟨-, rfl⟩ | ⟨-, now, rfl⟩ := h <;> exact List.append_nil _

/-- A record calls no wallet. -/
theorem walletCalls_append (h : t.Journaled a outcome es) (before : List Exchange) :
    walletCalls (before ++ es) = walletCalls before := by
  rw [Trade.walletCalls_append]
  obtain ⟨-, rfl⟩ | ⟨-, now, rfl⟩ := h <;> exact List.append_nil _

variable (t a outcome) in
/-- Whatever the time is, the journal is no obstacle. -/
theorem exists_at (now : Instant) : ∃ es, t.Journaled a outcome es := by
  cases hjournal : t.hasJournal with
  | false => exact ⟨[], .inl ⟨hjournal, rfl⟩⟩
  | true => exact ⟨_, .inr ⟨hjournal, now, rfl⟩⟩

end Journaled

/-- Recording is what it says, and leaves the store as it is. -/
theorem runs_record_iff {a : Action} {u : Unit} :
    (t.record a outcome).Runs known es u after ↔ t.Journaled a outcome es ∧ after = known := by
  unfold record Journaled
  cases t.hasJournal with
  | false =>
    refine Session.runs_pure_iff.trans ?_
    simp
  | true =>
    refine Session.runs_bind_iff.trans ?_
    constructor
    · rintro ⟨es₁, now, between, es₂, h₁, h₂, rfl⟩
      obtain ⟨rfl, rfl⟩ := Session.runs_put_iff.1 h₁
      obtain ⟨rfl, rfl⟩ := Session.runs_put_iff.1 h₂
      exact ⟨.inr ⟨rfl, now, rfl⟩, rfl⟩
    · rintro ⟨⟨h, -⟩ | ⟨-, now, rfl⟩, rfl⟩
      · cases h
      · exact ⟨[_], now, _, [_], Session.runs_put_iff.2 ⟨rfl, rfl⟩,
          Session.runs_put_iff.2 ⟨rfl, rfl⟩, rfl⟩

/-- An attempt whose outcome is listed in the journal. -/
theorem runs_recorded_iff {attempt : Attempt Effects} {a : Action} :
    Session.Runs (attempt.run >>= fun outcome => t.record a outcome >>= fun _ => pure outcome)
        known es outcome after ↔
      ∃ es₁ es₂, attempt.Runs known es₁ outcome after ∧ t.Journaled a outcome es₂ ∧
        es = es₁ ++ es₂ := by
  rw [Session.runs_bind_iff]
  constructor
  · rintro ⟨es₁, result, between, es₂, h₁, h₂, rfl⟩
    obtain ⟨es₃, _, _, es₄, h₃, h₄, rfl⟩ := Session.runs_bind_iff.1 h₂
    obtain ⟨rfl, rfl, rfl⟩ := Session.runs_pure_iff.1 h₄
    obtain ⟨hjournaled, rfl⟩ := runs_record_iff.1 h₃
    exact ⟨es₁, es₃, h₁, hjournaled, by rw [List.append_nil]⟩
  · rintro ⟨es₁, es₂, h₁, h₂, rfl⟩
    refine ⟨es₁, outcome, after, es₂, h₁, Session.runs_bind_iff.2 ?_, rfl⟩
    exact ⟨es₂, (), after, [], runs_record_iff.2 ⟨h₂, rfl⟩, Session.runs_pure_iff.2 ⟨rfl, rfl, rfl⟩,
      (List.append_nil es₂).symm⟩

/-- An order is refused before the index is asked, or by what the index replies, or it goes to the
wallet. -/
theorem runs_submit {m : Market} {request : OrderRequest}
    (h : (t.submit m request).Runs known es outcome after) :
    ∃ now, es.head? = some (.clock now) ∧
      ((∃ e, t.cleared m request now = .error e ∧ outcome = .error e ∧ after = known ∧
          indexCalls es = [] ∧ walletCalls es = []) ∨
        ∃ owner cost reply, t.cleared m request now = .ok (owner, cost) ∧
          indexCalls es = [(owner, reply)] ∧ after = known.refreshHoldings reply ∧
          ((∃ e, funded owner cost reply = .error e ∧ outcome = .error e ∧ walletCalls es = []) ∨
            ∃ funds salt effects, funded owner cost reply = .ok funds ∧
              walletCalls es = [(funds.transaction
                (request.spend t.packages owner m.address cost salt), effects)] ∧
              outcome = settle effects)) := by
  obtain ⟨es₁, es₂, hplace, hjournaled, rfl⟩ := runs_recorded_iff.1 h
  rw [hjournaled.indexCalls_append, hjournaled.walletCalls_append]
  obtain ⟨now, rest, rfl, hpath⟩ := runs_place hplace
  refine ⟨now, rfl, ?_⟩
  obtain ⟨e, hcleared, rfl, rfl, rfl⟩ | ⟨owner, cost, hcleared, hspending⟩ := hpath
  · exact .inl ⟨e, hcleared, rfl, rfl, rfl, rfl⟩
  · obtain ⟨reply, hreply, rfl, hpath⟩ := hspending.calls
    refine .inr ⟨owner, cost, reply, hcleared, hreply, rfl, ?_⟩
    obtain ⟨e, he, rfl, hnone⟩ | ⟨funds, _, effects, hfunds, ⟨salt, rfl⟩, hone, rfl⟩ :=
      hpath
    · exact .inl ⟨e, he, rfl, hnone⟩
    · exact .inr ⟨funds, salt, effects, hfunds, hone, rfl⟩

/-- What the wallet is asked to execute for an order that is cleared. -/
theorem handed_of_submit {m : Market} {request : OrderRequest}
    (h : (t.submit m request).Runs known es outcome after)
    {tx : Transaction} {effects : Except String Effects} (hcall : (tx, effects) ∈ walletCalls es) :
    ∃ now owner cost holdings funds salt, t.cleared m request now = .ok (owner, cost) ∧
      indexCalls es = [(owner, .ok holdings)] ∧
      Funds.ofHoldings owner holdings cost = .ok funds ∧
      tx = funds.transaction
        (request.spend t.packages owner m.address cost salt) := by
  obtain ⟨es₁, es₂, hplace, hjournaled, rfl⟩ := runs_recorded_iff.1 h
  rw [hjournaled.walletCalls_append] at hcall
  rw [hjournaled.indexCalls_append]
  obtain ⟨now, rest, rfl, ⟨e, -, rfl, -, -⟩ | ⟨owner, cost, hcleared, hspending⟩⟩ :=
    runs_place hplace
  · cases hcall
  · obtain ⟨holdings, funds, hindex, hfunds, salt, htx⟩ :=
      hspending.of_mem_walletCalls hcall
    exact ⟨now, owner, cost, holdings, funds, salt, hcleared, hindex, hfunds, htx⟩

/-- What the wallet is asked to execute for liquidity. -/
theorem handed_of_addLiquidity {m : Market}
    (h : (t.addLiquidity m).Runs known es outcome after)
    {tx : Transaction} {effects : Except String Effects} (hcall : (tx, effects) ∈ walletCalls es) :
    ∃ owner holdings funds yes no, t.owner = .ok owner ∧
      indexCalls es = [(owner, .ok holdings)] ∧
      Funds.ofHoldings owner holdings t.liquidity.cost = .ok funds ∧
      tx = funds.transaction
        (Assembly.addLiquidity t.packages owner m.address t.liquidity yes no) := by
  obtain ⟨es₁, es₂, hprovide, hjournaled, rfl⟩ := runs_recorded_iff.1 h
  rw [hjournaled.walletCalls_append] at hcall
  rw [hjournaled.indexCalls_append]
  obtain ⟨e, -, rfl, -, -⟩ | ⟨owner, howner, hspending⟩ := runs_provide hprovide
  · cases hcall
  · obtain ⟨holdings, funds, hindex, hfunds, yes, no, htx⟩ :=
      hspending.of_mem_walletCalls hcall
    exact ⟨owner, holdings, funds, yes, no, howner, hindex, hfunds, htx⟩

/-- An order that is cleared, and for which the coins do, goes to the wallet. -/
theorem walletCalls_submit_ne_nil {m : Market} {request : OrderRequest}
    (h : (t.submit m request).Runs known es outcome after)
    (hclear : ∀ now, .clock now ∈ es → ∃ owner cost,
      t.cleared m request now = .ok (owner, cost) ∧
        ∀ reply, .index owner reply ∈ es → ∃ funds, funded owner cost reply = .ok funds) :
    walletCalls es ≠ [] := by
  obtain ⟨now, hhead, hpath⟩ := runs_submit h
  obtain ⟨owner, cost, hcleared, hfunds⟩ := hclear now (List.mem_of_mem_head? hhead)
  obtain ⟨e, hrefused, -⟩ | ⟨_, _, reply, hcleared', hasked, -, hpath⟩ := hpath
  · rw [hcleared] at hrefused
    cases hrefused
  cases hcleared.symm.trans hcleared'
  obtain ⟨funds, hfunded⟩ :=
    hfunds reply (mem_indexCalls_iff.1 (hasked ▸ List.mem_singleton_self _))
  obtain ⟨e, hrefused, -⟩ | ⟨_, _, _, -, hone, -⟩ := hpath
  · rw [hfunded] at hrefused
    cases hrefused
  · rw [hone]
    exact List.cons_ne_nil _ _

/-- Liquidity for which the coins do goes to the wallet. -/
theorem walletCalls_addLiquidity_ne_nil {m : Market} {owner : String}
    (h : (t.addLiquidity m).Runs known es outcome after) (howner : t.owner = .ok owner)
    (hfunds : ∀ reply, .index owner reply ∈ es →
      ∃ funds, funded owner t.liquidity.cost reply = .ok funds) : walletCalls es ≠ [] := by
  obtain ⟨es₁, es₂, hprovide, hjournaled, rfl⟩ := runs_recorded_iff.1 h
  rw [hjournaled.walletCalls_append]
  obtain ⟨e, hrefused, -⟩ | ⟨_, howner', hspending⟩ := runs_provide hprovide
  · rw [howner] at hrefused
    cases hrefused
  cases howner.symm.trans howner'
  refine hspending.walletCalls_ne_nil fun reply hreply => hfunds reply ?_
  exact List.mem_append_left _ (mem_indexCalls_iff.1 hreply)

/-- Coins that do are handed over in some run. -/
theorem exists_runs_addLiquidity (m : Market) (known : Store) {owner : String} {holdings : Holdings}
    {funds : Funds} (howner : t.owner = .ok owner)
    (hfunds : Funds.ofHoldings owner holdings t.liquidity.cost = .ok funds) (yes no : UInt64)
    (effects : Except String Effects) :
    ∃ es, (t.addLiquidity m).Runs known es (settle effects) (known.setHoldings holdings) ∧
      indexCalls es = [(owner, .ok holdings)] ∧
      walletCalls es = [(funds.transaction
        (Assembly.addLiquidity t.packages owner m.address t.liquidity yes no), effects)] := by
  obtain ⟨row, hrow⟩ :=
    Journaled.exists_at t (settle effects) (.ofLiquidity m t.liquidity) early
  have hprovide := provide_runs m known howner hfunds yes no effects
  exact ⟨_, runs_recorded_iff.2 ⟨_, row, hprovide, hrow, rfl⟩, hrow.indexCalls_append _,
    hrow.walletCalls_append _⟩

/-- Asking for a resolution lists the wish in the journal, if there is one, and looks at the clock
for the time of the request and once more for the end of the market. -/
theorem runs_resolve {m : Market} {request : ResolveRequest}
    (h : (t.resolve m).Runs known es request after) :
    after = known ∧ ∃ listed requestedAt now,
      es = listed ++ [.clock requestedAt, .clock now] ∧
      request = ⟨m.address, requestedAt, m.isEndedAt now.toMillis⟩ ∧
      ((t.hasJournal = false ∧ listed = []) ∨
        t.hasJournal = true ∧ ∃ time,
          listed = [.clock time, .journal (.event time m.address "resolve requested")]) := by
  -- The two looks at the clock end both branches, so they are taken apart once.
  have hlooks {rest : List Exchange} (hrest : Session.Runs (do
      let requestedAt : Instant ← Session.put .now
      let now : Instant ← Session.put .now
      return ⟨m.address, requestedAt, m.isEndedAt now.toMillis⟩) known rest request after) :
      after = known ∧ ∃ requestedAt now, rest = [.clock requestedAt, .clock now] ∧
        request = ⟨m.address, requestedAt, m.isEndedAt now.toMillis⟩ := by
    obtain ⟨requestedAt, _, rfl, hnow⟩ := Session.runs_put_bind_iff.1 hrest
    obtain ⟨now, _, rfl, hend⟩ := Session.runs_put_bind_iff.1 hnow
    obtain ⟨rfl, rfl, rfl⟩ := Session.runs_pure_iff.1 hend
    exact ⟨rfl, requestedAt, now, rfl, rfl⟩
  unfold resolve at h
  by_cases hjournal : t.hasJournal = true
  · rw [if_pos hjournal] at h
    obtain ⟨time, _, rfl, hrecord⟩ := Session.runs_put_bind_iff.1 h
    obtain ⟨⟨⟩, _, rfl, hrest⟩ := Session.runs_put_bind_iff.1 hrecord
    obtain ⟨hafter, requestedAt, now, rfl, hrequest⟩ := hlooks hrest
    exact ⟨hafter, _, requestedAt, now, rfl, hrequest, .inr ⟨hjournal, time, rfl⟩⟩
  · rw [if_neg hjournal] at h
    obtain ⟨hafter, requestedAt, now, rfl, hrequest⟩ := hlooks h
    exact ⟨hafter, [], requestedAt, now, rfl, hrequest,
      .inl ⟨Bool.eq_false_iff.2 hjournal, rfl⟩⟩

/-- A creation is refused at once, or the wallet is asked for it. -/
theorem runs_create {name : String} {prepared : Except TradeError Transaction}
    (h : (t.create name prepared).Runs known es outcome after) :
    after = known ∧ indexCalls es = [] ∧
      ((∃ e, prepared = .error e ∧ outcome = .error e ∧ es = []) ∨
        ∃ tx effects, prepared = .ok tx ∧ walletCalls es = [(tx, effects)] ∧
          outcome = settle effects) := by
  cases prepared with
  | error e =>
    obtain ⟨rfl, rfl, rfl⟩ := Session.runs_pure_iff.1 h
    exact ⟨rfl, rfl, .inl ⟨e, rfl, rfl, rfl⟩⟩
  | ok tx =>
    obtain ⟨es₁, es₂, hexecute, hjournaled, rfl⟩ := runs_recorded_iff.1 h
    obtain ⟨effects, rfl, rfl, rfl⟩ := runs_execute_iff.1 hexecute
    refine ⟨rfl, ?_, .inr ⟨tx, effects, rfl, ?_, rfl⟩⟩
    · exact hjournaled.indexCalls_append _
    · exact hjournaled.walletCalls_append _

end Trader

end PredictionMarket
