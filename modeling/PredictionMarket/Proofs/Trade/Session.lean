import PredictionMarket.Proofs.Dialogue
import PredictionMarket.Trade.Trader

/-!
# Runs of trading

What a session of trading does is told by its runs: the exchanges with the surroundings, the result
and what is known in the end.

## Main definitions

* `Trade.Session.Runs`, `Trade.Attempt.Runs`: a run of a session, and of one that may stop with an
  error.
* `Trade.indexCalls`, `Trade.walletCalls`: what the index and the wallet were asked, with their
  replies.
-/

namespace PredictionMarket

namespace Trade

/-- A question of trading with the answer to it. -/
abbrev Exchange := Dialogue.Exchange Question.Answer

namespace Exchange

/-- The clock is read. -/
def clock (now : Instant) : Exchange := ⟨.now, now⟩

/-- A number is drawn. -/
def draw (salt : UInt64) : Exchange := ⟨.salt, salt⟩

/-- The index is asked for the coins of an owner. -/
def index (owner : String) (reply : Except String Holdings) : Exchange := ⟨.holdings owner, reply⟩

/-- The wallet is handed a transaction. -/
def wallet (tx : Transaction) (reply : Except String Effects) : Exchange := ⟨.execute tx, reply⟩

/-- The journal is given a row. -/
def journal (row : Journal.Row) : Exchange := ⟨.record row, ()⟩

end Exchange

/-- The owners whose coins the index was asked for, with its replies. -/
def indexCalls (es : List Exchange) : List (String × Except String Holdings) :=
  es.filterMap fun
    | ⟨.holdings owner, reply⟩ => some (owner, reply)
    | _ => none

/-- The transactions that were handed to the wallet, with its replies. -/
def walletCalls (es : List Exchange) : List (Transaction × Except String Effects) :=
  es.filterMap fun
    | ⟨.execute tx, reply⟩ => some (tx, reply)
    | _ => none

theorem indexCalls_append (es₁ es₂ : List Exchange) :
    indexCalls (es₁ ++ es₂) = indexCalls es₁ ++ indexCalls es₂ :=
  List.filterMap_append

theorem walletCalls_append (es₁ es₂ : List Exchange) :
    walletCalls (es₁ ++ es₂) = walletCalls es₁ ++ walletCalls es₂ :=
  List.filterMap_append

/-- The calls to the index are the exchanges with it. -/
theorem mem_indexCalls_iff {es : List Exchange} {owner : String}
    {reply : Except String Holdings} :
    (owner, reply) ∈ indexCalls es ↔ Exchange.index owner reply ∈ es := by
  rw [indexCalls, List.mem_filterMap]
  constructor
  · rintro ⟨⟨q, r⟩, hmem, heq⟩
    cases q with
    | holdings other =>
      cases heq
      exact hmem
    | _ => cases heq
  · intro hmem
    exact ⟨_, hmem, rfl⟩

/-- Drawing numbers concerns neither the index nor the wallet. -/
theorem indexCalls_draws (salts : List UInt64) : indexCalls (salts.map Exchange.draw) = [] :=
  List.filterMap_eq_nil_iff.2 (List.forall_mem_map.2 fun _ _ => rfl)

theorem walletCalls_draws (salts : List UInt64) : walletCalls (salts.map Exchange.draw) = [] :=
  List.filterMap_eq_nil_iff.2 (List.forall_mem_map.2 fun _ _ => rfl)

namespace Session

variable {α β : Type}

/-- A session that starts with what is known has these exchanges and this result, and knows more
or other things after it. -/
def Runs (s : Session α) (known : Store) (es : List Exchange) (a : α) (after : Store) : Prop :=
  (s.run known).Held es (a, after)

/-- A result asks nothing and leaves the store as it is. -/
theorem runs_pure_iff {a b : α} {known after : Store} {es : List Exchange} :
    Runs (pure a) known es b after ↔ es = [] ∧ b = a ∧ after = known := by
  refine Dialogue.held_done_iff.trans ?_
  rw [Prod.mk.injEq]

/-- A session in two steps runs the second on what the first gave, with the store that it left. -/
theorem runs_bind_iff {s : Session α} {f : α → Session β} {b : β} {known after : Store}
    {es : List Exchange} :
    Runs (s >>= f) known es b after ↔
      ∃ es₁ a between es₂,
        Runs s known es₁ a between ∧ Runs (f a) between es₂ b after ∧ es = es₁ ++ es₂ := by
  refine Dialogue.held_bind_iff.trans ?_
  constructor
  · rintro ⟨es₁, ⟨a, between⟩, es₂, h₁, h₂, rfl⟩
    exact ⟨es₁, a, between, es₂, h₁, h₂, rfl⟩
  · rintro ⟨es₁, a, between, es₂, h₁, h₂, rfl⟩
    exact ⟨es₁, (a, between), es₂, h₁, h₂, rfl⟩

/-- A question is one exchange and leaves the store as it is. -/
theorem runs_put_iff {q : Question} {r : q.Answer} {known after : Store} {es : List Exchange} :
    Runs (put q) known es r after ↔ es = [⟨q, r⟩] ∧ after = known := by
  constructor
  · intro h
    obtain ⟨r', rest, rfl, hrest⟩ := Dialogue.held_ask_iff.1 h
    obtain ⟨rfl, heq⟩ := Dialogue.held_done_iff.1 hrest
    obtain ⟨rfl, rfl⟩ := Prod.mk.inj heq
    exact ⟨rfl, rfl⟩
  · rintro ⟨rfl, rfl⟩
    exact .ask r (.done _)

/-- After a question the session runs on with the answer. -/
theorem runs_put_bind_iff {q : Question} {f : q.Answer → Session β} {b : β}
    {known after : Store} {es : List Exchange} :
    Runs (put q >>= f) known es b after ↔
      ∃ r rest, es = ⟨q, r⟩ :: rest ∧ Runs (f r) known rest b after := by
  rw [runs_bind_iff]
  constructor
  · rintro ⟨es₁, r, between, rest, h₁, h₂, rfl⟩
    obtain ⟨rfl, rfl⟩ := runs_put_iff.1 h₁
    exact ⟨r, rest, rfl, h₂⟩
  · rintro ⟨r, rest, rfl, h⟩
    exact ⟨[⟨q, r⟩], r, known, rest, runs_put_iff.2 ⟨rfl, rfl⟩, h, rfl⟩

/-- Holdings are asked of the index, and kept if it replies with some. -/
theorem runs_refreshHoldings_iff {owner : String} {reply : Except String Holdings}
    {known after : Store} {es : List Exchange} :
    Runs (refreshHoldings owner) known es reply after ↔
      es = [.index owner reply] ∧ after = known.refreshHoldings reply := by
  constructor
  · intro h
    obtain ⟨r, rest, rfl, hrest⟩ := Dialogue.held_ask_iff.1 h
    obtain ⟨rfl, heq⟩ := Dialogue.held_done_iff.1 hrest
    obtain ⟨rfl, rfl⟩ := Prod.mk.inj heq
    exact ⟨rfl, rfl⟩
  · rintro ⟨rfl, rfl⟩
    exact Dialogue.held_ask_iff.2 ⟨reply, [], rfl, .done _⟩

end Session

namespace Attempt

variable {α β : Type}

/-- An attempt that starts with what is known has these exchanges and this outcome, and knows more
or other things after it. -/
def Runs (a : Attempt α) (known : Store) (es : List Exchange) (outcome : Except TradeError α)
    (after : Store) : Prop :=
  Session.Runs a.run known es outcome after

/-- What is decided already is decided without an exchange. -/
theorem runs_outcome_iff {r outcome : Except TradeError α} {known after : Store}
    {es : List Exchange} :
    Runs (Trader.attempt r) known es outcome after ↔ es = [] ∧ outcome = r ∧ after = known :=
  Session.runs_pure_iff

/-- An error asks nothing and leaves the store as it is. -/
theorem runs_throw_iff {e : TradeError} {outcome : Except TradeError α} {known after : Store}
    {es : List Exchange} :
    Runs (throw e) known es outcome after ↔ es = [] ∧ outcome = .error e ∧ after = known :=
  Session.runs_pure_iff

/-- An attempt that goes on with another one stops at the first error. -/
theorem runs_bind_iff {a : Attempt α} {f : α → Attempt β} {outcome : Except TradeError β}
    {known after : Store} {es : List Exchange} :
    Runs (a >>= f) known es outcome after ↔
      (∃ e, outcome = .error e ∧ Runs a known es (.error e) after) ∨
      ∃ es₁ x between es₂,
        Runs a known es₁ (.ok x) between ∧ Runs (f x) between es₂ outcome after ∧
          es = es₁ ++ es₂ := by
  refine Session.runs_bind_iff.trans ?_
  constructor
  · rintro ⟨es₁, r, between, es₂, h₁, h₂, rfl⟩
    cases r with
    | error e =>
      obtain ⟨rfl, rfl, rfl⟩ := Session.runs_pure_iff.1 h₂
      exact .inl ⟨e, rfl, (List.append_nil es₁).symm ▸ h₁⟩
    | ok x => exact .inr ⟨es₁, x, between, es₂, h₁, h₂, rfl⟩
  · rintro (⟨e, rfl, h⟩ | ⟨es₁, x, between, es₂, h₁, h₂, rfl⟩)
    · exact ⟨es, .error e, after, [], h, Session.runs_pure_iff.2 ⟨rfl, rfl, rfl⟩,
        (List.append_nil es).symm⟩
    · exact ⟨es₁, .ok x, between, es₂, h₁, h₂, rfl⟩

/-- After what is decided already an attempt stops at the error, or runs on with the result. -/
theorem runs_outcome_bind_iff {r : Except TradeError α} {f : α → Attempt β}
    {outcome : Except TradeError β} {known after : Store} {es : List Exchange} :
    Runs (Trader.attempt r >>= f) known es outcome after ↔
      (∃ e, r = .error e ∧ es = [] ∧ outcome = .error e ∧ after = known) ∨
      ∃ x, r = .ok x ∧ Runs (f x) known es outcome after := by
  rw [runs_bind_iff]
  constructor
  · rintro (⟨e, rfl, h⟩ | ⟨es₁, x, between, es₂, h₁, h₂, rfl⟩)
    · obtain ⟨rfl, rfl, rfl⟩ := runs_outcome_iff.1 h
      exact .inl ⟨e, rfl, rfl, rfl, rfl⟩
    · obtain ⟨rfl, rfl, rfl⟩ := runs_outcome_iff.1 h₁
      exact .inr ⟨x, rfl, h₂⟩
  · rintro (⟨e, rfl, rfl, rfl, rfl⟩ | ⟨x, rfl, h⟩)
    · exact .inl ⟨e, rfl, runs_outcome_iff.2 ⟨rfl, rfl, rfl⟩⟩
    · exact .inr ⟨[], x, known, es, runs_outcome_iff.2 ⟨rfl, rfl, rfl⟩, h, rfl⟩

/-- A session that an attempt begins with never stops it. -/
theorem runs_lift_bind_iff {s : Session α} {f : α → Attempt β} {outcome : Except TradeError β}
    {known after : Store} {es : List Exchange} :
    Runs (liftM s >>= f) known es outcome after ↔
      ∃ es₁ x between es₂,
        s.Runs known es₁ x between ∧ Runs (f x) between es₂ outcome after ∧ es = es₁ ++ es₂ := by
  -- A lifted session hands its result on as a success, so binding skips the test for an error.
  have hrun : (liftM s >>= f : Attempt β).run = s >>= fun x => (f x).run := by
    rw [ExceptT.run_bind]
    exact bind_map_left _ _ _
  rw [Runs, hrun, Session.runs_bind_iff]
  rfl

/-- After a question an attempt runs on with the answer. -/
theorem runs_put_bind_iff {q : Question} {f : q.Answer → Attempt β}
    {outcome : Except TradeError β} {known after : Store} {es : List Exchange} :
    Runs (liftM (Session.put q) >>= f) known es outcome after ↔
      ∃ r rest, es = ⟨q, r⟩ :: rest ∧ Runs (f r) known rest outcome after := by
  rw [runs_lift_bind_iff]
  constructor
  · rintro ⟨es₁, r, between, rest, h₁, h₂, rfl⟩
    obtain ⟨rfl, rfl⟩ := Session.runs_put_iff.1 h₁
    exact ⟨r, rest, rfl, h₂⟩
  · rintro ⟨r, rest, rfl, h⟩
    exact ⟨[⟨q, r⟩], r, known, rest, Session.runs_put_iff.2 ⟨rfl, rfl⟩, h, rfl⟩

end Attempt

/-- An instant long before any market ends. -/
def early : Instant := ⟨⟨1970, 1, 1, rfl⟩, 0, 0, 0, 0, rfl⟩

/-- Surroundings in which every owner has some coins and every transaction succeeds. -/
def plainAnswer (coins : List Coin) (_ : List Exchange) : (q : Question) → q.Answer
  | .now => early
  | .salt => (7 : UInt64)
  | .holdings owner => (.ok ⟨owner, coins⟩ : Except String Holdings)
  | .execute _ => (.ok ⟨"0xd1", true, none⟩ : Except String Effects)
  | .record _ => ()

end Trade

/-- A trader with a connected account and a journal. -/
def Trader.sample : Trader :=
  ⟨some "0xa11ce", ⟨"0x11", "0x22", "0x33::usdc::USDC", "0x6"⟩, .default, true⟩

/-- A market that is open and has a price for YES. -/
def Market.sample : Market :=
  { address := "0xbeef", topic := "Rain", description := "", yes := 0, no := 0, startTime := 0
    endTime := 4000000000000, balance := 0, yesPrice := some 600000000, noPrice := none
    oracleConfig := "" }

end PredictionMarket
