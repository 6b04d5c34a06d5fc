import PredictionMarket.Proofs.Journal.ReadBack
import PredictionMarket.Proofs.Trade.Operations

/-!
# What the journal lists

A trader with a journal leaves one row in it for every operation, unless a creation is refused
before the wallet is asked. The journal of a whole history reads back as the header and these rows
in their order, with what the caller was told of each operation.

## Main definitions

* `Trader.Event`, `Trader.History`: an operation as it went, and operations in a row.
* `Trade.journalRows`: what the journal was given.
* `Trader.Event.isListed`, `Trader.Event.fields`: whether an event has a row, and what is in it.

## Main results

* `Trader.journal_lists_history`: the journal of a history, read back.
-/

namespace PredictionMarket

namespace Trade

/-- The rows that the journal was given. -/
def journalRows (es : List Exchange) : List Journal.Row :=
  es.filterMap fun
    | ⟨.record row, _⟩ => some row
    | _ => none

theorem journalRows_append (es₁ es₂ : List Exchange) :
    journalRows (es₁ ++ es₂) = journalRows es₁ ++ journalRows es₂ :=
  List.filterMap_append

theorem journalRows_draws (salts : List UInt64) : journalRows (salts.map Exchange.draw) = [] :=
  List.filterMap_eq_nil_iff.2 (List.forall_mem_map.2 fun _ _ => rfl)

/-- Spending coins is no matter of the journal. -/
theorem Spending.journalRows_eq_nil {owner : String} {need : UInt64}
    {built : Funds → Transaction → Prop} {known after : Store} {es : List Exchange}
    {outcome : Except TradeError Effects} (h : Spending owner need built known es outcome after) :
    journalRows es = [] := by
  cases h with
  | refused h => rfl
  | handed salts h hb =>
    change journalRows (salts.map Exchange.draw ++ _) = _
    rw [journalRows_append, journalRows_draws]
    rfl

/-- A number in decimal digits. -/
def decimal (n : UInt64) : String :=
  toString n.toNat

/-- The digest and the status that tell of an outcome. -/
def told : Except TradeError Effects → List String
  | .ok effects => [effects.digest, "ok"]
  | .error (.rejected digest reason) => [digest, "failed: " ++ reason]
  | .error e => ["", "error: " ++ e.message]

end Trade

namespace Trader

open Trade

/-- An operation as it went: what was said with the surroundings, and what the caller got. -/
inductive Event where
  | traded (op : Operation) (exchanges : List Exchange) (outcome : Except TradeError Effects)
  | resolved (m : Market) (exchanges : List Exchange) (request : ResolveRequest)

namespace Operation

/-- Whether an operation creates something, so that no market belongs to it yet. -/
def isCreation : Operation → Bool
  | submit .. | addLiquidity _ => false
  | createMarket .. | createOracle .. => true

/-- The market of an operation. -/
def market? : Operation → Option Market
  | submit m _ | addLiquidity m => some m
  | createMarket .. | createOracle .. => none

/-- What a row tells of an operation: market, action, side, quantity and price. An order for shares
has the price that the market has for its side. -/
def description (t : Trader) : Operation → List String
  | submit m (.market side quantity) =>
    [m.address, "buy", side.label, decimal quantity,
      if m.quote side = 0 then "" else toString (m.quote side)]
  | submit m (.limit side amount price) =>
    [m.address, "limit", side.label, decimal amount, decimal price]
  | addLiquidity m =>
    [m.address, "add_liquidity", "", decimal t.liquidity.lpAmount, decimal t.liquidity.seedPrice]
  | createMarket .. => ["", "create_market", "", "", ""]
  | createOracle .. => ["", "create_oracle_config", "", "", ""]

/-- What an operation is listed as. -/
def action (t : Trader) : Operation → Action
  | submit m request => .ofRequest m request
  | addLiquidity m => .ofLiquidity m t.liquidity
  | createMarket .. => .creation "create_market"
  | createOracle .. => .creation "create_oracle_config"

end Operation

namespace Event

/-- What was said with the surroundings. -/
def exchanges : Event → List Exchange
  | traded _ es _ | resolved _ es _ => es

/-- The event can go like this, from what is known before to what is known after it. -/
def Happens (t : Trader) (known : Store) (after : Store) : Event → Prop
  | traded op es outcome => (t.perform op).Runs known es outcome after
  | resolved m es request => (t.resolve m).Runs known es request after

/-- The market of an event. -/
def market? : Event → Option Market
  | traded op _ _ => op.market?
  | resolved m _ _ => some m

/-- Whether the journal lists an event: any but a creation that never came to the wallet. -/
def isListed : Event → Bool
  | traded op es _ => !op.isCreation || !(walletCalls es).isEmpty
  | resolved .. => true

/-- The fields of the row of an event after its time. -/
def fields (t : Trader) : Event → List String
  | traded op _ outcome => op.description t ++ told outcome
  | resolved m _ _ => [m.address, "event", "", "", "", "", "resolve requested"]

/-- The row of an event. -/
def row (t : Trader) (now : Instant) : Event → Journal.Row
  | traded op _ outcome => (op.action t).row now outcome
  | resolved m _ _ => .event now m.address "resolve requested"

end Event

/-- The events happen one after the other, each with what is known after the one before it. -/
inductive History (t : Trader) : Store → List Event → Store → Prop where
  | nil (known : Store) : History t known [] known
  | cons {known between after : Store} {e : Event} {events : List Event}
      (he : e.Happens t known between) (rest : History t between events after) :
      History t known (e :: events) after

variable {t : Trader} {known after : Store} {es : List Exchange}
  {outcome : Except TradeError Effects}

/-! ### The row of one event -/

/-- What is recorded in front of no other row is the only row. -/
theorem Journaled.journalRows_append {a : Action} (h : t.Journaled a outcome es)
    (hjournal : t.hasJournal = true) {before : List Exchange} (hbefore : journalRows before = []) :
    ∃ now, .clock now ∈ before ++ es ∧ journalRows (before ++ es) = [a.row now outcome] := by
  obtain ⟨hnone, -⟩ | ⟨-, now, rfl⟩ := h
  · rw [hjournal] at hnone
    cases hnone
  · refine ⟨now, List.mem_append_right _ List.mem_cons_self, ?_⟩
    rw [Trade.journalRows_append, hbefore]
    rfl

/-- Placing an order lists nothing until its outcome is known. -/
theorem journalRows_of_place {m : Market} {request : OrderRequest}
    (h : (t.place m request).Runs known es outcome after) : journalRows es = [] := by
  obtain ⟨now, rest, rfl, ⟨_, -, rfl, -, -⟩ | ⟨_, _, -, hspending⟩⟩ := runs_place h
  · rfl
  · exact hspending.journalRows_eq_nil

/-- Nor does providing liquidity. -/
theorem journalRows_of_provide {m : Market} (h : (t.provide m).Runs known es outcome after) :
    journalRows es = [] := by
  obtain ⟨_, -, rfl, -, -⟩ | ⟨_, -, hspending⟩ := runs_provide h
  · rfl
  · exact hspending.journalRows_eq_nil

/-- A creation is listed if it comes to the wallet, and leaves no trace otherwise. -/
theorem journalRows_of_create (hjournal : t.hasJournal = true) {name : String}
    {prepared : Except TradeError Transaction}
    (h : (t.create name prepared).Runs known es outcome after) :
    (walletCalls es = [] ∧ journalRows es = []) ∨
      walletCalls es ≠ [] ∧ ∃ now, .clock now ∈ es ∧
        journalRows es = [(Action.creation name).row now outcome] := by
  cases prepared with
  | error e =>
    obtain ⟨rfl, -, -⟩ := Session.runs_pure_iff.1 h
    exact .inl ⟨rfl, rfl⟩
  | ok tx =>
    obtain ⟨es₁, es₂, hexecute, hjournaled, rfl⟩ := runs_recorded_iff.1 h
    obtain ⟨effects, rfl, -, -⟩ := runs_execute_iff.1 hexecute
    exact .inr ⟨List.cons_ne_nil _ _, hjournaled.journalRows_append hjournal rfl⟩

/-- A request to resolve is listed once, at a time that the clock told. -/
theorem journalRows_of_resolve (hjournal : t.hasJournal = true) {m : Market}
    {request : ResolveRequest} (h : (t.resolve m).Runs known es request after) :
    ∃ now, .clock now ∈ es ∧
      journalRows es = [Journal.Row.event now m.address "resolve requested"] := by
  obtain ⟨-, _, requestedAt, now, rfl, -, ⟨hnone, -⟩ | ⟨-, time, rfl⟩⟩ := runs_resolve h
  · rw [hjournal] at hnone
    cases hnone
  · exact ⟨time, List.mem_cons_self, rfl⟩

/-- An event leaves its row in the journal, or nothing if it is not listed. -/
theorem Event.Happens.journalRows_eq (hjournal : t.hasJournal = true) {e : Event}
    (h : e.Happens t known after) :
    (e.isListed = true ∧
        ∃ now, .clock now ∈ e.exchanges ∧ journalRows e.exchanges = [e.row t now]) ∨
      e.isListed = false ∧ journalRows e.exchanges = [] := by
  cases e with
  | resolved m es request => exact .inl ⟨rfl, journalRows_of_resolve hjournal h⟩
  | traded op es outcome =>
    have hcreation {name : String} {prepared : Except TradeError Transaction}
        (hop : op.isCreation = true)
        (hcreate : (t.create name prepared).Runs known es outcome after) :
        ((Event.traded op es outcome).isListed = true ∧ ∃ now, .clock now ∈ es ∧
            journalRows es = [(Action.creation name).row now outcome]) ∨
          (Event.traded op es outcome).isListed = false ∧ journalRows es = [] := by
      obtain ⟨hnone, hrows⟩ | ⟨hsome, hrows⟩ := journalRows_of_create hjournal hcreate
      · exact .inr ⟨by simp [isListed, hop, hnone], hrows⟩
      · exact .inl ⟨by simp [isListed, hsome], hrows⟩
    cases op with
    | submit m request =>
      obtain ⟨es₁, es₂, hplace, hjournaled, rfl⟩ := runs_recorded_iff.1 h
      exact .inl ⟨rfl, hjournaled.journalRows_append hjournal (journalRows_of_place hplace)⟩
    | addLiquidity m =>
      obtain ⟨es₁, es₂, hprovide, hjournaled, rfl⟩ := runs_recorded_iff.1 h
      exact .inl ⟨rfl, hjournaled.journalRows_append hjournal (journalRows_of_provide hprovide)⟩
    | createMarket topic description startTime endTime => exact hcreation rfl h
    | createOracle codeHash blobId => exact hcreation rfl h

/-! ### What is in a row -/

/-- A price is listed as its quote, and no price as nothing. -/
theorem numberField_price? (m : Market) (side : Side) :
    Journal.numberField (m.price? side) =
      if m.quote side = 0 then "" else toString (m.quote side) := by
  rw [m.price?_eq]
  split
  · rfl
  · rw [Journal.numberField, UInt64.toNat_ofNat_of_lt' (m.quote_lt side)]

/-- The row of an event has the time in front of the fields of the event. -/
theorem Event.fields_row (e : Event) (now : Instant) :
    (e.row t now).fields = now.text "+00:00" :: e.fields t := by
  have htold (a : Action) (outcome : Except TradeError Effects) :
      [(a.row now outcome).digest.getD "", (a.row now outcome).status] = told outcome := by
    cases outcome with
    | ok effects => rfl
    | error e => cases e <;> rfl
  cases e with
  | resolved m es request => rfl
  | traded op es outcome =>
    have hrow (a : Action) : (a.row now outcome).fields =
        now.text "+00:00" :: [a.market, a.name, (a.side.map Side.label).getD "",
          Journal.numberField a.quantity, Journal.numberField a.price] ++ told outcome := by
      rw [← htold a]
      rfl
    change ((op.action t).row now outcome).fields = _
    rw [hrow]
    cases op with
    | submit m request =>
      cases request with
      | market side quantity =>
        change _ = now.text "+00:00" :: ([_, _, _, _, _] ++ told outcome)
        rw [← numberField_price?]
        rfl
      | limit side amount price => rfl
    | addLiquidity m => rfl
    | createMarket topic description startTime endTime => rfl
    | createOracle codeHash blobId => rfl

/-- The digest in a row is one that the wallet replied with. -/
theorem Event.Happens.digest_row {e : Event} (h : e.Happens t known after) (now : Instant) :
    (e.row t now).digest = none ∨ ∃ tx effects, (tx, .ok effects) ∈ walletCalls e.exchanges ∧
      (e.row t now).digest = some effects.digest := by
  cases e with
  | resolved m es request => exact .inl rfl
  | traded op es outcome =>
    obtain ⟨-, e, rfl, hrefusal⟩ | ⟨tx, reply, hone, rfl⟩ := perform_refused_or_handed h
    · refine .inl ?_
      cases e with
      | rejected digest reason => exact hrefusal.elim
      | _ => rfl
    cases reply with
    | error cause => exact .inl rfl
    | ok effects =>
      refine .inr ⟨tx, effects, hone ▸ List.mem_singleton_self _, ?_⟩
      obtain hsuccess | hsuccess := Bool.eq_false_or_eq_true effects.success
      · simp [row, Action.row, settle, hsuccess]
      · simp [row, Action.row, settle, hsuccess]

/-- The name of a side needs no quotes. -/
theorem isBare_label (side : Side) : Csv.IsBare side.label.toList := by
  cases side <;> decide

/-- If the addresses of markets and the digests of the wallet need no quotes, a row needs none. -/
theorem Event.Happens.isBare_row {e : Event} (h : e.Happens t known after) (now : Instant)
    (hmarket : ∀ m, e.market? = some m → Journal.needsQuotes m.address = false)
    (hdigest : ∀ tx effects, (tx, .ok effects) ∈ walletCalls e.exchanges →
      Journal.needsQuotes effects.digest = false) :
    (e.row t now).IsBare := by
  have hplain : ∀ text ∈ ["", "event", "buy", "limit", "add_liquidity", "create_market",
      "create_oracle_config"], Csv.IsBare text.toList := by decide
  have hreplied : Csv.IsBare ((e.row t now).digest.getD "").toList := by
    obtain hnone | ⟨tx, effects, hcall, hsome⟩ := h.digest_row now
    · rw [hnone]
      exact hplain "" (by decide)
    · rw [hsome]
      exact Csv.isBare_of_needsQuotes_eq_false (hdigest tx effects hcall)
  have haddress : ∀ m, e.market? = some m → Csv.IsBare m.address.toList := fun m hm =>
    Csv.isBare_of_needsQuotes_eq_false (hmarket m hm)
  suffices hothers : Csv.IsBare (e.row t now).market.toList ∧
      Csv.IsBare (e.row t now).action.toList ∧
      Csv.IsBare ((e.row t now).side.getD "").toList by
    obtain ⟨h₁, h₂, h₃⟩ := hothers
    simpa [Journal.Row.IsBare] using ⟨h₁, h₂, h₃, hreplied⟩
  cases e with
  | resolved m es request =>
    exact ⟨haddress m rfl, hplain "event" (by decide), hplain "" (by decide)⟩
  | traded op es outcome =>
    cases op with
    | submit m request =>
      cases request with
      | market side quantity => exact ⟨haddress m rfl, hplain "buy" (by decide), isBare_label side⟩
      | limit side amount price =>
        exact ⟨haddress m rfl, hplain "limit" (by decide), isBare_label side⟩
    | addLiquidity m =>
      exact ⟨haddress m rfl, hplain "add_liquidity" (by decide), hplain "" (by decide)⟩
    | createMarket topic description startTime endTime =>
      exact ⟨hplain "" (by decide), hplain "create_market" (by decide), hplain "" (by decide)⟩
    | createOracle codeHash blobId =>
      exact ⟨hplain "" (by decide), hplain "create_oracle_config" (by decide),
        hplain "" (by decide)⟩

/-! ### The journal of a history -/

/-- The journal is given the rows of the events that are listed, one for each. -/
theorem History.forall₂_journalRows (hjournal : t.hasJournal = true) {events : List Event}
    (h : History t known events after) :
    List.Forall₂ (fun e row => ∃ now, .clock now ∈ e.exchanges ∧ row = e.row t now)
      (events.filter Event.isListed) (journalRows (events.flatMap Event.exchanges)) := by
  induction h with
  | nil known => exact .nil
  | @cons known between after e events he rest ih =>
    rw [List.flatMap_cons, Trade.journalRows_append]
    obtain ⟨hlisted, now, hclock, hrow⟩ | ⟨hlisted, hnone⟩ := he.journalRows_eq hjournal
    · rw [List.filter_cons_of_pos hlisted, hrow]
      exact .cons ⟨now, hclock, rfl⟩ ih
    · rw [List.filter_cons_of_neg (by rw [hlisted]; decide), hnone]
      exact ih

/-- Every row belongs to an event of the history. -/
theorem History.exists_row_of_mem (hjournal : t.hasJournal = true) {events : List Event}
    (h : History t known events after) {row : Journal.Row}
    (hrow : row ∈ journalRows (events.flatMap Event.exchanges)) :
    ∃ e ∈ events, ∃ now before later, e.Happens t before later ∧ row = e.row t now := by
  induction h with
  | nil known => cases hrow
  | @cons known between after e events he rest ih =>
    rw [List.flatMap_cons, Trade.journalRows_append] at hrow
    obtain hrow | hrow := List.mem_append.1 hrow
    · refine ⟨e, List.mem_cons_self, ?_⟩
      obtain ⟨-, now, -, hone⟩ | ⟨-, hnone⟩ := he.journalRows_eq hjournal
      · rw [hone] at hrow
        exact ⟨now, _, _, he, List.mem_singleton.1 hrow⟩
      · rw [hnone] at hrow
        cases hrow
    · obtain ⟨e', he', hrow'⟩ := ih hrow
      exact ⟨e', List.mem_cons_of_mem e he', hrow'⟩

/-- Whatever the index and the wallet do, the journal of a history reads back as its header and one
row for each event in turn, creations apart that never came to the wallet. A row has a time that was
read during the event, what was to be done, and the digest and the status that tell of the outcome
that the caller got, whatever its texts are. The addresses of the markets and the digests of the
wallet must be free of commas, quotes and line feeds. -/
theorem journal_lists_history {events : List Event} (h : History t known events after)
    (hjournal : t.hasJournal = true)
    (hmarkets : ∀ e ∈ events, ∀ m, e.market? = some m → Journal.needsQuotes m.address = false)
    (hdigests : ∀ e ∈ events, ∀ tx effects, (tx, .ok effects) ∈ walletCalls e.exchanges →
      Journal.needsQuotes effects.digest = false) :
    let given := journalRows (events.flatMap Event.exchanges)
    ∃ rows, Csv.rows (Journal.written (given.map .list)) = Journal.names :: rows ∧
      List.Forall₂ (fun e row => ∃ now : Instant, Exchange.clock now ∈ e.exchanges ∧
          row = now.text "+00:00" :: e.fields t)
        (events.filter Event.isListed) rows := by
  intro given
  have hgiven : List.Forall₂ (fun e row => ∃ now, .clock now ∈ e.exchanges ∧ row = e.row t now)
      (events.filter Event.isListed) given := h.forall₂_journalRows hjournal
  have hlisted : (given.map Journal.Use.list).filterMap Journal.Use.row? = given := by
    rw [List.filterMap_map]
    exact List.filterMap_some
  have hbare : ∀ row ∈ given, row.IsBare := by
    intro row hrow
    obtain ⟨e, he, now, before, later, hhappens, rfl⟩ := h.exists_row_of_mem hjournal hrow
    exact hhappens.isBare_row now (hmarkets e he) (hdigests e he)
  have hread : Csv.rows (Journal.written (given.map .list)) =
      Journal.names :: ((given.map Journal.Use.list).filterMap Journal.Use.row?).map _ :=
    Journal.rows_written (by rwa [hlisted])
  rw [hlisted] at hread
  refine ⟨given.map Journal.Row.fields, hread, ?_⟩
  rw [List.forall₂_map_right_iff]
  refine hgiven.imp fun e row hrow => ?_
  obtain ⟨now, hclock, rfl⟩ := hrow
  exact ⟨now, hclock, e.fields_row now⟩

/-- Surroundings in which every transaction fails, for a reason with a comma and quotes in it. -/
def failingAnswer (past : List Exchange) : (q : Question) → q.Answer
  | .execute _ => (.ok ⟨"0xd1", false, some "busy, \"try\" later"⟩ : Except String Effects)
  | q => plainAnswer [⟨"0xc0", 9000000000⟩] past q

/-- The run of a session in such surroundings, when nothing is known. -/
def failingRun {α : Type} (session : Session α) : List Exchange × α × Store :=
  (session.run .empty).heldWith failingAnswer

/-- A market without a topic, which is refused, a wish for a resolution, and an order that fails for
a reason with a comma and quotes in it: the journal has two rows. -/
theorem wish_and_failed_order_are_listed :
    let creation := failingRun (sample.createMarket " " "" 0 1)
    let wish := failingRun (sample.resolve .sample)
    let order := failingRun (sample.submit .sample (.market .yes 5))
    let events := [Event.traded (.createMarket " " "" 0 1) creation.1 creation.2.1,
      Event.resolved .sample wish.1 wish.2.1,
      Event.traded (.submit .sample (.market .yes 5)) order.1 order.2.1]
    ∃ rows, Csv.rows (Journal.written ((journalRows (events.flatMap Event.exchanges)).map .list)) =
        Journal.names :: rows ∧
      rows.map List.tail =
        [["0xbeef", "event", "", "", "", "", "resolve requested"],
          ["0xbeef", "buy", "YES", "5", "600000000", "0xd1", "failed: busy, \"try\" later"]] := by
  intro creation wish order events
  have hunknown : creation.2.2 = .empty ∧ wish.2.2 = .empty := by decide +kernel
  have h : History sample .empty events order.2.2 := by
    have hheld {α : Type} (session : Session α) :
        session.Runs .empty (failingRun session).1 (failingRun session).2.1
          (failingRun session).2.2 := Dialogue.held_heldWith failingAnswer _
    have hcreation := hheld (sample.createMarket " " "" 0 1)
    have hwish := hheld (sample.resolve .sample)
    rw [hunknown.1] at hcreation
    rw [hunknown.2] at hwish
    exact .cons hcreation (.cons hwish (.cons (hheld _) (.nil _)))
  have hmarkets : ∀ e ∈ events, ∀ m, e.market? = some m →
      Journal.needsQuotes m.address = false := by
    intro e he m hm
    simp only [events, List.mem_cons, List.not_mem_nil, or_false] at he
    obtain rfl | rfl | rfl := he <;> cases hm <;> decide
  have hdigests : ∀ e ∈ events, ∀ call ∈ walletCalls e.exchanges,
      (call.2.toOption.any fun effects => Journal.needsQuotes effects.digest) = false := by
    decide +kernel
  obtain ⟨rows, hread, hrows⟩ := journal_lists_history h rfl hmarkets
    fun e he tx effects hcall => hdigests e he _ hcall
  refine ⟨rows, hread, ?_⟩
  have htails : (events.filter Event.isListed).map (Event.fields sample) = rows.map List.tail := by
    rw [← List.forall₂_eq_eq_eq, List.forall₂_map_left_iff, List.forall₂_map_right_iff]
    refine hrows.imp fun e row hrow => ?_
    obtain ⟨now, -, rfl⟩ := hrow
    rfl
  rw [← htails]
  decide +kernel

end Trader

end PredictionMarket
