import PredictionMarket.Proofs.Chat.Log
import PredictionMarket.Proofs.Chat.Schedule

/-!
# What a chat session shows under any schedule

However pollers, requests and replies of a chat session interleave, it shows the messages that came
in reply to requests of the binding that it has, and no others. Replies to older requests come to
nothing, also where the session was bound to the same market before.

## Main definitions

* `ChatTraffic.Follows`: the invariant, which joins the traffic to its past events.
* `ChatTraffic.IsOver`: bindings that the session has no more.

## Main results

* `ChatTraffic.Follows.step`, `ChatTraffic.Follows.run`: the invariant holds at all times.
* `ChatTraffic.IsOver.run`: a binding that is over is over for good.
* `ChatTraffic.shows_replies_of_binding`: what is shown, and what never comes of a binding that is
  over.
-/

namespace PredictionMarket

namespace ChatSession

variable (s : ChatSession) (binding : Nat) (messages : List ChatMessage)

/-- A reply leaves the session at its market. -/
@[simp] theorem receive_market : (s.receive binding messages).2.market = s.market := by
  unfold receive
  split <;> rfl

/-- A reply leaves the session with its binding. -/
@[simp] theorem receive_binding : (s.receive binding messages).2.binding = s.binding := by
  unfold receive
  split <;> rfl

/-- A reply leaves the session open or closed as it was. -/
@[simp] theorem receive_isOpen : (s.receive binding messages).2.isOpen = s.isOpen := by
  unfold receive
  split <;> rfl

/-- Messages are added to the log if they came for the binding that the session has. -/
theorem receive_log : (s.receive binding messages).2.log =
    if s.isBound binding then s.log.addAll messages else s.log := by
  unfold receive
  split
  · exact s.log.merge_snd messages
  · rfl

variable {s binding}

/-- Messages for another binding are passed over. -/
theorem receive_of_not_isBound (h : s.isBound binding = false) :
    (s.receive binding messages).2 = s := by
  simp [receive, h]

end ChatSession

namespace ChatTraffic

variable {t t' : ChatTraffic} {past : List Event}

/-- A switch to another market starts an empty log under a new binding. -/
theorem switchTo_of_ne {market : String} (hne : market ≠ t.session.market) :
    t.switchTo market =
      { t with
        session := ⟨market, .empty, t.session.binding + 1, t.session.isOpen⟩
        pollers := ⟨t.session.binding + 1, market⟩ :: t.pollers } := by
  simp [switchTo, ChatSession.switchTo, spawn, hne]

/-! ### The messages that arrived -/

/-- Another event that is no switch and no end brings its messages, and those of the replies before
it that it makes current. -/
theorem arrivals_concat {e : Event} (hopen : .closed ∉ past) (hend : e.isEnd = false)
    (hswitch : e.isSwitch = false) :
    arrivals (past ++ [e]) = (current past).flatMap (Event.messages (current past ++ [e])) ++
      e.messages (current past ++ [e]) := by
  rw [arrivals, current_concat hopen]
  simp [hend, hswitch]

/-- A request that was not answered before brings nothing by itself. -/
theorem arrivals_concat_asked {q : ChatRequest} (hopen : .closed ∉ past)
    (hnew : ∀ messages, .answered q messages ∉ past) :
    arrivals (past ++ [.asked q]) = arrivals past := by
  rw [arrivals_concat hopen rfl rfl, Event.messages, List.append_nil, arrivals]
  refine List.flatMap_congr fun e he => ?_
  cases e with
  | asked | bound | closed => rfl
  | answered q' messages =>
    have hne : q' ≠ q := by
      rintro rfl
      exact hnew messages (mem_of_mem_current he)
    simp [Event.messages, hne]

/-- A reply brings its messages if the request was made under the binding that the session has. -/
theorem arrivals_concat_answered (hopen : .closed ∉ past) (q : ChatRequest)
    (messages : List ChatMessage) :
    arrivals (past ++ [.answered q messages]) =
      arrivals past ++ if .asked q ∈ current past then messages else [] := by
  have hamong : Event.messages (current past ++ [.answered q messages]) =
      Event.messages (current past) := by
    funext e
    cases e <;> simp [Event.messages]
  rw [arrivals_concat hopen rfl rfl, hamong]
  rfl

/-! ### The invariant -/

/-- The traffic is what its past events made it. -/
structure Follows (t : ChatTraffic) (past : List Event) : Prop where
  isOpen : t.session.isOpen = true ↔ .closed ∉ past
  log : t.session.log = ChatLog.empty.addAll (arrivals past)
  asked : ∀ q, .asked q ∈ past → q.number < t.made ∧ q.binding ≤ t.session.binding ∧
    (.asked q ∈ current past ↔ q.binding = t.session.binding)
  market : ∀ q, .asked q ∈ current past → q.market = t.session.market
  requests : ∀ q ∈ t.requests, .asked q ∈ past
  answered : ∀ q messages, .answered q messages ∈ past → .asked q ∈ past
  pollers : ∀ p ∈ t.pollers, p.binding ≤ t.session.binding ∧
    (p.binding = t.session.binding → p.market = t.session.market)

namespace Follows

/-- A new session follows from no events. -/
theorem start (market : String) : Follows (start market) [] where
  isOpen := by simp [ChatTraffic.start, spawn, ChatSession.start]
  log := rfl
  asked := by simp
  market := by simp [current]
  requests := by simp [ChatTraffic.start, spawn]
  answered := by simp
  pollers := by simp [ChatTraffic.start, spawn]

/-- The number of a request is new when it is made. -/
theorem asked_notMem (h : Follows t past) {q : ChatRequest} (hq : q.number = t.made) :
    .asked q ∉ past :=
  fun hmem => absurd (h.asked q hmem).1 (hq ▸ Nat.lt_irrefl _)

/-- A request for the current binding is remembered, under a number of its own. -/
theorem ask (h : Follows t past) (hopen : t.session.isOpen = true) {q : ChatRequest}
    (hnumber : q.number = t.made) (hbinding : q.binding = t.session.binding)
    (hmarket : q.market = t.session.market) :
    Follows { t with requests := q :: t.requests, made := t.made + 1 } (past ++ [.asked q]) := by
  have hnew := h.asked_notMem hnumber
  have hcurrent := current_concat (h.isOpen.1 hopen) (.asked q)
  simp only [Event.isEnd, Event.isSwitch, Bool.false_eq_true, if_false] at hcurrent
  constructor
  case isOpen => simpa using h.isOpen
  case log =>
    have hunanswered (messages : List ChatMessage) : .answered q messages ∉ past :=
      fun hmem => hnew (h.answered q messages hmem)
    rw [arrivals_concat_asked (h.isOpen.1 hopen) hunanswered]
    exact h.log
  case asked =>
    intro q' hq'
    rw [hcurrent]
    by_cases hsame : q' = q
    · subst hsame
      exact ⟨by simp [hnumber], hbinding.le, by simp [hbinding]⟩
    · obtain ⟨hlt, hle, hiff⟩ := h.asked q' (by simpa [hsame] using hq')
      exact ⟨Nat.lt_succ_of_lt hlt, hle, by simpa [hsame] using hiff⟩
  case market =>
    intro q' hq'
    rw [hcurrent] at hq'
    by_cases hsame : q' = q
    · rw [hsame]
      exact hmarket
    · exact h.market q' (by simpa [hsame] using hq')
  case requests =>
    intro q' hq'
    obtain rfl | hq' := List.mem_cons.1 hq'
    · simp
    · exact List.mem_append_left _ (h.requests q' hq')
  case answered =>
    intro q' messages hmem
    exact List.mem_append_left _ (h.answered q' messages (by simpa using hmem))
  case pollers => exact h.pollers

/-- A reply brings its messages to the log exactly if they count as arrived. -/
theorem log_answered (h : Follows t past) {q : ChatRequest} (hq : q ∈ t.requests)
    (messages : List ChatMessage) :
    (t.session.receive q.binding messages).2.log =
      ChatLog.empty.addAll (arrivals (past ++ [.answered q messages])) := by
  by_cases hopen : t.session.isOpen = true
  · -- The reply counts for the session as long as the request is among the current ones.
    obtain ⟨-, -, hiff⟩ := h.asked q (h.requests q hq)
    rw [arrivals_concat_answered (h.isOpen.1 hopen), ChatSession.receive_log, h.log]
    by_cases hbinding : q.binding = t.session.binding
    · rw [if_pos (hiff.2 hbinding), if_pos (by simp [ChatSession.isBound, hopen, hbinding])]
      exact List.foldl_append.symm
    · rw [if_neg (hiff.not.2 hbinding), List.append_nil,
        if_neg (by simp [ChatSession.isBound, Ne.symm hbinding])]
  · have hclosed : .closed ∈ past := not_not.1 (h.isOpen.not.1 hopen)
    rw [ChatSession.receive_of_not_isBound _ (by simp [ChatSession.isBound, hopen]), arrivals,
      current_append_of_closed hclosed]
    exact h.log

/-- A reply to a request is shown if its binding is the current one. -/
theorem answer (h : Follows t past) {q : ChatRequest} (hq : q ∈ t.requests)
    (messages : List ChatMessage) :
    Follows
      { t with
        session := (t.session.receive q.binding messages).2
        requests := t.requests.erase q }
      (past ++ [.answered q messages]) := by
  have hcurrent (q' : ChatRequest) :
      .asked q' ∈ current (past ++ [.answered q messages]) ↔ .asked q' ∈ current past := by
    by_cases hclosed : .closed ∈ past
    · rw [current_append_of_closed hclosed]
    · simp [current_concat hclosed, Event.isEnd, Event.isSwitch]
  constructor
  case isOpen => simpa using h.isOpen
  case log => exact h.log_answered hq messages
  case asked =>
    intro q' hq'
    rw [hcurrent, ChatSession.receive_binding]
    exact h.asked q' (by simpa using hq')
  case market =>
    intro q' hq'
    rw [ChatSession.receive_market]
    exact h.market q' ((hcurrent q').1 hq')
  case requests =>
    intro q' hq'
    exact List.mem_append_left _ (h.requests q' (List.mem_of_mem_erase hq'))
  case answered =>
    intro q' messages' hmem
    refine List.mem_append_left _ ?_
    obtain hmem | hmem := List.mem_append.1 hmem
    · exact h.answered q' messages' hmem
    · obtain ⟨rfl, -⟩ : q' = q ∧ messages' = messages := by simpa using hmem
      exact h.requests q' hq
  case pollers => simpa using h.pollers

/-- A switch starts a binding that no request was made for and no message came for. -/
theorem switchTo (h : Follows t past) (hopen : t.session.isOpen = true) {market : String}
    (hne : market ≠ t.session.market) :
    Follows (t.switchTo market) (past ++ [.bound market]) := by
  have hcurrent : current (past ++ [.bound market]) = [] := by
    simp [current_concat (h.isOpen.1 hopen), Event.isEnd, Event.isSwitch]
  rw [switchTo_of_ne hne]
  constructor
  case isOpen => simpa using h.isOpen
  case log =>
    rw [arrivals, hcurrent]
    rfl
  case asked =>
    intro q hq
    obtain ⟨hlt, hle, -⟩ := h.asked q (by simpa using hq)
    refine ⟨hlt, Nat.le_succ_of_le hle, ?_⟩
    simp [hcurrent, (Nat.lt_succ_of_le hle).ne]
  case market => simp [hcurrent]
  case requests => exact fun q hq => List.mem_append_left _ (h.requests q hq)
  case answered =>
    exact fun q messages hmem =>
      List.mem_append_left _ (h.answered q messages (by simpa using hmem))
  case pollers =>
    intro p hp
    obtain rfl | hp := List.mem_cons.1 hp
    · exact ⟨Nat.le_refl _, fun _ => rfl⟩
    · have hle := (h.pollers p hp).1
      exact ⟨Nat.le_succ_of_le hle, fun hsame => absurd hsame (Nat.lt_succ_of_le hle).ne⟩

/-- The end of the session changes nothing that is shown. -/
theorem close (h : Follows t past) (hopen : t.session.isOpen = true) :
    Follows t.close (past ++ [.closed]) := by
  have hcurrent : current (past ++ [.closed]) = current past := by
    simp [current_concat (h.isOpen.1 hopen), Event.isEnd]
  constructor
  case isOpen => simp [ChatTraffic.close, ChatSession.close]
  case log =>
    rw [arrivals, hcurrent]
    exact h.log
  case asked =>
    intro q hq
    rw [hcurrent]
    exact h.asked q (by simpa using hq)
  case market =>
    intro q hq
    rw [hcurrent] at hq
    exact h.market q hq
  case requests => exact fun q hq => List.mem_append_left _ (h.requests q hq)
  case answered =>
    exact fun q messages hmem =>
      List.mem_append_left _ (h.answered q messages (by simpa using hmem))
  case pollers => exact h.pollers

/-- Whatever an action comes to, the session follows the events. -/
theorem step {e : Option Event} (h : Follows t past) (hstep : Step t e t') :
    Follows t' (past ++ e.toList) := by
  cases hstep with
  | idle hsub =>
    rw [Option.toList_none, List.append_nil]
    exact { h with pollers := fun p hp => h.pollers p (hsub hp) }
  | asked hopen hmarket purpose =>
    refine h.ask hopen rfl rfl ?_
    obtain hpoller | hmarket := hmarket
    · exact (h.pollers _ hpoller).2 rfl
    · exact hmarket
  | answered hq messages => exact h.answer hq messages
  | bound hopen hne => exact h.switchTo hopen hne
  | closed hopen => exact h.close hopen

/-- After any actions the session follows their events. -/
theorem run (h : Follows t past) (actions : List Action) :
    Follows (t.run actions) (past ++ t.history actions) := by
  induction actions generalizing t past with
  | nil =>
    rw [history, List.append_nil]
    exact h
  | cons a actions ih =>
    rw [history, ← List.append_assoc]
    exact ih (h.step (act_step t a))

end Follows

/-! ### Bindings that are over -/

/-- The session had a binding and has it no more. -/
def IsOver (t : ChatTraffic) (binding : Nat) : Prop :=
  binding ≤ t.session.binding ∧ t.session.isBound binding = false

variable {binding : Nat} {e : Option Event}

/-- A binding is over once the session has a later one. -/
theorem isOver_switchTo {market : String} (hne : market ≠ t.session.market)
    (hle : binding ≤ t.session.binding) : (t.switchTo market).IsOver binding := by
  rw [switchTo_of_ne hne]
  exact ⟨Nat.le_succ_of_le hle,
    by simp [ChatSession.isBound, (Nat.lt_succ_of_le hle).ne']⟩

/-- A binding is over once the session is closed. -/
theorem isOver_close (hle : binding ≤ t.session.binding) : t.close.IsOver binding :=
  ⟨hle, by simp [close, ChatSession.close, ChatSession.isBound]⟩

/-- A binding that is over stays so. -/
theorem IsOver.step (h : t.IsOver binding) (hstep : Step t e t') : t'.IsOver binding := by
  obtain ⟨hle, hnot⟩ := h
  cases hstep with
  | idle | asked => exact ⟨hle, hnot⟩
  | answered => simpa [IsOver, ChatSession.isBound] using And.intro hle hnot
  | bound _ hne => exact isOver_switchTo hne hle
  | closed => exact isOver_close hle

/-- When the session moves on or ends, all bindings are over that it had. -/
theorem Step.isOver {e : Event} (hstep : Step t (some e) t') (he : e.isSwitch ∨ e.isEnd)
    (hle : binding ≤ t.session.binding) : t'.IsOver binding := by
  cases hstep with
  | asked | answered => simp [Event.isSwitch, Event.isEnd] at he
  | bound _ hne => exact isOver_switchTo hne hle
  | closed => exact isOver_close hle

/-- What is over stays over. -/
theorem IsOver.run (h : t.IsOver binding) (actions : List Action) :
    (t.run actions).IsOver binding := by
  induction actions generalizing t with
  | nil => exact h
  | cons a actions ih => exact ih (h.step (act_step t a))

/-- No request is made for a binding that is over. -/
theorem IsOver.asked_binding_ne (h : t.IsOver binding) {q : ChatRequest}
    (hstep : Step t (some (.asked q)) t') : q.binding ≠ binding := by
  cases hstep with
  | asked hopen =>
    have hnot := h.2
    simpa [ask, ChatSession.isBound, hopen] using hnot

/-- No requests are made any more for a binding that is over. -/
theorem IsOver.asked_notMem_history (h : t.IsOver binding) {q : ChatRequest}
    (hq : q.binding = binding) (actions : List Action) : .asked q ∉ t.history actions := by
  induction actions generalizing t with
  | nil => exact List.not_mem_nil
  | cons a actions ih =>
    rw [history, List.mem_append, not_or]
    refine ⟨fun hmem => ?_, ih (h.step (act_step t a))⟩
    have hstep := act_step t a
    rw [Option.mem_toList.1 hmem] at hstep
    exact h.asked_binding_ne hstep hq

/-- The timer of a binding that is over asks nothing. -/
theorem IsOver.act_tick (h : t.IsOver binding) : (t.act (.tick binding)).1 = none := by
  simp only [act, tick]
  cases hp : t.pollers.find? (·.binding == binding) with
  | none => rfl
  | some p => simp [h.2]

/-- A reply to a request of a binding that is over changes nothing. -/
theorem IsOver.answered_session {q : ChatRequest} (h : t.IsOver q.binding)
    (reply : Except String (List ChatMessage)) (saved : Except String ChatMessage) :
    (t.act (.fetched q reply)).2.session = t.session ∧
      (t.act (.posted q saved)).2.session = t.session := by
  simp only [act, fetched, posted, fetched_session, posted_session,
    ChatSession.receive_of_not_isBound _ h.2]
  constructor <;> split <;> rfl

/-- A failure leaves the session as it is. -/
theorem failed_session (t : ChatTraffic) (q : ChatRequest) (cause : String) :
    (t.act (.fetched q (.error cause))).2.session = t.session ∧
      (t.act (.posted q (.error cause))).2.session = t.session := by
  simp only [act, fetched, posted, ChatSession.fetched, ChatSession.posted]
  constructor <;> split <;> rfl

/-- A message that arrived came in a reply to a request, and both are current. -/
theorem exists_reply_of_mem_arrivals {m : ChatMessage} (h : m ∈ arrivals past) :
    ∃ q messages, .asked q ∈ current past ∧ .answered q messages ∈ current past ∧
      m ∈ messages := by
  obtain ⟨e, he, hm⟩ := List.mem_flatMap.1 h
  cases e with
  | asked | bound | closed => exact absurd hm List.not_mem_nil
  | answered q messages =>
    by_cases hq : .asked q ∈ current past
    · exact ⟨q, messages, hq, he, by simpa [Event.messages, hq] using hm⟩
    · simp [Event.messages, hq] at hm

/-- However the actions of a session interleave, it shows of the messages that came in reply to
requests of its binding the first ones with their keys, all for its market. Failures change nothing.
Of what it was bound to before, pollers make no more requests and replies change nothing. -/
theorem shows_replies_of_binding (market : String) (actions : List Action) :
    let t := (start market).run actions
    let past := (start market).history actions
    let shown := t.session.log.messages
    shown = ChatLog.firstsBy ChatMessage.key (arrivals past) ∧
      (shown.map ChatMessage.key).Nodup ∧
      (∀ m ∈ arrivals past, ∃ m' ∈ shown, m'.key = m.key) ∧
      (∀ m ∈ shown, ∃ q messages, .asked q ∈ current past ∧ .answered q messages ∈ current past ∧
        m ∈ messages ∧ q.market = t.session.market) ∧
      (∀ q cause, (t.act (.fetched q (.error cause))).2.session = t.session ∧
        (t.act (.posted q (.error cause))).2.session = t.session) ∧
      ∀ a e, (t.act a).1 = some e → e.isSwitch ∨ e.isEnd → ∀ later,
        let t' := (t.act a).2.run later
        (t'.act (.tick t.session.binding)).1 = none ∧
          (∀ q, .asked q ∈ (t.act a).2.history later → q.binding ≠ t.session.binding) ∧
          ∀ q, .asked q ∈ past → ∀ reply saved,
            (t'.act (.fetched q reply)).2.session = t'.session ∧
              (t'.act (.posted q saved)).2.session = t'.session := by
  intro t past shown
  have h : Follows t past := (Follows.start market).run actions
  have hshown : shown = ChatLog.firstsBy ChatMessage.key (arrivals past) := by
    rw [← ChatLog.messages_addAll_empty, ← h.log]
  refine ⟨hshown, ?_, ?_, ?_, fun q cause => failed_session t q cause, ?_⟩
  · rw [hshown]
    exact ChatLog.nodup_map_firstsBy _ _
  · intro m hm
    rw [hshown]
    exact ChatLog.exists_mem_firstsBy _ hm
  · intro m hm
    rw [hshown] at hm
    obtain ⟨q, messages, hq, hanswered, hmem⟩ :=
      exists_reply_of_mem_arrivals (ChatLog.mem_of_mem_firstsBy hm)
    exact ⟨q, messages, hq, hanswered, hmem, h.market q hq⟩
  · intro a e he hends later t'
    have hstep := act_step t a
    rw [he] at hstep
    have hover := hstep.isOver hends (Nat.le_refl _)
    refine ⟨(hover.run later).act_tick,
      fun q hq hsame => hover.asked_notMem_history hsame later hq, fun q hq reply saved => ?_⟩
    have hearlier := hstep.isOver hends (h.asked q hq).2.1
    exact (hearlier.run later).answered_session reply saved

/-- A reply that was on its way when the session left its market does not show after the return. -/
theorem late_reply_not_shown_after_return :
    let time : Instant := ⟨⟨1970, 1, 1, by decide⟩, 0, 0, 0, 0, by decide⟩
    let early : ChatMessage := ⟨some "1", "0xa", "gm", time⟩
    let late : ChatMessage := ⟨some "2", "0xa", "hi", time⟩
    let first : ChatRequest := ⟨0, 0, "0xm", .poll⟩
    let second : ChatRequest := ⟨1, 2, "0xm", .poll⟩
    let actions : List Action := [.tick 0, .switchTo "0xn", .switchTo "0xm", .tick 2, .tick 0,
      .fetched second (.ok [late, late]), .fetched first (.ok [early])]
    arrivals ((start "0xm").history actions) = [late, late] ∧
      ((start "0xm").run actions).session.log.messages = [late] := by
  intro time early late first second actions
  have harrivals : arrivals ((start "0xm").history actions) = [late, late] := by decide +kernel
  refine ⟨harrivals, (shows_replies_of_binding "0xm" actions).1.trans ?_⟩
  rw [harrivals]
  decide +kernel

end ChatTraffic

end PredictionMarket
