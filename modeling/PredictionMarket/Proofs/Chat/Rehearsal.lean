import PredictionMarket.Chat.Rehearsal
import PredictionMarket.Proofs.Chat.Replies

/-!
# Rehearsals as schedules

A rehearsal runs a session on a clock, with a server that is told what to answer. What happens in it
is one of the schedules of the session: timers, requests and replies in the order of their times.

## Main definitions

* `ChatTraffic.Leads`: there are actions from one state of the traffic to another one.

## Main results

* `Rehearsal.leads_wait`, `Rehearsal.leads_refresh`, `Rehearsal.leads_send`,
  `Rehearsal.leads_switchTo`, `Rehearsal.leads_close`: all that happens in a rehearsal are actions.
* `ChatTraffic.Leads.exists_follows`: so the invariant of schedules holds in it at all times.
-/

namespace PredictionMarket

namespace ChatTraffic

/-- Actions make the one of the other. -/
def Leads (t t' : ChatTraffic) : Prop :=
  ∃ actions, t.run actions = t'

/-- No action leaves the traffic as it is. -/
theorem Leads.refl (t : ChatTraffic) : t.Leads t :=
  ⟨[], rfl⟩

/-- Actions may follow actions. -/
theorem Leads.trans {t t' t'' : ChatTraffic} (h : t.Leads t') (h' : t'.Leads t'') :
    t.Leads t'' := by
  obtain ⟨earlier, rfl⟩ := h
  obtain ⟨later, rfl⟩ := h'
  exact ⟨earlier ++ later, List.foldl_append⟩

/-- What is led to by a new session is what its past events made it. -/
theorem Leads.exists_follows {market : String} {t : ChatTraffic}
    (h : (ChatTraffic.start market).Leads t) : ∃ past, t.Follows past := by
  obtain ⟨actions, rfl⟩ := h
  exact ⟨_, (Follows.start market).run actions⟩

/-- A single action leads to the traffic after it. -/
theorem leads_act (t : ChatTraffic) (a : Action) : t.Leads (t.act a).2 :=
  ⟨[a], rfl⟩

end ChatTraffic

namespace Rehearsal

open ChatTraffic

variable (r : Rehearsal)

/-- The reply to a fetch is an action. -/
theorem leads_deliver (due : Nat) (f : Fetch) : r.traffic.Leads (r.deliver due f).traffic :=
  leads_act _ (.fetched f.request f.reply)

/-- The fetch of a poller is a tick of its timer. -/
theorem leads_beginFetch (due : Nat) : r.traffic.Leads (r.beginFetch due).traffic := by
  have htick : (r.beginFetch due).traffic = (r.traffic.tick r.session.binding).2 := by
    unfold beginFetch
    split
    all_goals next heq => rw [heq]
  rw [htick]
  exact leads_act _ (.tick r.session.binding)

/-- Time that goes by brings ticks and replies. -/
theorem leads_advance (limit time : Nat) : r.traffic.Leads (r.advance limit time).traffic := by
  fun_induction advance r limit time with
  | case1 r limit due f hpoller hbefore ih => exact (r.leads_deliver due f).trans ih
  | case3 r limit due hpoller hbefore ih => exact (r.leads_beginFetch due).trans ih
  | case2 | case4 | case5 => exact .refl _

/-- Waiting brings ticks and replies. -/
theorem leads_wait (span : Nat) : r.traffic.Leads (r.wait span).traffic :=
  r.leads_advance _ _

/-- A session starts with the first tick of its poller. -/
theorem leads_start (market : String) (interval : Nat) (server : Server) :
    (ChatTraffic.start market).Leads (start market interval server).traffic :=
  leads_wait (Rehearsal.mk (.start market) server 0 interval none).poll 1

variable {r}

/-- A refresh makes a request, waits and takes the reply. -/
theorem leads_refresh (hopen : r.traffic.session.isOpen = true) :
    r.traffic.Leads r.refresh.2.traffic := by
  have hask : r.traffic.Leads r.traffic.refresh.2 := by
    simpa [act, hopen] using leads_act r.traffic .refresh
  have hwait := leads_wait
    { r with traffic := r.traffic.refresh.2, server := r.server.started r.session.market }
    r.server.delay
  exact (hask.trans hwait).trans (leads_act _ (.fetched r.traffic.refresh.1 _))

/-- A message is posted and its reply is taken, if it is one that can be sent. -/
theorem leads_send (hopen : r.traffic.session.isOpen = true) (address : Option String)
    (text : String) : r.traffic.Leads (r.send address text).2.traffic := by
  unfold send
  cases hmade : Outgoing.make address text with
  | error e => exact .refl _
  | ok m =>
    have hask : r.traffic.Leads (r.traffic.post m).2 := by
      simpa [act, hopen, hmade] using leads_act r.traffic (.send address text)
    exact hask.trans (leads_act _ (.posted (r.traffic.post m).1 _))

/-- A switch binds the session to the market and starts a poller, unless it has that market
already. -/
theorem leads_switchTo (hopen : r.traffic.session.isOpen = true) (market : String) :
    r.traffic.Leads (r.switchTo market).traffic := by
  have hswitch : r.traffic.Leads (r.traffic.switchTo market) := by
    simpa [act, hopen] using leads_act r.traffic (.switchTo market)
  let next := { r with traffic := r.traffic.switchTo market }
  unfold switchTo
  split
  · exact hswitch.trans (leads_wait next 1)
  · exact hswitch.trans (leads_wait next.poll 1)

/-- The end of a session lets its poller stop. -/
theorem leads_close (hopen : r.traffic.session.isOpen = true) :
    r.traffic.Leads r.close.traffic := by
  have hclose : r.traffic.Leads r.traffic.close := by
    simpa [act, hopen] using leads_act r.traffic .close
  exact hclose.trans (leads_wait { r with traffic := r.traffic.close, poller := none } 1)

end Rehearsal

end PredictionMarket
