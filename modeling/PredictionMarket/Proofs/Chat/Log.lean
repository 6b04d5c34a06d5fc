import Mathlib.Data.List.Nodup
import PredictionMarket.Chat.Log

/-!
# What a chat log keeps

A chat log keeps of all messages that arrive the first one with each key, in the order of their
arrival.

## Main definitions

* `ChatLog.mergeAll`: the log after batches of messages.
* `ChatLog.firstsBy`: the first element with each value of a function.

## Main results

* `ChatLog.messages_addAll_empty`: the messages that are kept.
-/

namespace PredictionMarket

namespace ChatLog

variable {α β γ : Type} [DecidableEq β] [DecidableEq γ]

/-- The elements of a list that are the first with their value of a function, in their order. -/
def firstsBy (f : α → β) : List α → List α
  | [] => []
  | a :: l => a :: (firstsBy f l).filter fun b => f b ≠ f a

/-- What is kept of a list is in it. -/
theorem mem_of_mem_firstsBy {f : α → β} {a : α} {l : List α} (h : a ∈ firstsBy f l) : a ∈ l := by
  induction l with
  | nil => exact h
  | cons b l ih =>
    obtain rfl | h := List.mem_cons.1 h
    · exact List.mem_cons_self
    · exact List.mem_cons_of_mem b (ih (List.mem_filter.1 h).1)

/-- Something with the same value is kept. -/
theorem exists_mem_firstsBy (f : α → β) {a : α} {l : List α} (h : a ∈ l) :
    ∃ b ∈ firstsBy f l, f b = f a := by
  induction l with
  | nil => exact absurd h List.not_mem_nil
  | cons c l ih =>
    by_cases hca : f c = f a
    · exact ⟨c, List.mem_cons_self, hca⟩
    · obtain rfl | h := List.mem_cons.1 h
      · exact absurd rfl hca
      obtain ⟨b, hb, hba⟩ := ih h
      refine ⟨b, List.mem_cons_of_mem c (List.mem_filter.2 ⟨hb, ?_⟩), hba⟩
      exact decide_eq_true (hba ▸ Ne.symm hca)

/-- No key is kept twice. -/
theorem nodup_map_firstsBy (f : α → β) (l : List α) : ((firstsBy f l).map f).Nodup := by
  induction l with
  | nil => exact List.nodup_nil
  | cons a l ih =>
    refine List.nodup_cons.2 ⟨fun h => ?_, (List.filter_sublist.map f).nodup ih⟩
    obtain ⟨b, hb, hba⟩ := List.mem_map.1 h
    exact of_decide_eq_true (List.mem_filter.1 hb).2 hba

/-- Functions with the same equal values keep the same elements. -/
theorem firstsBy_congr {f : α → β} {g : α → γ} {l : List α}
    (h : ∀ a ∈ l, ∀ b ∈ l, f a = f b ↔ g a = g b) : firstsBy f l = firstsBy g l := by
  induction l with
  | nil => rfl
  | cons a l ih =>
    have hl := ih fun b hb c hc => h b (List.mem_cons_of_mem a hb) c (List.mem_cons_of_mem a hc)
    rw [firstsBy, firstsBy, hl]
    congr 1
    refine List.filter_congr fun b hb => ?_
    exact decide_eq_decide.2
      (not_congr (h b (List.mem_cons_of_mem a (mem_of_mem_firstsBy hb)) a List.mem_cons_self))

/-- The log after messages arrived in batches. -/
def mergeAll (log : ChatLog) (batches : List (List ChatMessage)) : ChatLog :=
  batches.foldl (fun log batch => (log.merge batch).2) log

/-- Messages may be added in two portions. -/
theorem addAll_append (log : ChatLog) (a b : List ChatMessage) :
    log.addAll (a ++ b) = (log.addAll a).addAll b :=
  List.foldl_append

/-- Merging batches adds their messages one after the other. -/
theorem mergeAll_eq_addAll (log : ChatLog) (batches : List (List ChatMessage)) :
    log.mergeAll batches = log.addAll batches.flatten := by
  induction batches generalizing log with
  | nil => rfl
  | cons batch batches ih =>
    rw [mergeAll, List.foldl_cons, ← mergeAll, ih, List.flatten_cons, addAll_append, merge_snd]

/-- Of the messages that arrive, those are kept that are the first with a key and whose key was not
seen. -/
theorem messages_addAll (log : ChatLog) (arrivals : List ChatMessage) :
    (log.addAll arrivals).messages =
      log.messages ++ (firstsBy ChatMessage.key arrivals).filter fun m => m.key ∉ log.seen := by
  induction arrivals generalizing log with
  | nil => exact (List.append_nil _).symm
  | cons m arrivals ih =>
    rw [addAll, List.foldl_cons, ← addAll, ih, firstsBy, List.filter_cons, List.filter_filter]
    by_cases hm : m.key ∈ log.seen
    · -- What has the key of the message is left out in any case.
      simp only [add, List.contains_eq_mem, hm, decide_true, if_true, not_true, decide_false,
        Bool.false_eq_true, if_false]
      congr 1
      refine List.filter_congr fun b _ => ?_
      by_cases hb : b.key = m.key
      · simp [hb, hm]
      · simp [hb]
    · simp only [add, List.contains_eq_mem, hm, decide_false, Bool.false_eq_true, if_false,
        not_false_eq_true, decide_true, if_true, List.append_assoc, List.singleton_append,
        List.mem_cons, not_or, Bool.decide_and]
      congr 2
      exact List.filter_congr fun b _ => Bool.and_comm _ _

/-- An empty log keeps the first message of each key. -/
theorem messages_addAll_empty (arrivals : List ChatMessage) :
    (empty.addAll arrivals).messages = firstsBy ChatMessage.key arrivals := by
  rw [messages_addAll]
  simp [empty]

end ChatLog

end PredictionMarket
