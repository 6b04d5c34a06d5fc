import PredictionMarket.Proofs.Chat.Log

/-!
# Messages in batches

Polls bring overlapping parts of what was said, in batches of any size. The log after them is the
union of the batches by key, however they are cut, and what arrives again changes nothing.

## Main definitions

* `ChatLog.keys`: the keys of the messages in a log.
* `ChatLog.Remembers`: a log knows the keys of its messages and has each of them once.

## Main results

* `ChatLog.remembers_mergeAll`: every log that messages are merged into remembers them.
* `ChatLog.merge_unites_by_key`: what a merge gives, how many messages it counts, and how merges
  come together.
-/

namespace PredictionMarket

namespace ChatLog

variable {log : ChatLog} {a b : List ChatMessage} {m : ChatMessage}

/-- The keys of the messages in a log. -/
def keys (log : ChatLog) : List String :=
  log.messages.map ChatMessage.key

/-- A log knows the keys of its messages and no others, and no key occurs twice. -/
structure Remembers (log : ChatLog) : Prop where
  mem_seen_iff : ∀ k, k ∈ log.seen ↔ k ∈ log.keys
  nodup_keys : log.keys.Nodup

/-- A message whose key was seen is dropped. -/
theorem add_of_mem (h : m.key ∈ log.seen) : log.add m = log :=
  if_pos (List.contains_iff_mem.2 h)

/-- A message with a new key is kept, and its key is remembered. -/
theorem add_of_not_mem (h : m.key ∉ log.seen) :
    log.add m = ⟨log.messages ++ [m], m.key :: log.seen⟩ :=
  if_neg (mt List.contains_iff_mem.1 h)

namespace Remembers

/-- A log without messages remembers none. -/
theorem empty : Remembers empty :=
  ⟨fun _ => Iff.rfl, List.nodup_nil⟩

/-- A log with one message more remembers its key. -/
theorem add (h : Remembers log) (m : ChatMessage) : Remembers (log.add m) := by
  by_cases hm : m.key ∈ log.seen
  · rw [add_of_mem hm]
    exact h
  · have hkeys : (log.add m).keys = log.keys ++ [m.key] := by
      rw [add_of_not_mem hm, keys, List.map_append]
      rfl
    have hnew : m.key ∉ log.keys := mt (h.mem_seen_iff m.key).2 hm
    constructor
    · intro k
      rw [hkeys, add_of_not_mem hm, List.mem_cons, List.mem_append, List.mem_singleton,
        h.mem_seen_iff, or_comm]
    · rw [hkeys, List.nodup_append]
      refine ⟨h.nodup_keys, List.nodup_singleton _, fun k hk k' hk' => ?_⟩
      rw [List.mem_singleton.1 hk']
      rintro rfl
      exact hnew hk

/-- A log remembers the keys of all messages that were added to it. -/
theorem addAll (h : Remembers log) (a : List ChatMessage) : Remembers (log.addAll a) := by
  induction a generalizing log with
  | nil => exact h
  | cons m a ih => exact ih (h.add m)

end Remembers

/-- Every log that batches were merged into remembers the keys of its messages. -/
theorem remembers_mergeAll (past : List (List ChatMessage)) : Remembers (empty.mergeAll past) := by
  rw [mergeAll_eq_addAll]
  exact Remembers.empty.addAll _

/-! ### What a merge counts -/

/-- One arrival makes the count and the log greater by the same number. -/
theorem size_arrive (counted : Nat × ChatLog) (m : ChatMessage) :
    (arrive counted m).2.size + counted.1 = counted.2.size + (arrive counted m).1 := by
  obtain ⟨n, log⟩ := counted
  by_cases hm : m.key ∈ log.seen
  · simp [arrive, hm]
  · simp [arrive, hm, add_of_not_mem hm, size]
    omega

/-- As many messages are new as the log has more than before. -/
theorem size_foldl_arrive (counted : Nat × ChatLog) (a : List ChatMessage) :
    (a.foldl arrive counted).2.size + counted.1 = counted.2.size + (a.foldl arrive counted).1 := by
  -- The count starts anywhere, since each step of the fold starts with that of the steps before.
  induction a generalizing counted with
  | nil => rfl
  | cons m a ih =>
    have hstep := size_arrive counted m
    have hrest := ih (arrive counted m)
    rw [List.foldl_cons]
    omega

/-- The count of a merge is by how much the log has grown. -/
theorem size_merge (log : ChatLog) (a : List ChatMessage) :
    (log.merge a).2.size = log.size + (log.merge a).1 :=
  size_foldl_arrive (0, log) a

/-! ### How merges come together -/

/-- Two batches one after the other are one, in what is kept and in what is counted. -/
theorem merge_append (log : ChatLog) (a b : List ChatMessage) :
    ((log.merge a).2.merge b).2 = (log.merge (a ++ b)).2 ∧
      (log.merge a).1 + ((log.merge a).2.merge b).1 = (log.merge (a ++ b)).1 := by
  have hlog : ((log.merge a).2.merge b).2 = (log.merge (a ++ b)).2 := by
    simp only [merge_snd, addAll_append]
  -- The counts add up since each is the growth of its log.
  have hfirst := log.size_merge a
  have hsecond := (log.merge a).2.size_merge b
  have hboth := log.size_merge (a ++ b)
  rw [← hlog] at hboth
  exact ⟨hlog, by omega⟩

/-- What is known already changes nothing. -/
theorem addAll_of_mem (h : ∀ m ∈ a, m.key ∈ log.seen) : log.addAll a = log := by
  induction a with
  | nil => rfl
  | cons m a ih =>
    obtain ⟨hm, ha⟩ := List.forall_mem_cons.1 h
    rw [addAll, List.foldl_cons, add_of_mem hm]
    exact ih ha

/-- A batch of known keys changes nothing. -/
theorem merge_of_mem (h : ∀ m ∈ a, m.key ∈ log.seen) : log.merge a = (0, log) := by
  have hlog : (log.merge a).2 = log := by rw [merge_snd, addAll_of_mem h]
  have hsize := log.size_merge a
  rw [hlog] at hsize
  exact Prod.ext (by omega) hlog

/-- After a merge the keys are those from before and those of the batch. -/
theorem mem_keys_merge_iff (h : Remembers log) (k : String) :
    k ∈ (log.merge a).2.keys ↔ k ∈ log.keys ∨ k ∈ a.map ChatMessage.key := by
  rw [merge_snd]
  induction a generalizing log with
  | nil => simp [addAll]
  | cons m a ih =>
    -- The keys of the log after one message are read off what it has seen, which is a list of keys.
    rw [addAll, List.foldl_cons, ← addAll, ih (h.add m), ← (h.add m).mem_seen_iff]
    by_cases hm : m.key ∈ log.seen
    · rw [add_of_mem hm, h.mem_seen_iff]
      have hknown := (h.mem_seen_iff m.key).1 hm
      grind
    · rw [add_of_not_mem hm, List.mem_cons, h.mem_seen_iff]
      grind

/-- What was merged before is known. -/
theorem key_mem_seen_of_merged {past : List (List ChatMessage)} (hm : m ∈ past.flatten) :
    m.key ∈ (empty.mergeAll past).seen := by
  rw [(remembers_mergeAll past).mem_seen_iff, mergeAll_eq_addAll, ← merge_snd]
  exact (mem_keys_merge_iff .empty m.key).2 (.inr (List.mem_map_of_mem hm))

/-- The log after any batches knows just the keys of its messages and has each once. Batches come to
the same log and the same count together as one after the other, and what was merged before adds
nothing. A merge keeps all messages in their places, adds the first one with each new key, and
counts by how much the log grows. -/
theorem merge_unites_by_key (past : List (List ChatMessage)) :
    let log := empty.mergeAll past
    ((∀ k, k ∈ log.seen ↔ k ∈ log.keys) ∧ log.keys.Nodup) ∧
    (∀ a b, ((log.merge a).2.merge b).2 = (log.merge (a ++ b)).2 ∧
      (log.merge a).1 + ((log.merge a).2.merge b).1 = (log.merge (a ++ b)).1) ∧
    (∀ a, (∀ m ∈ a, m ∈ past.flatten) → log.merge a = (0, log)) ∧
    ∀ a, (log.merge a).2.messages = log.messages ++
        ((firstsBy ChatMessage.key a).filter fun m => m.key ∉ log.keys) ∧
      log.messages <+: (log.merge a).2.messages ∧
      (∀ k, k ∈ (log.merge a).2.keys ↔ k ∈ log.keys ∨ k ∈ a.map ChatMessage.key) ∧
      (log.merge a).2.size = log.size + (log.merge a).1 := by
  intro log
  have hlog : Remembers log := remembers_mergeAll past
  refine ⟨⟨hlog.mem_seen_iff, hlog.nodup_keys⟩, fun a b => log.merge_append a b, ?_, fun a => ?_⟩
  · intro a ha
    exact merge_of_mem fun m hm => key_mem_seen_of_merged (ha m hm)
  · have hmessages : (log.merge a).2.messages = log.messages ++
        ((firstsBy ChatMessage.key a).filter fun m => m.key ∉ log.keys) := by
      rw [merge_snd, messages_addAll]
      simp only [hlog.mem_seen_iff]
    refine ⟨hmessages, ?_, fun k => mem_keys_merge_iff hlog k, log.size_merge a⟩
    rw [hmessages]
    exact List.prefix_append _ _

/-- A poll that brings old messages, some of them twice, adds nothing. -/
theorem overlapping_polls_add_nothing :
    let time : Instant := ⟨⟨1970, 1, 1, by decide⟩, 0, 0, 0, 0, by decide⟩
    let first : ChatMessage := ⟨some "1", "0xa", "gm", time⟩
    let second : ChatMessage := ⟨none, "0xa", "hi", time⟩
    let third : ChatMessage := ⟨some "2", "0xb", "hi", time⟩
    let log := empty.mergeAll [[first, second], [second, third]]
    (∀ m ∈ [third, second, second], m ∈ [[first, second], [second, third]].flatten) ∧
      log.messages = [first, second, third] ∧ log.merge [third, second, second] = (0, log) := by
  intro time first second third log
  obtain ⟨-, -, hknown, -⟩ := merge_unites_by_key [[first, second], [second, third]]
  have hold : ∀ m ∈ [third, second, second], m ∈ [[first, second], [second, third]].flatten := by
    decide
  exact ⟨hold, by decide +kernel, hknown _ hold⟩

end ChatLog

end PredictionMarket
