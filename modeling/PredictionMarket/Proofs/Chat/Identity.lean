import PredictionMarket.Proofs.Chat.Log
import PredictionMarket.Proofs.Time.Text

/-!
# Which messages are the same

Two messages are the same if the server gave them the same identifier, or if it gave neither one and
they say the same at the same time from the same address. A chat log tells messages apart by their
keys, and where an address without an identifier has the marks of a key in it, different messages
can have the same key. Then one of them is lost.

## Main definitions

* `ChatMessage.identity`: what tells messages apart.
* `ChatMessage.IsMistakenFor`: how different messages come to have the same key.

## Main results

* `ChatMessage.key_eq_key_iff`: when two messages have the same key.
* `ChatLog.keeps_first_of_each_iff`: when a log keeps the first of the same messages and no others.
* `ChatLog.message_lost_to_bar_in_address`: two messages one of which is lost.
-/

namespace PredictionMarket

namespace ChatMessage

/-- What tells messages apart. -/
inductive Identity where
  /-- The identifier that the server gave. -/
  | given (id : String)
  /-- Who said what when. -/
  | content (address : String) (timestamp : Instant) (message : String)
deriving DecidableEq

/-- What tells a message apart from others. -/
def identity (m : ChatMessage) : Identity :=
  match m.id with
  | some id => .given id
  | none => .content m.address m.timestamp m.message

/-- The time of a message in its key. -/
def stamp (m : ChatMessage) : String :=
  m.timestamp.text "+00:00"

/-- A message without an identifier has the key of another message, because of its address: either
that starts like the key of an identifier, or it has the address and the time of the other message
in it, whose text has the time and the text of this one in it. -/
def IsMistakenFor (a b : ChatMessage) : Prop :=
  a.id = none ∧
    ((∃ rest, a.address = "id:" ++ rest ∧
        b.id = some (rest ++ "|" ++ a.stamp ++ "|" ++ a.message)) ∨
      b.id = none ∧ ∃ more, a.address = b.address ++ "|" ++ b.stamp ++ more ∧
        "|" ++ b.message = more ++ "|" ++ a.stamp ++ "|" ++ a.message)

/-- Messages are the same if they have the same identifier, or have none and agree in all that they
say. -/
theorem identity_eq_iff (a b : ChatMessage) :
    a.identity = b.identity ↔
      (∃ id, a.id = some id ∧ b.id = some id) ∨
        a.id = none ∧ b.id = none ∧ a.address = b.address ∧ a.timestamp = b.timestamp ∧
          a.message = b.message := by
  unfold identity
  cases a.id with
  | none => cases b.id <;> simp
  | some i => cases b.id <;> simp [eq_comm]

/-- No stamp has the mark between the parts of a key in it. -/
theorem bar_notMem_stamp (m : ChatMessage) : '|' ∉ m.stamp.toList := by
  intro h
  have hnot : ¬Instant.IsTextChar '|' := by decide
  exact hnot (Instant.isTextChar_of_mem_text h)

/-- Two stamps are the same only for the same time. -/
theorem stamp_eq_iff (a b : ChatMessage) : a.stamp = b.stamp ↔ a.timestamp = b.timestamp :=
  Instant.text_injective.eq_iff

/-- Where a text starts with one without bars, and with another text up to a bar, the first one is
a start of the other. -/
theorem bar_split {s t u v : List Char} (hs : '|' ∉ s) (h : s ++ '|' :: t = u ++ '|' :: v) :
    ∃ w, u = s ++ w ∧ '|' :: t = w ++ '|' :: v := by
  obtain ⟨w, hu, hw⟩ | ⟨w, hs', hw⟩ := List.append_eq_append_iff.1 h
  · exact ⟨w, hu, hw⟩
  · cases w with
    | nil => exact ⟨[], by simpa using hs'.symm, by simpa using hw.symm⟩
    | cons c w =>
      rw [List.cons_append] at hw
      obtain ⟨rfl, -⟩ := List.cons.inj hw
      exact absurd (hs' ▸ by simp) hs

/-- The key of a message with an identifier starts with the word for it. -/
theorem toList_key_of_some {m : ChatMessage} {id : String} (h : m.id = some id) :
    m.key.toList = 'i' :: 'd' :: ':' :: id.toList := by
  rw [key, h, String.toList_append]
  rfl

/-- The key of a message without an identifier is its address, its stamp and its text with bars
between them. -/
theorem toList_key_of_none {m : ChatMessage} (h : m.id = none) :
    m.key.toList =
      m.address.toList ++ '|' :: (m.stamp.toList ++ '|' :: m.message.toList) := by
  rw [key, h]
  simp [stamp]

/-- The same message has the same key. -/
theorem key_eq_of_identity_eq {a b : ChatMessage} (h : a.identity = b.identity) :
    a.key = b.key := by
  obtain ⟨id, ha, hb⟩ | ⟨ha, hb, haddress, htime, hmessage⟩ := (identity_eq_iff a b).1 h
  · rw [key, key, ha, hb]
  · rw [key, key, ha, hb, haddress, htime, hmessage]

/-- A message that is mistaken for another one has its key. -/
theorem IsMistakenFor.key_eq {a b : ChatMessage} (h : a.IsMistakenFor b) : a.key = b.key := by
  obtain ⟨ha, ⟨rest, haddress, hb⟩ | ⟨hb, more, haddress, hmessage⟩⟩ := h
  · simp [key, ha, hb, haddress, stamp, String.append_assoc]
  · have hb' : b.key = b.address ++ "|" ++ b.stamp ++ ("|" ++ b.message) := by
      simp [key, hb, stamp, String.append_assoc]
    have ha' : a.key = a.address ++ ("|" ++ a.stamp ++ "|" ++ a.message) := by
      simp [key, ha, stamp, String.append_assoc]
    rw [ha', hb', hmessage, haddress]
    simp only [String.append_assoc]

/-- Of two messages with the same key and no identifiers, if the one with the longer address is not
the same as the other one it is mistaken for it. -/
theorem identity_eq_or_isMistakenFor {a b : ChatMessage} (ha : a.id = none) (hb : b.id = none)
    {more : List Char} (haddress : a.address.toList = b.address.toList ++ more)
    (hrest : '|' :: (b.stamp.toList ++ '|' :: b.message.toList) =
      more ++ '|' :: (a.stamp.toList ++ '|' :: a.message.toList)) :
    a.identity = b.identity ∨ a.IsMistakenFor b := by
  cases more with
  | nil =>
    obtain ⟨w, hstamp, hmessage⟩ := bar_split b.bar_notMem_stamp (List.cons.inj hrest).2
    cases w with
    | nil =>
      rw [List.append_nil] at haddress hstamp
      refine .inl ((identity_eq_iff a b).2 (.inr ⟨ha, hb, String.toList_inj.1 haddress,
        (stamp_eq_iff a b).1 (String.toList_inj.1 hstamp), ?_⟩))
      exact String.toList_inj.1 (List.cons.inj hmessage).2.symm
    | cons c w =>
      obtain ⟨rfl, -⟩ := List.cons.inj hmessage
      exact absurd (hstamp ▸ by simp) a.bar_notMem_stamp
  | cons c more =>
    rw [List.cons_append] at hrest
    obtain ⟨rfl, hafter⟩ := List.cons.inj hrest
    obtain ⟨w, rfl, hmessage⟩ := bar_split b.bar_notMem_stamp hafter
    refine .inr ⟨ha, .inr ⟨hb, String.ofList w, ?_, ?_⟩⟩
    · exact String.toList_inj.1 (by simpa using haddress)
    · exact String.toList_inj.1 (by simpa using hmessage)

/-- A message without an identifier that has the key of one with it is mistaken for that one. -/
theorem isMistakenFor_of_some {a b : ChatMessage} {id : String} (ha : a.id = none)
    (hb : b.id = some id) (h : a.key = b.key) : a.IsMistakenFor b := by
  have hlist := congrArg String.toList h
  rw [toList_key_of_none ha, toList_key_of_some hb] at hlist
  have hprefix : ∃ rest, a.address.toList = ['i', 'd', ':'] ++ rest ∧
      id.toList = rest ++ '|' :: (a.stamp.toList ++ '|' :: a.message.toList) := by
    obtain ⟨w, haddress, hid⟩ | ⟨w, haddress, hid⟩ := List.append_eq_append_iff.1
      (show a.address.toList ++ _ = ['i', 'd', ':'] ++ id.toList from hlist)
    · -- A shorter address has a bar after it where the key of the other has none.
      cases w with
      | nil => exact ⟨[], by simpa using haddress.symm, by simpa using hid.symm⟩
      | cons c w =>
        obtain ⟨rfl, -⟩ := List.cons.inj hid
        have hmem : '|' ∈ ['i', 'd', ':'] := haddress ▸ by simp
        exact absurd hmem (by decide)
    · exact ⟨w, haddress, hid⟩
  obtain ⟨rest, haddress, hid⟩ := hprefix
  refine ⟨ha, .inl ⟨String.ofList rest, ?_, ?_⟩⟩
  · exact String.toList_inj.1 (by simpa using haddress)
  · rw [hb]
    exact congrArg some (String.toList_inj.1 (by simpa using hid))

/-- Messages have the same key if they are the same, or if one is mistaken for the other. -/
theorem key_eq_key_iff (a b : ChatMessage) :
    a.key = b.key ↔ a.identity = b.identity ∨ a.IsMistakenFor b ∨ b.IsMistakenFor a := by
  constructor
  · intro h
    have hlist := congrArg String.toList h
    cases ha : a.id with
    | some i =>
      cases hb : b.id with
      | some j =>
        rw [toList_key_of_some ha, toList_key_of_some hb] at hlist
        have hij : i = j := String.toList_inj.1 (by simpa using hlist)
        exact .inl ((identity_eq_iff a b).2 (.inl ⟨i, ha, hij ▸ hb⟩))
      | none => exact .inr (.inr (isMistakenFor_of_some hb ha h.symm))
    | none =>
      cases hb : b.id with
      | some j => exact .inr (.inl (isMistakenFor_of_some ha hb h))
      | none =>
        rw [toList_key_of_none ha, toList_key_of_none hb] at hlist
        obtain ⟨w, haddress, hrest⟩ | ⟨w, haddress, hrest⟩ := List.append_eq_append_iff.1 hlist
        · obtain hsame | hmistaken := identity_eq_or_isMistakenFor hb ha haddress hrest
          · exact .inl hsame.symm
          · exact .inr (.inr hmistaken)
        · obtain hsame | hmistaken := identity_eq_or_isMistakenFor ha hb haddress hrest
          · exact .inl hsame
          · exact .inr (.inl hmistaken)
  · rintro (hsame | hmistaken | hmistaken)
    · exact key_eq_of_identity_eq hsame
    · exact hmistaken.key_eq
    · exact hmistaken.key_eq.symm

/-- No message without an identifier is mistaken for the same one. -/
theorem IsMistakenFor.identity_ne {a b : ChatMessage} (h : a.IsMistakenFor b) :
    a.identity ≠ b.identity := by
  intro hsame
  obtain ⟨id, ha, -⟩ | ⟨-, hb, haddress, -⟩ := (identity_eq_iff a b).1 hsame
  · rw [h.1] at ha
    cases ha
  · obtain ⟨-, ⟨rest, -, hid⟩ | ⟨-, more, hlonger, -⟩⟩ := h
    · rw [hb] at hid
      cases hid
    · have hlength := congrArg String.length (haddress ▸ hlonger)
      simp only [String.length_append] at hlength
      have hbar : "|".length = 1 := rfl
      omega

end ChatMessage

namespace ChatLog

open ChatMessage

/-- If the messages that are the first with their keys are the first of the same ones, then messages
with the same key are the same. -/
theorem identity_eq_of_firstsBy_eq {arrivals : List ChatMessage}
    (h : firstsBy key arrivals = firstsBy identity arrivals) {a b : ChatMessage}
    (ha : a ∈ arrivals) (hb : b ∈ arrivals) (hkey : a.key = b.key) : a.identity = b.identity := by
  obtain ⟨x, hx, hxa⟩ := exists_mem_firstsBy identity ha
  obtain ⟨y, hy, hyb⟩ := exists_mem_firstsBy identity hb
  have hxy : x.key = y.key :=
    (key_eq_of_identity_eq hxa).trans (hkey.trans (key_eq_of_identity_eq hyb).symm)
  rw [← h] at hx hy
  rw [← hxa, ← hyb, List.inj_on_of_nodup_map (nodup_map_firstsBy key arrivals) hx hy hxy]

/-- A new log keeps of the messages that arrive exactly the first of the same ones, exactly if none
of them is mistaken for another one. That is so if no address of a message without an identifier
has a bar in it or starts like the key of an identifier. -/
theorem keeps_first_of_each_iff (batches : List (List ChatMessage)) :
    let arrivals := batches.flatten
    ((empty.mergeAll batches).messages = firstsBy identity arrivals ↔
        ∀ a ∈ arrivals, ∀ b ∈ arrivals, ¬a.IsMistakenFor b) ∧
      ((∀ m ∈ arrivals, m.id = none →
          '|' ∉ m.address.toList ∧ ¬['i', 'd', ':'] <+: m.address.toList) →
        (empty.mergeAll batches).messages = firstsBy identity arrivals) := by
  intro arrivals
  have hmessages : (empty.mergeAll batches).messages = firstsBy key arrivals := by
    rw [mergeAll_eq_addAll, messages_addAll_empty]
  have hiff : (empty.mergeAll batches).messages = firstsBy identity arrivals ↔
      ∀ a ∈ arrivals, ∀ b ∈ arrivals, ¬a.IsMistakenFor b := by
    rw [hmessages]
    constructor
    · intro heq a ha b hb hmistaken
      exact hmistaken.identity_ne (identity_eq_of_firstsBy_eq heq ha hb hmistaken.key_eq)
    · intro hnone
      refine firstsBy_congr fun a ha b hb => ?_
      rw [key_eq_key_iff, or_iff_left]
      exact not_or.2 ⟨hnone a ha b hb, hnone b hb a ha⟩
  refine ⟨hiff, fun hclean => hiff.2 fun a ha b _ hmistaken => ?_⟩
  obtain ⟨hbar, hprefix⟩ := hclean a ha hmistaken.1
  obtain ⟨-, ⟨rest, haddress, -⟩ | ⟨-, more, haddress, -⟩⟩ := hmistaken
  · exact hprefix ⟨rest.toList, by rw [haddress, String.toList_append]; rfl⟩
  · exact hbar (by simp [haddress])

/-- Bars in texts and in identifiers lead to no mistake. -/
theorem bars_in_texts_do_no_harm :
    let time : Instant := ⟨⟨1970, 1, 1, by decide⟩, 0, 0, 0, 0, by decide⟩
    let a : ChatMessage := ⟨none, "0xa", "gm|1970-01-01T00:00:00+00:00|hi", time⟩
    let b : ChatMessage := ⟨some "0xa|1970-01-01T00:00:00+00:00|gm", "0xa", "gm", time⟩
    (∀ m ∈ [a, b, a], m.id = none → '|' ∉ m.address.toList ∧
        ¬['i', 'd', ':'] <+: m.address.toList) ∧
      (empty.mergeAll [[a, b], [a]]).messages = [a, b] := by
  intro time a b
  have hclean : ∀ m ∈ [a, b, a], m.id = none → '|' ∉ m.address.toList ∧
      ¬['i', 'd', ':'] <+: m.address.toList := by decide
  exact ⟨hclean, ((keeps_first_of_each_iff [[a, b], [a]]).2 hclean).trans (by decide +kernel)⟩

/-- An address with a bar in it makes two messages without identifiers look the same, and the second
one is lost. -/
theorem message_lost_to_bar_in_address :
    let time : Instant := ⟨⟨1970, 1, 1, by decide⟩, 0, 0, 0, 0, by decide⟩
    let a : ChatMessage := ⟨none, "0xa", "gm|1970-01-01T00:00:00+00:00|hi", time⟩
    let b : ChatMessage := ⟨none, "0xa|1970-01-01T00:00:00+00:00|gm", "hi", time⟩
    (empty.mergeAll [[a], [b]]).messages = [a] ∧ firstsBy identity [a, b] = [a, b] := by
  decide +kernel

end ChatLog

end PredictionMarket
