import PredictionMarket.Chat.Message

/-!
# The chat log

A `ChatLog` lists the messages of one market in the order in which they arrived, each once.

## Main definitions

* `ChatMessage.key`: the text by which messages are told apart.
* `ChatLog.add`, `ChatLog.merge`: adding what has not arrived before.

## Main statements

* `ChatLog.merge_snd`: what arrives together is added one by one.
-/

namespace PredictionMarket

/-- The text by which a message is told apart from others: its identifier, or else its address, time
and text. -/
def ChatMessage.key (m : ChatMessage) : String :=
  match m.id with
  | some id => "id:" ++ id
  | none => m.address ++ "|" ++ m.timestamp.text "+00:00" ++ "|" ++ m.message

/-- The messages that arrived, without repetitions. -/
structure ChatLog where
  messages : List ChatMessage
  /-- The keys of the messages that arrived. -/
  seen : List String
deriving DecidableEq, Repr

namespace ChatLog

def empty : ChatLog := ⟨[], []⟩

def size (log : ChatLog) : Nat :=
  log.messages.length

/-- The log with a message at its end, unless one with the same key arrived before. -/
def add (log : ChatLog) (m : ChatMessage) : ChatLog :=
  if log.seen.contains m.key then log else ⟨log.messages ++ [m], m.key :: log.seen⟩

/-- The log with messages added in order. -/
def addAll (log : ChatLog) (messages : List ChatMessage) : ChatLog :=
  messages.foldl add log

/-- The count of new messages and the log after one more message arrives. -/
def arrive (counted : Nat × ChatLog) (m : ChatMessage) : Nat × ChatLog :=
  if counted.2.seen.contains m.key then counted else (counted.1 + 1, counted.2.add m)

/-- The number of new messages among those that arrive, and the log with them. -/
def merge (log : ChatLog) (messages : List ChatMessage) : Nat × ChatLog :=
  messages.foldl arrive (0, log)

/-- A message is counted and added. -/
theorem arrive_snd (counted : Nat × ChatLog) (m : ChatMessage) :
    (arrive counted m).2 = counted.2.add m := by
  unfold arrive add
  split <;> rfl

/-- Messages are counted and added one after the other. -/
theorem foldl_arrive_snd (counted : Nat × ChatLog) (messages : List ChatMessage) :
    (messages.foldl arrive counted).2 = counted.2.addAll messages := by
  induction messages generalizing counted with
  | nil => rfl
  | cons m messages ih => rw [List.foldl_cons, ih, arrive_snd]; rfl

/-- Merging a batch adds its messages. -/
@[simp] theorem merge_snd (log : ChatLog) (messages : List ChatMessage) :
    (log.merge messages).2 = log.addAll messages :=
  foldl_arrive_snd (0, log) messages

end ChatLog

end PredictionMarket
