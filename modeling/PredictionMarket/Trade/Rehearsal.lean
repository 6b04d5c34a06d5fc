import PredictionMarket.Trade.Question

/-!
# Trading with known replies

`Trade.Rehearsal` stands in for the surroundings of trading: its clock stands still, its index lists
the same coins for every owner, and its wallet gives one reply after the other.
-/

namespace PredictionMarket

namespace Trade

/-- Surroundings with known replies. -/
structure Rehearsal where
  now : Instant
  /-- The coins of every owner, or why the index fails. -/
  coins : Except String (List Coin)
  /-- The replies of the wallet to come. -/
  replies : List (Except String Effects)
  /-- The reply of the wallet once there are no others. -/
  lastReply : Effects
  /-- The transactions that the wallet was asked to execute. -/
  sent : List Transaction
  /-- The rows of the journal. -/
  rows : List Journal.Row

namespace Rehearsal

/-- The answer to a question of trading. -/
def answer : (q : Question) → StateM Rehearsal q.Answer
  | .now => do return (← get).now
  | .salt => return (0 : UInt64)
  | .holdings owner => do return (← get).coins.map fun coins => ⟨owner, coins⟩
  | .execute t => do
    let h ← get
    set { h with sent := h.sent ++ [t], replies := h.replies.tail }
    return h.replies.headD (.ok h.lastReply)
  | .record row => modify fun h => { h with rows := h.rows ++ [row] }

/-- The result of a dialogue of trading over what was last read, with what is known and the
surroundings after it. -/
def hold {α : Type} (h : Rehearsal) (known : Store) (session : Session α) :
    (α × Store) × Rehearsal :=
  StateT.run (m := Id) ((session.run known).run answer) h

end Rehearsal

end Trade

end PredictionMarket
