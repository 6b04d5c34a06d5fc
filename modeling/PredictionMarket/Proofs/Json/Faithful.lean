import PredictionMarket.Chat.Message
import PredictionMarket.Holdings
import PredictionMarket.Market.Json
import PredictionMarket.Proofs.Json.Record
import PredictionMarket.Ranking.Buyer
import PredictionMarket.Wallet.Effects

/-!
# Values that survive their JSON texts

What a server or a wallet says is read from JSON and may be written again. A value is read back from
its text as it was, so a text that is read and written again is settled: doing it once more changes
nothing.

## Main definitions

* `Json.rewritten?`: a text after reading and writing.
* `Json.IsFaithful`: types whose values survive their texts.

## Main results

* `Json.isFaithful_of_readings`: markets, holdings, effects, chat messages and buyers are such
  types.
-/

namespace PredictionMarket

namespace Json

/-- A text that is read as a value of a type and written again. -/
def rewritten? (α : Type) [Codec α] (s : String) : Option String :=
  (decode? α s).map encode

/-- The values of a type survive their texts, and texts settle when they are rewritten once. -/
structure IsFaithful (α : Type) [Codec α] : Prop where
  decode?_encode (a : α) : decode? α (encode a) = some a
  rewritten?_rewritten? (s : String) :
    (rewritten? α s).bind (rewritten? α) = rewritten? α s

/-- A type is faithful once its text is read back, since the second text is then that of the same
value. -/
theorem isFaithful_of_decode?_encode {α : Type} [Codec α]
    (h : ∀ a : α, decode? α (encode a) = some a) : IsFaithful α := by
  refine ⟨h, fun s => ?_⟩
  unfold rewritten?
  cases decode? α s with
  | none => rfl
  | some a => rw [Option.map_some, Option.bind_some, h, Option.map_some]

end Json

open Json

/-- A market is read back from its text. -/
theorem Market.decode?_encode (m : Market) : decode? Market (encode m) = some m := by
  have hslots : m.toTerm.slots? fieldNames = some _ := Term.slots?_ofMembers rfl (by decide)
  have hprice := Slot.optional_ofOption rfl Term.word?_ofWord
  refine decode?_encode_of_isPlain 1 (Term.isPlain_ofMembers ?_) ?_
  · simp [Term.isPlain_ofString, Term.isPlain_ofWord, Term.isPlain_ofOption]
  · change ofTerm? m.toTerm = some m
    rw [ofTerm?, hslots]
    simp [hprice]

/-- A coin is read back from its term. -/
theorem Coin.ofTerm?_toTerm (c : Coin) : ofTerm? c.toTerm = some c := by
  have hslots : c.toTerm.slots? ["object_id", "balance"] = some _ :=
    Term.slots?_ofMembers rfl (by decide)
  rw [ofTerm?, hslots]
  simp

/-- A coin is one object of plain members. -/
theorem Coin.isPlain_toTerm (c : Coin) : c.toTerm.IsPlain 1 :=
  Term.isPlain_ofMembers (by simp [Term.isPlain_ofString, Term.isPlain_ofWord])

/-- Holdings are read back from their text, with every coin in its place. -/
theorem Holdings.decode?_encode (h : Holdings) : decode? Holdings (encode h) = some h := by
  have hslots : h.toTerm.slots? ["owner", "usdc"] = some _ :=
    Term.slots?_ofMembers rfl (by decide)
  have hcoins := Term.list?_map h.coins fun c _ => c.ofTerm?_toTerm
  have hplain : (Term.array (h.coins.map Coin.toTerm)).IsPlain 2 :=
    Term.isPlain_array (List.forall_mem_map.2 fun c _ => c.isPlain_toTerm)
  refine decode?_encode_of_isPlain 3 (Term.isPlain_ofMembers ?_) ?_
  · simp [Term.isPlain_ofString, hplain]
  · change ofTerm? h.toTerm = some h
    rw [ofTerm?, hslots]
    simp [hcoins]

/-- Effects leave out the error they do not have. -/
theorem Effects.toTerm_eq_written (e : Effects) :
    e.toTerm = Term.written [("digest", some (.ofString e.digest)),
      ("success", some (.bool e.success)), ("error", e.error.map .ofString)] := by
  unfold toTerm Term.written
  cases e.error <;> rfl

/-- Effects are read back from their text. -/
theorem Effects.decode?_encode (e : Effects) : decode? Effects (encode e) = some e := by
  have hslots : e.toTerm.slots? ["digest", "success", "error"] = some _ :=
    (congrArg (Term.slots? _) e.toTerm_eq_written).trans
      (Term.slots?_written rfl (by decide))
  refine decode?_encode_of_isPlain 1 (Term.isPlain_ofMembers ?_) ?_
  · cases e.error <;> simp [Term.isPlain_ofString, Term.isPlain_bool, Term.member]
  · change ofTerm? e.toTerm = some e
    rw [ofTerm?, hslots]
    simp [Slot.orElse_slot rfl Term.string?_ofString]

/-- A message leaves out the id it does not have. -/
theorem ChatMessage.toTerm_eq_written (m : ChatMessage) :
    m.toTerm = Term.written [("id", m.id.map .ofString), ("address", some (.ofString m.address)),
      ("message", some (.ofString m.message)), ("timestamp", some (.ofInstant m.timestamp))] := by
  unfold toTerm Term.written
  cases m.id <;> rfl

/-- A chat message is read back from its text. -/
theorem ChatMessage.decode?_encode (m : ChatMessage) :
    decode? ChatMessage (encode m) = some m := by
  have hslots : m.toTerm.slots? ["id", "address", "message", "timestamp"] = some _ :=
    (congrArg (Term.slots? _) m.toTerm_eq_written).trans
      (Term.slots?_written rfl (by decide))
  refine decode?_encode_of_isPlain 1 (Term.isPlain_ofMembers ?_) ?_
  · cases m.id <;> simp [Term.isPlain_ofString, Term.isPlain_ofInstant, Term.member]
  · change ofTerm? m.toTerm = some m
    rw [ofTerm?, hslots]
    simp [Slot.orElse_slot rfl Term.string?_ofString]

/-- A buyer is read back from its text. -/
theorem Buyer.decode?_encode (b : Buyer) : decode? Buyer (encode b) = some b := by
  have hslots : b.toTerm.slots?
      ["address", "buyAmount", "lastBuyTime", "transactionCount"] = some _ :=
    Term.slots?_ofMembers rfl (by decide)
  have hcount : b.transactionCount.toNat < UInt64.size :=
    b.transactionCount.toNat_lt_size.trans (by decide)
  refine decode?_encode_of_isPlain 1 (Term.isPlain_ofMembers ?_) ?_
  · simp [Term.isPlain_ofString, Term.isPlain_ofWord, Term.isPlain_ofInstant,
      Term.isPlain_ofNat hcount]
  · change ofTerm? b.toTerm = some b
    rw [ofTerm?, hslots]
    simp

/-- What is read from the index, a wallet, a chat or a ranking survives its text: arbitrary texts,
words and instants come back, and so does what is absent. -/
theorem Json.isFaithful_of_readings :
    IsFaithful Market ∧ IsFaithful Holdings ∧ IsFaithful Effects ∧ IsFaithful ChatMessage ∧
      IsFaithful Buyer :=
  ⟨isFaithful_of_decode?_encode Market.decode?_encode,
    isFaithful_of_decode?_encode Holdings.decode?_encode,
    isFaithful_of_decode?_encode Effects.decode?_encode,
    isFaithful_of_decode?_encode ChatMessage.decode?_encode,
    isFaithful_of_decode?_encode Buyer.decode?_encode⟩

end PredictionMarket
