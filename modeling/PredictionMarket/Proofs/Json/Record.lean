import PredictionMarket.Json.Codec
import PredictionMarket.Json.Value
import PredictionMarket.Proofs.Json.Term

/-!
# Records that are written and read

A record is written as an object with a member for each of its fields, of which some may be left
out. Its fields are found again by their names, and each value by the reader of its type.

## Main definitions

* `Json.Term.IsPlain`: trees of texts and words, with a bound on how deep they are nested.
* `Json.Field`: a field of a record, with its tree if it is written.

## Main results

* `Json.Term.slots?_written`: the fields of a written record.
* `Json.decode?_encode_of_isPlain`: a value is read back from its text if it is from its tree.
-/

namespace PredictionMarket

namespace Json

/-! ### Trees of texts and words -/

/-- The tree has a text of its own and a value, and containers are nested in it no deeper than some
levels. -/
structure Term.IsPlain (levels : Nat) (t : Term) : Prop where
  isExact : t.IsExact
  hasValue : (Value.ofTerm? t).isSome = true
  depth_le : t.depth ≤ levels

namespace Term

variable {levels : Nat}

/-- What is plain within some levels is plain within more. -/
theorem IsPlain.mono {more : Nat} {t : Term} (h : t.IsPlain levels) (hle : levels ≤ more) :
    t.IsPlain more :=
  ⟨h.isExact, h.hasValue, h.depth_le.trans hle⟩

/-- A plain tree is looked at inside a few containers. -/
theorem IsPlain.isHeld {outer : Nat} {t : Term} (h : t.IsPlain levels)
    (hle : outer + levels ≤ depthLimit) : t.isHeld outer = true := by
  have hdepth : outer + t.depth ≤ depthLimit :=
    (Nat.add_le_add_left h.depth_le outer).trans hle
  rw [Term.isHeld, h.hasValue, decide_eq_true hdepth]
  rfl

theorem isPlain_null : null.IsPlain levels :=
  ⟨by simp [IsExact, tokens, Token.IsExact], rfl, Nat.zero_le _⟩

theorem isPlain_bool (b : Bool) : (bool b).IsPlain levels :=
  ⟨by simp [IsExact, tokens, Token.IsExact], rfl, Nat.zero_le _⟩

theorem isPlain_ofString (s : String) : (ofString s).IsPlain levels :=
  ⟨by simp [IsExact, ofString, tokens, Token.IsExact], rfl, Nat.zero_le _⟩

theorem isPlain_ofNat {n : Nat} (h : n < UInt64.size) : (ofNat n).IsPlain levels := by
  refine ⟨?_, ?_, Nat.zero_le _⟩
  · simp [IsExact, ofNat, tokens, Token.IsExact, Number.IsExact, Number.ofNat]
  · simp [ofNat, Value.ofTerm?, Value.ofNumber?, Number.ofNat, h]

theorem isPlain_ofWord (w : UInt64) : (ofWord w).IsPlain levels :=
  isPlain_ofNat w.toNat_lt_size

/-- An optional value is plain if every value it may have is. -/
theorem isPlain_ofOption {α : Type} {f : α → Term} (h : ∀ a, (f a).IsPlain levels)
    (o : Option α) : (ofOption f o).IsPlain levels := by
  cases o with
  | none => exact isPlain_null
  | some a => exact h a

theorem isPlain_ofInstant (t : Instant) : (ofInstant t).IsPlain levels :=
  isPlain_ofString _

/-- A token of a list is a comma or belongs to an item. -/
theorem mem_itemTokens {token : Token} {ts : List Term} (h : token ∈ itemTokens ts) :
    token = .comma ∨ ∃ t ∈ ts, token ∈ t.tokens := by
  induction ts with
  | nil => cases h
  | cons t ts ih =>
    cases ts with
    | nil => exact .inr ⟨t, List.mem_cons_self, h⟩
    | cons u us =>
      obtain h | h := List.mem_append.1 h
      · exact .inr ⟨t, List.mem_cons_self, h⟩
      · obtain rfl | h := List.mem_cons.1 h
        · exact .inl rfl
        · obtain h | ⟨v, hv, h⟩ := ih h
          · exact .inl h
          · exact .inr ⟨v, List.mem_cons_of_mem t hv, h⟩

/-- A token of an object is a comma, a colon, a key or belongs to a value. -/
theorem mem_memberTokens {token : Token} {ms : List (Text × Term)}
    (h : token ∈ memberTokens ms) :
    token = .comma ∨ token = .colon ∨ ∃ m ∈ ms, token = .text m.1 ∨ token ∈ m.2.tokens := by
  induction ms with
  | nil => cases h
  | cons m ms ih =>
    have hfirst (h : token ∈ .text m.1 :: .colon :: m.2.tokens) :
        token = .comma ∨ token = .colon ∨
          ∃ m' ∈ m :: ms, token = .text m'.1 ∨ token ∈ m'.2.tokens := by
      obtain rfl | h := List.mem_cons.1 h
      · exact .inr (.inr ⟨m, List.mem_cons_self, .inl rfl⟩)
      · obtain rfl | h := List.mem_cons.1 h
        · exact .inr (.inl rfl)
        · exact .inr (.inr ⟨m, List.mem_cons_self, .inr h⟩)
    cases ms with
    | nil => exact hfirst h
    | cons m' ms =>
      obtain h | h := List.mem_append.1 h
      · exact hfirst h
      · obtain rfl | h := List.mem_cons.1 h
        · exact .inl rfl
        · obtain h | h | ⟨v, hv, h⟩ := ih h
          · exact .inl h
          · exact .inr (.inl h)
          · exact .inr (.inr ⟨v, List.mem_cons_of_mem m hv, h⟩)

/-- Items can be held as values if each of them can. -/
theorem ofItems?_isSome {ts : List Term} (h : ∀ t ∈ ts, (Value.ofTerm? t).isSome = true) :
    (Value.ofItems? ts).isSome = true := by
  induction ts with
  | nil => rfl
  | cons t ts ih =>
    obtain ⟨v, hv⟩ := Option.isSome_iff_exists.1 (h t List.mem_cons_self)
    obtain ⟨vs, hvs⟩ := Option.isSome_iff_exists.1
      (ih fun u hu => h u (List.mem_cons_of_mem t hu))
    rw [Value.ofItems?, hv, hvs]
    rfl

theorem itemsDepth_le {ts : List Term} (h : ∀ t ∈ ts, t.depth ≤ levels) :
    itemsDepth ts ≤ levels := by
  induction ts with
  | nil => exact Nat.zero_le _
  | cons t ts ih =>
    exact Nat.max_le.2 ⟨h t List.mem_cons_self, ih fun u hu => h u (List.mem_cons_of_mem t hu)⟩

/-- Members can be held as values if the term of each of them can. -/
theorem ofMembers?_isSome {ms : List (String × Term)}
    (h : ∀ m ∈ ms, (Value.ofTerm? m.2).isSome = true) :
    (Value.ofMembers? (ms.map fun (k, t) => (some k, t))).isSome = true := by
  induction ms with
  | nil => rfl
  | cons m ms ih =>
    obtain ⟨v, hv⟩ := Option.isSome_iff_exists.1 (h m List.mem_cons_self)
    obtain ⟨vs, hvs⟩ := Option.isSome_iff_exists.1
      (ih fun u hu => h u (List.mem_cons_of_mem m hu))
    rw [List.map_cons, Value.ofMembers?, hv, hvs]
    rfl

theorem membersDepth_le {ms : List (String × Term)} (h : ∀ m ∈ ms, m.2.depth ≤ levels) :
    membersDepth (ms.map fun (k, t) => (some k, t)) ≤ levels := by
  induction ms with
  | nil => exact Nat.zero_le _
  | cons m ms ih =>
    exact Nat.max_le.2 ⟨h m List.mem_cons_self, ih fun u hu => h u (List.mem_cons_of_mem m hu)⟩

/-- A list of plain terms is plain with one level more. -/
theorem isPlain_array {ts : List Term} (h : ∀ t ∈ ts, t.IsPlain levels) :
    (array ts).IsPlain (levels + 1) := by
  refine ⟨fun token htoken => ?_, ?_, ?_⟩
  · obtain htoken | htoken := List.mem_append.1 htoken
    · obtain rfl | htoken := List.mem_cons.1 htoken
      · trivial
      · obtain rfl | ⟨t, ht, hmem⟩ := mem_itemTokens htoken
        · trivial
        · exact (h t ht).isExact token hmem
    · rw [List.mem_singleton.1 htoken]
      trivial
  · rw [Value.ofTerm?, Option.isSome_map]
    exact ofItems?_isSome fun t ht => (h t ht).hasValue
  · rw [depth, Nat.add_comm]
    exact Nat.add_le_add_right (itemsDepth_le fun t ht => (h t ht).depth_le) 1

/-- The members of an object with plain keys. -/
theorem isPlain_ofMembers {ms : List (String × Term)} (h : ∀ m ∈ ms, m.2.IsPlain levels) :
    (ofMembers ms).IsPlain (levels + 1) := by
  refine ⟨fun token htoken => ?_, ?_, ?_⟩
  · obtain htoken | htoken := List.mem_append.1 htoken
    · obtain rfl | htoken := List.mem_cons.1 htoken
      · trivial
      · obtain rfl | rfl | ⟨m, hm, htoken⟩ := mem_memberTokens htoken
        · trivial
        · trivial
        · obtain ⟨m, hmem, rfl⟩ := List.mem_map.1 hm
          obtain rfl | htoken := htoken
          · rfl
          · exact (h m hmem).isExact token htoken
    · rw [List.mem_singleton.1 htoken]
      trivial
  · rw [ofMembers, Value.ofTerm?, Option.isSome_map]
    exact ofMembers?_isSome fun m hm => (h m hm).hasValue
  · rw [ofMembers, depth, Nat.add_comm]
    exact Nat.add_le_add_right (membersDepth_le fun m hm => (h m hm).depth_le) 1

/-- The tokens of a member stand together among those of the object. -/
theorem isInfix_ofMembers {m : String × Term} {ms : List (String × Term)} (h : m ∈ ms) :
    m.2.tokens <:+: (ofMembers ms).tokens := by
  have hmember : (some m.1, m.2) ∈ ms.map fun (k, t) => ((some k, t) : Text × Term) :=
    List.mem_map_of_mem h
  exact (isInfix_memberTokens hmember).trans
    ((List.suffix_cons _ _).isInfix.trans (List.prefix_append _ _).isInfix)

end Term

/-! ### The fields of a record -/

/-- A field of a record: its name, and its tree if it is written. -/
abbrev Field := String × Option Term

namespace Field

/-- The member that is written for a field. -/
def member? (f : Field) : Option (String × Term) :=
  f.2.map (f.1, ·)

/-- What an object says of a field. -/
def slot (f : Field) : Slot :=
  f.2.elim .absent .given

@[simp] theorem slot_some (name : String) (t : Term) : slot (name, some t) = .given t := rfl

end Field

/-- Reading gives back each item of a list if it gives back every item alone. -/
theorem mapM_map_eq_some {α β γ : Type} {f : β → Option γ} {g : α → β} {h : α → γ} (l : List α)
    (hl : ∀ a ∈ l, f (g a) = some (h a)) : (l.map g).mapM f = some (l.map h) := by
  induction l with
  | nil => rfl
  | cons a l ih =>
    rw [List.map_cons, List.mapM_cons, hl a List.mem_cons_self,
      ih fun b hb => hl b (List.mem_cons_of_mem a hb)]
    rfl

namespace Term

/-- A record with the members that are written. -/
def written (fields : List Field) : Term :=
  ofMembers (fields.filterMap Field.member?)

/-- All keys that are written as texts are read as such. -/
theorem keyed?_map (ms : List (String × Term)) :
    keyed? (ms.map fun (k, t) => (some k, t)) = some ms := by
  have hread := mapM_map_eq_some (f := fun ((k, t) : Text × Term) => k.map (·, t))
    (g := fun (k, t) => (some k, t)) (h := id) ms fun _ _ => rfl
  rwa [List.map_id] at hread

/-- A name that is no field's is no member's. -/
theorem filter_members_of_not_mem {fields : List Field} {name : String}
    (h : name ∉ fields.map Prod.fst) :
    (fields.filterMap Field.member?).filter (·.1 == name) = [] := by
  refine List.filter_eq_nil_iff.2 fun m hm heq => ?_
  obtain ⟨f, hf, hmember⟩ := List.mem_filterMap.1 hm
  obtain ⟨t, -, rfl⟩ := Option.map_eq_some_iff.1 hmember
  exact h (List.mem_map.2 ⟨f, hf, beq_iff_eq.1 heq⟩)

/-- Under the name of a field stands the member of this field and no other. -/
theorem filter_members {fields : List Field} (h : (fields.map Prod.fst).Nodup) {f : Field}
    (hf : f ∈ fields) :
    (fields.filterMap Field.member?).filter (·.1 == f.1) = f.member?.toList := by
  induction fields with
  | nil => cases hf
  | cons g fields ih =>
    obtain ⟨hnot, hnodup⟩ := List.nodup_cons.1 h
    have hsplit : (g :: fields).filterMap Field.member? =
        g.member?.toList ++ fields.filterMap Field.member? := by
      rw [List.filterMap_cons]
      cases g.member? <;> rfl
    rw [hsplit, List.filter_append]
    obtain rfl | hf := List.mem_cons.1 hf
    · rw [filter_members_of_not_mem hnot, List.append_nil]
      cases hf : f.2 <;> simp [Field.member?, hf]
    · have hne : g.1 ≠ f.1 := fun heq => hnot (heq ▸ List.mem_map_of_mem hf)
      rw [ih hnodup hf]
      cases hg : g.2 <;> simp [Field.member?, hg, hne]

/-- The fields of a written record are found by their names. -/
theorem slots?_written {fields : List Field} {names : List String}
    (hnames : fields.map Prod.fst = names) (h : names.Nodup) :
    (written fields).slots? names = some (fields.map Field.slot) := by
  subst names
  have hslot : ∀ f ∈ fields, slotOf? (fields.filterMap Field.member?) f.1 = some f.slot := by
    intro f hf
    rw [slotOf?, filter_members h hf]
    cases ht : f.2 <;> simp [Field.member?, Field.slot, ht]
  unfold slots? written ofMembers
  simp only [keyed?_map, Option.bind_eq_bind, Option.bind_some]
  exact mapM_map_eq_some fields hslot

/-- The fields of a record in which all of them are written. -/
theorem slots?_ofMembers {ms : List (String × Term)} {names : List String}
    (hnames : ms.map Prod.fst = names) (h : names.Nodup) :
    (ofMembers ms).slots? names = some (ms.map (.given ·.2)) := by
  have hfields : (ms.map fun m => (m.1, some m.2)).map Prod.fst = names := by
    rw [List.map_map]
    exact hnames
  have hslots := slots?_written hfields h
  have hall : (Field.member? ∘ fun m : String × Term => (m.1, some m.2)) = some := rfl
  rwa [written, List.filterMap_map, hall, List.filterMap_some, List.map_map] at hslots

/-! ### Single values -/

variable {n bound : Nat}

@[simp] theorem string?_ofString (s : String) : (ofString s).string? = some s := rfl

@[simp] theorem bool?_bool (b : Bool) : (bool b).bool? = some b := rfl

/-- A natural number below the bound is read as itself. -/
theorem natural?_ofNat (h : n < bound) : (ofNat n).natural? bound = some n := by
  simp [natural?, ofNat, Number.ofNat, h]

@[simp] theorem word?_ofWord (w : UInt64) : (ofWord w).word? = some w := by
  simp [word?, ofWord, natural?_ofNat w.toNat_lt_size]

@[simp] theorem word32?_ofNat (w : UInt32) : (ofNat w.toNat).word32? = some w := by
  simp [word32?, natural?_ofNat w.toNat_lt_size]

@[simp] theorem word16?_ofNat (w : UInt16) : (ofNat w.toNat).word16? = some w := by
  simp [word16?, natural?_ofNat w.toNat_lt_size]

@[simp] theorem word8?_ofNat (w : UInt8) : (ofNat w.toNat).word8? = some w := by
  simp [word8?, natural?_ofNat w.toNat_lt_size]

@[simp] theorem instant?_ofInstant (t : Instant) : (ofInstant t).instant? = some t := by
  rw [instant?, ofInstant, string?_ofString, Option.bind_some]
  exact Instant.ofText?_text t (.inr rfl)

/-- A list is read as itself if each of its items is. -/
theorem list?_map {α : Type} {toTerm : α → Term} {read : Term → Option α} (as : List α)
    (h : ∀ a ∈ as, read (toTerm a) = some a) :
    (array (as.map toTerm)).list? read = some as := by
  have hread := mapM_map_eq_some (h := id) as h
  rwa [List.map_id] at hread

end Term

namespace Slot

variable {α : Type} {read : Term → Option α} {toTerm : α → Term}

/-- A required member that is given is read as its term is. -/
@[simp] theorem required_given (t : Term) : (given t).required read = read t := rfl

/-- A term that is read as something is not null, where null is read as nothing. -/
theorem ne_null (hnull : read .null = none) {a : α} (h : read (toTerm a) = some a) :
    toTerm a ≠ .null := by
  intro heq
  rw [heq, hnull] at h
  cases h

/-- A value that is written as null if it is absent. -/
theorem optional_ofOption (hnull : read .null = none) (h : ∀ a, read (toTerm a) = some a)
    (o : Option α) : (given (.ofOption toTerm o)).optional read = some o := by
  cases o with
  | none => rfl
  | some a =>
    rw [Term.ofOption, optional, h, Option.map_some]
    exact ne_null hnull (h a)

/-- A value that is left out if it is absent. -/
theorem orElse_slot (hnull : read .null = none) (h : ∀ a, read (toTerm a) = some a)
    (name : String) (o : Option α) :
    (Field.slot (name, o.map toTerm)).orElse none (Term.nullable read) = some o := by
  cases o with
  | none => rfl
  | some a =>
    change Term.nullable read (toTerm a) = some (some a)
    rw [Term.nullable, h, Option.map_some]
    exact ne_null hnull (h a)

end Slot

/-! ### Values and their texts -/

/-- A value is read back from its text if it is from its tree. -/
theorem decode?_encode_of_isPlain {α : Type} [Codec α] {a : α} (levels : Nat)
    (hplain : (Codec.toTerm a).IsPlain levels)
    (h : Codec.ofTerm? (Codec.toTerm a) = some a) : decode? α (encode a) = some a := by
  unfold decode? encode
  rw [Term.ofText?_compact hplain.isExact, Option.bind_some, h]

/-- Values that are read back from their texts have different texts. -/
theorem encode_injective {α : Type} [Codec α] (h : ∀ a : α, decode? α (encode a) = some a) :
    Function.Injective (encode : α → String) := by
  intro a b heq
  have hread := h a
  rw [heq, h b] at hread
  exact (Option.some.inj hread).symm

end Json

end PredictionMarket
