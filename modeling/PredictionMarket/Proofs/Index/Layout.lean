import PredictionMarket.Index.Layout
import PredictionMarket.Proofs.Json.Members

/-!
# The content of a market

The ways to write the fields of a market are listed one by one, and it is shown that a content is
read exactly if its fields are written in these ways.

## Main definitions

* `Json.Term.Encodes`: the ways to write a number.
* `Index.FieldAmount`, `Index.FieldText`: what a field stands for, also if it is missing.
* `Index.IsLayout`: the market that a content writes.

## Main results

* `Json.Value.amount?_eq_some_iff`: a number is read exactly if it is written in one of these ways.
* `Index.market?_eq_some_iff`: a market is read exactly if its fields are.
-/

namespace PredictionMarket

namespace Json

/-- The ways to write a number of sixty-four bits. -/
inductive Term.Encodes : Term → UInt64 → Prop
  /-- In digits, without a sign, a point and an exponent. -/
  | number {n : ℕ} (h : n < UInt64.size) : Encodes (.number (.ofNat n)) (.ofNat n)
  /-- As a text that is read as a word. -/
  | text {s : String} {n : UInt64} (h : Literal.word? s = some n) : Encodes (.text (some s)) n
  /-- As an object that has the number as its member `value`. -/
  | value {members : List (Text × Term)} {t : Term} {n : UInt64}
    (hvalue : members.lookup (some "value") = some t) (h : Encodes t n) :
    Encodes (.object members) n

namespace Value

variable {n : UInt64} {t : Term} {v : Value}

/-- An object is an amount if its member `value` is one. -/
theorem amount?_object (ms : List (String × Value)) :
    (object ms).amount? = (ms.lookup "value").bind amount? := by
  rw [amount?]
  induction ms with
  | nil => rfl
  | cons m ms ih =>
    obtain ⟨k, v⟩ := m
    rw [memberAmount?, Term.lookup_cons_eq_ite, ih]
    by_cases hk : k = "value"
    · rw [if_pos hk, if_pos hk.symm]
      rfl
    · rw [if_neg hk, if_neg (Ne.symm hk)]

/-- A number in digits alone is a natural number, and no other is one. -/
theorem ofNumber?_cases {k : Number} (h : ofNumber? k = some v) :
    (∃ n < UInt64.size, k = .ofNat n ∧ v = natural (.ofNat n)) ∨
      (∀ n < UInt64.size, k ≠ .ofNat n) ∧ ((∃ m, v = negative m) ∨ ∃ x, v = float x) := by
  have hfloat {x : Option Binary64} (hx : x.map float = some v) : ∃ x, v = float x := by
    obtain ⟨x, -, rfl⟩ := Option.map_eq_some_iff.1 hx
    exact ⟨x, rfl⟩
  obtain ⟨negative, whole, fraction, exponent⟩ := k
  -- The cases of the reader: no point and no exponent, then the range and the sign.
  unfold ofNumber? at h
  split at h
  · next hplain =>
    simp only [Bool.and_eq_true, List.isEmpty_iff, Option.isNone_iff_eq_none] at hplain
    obtain ⟨rfl, rfl⟩ := hplain
    split at h
    · next hword =>
      simp only [Bool.and_eq_true, Bool.not_eq_true', decide_eq_true_eq] at hword
      obtain ⟨rfl, hlt⟩ := hword
      cases h
      exact .inl ⟨whole, hlt, rfl, rfl⟩
    · next hword =>
      refine .inr ⟨?_, ?_⟩
      · rintro n hlt heq
        cases heq
        simp [hlt] at hword
      · split at h
        · cases h
          exact .inl ⟨_, rfl⟩
        · exact .inr (hfloat h)
  · next hplain =>
    refine .inr ⟨?_, .inr (hfloat h)⟩
    rintro n - heq
    cases heq
    exact hplain rfl

/-- The number a term is read as is an amount just if the term encodes it. -/
theorem amount?_of_ofNumber? {k : Number} (h : ofNumber? k = some v) :
    v.amount? = some n ↔ (Term.number k).Encodes n := by
  obtain ⟨m, hlt, rfl, rfl⟩ | ⟨hne, hother⟩ := ofNumber?_cases h
  · constructor
    · rintro ⟨⟩
      exact .number hlt
    · rintro ⟨⟩
      rfl
  · have hnone : v.amount? = none := by
      obtain ⟨_, rfl⟩ | ⟨_, rfl⟩ := hother <;> rfl
    rw [hnone]
    constructor
    · rintro ⟨⟩
    · rintro (hlt | _ | _)
      exact absurd rfl (hne _ hlt)

/-- A value stands for a number exactly if its tree is a way to write that number. -/
theorem amount?_eq_some_iff {t : Term} {v : Value} (hdistinct : t.isUnambiguous = true)
    (h : ofTerm? t = some v) : v.amount? = some n ↔ t.Encodes n := by
  match t, h with
  | .null, h =>
    cases h
    exact ⟨nofun, nofun⟩
  | .bool b, h =>
    cases h
    exact ⟨nofun, nofun⟩
  | .number k, h => exact amount?_of_ofNumber? h
  | .text s, h =>
    obtain ⟨s, rfl, rfl⟩ := Option.map_eq_some_iff.1 h
    exact ⟨.text, fun (.text h) => h⟩
  | .array items, h =>
    obtain ⟨vs, -, rfl⟩ := Option.map_eq_some_iff.1 h
    exact ⟨nofun, nofun⟩
  | .object members, h =>
    obtain ⟨hnodup, hmembers⟩ := (Term.isUnambiguous_object members).1 hdistinct
    -- Only the member `value` counts, and it is a smaller tree.
    have hvalue : ∀ t v, members.lookup (some "value") = some t → ofTerm? t = some v →
        (v.amount? = some n ↔ t.Encodes n) :=
      fun t v ht hv => amount?_eq_some_iff (hmembers _ (Term.mem_of_lookup ht)) hv
    obtain ⟨ms, rfl, hlookup, hsome⟩ := lookup_of_ofTerm? hnodup h
    rw [amount?_object, hlookup]
    constructor
    · intro hn
      obtain ⟨v, hv, hn⟩ := Option.bind_eq_some_iff.1 hn
      obtain ⟨t, ht, hv⟩ := Option.bind_eq_some_iff.1 hv
      exact .value ht ((hvalue t v ht hv).1 hn)
    · rintro (_ | _ | ⟨ht, hn⟩)
      obtain ⟨v, hv⟩ := Option.isSome_iff_exists.1 (hsome _ (Term.mem_of_lookup ht))
      rw [ht, Option.bind_some, hv, Option.bind_some]
      exact (hvalue _ v ht hv).2 hn
termination_by t
decreasing_by
  have hlt := List.sizeOf_lt_of_mem (Term.mem_of_lookup ht)
  simp at hlt ⊢
  omega

/-- Null and strings are the values of no other trees. -/
theorem eq_of_ofTerm? (h : ofTerm? t = some v) :
    (v = null → t = .null) ∧ ∀ s, v = string s → t = .text (some s) := by
  cases t with
  | null => exact ⟨fun _ => rfl, by cases h; exact nofun⟩
  | bool b =>
    cases h
    exact ⟨nofun, nofun⟩
  | number k =>
    obtain ⟨_, -, -, rfl⟩ | ⟨-, ⟨_, rfl⟩ | ⟨_, rfl⟩⟩ := ofNumber?_cases h <;>
      exact ⟨nofun, nofun⟩
  | text s =>
    obtain ⟨s, rfl, rfl⟩ := Option.map_eq_some_iff.1 h
    refine ⟨nofun, fun s' heq => ?_⟩
    cases heq
    rfl
  | array items =>
    obtain ⟨vs, -, rfl⟩ := Option.map_eq_some_iff.1 h
    exact ⟨nofun, nofun⟩
  | object members =>
    obtain ⟨ms, -, rfl⟩ := Option.map_eq_some_iff.1 h
    exact ⟨nofun, nofun⟩

end Value

end Json

namespace Index

open Json

/-- The number that a field of a content stands for, none if it is missing or null. -/
inductive FieldAmount : Option Term → Option UInt64 → Prop
  | missing : FieldAmount none none
  | null : FieldAmount (some .null) none
  | given {t : Term} {n : UInt64} (h : t.Encodes n) : FieldAmount (some t) (some n)

/-- The text that a field of a content is, empty if it is missing. -/
inductive FieldText : Option Term → String → Prop
  | missing : FieldText none ""
  | given (s : String) : FieldText (some (.text (some s))) s

/-- The number that a field stands for, zero if it is missing or null. -/
def FieldAmountOrZero (field : Option Term) (n : UInt64) : Prop :=
  ∃ amount, FieldAmount field amount ∧ amount.getD 0 = n

/-- The fields of a market are those of a content. -/
structure IsLayout (content : Term) (m : Market) : Prop where
  topic : FieldText (content.get? "topic") m.topic
  description : FieldText (content.get? "description") m.description
  yes : FieldAmountOrZero (content.get? "yes") m.yes
  no : FieldAmountOrZero (content.get? "no") m.no
  startTime : FieldAmountOrZero (content.get? "start_time") m.startTime
  endTime : FieldAmountOrZero (content.get? "end_time") m.endTime
  balance : FieldAmountOrZero (content.get? "balance") m.balance
  yesPrice : FieldAmount (content.get? "yesprice") m.yesPrice
  noPrice : FieldAmount (content.get? "noprice") m.noPrice
  /-- Any value will do. -/
  oracleConfig : m.oracleConfig =
    (((content.get? "oracle_config").bind Value.ofTerm?).getD .null).plainText

/-- The tree of a field, if there is one, has one meaning. -/
def HasMeaning (field : Option Term) : Prop :=
  ∀ t, field = some t → t.isUnambiguous = true ∧ (Value.ofTerm? t).isSome = true

section

variable {field : Option Term}

/-- A field with a value is an amount or a fault, but never left out. -/
theorem optionalAmount?_of_ne_null {v : Value} (h : v ≠ .null) :
    Value.optionalAmount? (some v) = v.amount?.map some := by
  cases v with
  | null => exact absurd rfl h
  | _ => rfl

/-- What is read of an amount that may be left out is what its field gives. -/
theorem optionalAmount?_eq_some_iff (h : HasMeaning field) (amount : Option UInt64) :
    Value.optionalAmount? (field.bind Value.ofTerm?) = some amount ↔ FieldAmount field amount := by
  cases field with
  | none =>
    constructor
    · rintro ⟨⟩
      exact .missing
    · rintro ⟨⟩
      rfl
  | some t =>
    obtain ⟨hdistinct, hsome⟩ := h t rfl
    obtain ⟨v, hv⟩ := Option.isSome_iff_exists.1 hsome
    rw [Option.bind_some, hv]
    by_cases hnull : t = .null
    · subst hnull
      cases hv
      constructor
      · rintro ⟨⟩
        exact .null
      · rintro (_ | _ | ⟨⟨⟩⟩)
        rfl
    · have hne : v ≠ .null := fun heq => hnull ((Value.eq_of_ofTerm? hv).1 heq)
      rw [optionalAmount?_of_ne_null hne, Option.map_eq_some_iff]
      constructor
      · rintro ⟨n, hn, rfl⟩
        exact .given ((Value.amount?_eq_some_iff hdistinct hv).1 hn)
      · rintro (_ | _ | hn)
        · exact absurd rfl hnull
        · exact ⟨_, (Value.amount?_eq_some_iff hdistinct hv).2 hn, rfl⟩

/-- What is read of an amount that is zero by default is what its field gives. -/
theorem amountOrZero?_eq_some_iff (h : HasMeaning field) (n : UInt64) :
    Value.amountOrZero? (field.bind Value.ofTerm?) = some n ↔ FieldAmountOrZero field n := by
  simp only [Value.amountOrZero?, Option.map_eq_some_iff, optionalAmount?_eq_some_iff h,
    FieldAmountOrZero]

/-- What is read of a text that is empty by default is what its field gives. -/
theorem textOr_eq_some_iff (h : HasMeaning field) (s : String) :
    Value.textOr "" (field.bind Value.ofTerm?) = some s ↔ FieldText field s := by
  cases field with
  | none =>
    constructor
    · rintro ⟨⟩
      exact .missing
    · rintro ⟨⟩
      rfl
  | some t =>
    obtain ⟨v, hv⟩ := Option.isSome_iff_exists.1 (h t rfl).2
    rw [Option.bind_some, hv]
    constructor
    · intro hs
      obtain rfl : v = .string s := by
        cases v with
        | string s' =>
          cases hs
          rfl
        | _ => cases hs
      rw [(Value.eq_of_ofTerm? hv).2 s rfl]
      exact .given s
    · rintro ⟨⟩
      cases hv
      rfl

end

/-- A content is the layout of a market exactly if that market is read. -/
theorem market?_eq_some_iff {members : List (Text × Term)} {v : Value}
    (hdistinct : (Term.object members).isUnambiguous = true)
    (h : Value.ofTerm? (.object members) = some v) (address : String) (m : Market) :
    market? address v = some m ↔ m.address = address ∧ IsLayout (.object members) m := by
  obtain ⟨hnodup, hmembers⟩ := (Term.isUnambiguous_object members).1 hdistinct
  obtain ⟨ms, rfl, hlookup, hsome⟩ := Value.lookup_of_ofTerm? hnodup h
  have hmeaning (name : String) : HasMeaning ((Term.object members).get? name) :=
    fun t ht => ⟨hmembers _ (Term.mem_of_lookup ht), hsome _ (Term.mem_of_lookup ht)⟩
  have hfield (name : String) : ms.lookup name =
      ((Term.object members).get? name).bind Value.ofTerm? := hlookup name
  simp only [market?, Value.fields?, fieldNames, List.map_cons, List.map_nil, hfield,
    Option.bind_eq_bind, Option.bind_eq_some_iff, Option.pure_def, Option.some.injEq,
    optionalAmount?_eq_some_iff (hmeaning _), amountOrZero?_eq_some_iff (hmeaning _),
    textOr_eq_some_iff (hmeaning _)]
  constructor
  · rintro ⟨topic, htopic, description, hdescription, yes, hyes, no, hno, start, hstart, finish,
      hfinish, balance, hbalance, yesPrice, hyesPrice, noPrice, hnoPrice, rfl⟩
    exact ⟨rfl, htopic, hdescription, hyes, hno, hstart, hfinish, hbalance, hyesPrice, hnoPrice,
      rfl⟩
  · rintro ⟨rfl, hlayout⟩
    refine ⟨_, hlayout.topic, _, hlayout.description, _, hlayout.yes, _, hlayout.no, _,
      hlayout.startTime, _, hlayout.endTime, _, hlayout.balance, _, hlayout.yesPrice, _,
      hlayout.noPrice, ?_⟩
    rw [← hlayout.oracleConfig]

end Index

end PredictionMarket
