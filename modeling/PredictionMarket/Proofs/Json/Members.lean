import Mathlib.Data.List.Nodup
import PredictionMarket.Proofs.Json.Record

/-!
# Members by their names

A record and a value both find a member by its name, each in a way of its own. Where no name occurs
twice they find the same.

## Main definitions

* `Json.Term.get?`: the value of a member.
* `Json.Term.isUnambiguous`: no object has two members of one name.

## Main results

* `Json.Term.slots?_of_isUnambiguous`: the fields of a record are the members of their names.
* `Json.Value.lookup_of_ofTerm?`: the members of a value are the values of the members.
-/

namespace PredictionMarket

namespace Json

namespace Term

/-- The value of a member, if the tree is an object that has it. -/
def get? (name : String) : Term → Option Term
  | object members => members.lookup (some name)
  | _ => none

mutual

/-- Whether no object in a tree has two members of one name. -/
def isUnambiguous : Term → Bool
  | array items => itemsUnambiguous items
  | object members =>
    decide (members.filterMap Prod.fst).Nodup && membersUnambiguous members
  | _ => true

/-- Whether all items are unambiguous. -/
def itemsUnambiguous : List Term → Bool
  | [] => true
  | t :: ts => t.isUnambiguous && itemsUnambiguous ts

/-- Whether the values of all members are unambiguous. -/
def membersUnambiguous : List (Text × Term) → Bool
  | [] => true
  | (_, t) :: ms => t.isUnambiguous && membersUnambiguous ms

end

/-- The test on items is a test on each of them. -/
theorem itemsUnambiguous_iff (items : List Term) :
    itemsUnambiguous items = true ↔ ∀ t ∈ items, t.isUnambiguous = true := by
  induction items with
  | nil => simp [itemsUnambiguous]
  | cons t ts ih => simp [itemsUnambiguous, ih]

/-- The test on members is a test on the term of each of them. -/
theorem membersUnambiguous_iff (members : List (Text × Term)) :
    membersUnambiguous members = true ↔ ∀ m ∈ members, m.2.isUnambiguous = true := by
  induction members with
  | nil => simp [membersUnambiguous]
  | cons m ms ih => simp [membersUnambiguous, ih]

@[simp] theorem isUnambiguous_array (items : List Term) :
    (array items).isUnambiguous = true ↔ ∀ t ∈ items, t.isUnambiguous = true :=
  itemsUnambiguous_iff items

@[simp] theorem isUnambiguous_object (members : List (Text × Term)) :
    (object members).isUnambiguous = true ↔
      (members.filterMap Prod.fst).Nodup ∧ ∀ m ∈ members, m.2.isUnambiguous = true := by
  rw [isUnambiguous, Bool.and_eq_true, decide_eq_true_eq, membersUnambiguous_iff]

variable {members : List (Text × Term)} {ms : List (String × Term)} {name : String} {t : Term}

/-- A pair in front is found first. -/
theorem lookup_cons_eq_ite {α β : Type} [BEq α] [LawfulBEq α] [DecidableEq α] (a : α) (m : α × β)
    (l : List (α × β)) : (m :: l).lookup a = if a = m.1 then some m.2 else l.lookup a := by
  rw [List.lookup_cons]
  by_cases h : a = m.1
  · rw [if_pos h, beq_iff_eq.2 h]
  · rw [if_neg h, beq_eq_false_iff_ne.2 h]

/-- What is found under a key stands in the list. -/
theorem mem_of_lookup {α β : Type} [BEq α] [LawfulBEq α] {l : List (α × β)} {a : α} {b : β}
    (h : l.lookup a = some b) : (a, b) ∈ l := by
  obtain ⟨before, after, rfl, -⟩ := List.lookup_eq_some_iff.1 h
  exact List.mem_append_right before List.mem_cons_self

/-- A member of an unambiguous object is unambiguous. -/
theorem isUnambiguous_of_get? {u : Term} (h : u.isUnambiguous = true)
    (hget : u.get? name = some t) : t.isUnambiguous = true := by
  cases u with
  | object members => exact ((isUnambiguous_object members).1 h).2 _ (mem_of_lookup hget)
  | _ => cases hget

/-! ### The fields of a record -/

/-- A member is found by its name. -/
theorem get?_ofMembers (ms : List (String × Term)) (name : String) :
    (ofMembers ms).get? name = ms.lookup name := by
  rw [ofMembers, get?]
  induction ms with
  | nil => rfl
  | cons m ms ih =>
    obtain ⟨k, t⟩ := m
    rw [List.map_cons, lookup_cons_eq_ite, lookup_cons_eq_ite, ih]
    simp only [Option.some.injEq]

/-- With distinct keys there is at most one member of a name. -/
theorem filter_eq_lookup (h : (ms.map Prod.fst).Nodup) (name : String) :
    ms.filter (·.1 == name) = (ms.lookup name).toList.map (name, ·) := by
  induction ms with
  | nil => rfl
  | cons m ms ih =>
    obtain ⟨k, t⟩ := m
    obtain ⟨hnot, hnodup⟩ := List.nodup_cons.1 h
    by_cases hk : k = name
    · -- No other member has the name.
      subst hk
      have hrest : ms.filter (·.1 == k) = [] := by
        refine List.filter_eq_nil_iff.2 fun m hm heq => hnot ?_
        exact List.mem_map.2 ⟨m, hm, beq_iff_eq.1 heq⟩
      simp [hrest]
    · rw [lookup_cons_eq_ite, if_neg (Ne.symm hk), ← ih hnodup]
      simp [hk]

/-- The keys of an unambiguous object are distinct. -/
theorem nodup_of_isUnambiguous (h : (ofMembers ms).isUnambiguous = true) :
    (ms.map Prod.fst).Nodup := by
  have hnodup := ((isUnambiguous_object _).1 h).1
  rw [List.filterMap_map] at hnodup
  rwa [← List.filterMap_eq_map]

/-- The fields of a record without repeated names are found by their names. -/
theorem slots?_of_isUnambiguous (h : (ofMembers ms).isUnambiguous = true) (names : List String) :
    (ofMembers ms).slots? names =
      some (names.map fun name => Field.slot (name, ms.lookup name)) := by
  have hslot : ∀ name ∈ names, slotOf? ms name = some (Field.slot (name, ms.lookup name)) := by
    intro name _
    rw [slotOf?, filter_eq_lookup (nodup_of_isUnambiguous h)]
    cases ms.lookup name <;> rfl
  unfold slots? ofMembers
  simp only [keyed?_map, Option.bind_eq_bind, Option.bind_some]
  have hmap := mapM_map_eq_some (g := id) names hslot
  rwa [List.map_id] at hmap

end Term

namespace Value

/-! ### The members of a value -/

variable {members : List (Text × Term)} {ms : List (String × Value)} {v : Value}

/-- Of two members with one name the later is kept. -/
theorem lookup_insertMember (key : String) (v : Value) (ms : List (String × Value))
    (name : String) :
    (insertMember key v ms).lookup name = if name = key then some v else ms.lookup name := by
  induction ms with
  | nil => rw [insertMember, Term.lookup_cons_eq_ite]
  | cons m ms ih =>
    obtain ⟨k, w⟩ := m
    unfold insertMember
    split
    · rw [Term.lookup_cons_eq_ite]
    split
    · next heq =>
      subst heq
      rw [Term.lookup_cons_eq_ite, Term.lookup_cons_eq_ite]
      split <;> rfl
    · next hlt hne =>
      rw [Term.lookup_cons_eq_ite, Term.lookup_cons_eq_ite, ih]
      -- The name is the one of the first member, or that of the new one, or neither.
      by_cases hfirst : name = k
      · rw [if_pos hfirst, if_pos hfirst, if_neg (hfirst ▸ Ne.symm hne)]
      · rw [if_neg hfirst, if_neg hfirst]

/-- Of members without repeated names none takes the place of another. -/
theorem lookup_foldl_insertMember (h : (ms.map Prod.fst).Nodup) (acc : List (String × Value))
    (name : String) :
    (ms.foldl (fun acc m => insertMember m.1 m.2 acc) acc).lookup name =
      (ms.lookup name).or (acc.lookup name) := by
  induction ms generalizing acc with
  | nil => rfl
  | cons m ms ih =>
    obtain ⟨k, v⟩ := m
    obtain ⟨hnot, hnodup⟩ := List.nodup_cons.1 h
    rw [List.foldl_cons, ih hnodup, lookup_insertMember, Term.lookup_cons_eq_ite]
    by_cases hname : name = k
    · subst hname
      have hnone : ms.lookup name = none :=
        List.lookup_eq_none_iff.2 fun m hm => bne_iff_ne.2 fun heq =>
          hnot (List.mem_map.2 ⟨m, hm, heq.symm⟩)
      rw [hnone, if_pos rfl, if_pos rfl]
      rfl
    · rw [if_neg hname, if_neg hname]

/-- Members without repeated names are found in any order. -/
theorem lookup_sortMembers (h : (ms.map Prod.fst).Nodup) (name : String) :
    (sortMembers ms).lookup name = ms.lookup name := by
  show (ms.foldl (fun acc m => insertMember m.1 m.2 acc) []).lookup name = ms.lookup name
  rw [lookup_foldl_insertMember h, List.lookup_nil, Option.or_none]

/-- The names stay, and each value is that of the tree of its name. -/
theorem lookup_of_ofMembers? (h : ofMembers? members = some ms) :
    ms.map Prod.fst = members.filterMap Prod.fst ∧
      (∀ name, ms.lookup name = (members.lookup (some name)).bind ofTerm?) ∧
      ∀ m ∈ members, (ofTerm? m.2).isSome = true := by
  induction members generalizing ms with
  | nil =>
    cases h
    exact ⟨rfl, fun _ => rfl, nofun⟩
  | cons m members ih =>
    obtain ⟨k, t⟩ := m
    rw [ofMembers?] at h
    simp only [Option.bind_eq_bind, Option.bind_eq_some_iff] at h
    obtain ⟨k, rfl, v, hv, rest, hrest, h⟩ := h
    cases h
    obtain ⟨hnames, hlookup, hsome⟩ := ih hrest
    refine ⟨by simp [hnames], fun name => ?_, ?_⟩
    · rw [Term.lookup_cons_eq_ite, Term.lookup_cons_eq_ite, hlookup]
      simp only [Option.some.injEq]
      split
      · exact hv.symm
      · rfl
    · rintro m hm
      obtain rfl | hm := List.mem_cons.1 hm
      · rw [hv]
        rfl
      · exact hsome m hm

/-- The members of a value are the values of the members, and all of them have one. -/
theorem lookup_of_ofTerm? (hnodup : (members.filterMap Prod.fst).Nodup)
    (h : ofTerm? (.object members) = some v) :
    ∃ ms, v = object ms ∧
      (∀ name, ms.lookup name = (members.lookup (some name)).bind ofTerm?) ∧
      ∀ m ∈ members, (ofTerm? m.2).isSome = true := by
  obtain ⟨ms, hms, rfl⟩ := Option.map_eq_some_iff.1 h
  obtain ⟨hnames, hlookup, hsome⟩ := lookup_of_ofMembers? hms
  refine ⟨sortMembers ms, rfl, fun name => ?_, hsome⟩
  rw [lookup_sortMembers (hnames ▸ hnodup), hlookup]

end Value

end Json

end PredictionMarket
