import PredictionMarket.Proofs.Json.Term

/-!
# Trees that are written on lines

A tree may be written with a line for every item and member. The ends of lines and the spaces in
front of them are no part of any token, so it is read back all the same.

## Main definitions

* `Json.Term.ofBytes?`: the tree of the bytes of a text.

## Main results

* `Json.Term.lexes_pretty`: the tokens of a tree on lines are those of the tree.
* `Json.Term.ofText?_prettyText`: what is written on lines is read back.
-/

namespace PredictionMarket

namespace Json

open Token (EndsNumber Lexes)

namespace Term

variable {cs : List Char} {ts : List Token}

/-! ### Lines -/

/-- A text that is cut into tokens and may stand after any other token. -/
structure Follows (cs : List Char) (ts : List Token) : Prop where
  endsNumber : EndsNumber cs
  lexes : Lexes cs ts

namespace Follows

/-- An exact token that is not a number is read from in front of any text. -/
theorem token {t : Token} (ht : t.IsExact) (hnumber : t.isNumber = false) (h : Lexes cs ts) :
    Follows (t.render ++ cs) (t :: ts) := by
  refine ⟨?_, .token ht (fun h => absurd h (Bool.eq_false_iff.1 hnumber)) h⟩
  obtain ⟨c, written, hrender, -, hends⟩ := Token.render_eq_cons t
  rw [hrender]
  exact hends hnumber

/-- A new line with its indentation is passed over. -/
theorem newline (level : ℕ) (h : Lexes cs ts) : Follows (newline level ++ cs) ts := by
  have hspaces (n : ℕ) : Lexes (List.replicate n ' ' ++ cs) ts := by
    induction n with
    | zero => exact h
    | succ n ih => exact .space rfl ih
  refine ⟨?_, .space rfl (hspaces (2 * level))⟩
  rintro _ ⟨⟩
  decide

end Follows

/-! ### Parts of a tree -/

/-- The tokens of a list are those of the first item and, after a comma each, of the others. -/
theorem itemTokens_cons (t : Term) (items : List Term) :
    itemTokens (t :: items) = t.tokens ++ items.flatMap fun u => .comma :: u.tokens := by
  induction items generalizing t with
  | nil => simp [itemTokens]
  | cons u items ih => simp [itemTokens, ih]

/-- The tokens of an object are the first member and, after a comma each, the others. -/
theorem memberTokens_cons (m : Text × Term) (members : List (Text × Term)) :
    memberTokens (m :: members) = .text m.1 :: .colon :: m.2.tokens ++
      members.flatMap fun m => .comma :: .text m.1 :: .colon :: m.2.tokens := by
  induction members generalizing m with
  | nil => simp [memberTokens]
  | cons u members ih => simp [memberTokens, ih]

/-- The items of an exact array are exact. -/
theorem isExact_of_mem_items {t : Term} {items : List Term} (h : (array items).IsExact)
    (ht : t ∈ items) : t.IsExact :=
  fun token htoken => h token ((isInfix_array ht).subset htoken)

/-- The member has a key that is a text, and a value with a text of its own. -/
def IsExactMember (m : Text × Term) : Prop :=
  (Token.text m.1).IsExact ∧ m.2.IsExact

/-- The members of an exact object are exact. -/
theorem isExactMember_of_mem {m : Text × Term} {members : List (Text × Term)}
    (h : (object members).IsExact) (hm : m ∈ members) : IsExactMember m := by
  have hmember : ∀ token ∈ Token.text m.1 :: .colon :: m.2.tokens, token.IsExact := by
    intro token htoken
    refine h token (List.mem_append_left _ (List.mem_cons_of_mem _ ?_))
    obtain _ | ⟨m', members⟩ := members
    · cases hm
    rw [memberTokens_cons]
    obtain rfl | hm := List.mem_cons.1 hm
    · exact List.mem_append_left _ htoken
    · exact List.mem_append_right _ (List.mem_flatMap.2 ⟨m, hm, List.mem_cons_of_mem _ htoken⟩)
  obtain ⟨hkey, hrest⟩ := List.forall_mem_cons.1 hmember
  exact ⟨hkey, (List.forall_mem_cons.1 hrest).2⟩

/-! ### A tree on lines -/

mutual

/-- The tokens of a tree on lines. -/
theorem lexes_pretty (level : ℕ) : ∀ (t : Term) {cs : List Char} {ts : List Token}, t.IsExact →
    Follows cs ts → Lexes (t.pretty level ++ cs) (t.tokens ++ ts)
  | .null, _, _, ht, h | .bool _, _, _, ht, h | .number _, _, _, ht, h | .text _, _, _, ht, h =>
    .token (ht _ List.mem_cons_self) (fun _ => h.endsNumber) h.lexes
  | .array [], _, _, _, h =>
    .token (t := .openArray) trivial nofun (.token (t := .closeArray) trivial nofun h.lexes)
  | .object [], _, _, _, h =>
    .token (t := .openObject) trivial nofun (.token (t := .closeObject) trivial nofun h.lexes)
  | .array (t :: items), _, _, ht, h => by
    have hall := List.forall_mem_cons.1 fun u => isExact_of_mem_items (t := u) ht
    have hend := Follows.newline level (.token (t := .closeArray) trivial nofun h.lexes)
    have hitems := follows_prettyItems (level + 1) items hall.2 hend
    have hfirst := Follows.newline (level + 1) (lexes_pretty (level + 1) t hall.1 hitems)
    have htokens := Lexes.token (t := .openArray) trivial nofun hfirst.lexes
    rw [tokens, itemTokens_cons, pretty]
    simp only [List.append_assoc, List.cons_append, List.nil_append]
    exact htokens
  | .object (m :: members), _, _, ht, h => by
    have hall := List.forall_mem_cons.1 fun m => isExactMember_of_mem (m := m) ht
    have hend := Follows.newline level (.token (t := .closeObject) trivial nofun h.lexes)
    have hmembers := follows_prettyMembers (level + 1) members hall.2 hend
    have hvalue := lexes_pretty (level + 1) m.2 hall.1.2 hmembers
    have hfirst := Follows.newline (level + 1) (.token hall.1.1 nofun
      (.token (t := .colon) trivial nofun (.space (c := ' ') rfl hvalue)))
    have htokens := Lexes.token (t := .openObject) trivial nofun hfirst.lexes
    rw [tokens, memberTokens_cons, pretty]
    simp only [List.append_assoc, List.cons_append, List.nil_append]
    exact htokens

/-- The tokens of further items on lines. -/
theorem follows_prettyItems (level : ℕ) : ∀ (items : List Term) {cs : List Char} {ts : List Token},
    (∀ t ∈ items, t.IsExact) → Follows cs ts →
      Follows (prettyItems level items ++ cs) ((items.flatMap fun t => .comma :: t.tokens) ++ ts)
  | [], _, _, _, h => h
  | t :: items, _, _, hitems, h => by
    obtain ⟨ht, hrest⟩ := List.forall_mem_cons.1 hitems
    have hmore := lexes_pretty level t ht (follows_prettyItems level items hrest h)
    have htokens := Follows.token (t := .comma) trivial rfl (Follows.newline level hmore).lexes
    rw [prettyItems, List.flatMap_cons]
    simp only [List.append_assoc, List.cons_append]
    exact htokens

/-- The tokens of further members on lines. -/
theorem follows_prettyMembers (level : ℕ) : ∀ (members : List (Text × Term)) {cs : List Char}
    {ts : List Token}, (∀ m ∈ members, IsExactMember m) → Follows cs ts →
      Follows (prettyMembers level members ++ cs)
        ((members.flatMap fun m => .comma :: .text m.1 :: .colon :: m.2.tokens) ++ ts)
  | [], _, _, _, h => h
  | m :: members, _, _, hmembers, h => by
    obtain ⟨hm, hrest⟩ := List.forall_mem_cons.1 hmembers
    have hvalue := lexes_pretty level m.2 hm.2 (follows_prettyMembers level members hrest h)
    have hmore := Follows.newline level (.token hm.1 nofun
      (.token (t := .colon) trivial nofun (.space (c := ' ') rfl hvalue)))
    have htokens := Follows.token (t := .comma) trivial rfl hmore.lexes
    rw [prettyMembers, List.flatMap_cons]
    simp only [List.append_assoc, List.cons_append, List.nil_append]
    exact htokens

end

/-- A tree with a text of its own is read back from what is written on lines. -/
theorem ofText?_prettyText {t : Term} (h : t.IsExact) : ofText? t.prettyText = some t := by
  have hnothing : Follows [] [] := ⟨nofun, .nil⟩
  have hread := lexes_pretty 0 t h hnothing
  rw [List.append_nil, List.append_nil] at hread
  unfold ofText? Token.ofText? prettyText
  rw [String.toList_ofList, hread _ le_rfl, Option.bind_some, ofTokens?_tokens]

/-! ### Bytes -/

/-- The tree of the bytes of a text. -/
def ofBytes? (bytes : ByteArray) : Option Term :=
  (String.fromUTF8? bytes).bind ofText?

/-- The bytes of a text are read as the text. -/
theorem ofBytes?_toUTF8 (s : String) : ofBytes? s.toUTF8 = ofText? s := by
  have hread : String.fromUTF8? s.toUTF8 = some s := dif_pos s.isValidUTF8
  rw [ofBytes?, hread, Option.bind_some]

end Term

end Json

end PredictionMarket
