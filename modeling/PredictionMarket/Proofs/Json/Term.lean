import Mathlib.Data.List.Infix
import PredictionMarket.Json.Term
import PredictionMarket.Proofs.Json.Token

/-!
# Trees that are written and read

A tree whose strings are texts and whose numbers are in digits is read back from its text.

## Main definitions

* `Json.Term.IsExact`: trees that have a text of their own.

## Main results

* `Json.Term.ofTokens?_tokens`: the reading machine builds a tree from its tokens.
* `Json.Term.ofText?_compact`: what is written without spaces is read back.
-/

namespace PredictionMarket

namespace Json

open Token (Apart)

/-! ### The reading machine on the tokens of a tree -/

namespace Reader

/-- The first item of an array is read like any other value. -/
theorem foldlM_step_item (t : Term) (frames : List Frame) (more : List Token) :
    (t.tokens ++ more).foldlM step (item frames) =
      (t.tokens ++ more).foldlM step (value (.array [] :: frames)) := by
  cases t <;> rfl

/-- The first item decides how an array with items starts. -/
theorem foldlM_step_items (t : Term) (ts : List Term) (frames : List Frame) (more : List Token) :
    (Term.itemTokens (t :: ts) ++ more).foldlM step (item frames) =
      (Term.itemTokens (t :: ts) ++ more).foldlM step (value (.array [] :: frames)) := by
  cases ts with
  | nil => exact foldlM_step_item t frames more
  | cons u us =>
    rw [Term.itemTokens, List.append_assoc]
    · exact foldlM_step_item t frames _
    · exact List.cons_ne_nil u us

/-- The first key of an object is read like any other key. -/
theorem foldlM_step_members (m : Text × Term) (ms : List (Text × Term)) (frames : List Frame)
    (more : List Token) :
    (Term.memberTokens (m :: ms) ++ more).foldlM step (member frames) =
      (Term.memberTokens (m :: ms) ++ more).foldlM step (key frames []) := by
  cases ms <;> rfl

mutual

/-- The tokens of a tree lead from where a value may come to where it has been read. -/
theorem foldlM_tokens (frames : List Frame) (more : List Token) :
    ∀ t : Term,
      (t.tokens ++ more).foldlM step (value frames) = more.foldlM step (rest frames t)
  | .null | .bool _ | .number _ | .text _ | .array [] | .object [] => rfl
  | .array (t :: ts) => by
    rw [Term.tokens, List.append_assoc]
    exact (foldlM_step_items t ts frames _).trans
      (foldlM_itemTokens frames [] more (t :: ts) (List.cons_ne_nil t ts))
  | .object (m :: ms) => by
    rw [Term.tokens, List.append_assoc]
    exact (foldlM_step_members m ms frames _).trans
      (foldlM_memberTokens frames [] more (m :: ms) (List.cons_ne_nil m ms))

/-- The tokens of items and of the end of their array, of which some items were read before. -/
theorem foldlM_itemTokens (frames : List Frame) (read : List Term) (more : List Token) :
    ∀ ts : List Term, ts ≠ [] →
      (Term.itemTokens ts ++ .closeArray :: more).foldlM step (value (.array read :: frames)) =
        more.foldlM step (rest frames (.array (read.reverse ++ ts)))
  | [], h => absurd rfl h
  | [t], _ => by
    rw [Term.itemTokens, foldlM_tokens _ _ t, ← List.reverse_cons]
    rfl
  | t :: u :: us, _ => by
    have hitems := foldlM_itemTokens frames (t :: read) more (u :: us) (List.cons_ne_nil u us)
    rw [Term.itemTokens, List.append_assoc, foldlM_tokens _ _ t]
    · rw [List.reverse_cons, List.append_assoc] at hitems
      exact hitems
    · exact List.cons_ne_nil u us

/-- The tokens of members and of the end of their object, of which some were read before. -/
theorem foldlM_memberTokens (frames : List Frame) (read : List (Text × Term))
    (more : List Token) :
    ∀ ms : List (Text × Term), ms ≠ [] →
      (Term.memberTokens ms ++ .closeObject :: more).foldlM step (key frames read) =
        more.foldlM step (rest frames (.object (read.reverse ++ ms)))
  | [], h => absurd rfl h
  | [(k, t)], _ => by
    rw [← List.reverse_cons]
    exact foldlM_tokens (.object read k :: frames) _ t
  | (k, t) :: m :: ms, _ => by
    have hmembers :=
      foldlM_memberTokens frames ((k, t) :: read) more (m :: ms) (List.cons_ne_nil m ms)
    rw [List.reverse_cons, List.append_assoc] at hmembers
    refine Eq.trans ?_ hmembers
    rw [Term.memberTokens, List.append_assoc]
    · exact foldlM_tokens (.object read k :: frames) _ t
    · exact List.cons_ne_nil m ms

end

end Reader

/-! ### Tokens that stand next to each other -/

namespace Token

variable {ts us : List Token} {mark : Token}

/-- In front of a mark nothing need be apart. -/
theorem isChain_cons (hmark : mark.isNumber = false) (hus : us.IsChain Apart) :
    (mark :: us).IsChain Apart := by
  refine List.isChain_cons.2 ⟨?_, hus⟩
  rintro u - h
  rw [hmark] at h
  cases h

/-- A mark keeps apart what stands on both its sides. -/
theorem isChain_append (hmark : mark.isNumber = false) (hts : ts.IsChain Apart)
    (hus : us.IsChain Apart) : (ts ++ mark :: us).IsChain Apart := by
  refine List.isChain_append.2 ⟨hts, isChain_cons hmark hus, ?_⟩
  rintro t - _ ⟨⟩ -
  exact hmark

end Token

namespace Term

open Token (isChain_append isChain_cons)

mutual

/-- No two numbers stand side by side in a term. -/
theorem isChain_tokens : ∀ t : Term, t.tokens.IsChain Apart
  | null | bool _ | number _ | text _ => List.isChain_singleton _
  | array items => isChain_append rfl (isChain_cons rfl (isChain_itemTokens items)) .nil
  | object members => isChain_append rfl (isChain_cons rfl (isChain_memberTokens members)) .nil

/-- Nor in the items of a list, which have commas between them. -/
theorem isChain_itemTokens : ∀ ts : List Term, (itemTokens ts).IsChain Apart
  | [] => .nil
  | [t] => isChain_tokens t
  | t :: u :: us => by
    rw [itemTokens]
    · exact isChain_append rfl (isChain_tokens t) (isChain_itemTokens (u :: us))
    · exact List.cons_ne_nil u us

/-- Nor in the members of an object, which have commas and colons between them. -/
theorem isChain_memberTokens : ∀ ms : List (Text × Term), (memberTokens ms).IsChain Apart
  | [] => .nil
  | [(_, t)] => isChain_cons rfl (isChain_cons rfl (isChain_tokens t))
  | (k, t) :: m :: ms => by
    rw [memberTokens]
    · exact isChain_append rfl (isChain_cons rfl (isChain_cons rfl (isChain_tokens t)))
        (isChain_memberTokens (m :: ms))
    · exact List.cons_ne_nil m ms

end

/-! ### Parts of a tree -/

/-- The tokens of an item stand together among those of the items. -/
theorem isInfix_itemTokens {t : Term} {ts : List Term} (h : t ∈ ts) :
    t.tokens <:+: itemTokens ts := by
  induction ts with
  | nil => cases h
  | cons u ts ih =>
    obtain rfl | h := List.mem_cons.1 h
    · cases ts with
      | nil => exact List.infix_refl _
      | cons v ts => exact (List.prefix_append _ _).isInfix
    · cases ts with
      | nil => cases h
      | cons v ts =>
        exact (ih h).trans ((List.suffix_cons _ _).trans (List.suffix_append _ _)).isInfix

/-- The tokens of a value stand together among those of the members. -/
theorem isInfix_memberTokens {m : Text × Term} {ms : List (Text × Term)} (h : m ∈ ms) :
    m.2.tokens <:+: memberTokens ms := by
  induction ms with
  | nil => cases h
  | cons m' ms ih =>
    have hfirst : m'.2.tokens <:+: .text m'.1 :: .colon :: m'.2.tokens :=
      ((List.suffix_cons _ _).trans (List.suffix_cons _ _)).isInfix
    obtain rfl | h := List.mem_cons.1 h
    · cases ms with
      | nil => exact hfirst
      | cons _ ms => exact hfirst.trans (List.prefix_append _ _).isInfix
    · cases ms with
      | nil => cases h
      | cons _ ms =>
        exact (ih h).trans ((List.suffix_cons _ _).trans (List.suffix_append _ _)).isInfix

/-- The tokens of an item stand together among those of the array. -/
theorem isInfix_array {t : Term} {ts : List Term} (h : t ∈ ts) :
    t.tokens <:+: (array ts).tokens :=
  (isInfix_itemTokens h).trans
    ((List.suffix_cons _ _).isInfix.trans (List.prefix_append _ _).isInfix)

/-! ### Trees and their texts -/

/-- The tree has a text of its own: its strings are texts and its numbers are in digits. -/
def IsExact (t : Term) : Prop :=
  ∀ token ∈ t.tokens, token.IsExact

/-- A term is read back from its tokens. -/
theorem ofTokens?_tokens (t : Term) : ofTokens? t.tokens = some t := by
  have hread := Reader.foldlM_tokens [] [] t
  rw [List.append_nil] at hread
  unfold ofTokens?
  rw [hread]
  rfl

/-- A tree with a text of its own is read back from it. -/
theorem ofText?_compact {t : Term} (h : t.IsExact) : ofText? t.compact = some t := by
  unfold ofText? Token.ofText? compact
  rw [String.toList_ofList, Token.lexes_render h (isChain_tokens t) _ le_rfl, Option.bind_some,
    ofTokens?_tokens]

end Term

end Json

end PredictionMarket
