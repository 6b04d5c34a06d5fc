import Mathlib.Data.List.ReduceOption
import PredictionMarket.Proofs.Index.Shape

/-!
# The markets in a reply

A reply is read if everything that is looked at in it is readable, and it is refused as a whole if
not. Of a reply that is read each object is looked at for itself: it is a market if its content is
the layout of one, and passed over if not.

## Main results

* `Index.isReadable_of_read`: what is read is readable.
* `Index.markets_of_objects`: the markets of a reply.
-/

namespace PredictionMarket

open Json

/-- A map that succeeds for every item succeeds for the list. -/
theorem exists_mapM_eq_some {α β : Type} {f : α → Option β} {R : α → β → Prop} {as : List α}
    (h : ∀ a ∈ as, ∃ b, f a = some b ∧ R a b) :
    ∃ bs, as.mapM f = some bs ∧ List.Forall₂ R as bs := by
  induction as with
  | nil => exact ⟨[], rfl, .nil⟩
  | cons a as ih =>
    obtain ⟨b, hb, hR⟩ := h a List.mem_cons_self
    obtain ⟨bs, hbs, hforall⟩ := ih fun a ha => h a (List.mem_cons_of_mem _ ha)
    refine ⟨b :: bs, ?_, .cons hR hforall⟩
    rw [List.mapM_cons, hb, hbs]
    rfl

/-- A map that succeeds for a list did so for every item. -/
theorem exists_eq_some_of_mapM {α β : Type} {f : α → Option β} {as : List α} {bs : List β}
    (h : as.mapM f = some bs) : ∀ a ∈ as, ∃ b, f a = some b := by
  induction as generalizing bs with
  | nil => exact nofun
  | cons a as ih =>
    rw [List.mapM_cons] at h
    obtain ⟨b, hb, h⟩ := Option.bind_eq_some_iff.1 h
    obtain ⟨rest, hrest, -⟩ := Option.bind_eq_some_iff.1 h
    exact List.forall_mem_cons.2 ⟨⟨b, hb⟩, ih hrest⟩

namespace Index

/-! ### Reading records -/

section

variable {t : Term} {α : Type} {read : Term → Option α} {names : List String} {name : String}

/-- The fields of a record without repeated names are found by their names. -/
theorem slots?_of_isRecord (h : t.IsRecord) (hdistinct : t.isUnambiguous = true)
    (names : List String) :
    t.slots? names = some (names.map fun name => Field.slot (name, t.get? name)) := by
  obtain ⟨ms, rfl⟩ := h
  simp only [Term.slots?_of_isUnambiguous hdistinct, Term.get?_ofMembers]

/-- An object with a name that is no text has no fields at all. -/
theorem isRecord_of_slots? (h : t.IsObject) {slots : List Slot}
    (hslots : t.slots? names = some slots) : t.IsRecord := by
  obtain ⟨members, rfl⟩ := h
  obtain ⟨ms, hkeyed, -⟩ := Option.bind_eq_some_iff.1 hslots
  refine ⟨ms, congrArg Term.object ?_⟩
  clear hslots
  induction members generalizing ms with
  | nil =>
    cases hkeyed
    rfl
  | cons m members ih =>
    obtain ⟨key, t⟩ := m
    rw [Term.keyed?, List.mapM_cons] at hkeyed
    obtain ⟨first, hfirst, hkeyed⟩ := Option.bind_eq_some_iff.1 hkeyed
    obtain ⟨rest, hrest, hdone⟩ := Option.bind_eq_some_iff.1 hkeyed
    obtain ⟨k, rfl, rfl⟩ := Option.map_eq_some_iff.1 hfirst
    cases hdone
    rw [List.map_cons, ← ih rest hrest]

/-- The only field of a record without repeated names is found by its name. -/
theorem only?_of_isRecord (h : t.IsRecord) (hdistinct : t.isUnambiguous = true) (name : String)
    {read : Slot → Option α} : only? name read t = read (Field.slot (name, t.get? name)) := by
  rw [only?, slots?_of_isRecord h hdistinct]
  rfl

/-- Where the only field of an object is read, the names of the object are texts. -/
theorem isRecord_of_only? (h : t.IsObject) {read : Slot → Option α} {a : α}
    (hread : only? name read t = some a) : t.IsRecord := by
  unfold only? at hread
  cases hslots : t.slots? [name] with
  | none =>
    rw [hslots] at hread
    cases hread
  | some slots => exact isRecord_of_slots? h hslots

/-- An object is not null. -/
theorem optional_of_isObject (h : t.IsObject) :
    (Slot.given t).optional read = (read t).map some := by
  obtain ⟨members, rfl⟩ := h
  rfl

/-- A string is read if it is a text. -/
theorem isText_of_string? {s : String} (h : t.string? = some s) : t.IsText := by
  cases t with
  | text t =>
    cases h
    exact ⟨s, rfl⟩
  | _ => cases h

end

/-- Two things that are said of a member that may be missing or null. -/
theorem IsOptional.and {p q : Term → Prop} {field : Option Term} (hp : IsOptional p field)
    (hq : IsOptional q field) : IsOptional (fun t => p t ∧ q t) field := by
  intro t ht
  obtain hnull | hpt := hp t ht
  · exact .inl hnull
  obtain hnull | hqt := hq t ht
  · exact .inl hnull
  exact .inr ⟨hpt, hqt⟩

/-! ### Reading an object -/

section

variable {t node content : Term}

/-- Readable contents are read as the value of their object. -/
theorem read_contents (h : IsContents t) (hr : IsReadableContents t)
    (hdistinct : t.isUnambiguous = true) :
    ∃ v, (t.get? "json").bind Value.ofTerm? = some v ∧
      only? "json" (Slot.required (Node.value? Node.contentDepth)) t = some v := by
  obtain ⟨json, hjson, -⟩ := h.json
  have hheld := hr.json json hjson
  obtain ⟨v, hv⟩ := Option.isSome_iff_exists.1 (Bool.and_eq_true_iff.1 hheld).1
  refine ⟨v, by rw [hjson, Option.bind_some, hv], ?_⟩
  rw [only?_of_isRecord hr.record hdistinct, hjson, Field.slot_some, Slot.required_given,
    Node.value?, if_pos hheld, hv]

/-- Contents that are read are readable. -/
theorem isReadableContents_of_read (h : IsContents t) (hdistinct : t.isUnambiguous = true)
    {v : Value} (hread : only? "json" (Slot.required (Node.value? Node.contentDepth)) t = some v) :
    IsReadableContents t := by
  have hrecord := isRecord_of_only? h.object hread
  refine ⟨hrecord, fun json hjson => ?_⟩
  rw [only?_of_isRecord hrecord hdistinct, hjson, Field.slot_some, Slot.required_given,
    Node.value?] at hread
  by_contra hheld
  rw [if_neg hheld] at hread
  cases hread

/-- What an object says of its contents is read as their value, if there are any. -/
theorem read_moveObject (h : IsMoveObject t) (hr : IsReadableMoveObject t)
    (hdistinct : t.isUnambiguous = true) :
    Node.content? t =
      some (((t.get? "contents").bind (Term.get? "json")).bind Value.ofTerm?) := by
  rw [Node.content?, only?_of_isRecord hr.record hdistinct]
  cases hcontents : t.get? "contents" with
  | none => rfl
  | some contents =>
    obtain rfl | ⟨hshape, hreadable⟩ := h.contents.and hr.contents contents hcontents
    · rfl
    · obtain ⟨v, hv, hread⟩ :=
        read_contents hshape hreadable (Term.isUnambiguous_of_get? hdistinct hcontents)
      rw [Field.slot_some, optional_of_isObject hshape.object, hread, Option.bind_some, hv]
      rfl

/-- What is read of an object's contents is readable. -/
theorem isReadableMoveObject_of_read (h : IsMoveObject t) (hdistinct : t.isUnambiguous = true)
    {v : Option Value} (hread : Node.content? t = some v) : IsReadableMoveObject t := by
  rw [Node.content?] at hread
  have hrecord := isRecord_of_only? h.object hread
  refine ⟨hrecord, fun contents hcontents =>
    (h.contents contents hcontents).imp_right fun hshape => ?_⟩
  rw [only?_of_isRecord hrecord hdistinct, hcontents, Field.slot_some,
    optional_of_isObject hshape.object] at hread
  obtain ⟨v, hv, -⟩ := Option.map_eq_some_iff.1 hread
  exact isReadableContents_of_read hshape (Term.isUnambiguous_of_get? hdistinct hcontents) hv

/-- An object may leave out its contents, or what has them. -/
theorem read_asMoveObject (h : IsNode node) (hr : IsReadableNode node)
    (hdistinct : node.isUnambiguous = true) :
    ((Field.slot ("asMoveObject", node.get? "asMoveObject")).optional Node.content?).map
      Option.join = some ((content? node).bind Value.ofTerm?) := by
  rw [content?]
  cases hobject : node.get? "asMoveObject" with
  | none => rfl
  | some object =>
    obtain rfl | ⟨hshape, hreadable⟩ := h.asMoveObject.and hr.asMoveObject object hobject
    · rfl
    · rw [Field.slot_some, optional_of_isObject hshape.object,
        read_moveObject hshape hreadable (Term.isUnambiguous_of_get? hdistinct hobject)]
      rfl

/-- A digest is passed over. -/
theorem read_digest (hr : IsReadableNode node) :
    ∃ digest, (Field.slot ("digest", node.get? "digest")).optional Term.string? = some digest := by
  cases hdigest : node.get? "digest" with
  | none => exact ⟨none, rfl⟩
  | some digest =>
    obtain rfl | ⟨s, rfl⟩ := hr.digest digest hdigest
    · exact ⟨none, rfl⟩
    · exact ⟨some s, rfl⟩

/-- A readable object is read with its content as a value. -/
theorem ofTerm?_of_isNode (h : IsNode node) (hr : IsReadableNode node)
    (hdistinct : node.isUnambiguous = true) :
    ∃ address, node.get? "address" = some (.ofString address) ∧
      Node.ofTerm? node = some ⟨address, (content? node).bind Value.ofTerm?⟩ := by
  obtain ⟨_, haddress, -⟩ := h.address
  obtain ⟨address, rfl⟩ := hr.address _ haddress
  obtain ⟨digest, hdigest⟩ := read_digest hr
  obtain ⟨content, hcontent, hjoin⟩ :=
    Option.map_eq_some_iff.1 (read_asMoveObject h hr hdistinct)
  refine ⟨address, haddress, ?_⟩
  rw [Node.ofTerm?, slots?_of_isRecord hr.record hdistinct]
  simp only [List.map_cons, List.map_nil, haddress, Field.slot_some, Slot.required_given,
    Term.string?_ofString, hdigest, hcontent, hjoin, Option.bind_eq_bind, Option.bind_some,
    Option.pure_def]

/-- An object that is read is readable. -/
theorem isReadableNode_of_read (h : IsNode node) (hdistinct : node.isUnambiguous = true) {n : Node}
    (hread : Node.ofTerm? node = some n) : IsReadableNode node := by
  rw [Node.ofTerm?] at hread
  have hrecord : node.IsRecord := by
    split at hread
    · next hslots => exact isRecord_of_slots? h.object hslots
    · cases hread
  rw [slots?_of_isRecord hrecord hdistinct] at hread
  simp only [List.map_cons, List.map_nil] at hread
  obtain ⟨address, haddress, hread⟩ := Option.bind_eq_some_iff.1 hread
  obtain ⟨digest, hdigest, hread⟩ := Option.bind_eq_some_iff.1 hread
  obtain ⟨v, hobject, -⟩ := Option.bind_eq_some_iff.1 hread
  refine ⟨hrecord, fun t ht => ?_, fun t ht => (h.digest t ht).imp_right ?_,
    fun t ht => (h.asMoveObject t ht).imp_right fun hshape => ?_⟩
  · rw [ht, Field.slot_some, Slot.required_given] at haddress
    exact isText_of_string? haddress
  · rintro ⟨s, rfl⟩
    rw [ht, Field.slot_some] at hdigest
    obtain ⟨_, hs, -⟩ := Option.map_eq_some_iff.1 hdigest
    exact isText_of_string? hs
  · rw [ht, Field.slot_some, optional_of_isObject hshape.object] at hobject
    obtain ⟨_, hcontent, -⟩ := Option.map_eq_some_iff.1 hobject
    exact isReadableMoveObject_of_read hshape (Term.isUnambiguous_of_get? hdistinct ht) hcontent

/-- The content of an object is an object without repeated names, and it has a value. -/
theorem content?_eq_object (h : IsNode node) (hr : IsReadableNode node)
    (hdistinct : node.isUnambiguous = true) (hcontent : content? node = some content) :
    content.isUnambiguous = true ∧
      ∃ members v, content = .object members ∧ Value.ofTerm? content = some v := by
  obtain ⟨contents, hcontents, hjson⟩ := Option.bind_eq_some_iff.1 hcontent
  obtain ⟨object, hobject, hcontents⟩ := Option.bind_eq_some_iff.1 hcontents
  have hobject' := Term.isUnambiguous_of_get? hdistinct hobject
  have hcontents' := Term.isUnambiguous_of_get? hobject' hcontents
  refine ⟨Term.isUnambiguous_of_get? hcontents' hjson, ?_⟩
  -- Null has no members.
  obtain rfl | ⟨hobject, hobjectr⟩ := h.asMoveObject.and hr.asMoveObject object hobject
  · cases hcontents
  obtain rfl | ⟨hshape, hreadable⟩ := hobject.contents.and hobjectr.contents contents hcontents
  · cases hjson
  obtain ⟨_, hobj, members, rfl⟩ := hshape.json
  obtain ⟨v, hv, -⟩ := read_contents hshape hreadable hcontents'
  obtain rfl : content = .object members := Option.some.inj (hjson.symm.trans hobj)
  rw [hjson, Option.bind_some] at hv
  exact ⟨members, v, rfl, hv⟩

/-- A readable object is read, and it is a market exactly if its content is the layout of one. -/
theorem exists_node (h : IsNode node) (hr : IsReadableNode node)
    (hdistinct : node.isUnambiguous = true) :
    ∃ n, Node.ofTerm? node = some n ∧ ∀ m, n.market? = some m ↔ IsObjectOf node m := by
  obtain ⟨address, haddress, hread⟩ := ofTerm?_of_isNode h hr hdistinct
  refine ⟨_, hread, fun m => ?_⟩
  have hsame : node.get? "address" = some (.ofString m.address) ↔ m.address = address := by
    rw [haddress]
    constructor
    · rintro ⟨⟩
      rfl
    · rintro rfl
      rfl
  rw [Node.market?]
  cases hcontent : content? node with
  | none =>
    constructor
    · rintro ⟨⟩
    · rintro ⟨-, content, heq, -⟩
      cases hcontent.symm.trans heq
  | some content =>
    obtain ⟨hdistinct', members, v, rfl, hv⟩ := content?_eq_object h hr hdistinct hcontent
    rw [Option.bind_some, hv, Option.bind_some, market?_eq_some_iff hdistinct' hv, ← hsame]
    constructor
    · rintro ⟨haddress, hlayout⟩
      exact ⟨haddress, _, hcontent, hlayout⟩
    · rintro ⟨haddress, content, heq, hlayout⟩
      cases hcontent.symm.trans heq
      exact ⟨haddress, hlayout⟩

end

/-! ### Reading a reply -/

section

variable {t : Term} {nodes : List Term}

/-- The objects of readable data are read one after the other. -/
theorem read_objects (h : IsData t nodes) (hr : IsReadableData t)
    (hdistinct : t.isUnambiguous = true) :
    ∃ ns, objects? t = some ns ∧
      List.Forall₂ (fun node n => ∀ m, n.market? = some m ↔ IsObjectOf node m) nodes ns := by
  obtain ⟨objects, hobjects, hlist⟩ := h.objects
  have hlistr := hr.objects objects hobjects
  have hdistinct' := Term.isUnambiguous_of_get? hdistinct hobjects
  have hitems :=
    (Term.isUnambiguous_array nodes).1 (Term.isUnambiguous_of_get? hdistinct' hlist.items)
  obtain ⟨ns, hns, hforall⟩ := exists_mapM_eq_some fun node hnode =>
    exists_node (hlist.isNode node hnode) (hlistr.items nodes hlist.items node hnode)
      (hitems node hnode)
  refine ⟨ns, ?_, hforall⟩
  rw [objects?, only?_of_isRecord hr.record hdistinct, hobjects, Field.slot_some,
    Slot.required_given, nodes?, only?_of_isRecord hlistr.record hdistinct', hlist.items,
    Field.slot_some]
  exact hns

/-- A list of objects that is read is readable. -/
theorem isReadableNodeList_of_read (h : IsNodeList t nodes) (hdistinct : t.isUnambiguous = true)
    {ns : List Node} (hread : nodes? Node.ofTerm? t = some ns) : IsReadableNodeList t := by
  rw [nodes?] at hread
  have hrecord := isRecord_of_only? h.object hread
  refine ⟨hrecord, fun items hitems node hnode => ?_⟩
  have hdistinct' :=
    (Term.isUnambiguous_array items).1 (Term.isUnambiguous_of_get? hdistinct hitems)
  rw [only?_of_isRecord hrecord hdistinct, hitems, Field.slot_some] at hread
  obtain ⟨n, hn⟩ := exists_eq_some_of_mapM hread node hnode
  cases h.items.symm.trans hitems
  exact isReadableNode_of_read (h.isNode node hnode) (hdistinct' node hnode) hn

/-- Data of which the objects are read are readable. -/
theorem isReadableData_of_read (h : IsData t nodes) (hdistinct : t.isUnambiguous = true)
    {ns : List Node} (hread : objects? t = some ns) : IsReadableData t := by
  rw [objects?] at hread
  have hrecord := isRecord_of_only? h.object hread
  refine ⟨hrecord, fun objects hobjects => ?_⟩
  rw [only?_of_isRecord hrecord hdistinct, hobjects, Field.slot_some, Slot.required_given] at hread
  obtain ⟨_, hsame, hlist⟩ := h.objects
  cases hobjects.symm.trans hsame
  exact isReadableNodeList_of_read hlist (Term.isUnambiguous_of_get? hdistinct hobjects) hread

/-- The message of a readable error is read. -/
theorem message?_of_isError (h : IsError t) (hr : IsReadableError t)
    (hdistinct : t.isUnambiguous = true) : ∃ message, Answer.message? t = some message := by
  obtain ⟨_, hmessage, -⟩ := h.message
  obtain ⟨message, rfl⟩ := hr.message _ hmessage
  refine ⟨message, ?_⟩
  rw [Answer.message?, slots?_of_isRecord hr.record hdistinct]
  simp only [List.map_cons, List.map_nil, hmessage, Field.slot_some, Slot.required_given,
    Term.string?_ofString]

/-- An error whose message is read is readable. -/
theorem isReadableError_of_read (h : IsError t) (hdistinct : t.isUnambiguous = true)
    {message : String} (hread : Answer.message? t = some message) : IsReadableError t := by
  rw [Answer.message?] at hread
  have hrecord : t.IsRecord := by
    split at hread
    · next hslots => exact isRecord_of_slots? h.object hslots
    · cases hread
  rw [slots?_of_isRecord hrecord hdistinct] at hread
  refine ⟨hrecord, fun s hs => ?_⟩
  simp only [List.map_cons, List.map_nil, hs, Field.slot_some, Slot.required_given] at hread
  exact isText_of_string? hread

/-- The errors of a readable reply are read, if there are any. -/
theorem read_errors (h : IsReply t nodes) (hr : IsReadable t)
    (hdistinct : t.isUnambiguous = true) :
    ∃ messages, (Field.slot ("errors", t.get? "errors")).orElse []
      (Term.list? Answer.message?) = some messages := by
  cases herrors : t.get? "errors" with
  | none => exact ⟨[], rfl⟩
  | some errors =>
    obtain ⟨es, rfl, hes⟩ := h.errors errors herrors
    have hitems := (Term.isUnambiguous_array es).1 (Term.isUnambiguous_of_get? hdistinct herrors)
    obtain ⟨messages, hmessages, -⟩ := exists_mapM_eq_some (R := fun _ _ => True) fun e he =>
      (message?_of_isError (hes e he) (hr.errors es herrors e he) (hitems e he)).imp
        fun _ h => ⟨h, trivial⟩
    exact ⟨messages, hmessages⟩

/-- A readable reply is read with its objects. -/
theorem read_reply (h : IsReply t nodes) (hr : IsReadable t)
    (hdistinct : t.isUnambiguous = true) :
    ∃ ns messages, Answer.ofTerm? objects? t = some ⟨some ns, messages⟩ ∧
      List.Forall₂ (fun node n => ∀ m, n.market? = some m ↔ IsObjectOf node m) nodes ns := by
  obtain ⟨data, hdata, hshape⟩ := h.data
  obtain ⟨ns, hns, hforall⟩ :=
    read_objects hshape (hr.data data hdata) (Term.isUnambiguous_of_get? hdistinct hdata)
  obtain ⟨messages, hmessages⟩ := read_errors h hr hdistinct
  refine ⟨ns, messages, ?_, hforall⟩
  rw [Answer.ofTerm?, slots?_of_isRecord hr.record hdistinct]
  simp only [List.map_cons, List.map_nil, hdata, Field.slot_some,
    optional_of_isObject hshape.object, hns, Option.map_some, hmessages, Option.bind_eq_bind,
    Option.bind_some, Option.pure_def]

/-- A reply that is read is readable. -/
theorem isReadable_of_read (h : IsReply t nodes) (hdistinct : t.isUnambiguous = true)
    {answer : Answer (List Node)} (hread : Answer.ofTerm? objects? t = some answer) :
    IsReadable t := by
  rw [Answer.ofTerm?] at hread
  have hrecord : t.IsRecord := by
    split at hread
    · next hslots => exact isRecord_of_slots? h.object hslots
    · cases hread
  rw [slots?_of_isRecord hrecord hdistinct] at hread
  simp only [List.map_cons, List.map_nil] at hread
  obtain ⟨ns, hdata, hread⟩ := Option.bind_eq_some_iff.1 hread
  obtain ⟨messages, herrors, -⟩ := Option.bind_eq_some_iff.1 hread
  refine ⟨hrecord, fun data hsome => ?_, fun es hsome e he => ?_⟩
  · obtain ⟨_, hsame, hshape⟩ := h.data
    cases hsome.symm.trans hsame
    rw [hsome, Field.slot_some, optional_of_isObject hshape.object] at hdata
    obtain ⟨ns, hns, -⟩ := Option.map_eq_some_iff.1 hdata
    exact isReadableData_of_read hshape (Term.isUnambiguous_of_get? hdistinct hsome) hns
  · obtain ⟨_, hsame, hes⟩ := h.errors _ hsome
    cases hsame
    have hitems := (Term.isUnambiguous_array es).1 (Term.isUnambiguous_of_get? hdistinct hsome)
    rw [hsome, Field.slot_some] at herrors
    obtain ⟨message, hmessage⟩ := exists_eq_some_of_mapM herrors e he
    exact isReadableError_of_read (hes e he) (hitems e he) hmessage

/-- A reply in which everything that is looked at is readable has the markets of its objects, one
after the other: each object gives the one market that it is, or none if it is none, whatever the
others are. Any other reply is refused as a whole. -/
theorem markets_of_objects (x : Index) {status : ℕ} {body : String} (hstatus : 200 ≤ status)
    (hstatus' : status < 300) (hbody : Term.ofText? body = some t)
    (hdistinct : t.isUnambiguous = true) (hreply : IsReply t nodes) :
    (IsReadable t →
      ∃ results : List (Option Market),
        x.markets (.response status body) = .ok results.reduceOption ∧
          List.Forall₂ (fun node result => ∀ m, result = some m ↔ IsObjectOf node m)
            nodes results) ∧
      (¬IsReadable t →
        x.markets (.response status body) = .error "Failed to parse GraphQL response") := by
  have hok : Http.isError status = false := by
    unfold Http.isError
    simp only [Bool.and_eq_false_iff, decide_eq_false_iff_not]
    omega
  have hcall : x.marketsCall.read t = Answer.ofTerm? objects? t := rfl
  refine ⟨fun hr => ?_, fun hr => ?_⟩
  · obtain ⟨ns, messages, hread, hforall⟩ := read_reply hreply hr hdistinct
    have hresult : x.marketsCall.result (.response status body) = .ok ⟨some ns, messages⟩ := by
      simp only [Http.Call.result, hok, Bool.false_eq_true, if_false, hbody, Option.bind_some,
        hcall, hread]
    -- Each object has a result of its own, and the list of markets is these without the gaps.
    refine ⟨ns.map Node.market?, ?_, ?_⟩
    · rw [markets, hresult, List.reduceOption, List.filterMap_map]
      rfl
    · rw [List.forall₂_map_right_iff]
      exact hforall
  · have hnone : Answer.ofTerm? objects? t = none :=
      Option.eq_none_iff_forall_ne_some.2 fun _ hread =>
        hr (isReadable_of_read hreply hdistinct hread)
    have hresult : x.marketsCall.result (.response status body) =
        .error x.marketsCall.unreadable := by
      simp only [Http.Call.result, hok, Bool.false_eq_true, if_false, hbody, Option.bind_some,
        hcall, hnone]
    rw [markets, hresult]
    rfl

/-- An object of the ledger with a content. -/
def plainObject (address : String) (fields : List (String × Term)) : Term :=
  .ofMembers [("address", .ofString address),
    ("asMoveObject", .ofMembers [("contents", .ofMembers [("json", .ofMembers fields)])])]

/-- A reply that lists objects. -/
def plainReply (nodes : List Term) : Term :=
  .ofMembers [("data", .ofMembers [("objects", .ofMembers [("nodes", .array nodes)])])]

/-- A term made of members is an object. -/
theorem isObject_ofMembers (ms : List (String × Term)) : (Term.ofMembers ms).IsObject :=
  ⟨_, rfl⟩

/-- An object written the plain way is a node. -/
theorem isNode_plainObject (address : String) (fields : List (String × Term)) :
    IsNode (plainObject address fields) := by
  refine ⟨isObject_ofMembers _, ⟨_, rfl, _, rfl⟩, ?_, ?_⟩
  · rintro _ ⟨⟩
  · rintro _ ⟨⟩
    refine .inr ⟨isObject_ofMembers _, ?_⟩
    rintro _ ⟨⟩
    exact .inr ⟨isObject_ofMembers _, _, rfl, isObject_ofMembers _⟩

/-- A reply written the plain way has the nodes it was written with. -/
theorem isReply_plainReply {nodes : List Term} (h : ∀ node ∈ nodes, IsNode node) :
    IsReply (plainReply nodes) nodes := by
  refine ⟨isObject_ofMembers _, ⟨_, rfl, isObject_ofMembers _, _, rfl, isObject_ofMembers _, rfl,
    h⟩, ?_⟩
  rintro _ ⟨⟩

/-- A plain object is readable if its fields are held at the depth where they stand. -/
theorem isReadableNode_plainObject {address : String} {fields : List (String × Term)}
    (h : (Term.ofMembers fields).isHeld Node.contentDepth = true) :
    IsReadableNode (plainObject address fields) := by
  refine ⟨⟨_, rfl⟩, ?_, ?_, ?_⟩
  · rintro _ ⟨⟩
    exact ⟨_, rfl⟩
  · rintro _ ⟨⟩
  · rintro _ ⟨⟩
    refine .inr ⟨⟨_, rfl⟩, ?_⟩
    rintro _ ⟨⟩
    refine .inr ⟨⟨_, rfl⟩, ?_⟩
    rintro _ ⟨⟩
    exact h

/-- A plain reply of readable nodes is readable. -/
theorem isReadable_plainReply {nodes : List Term} (h : ∀ node ∈ nodes, IsReadableNode node) :
    IsReadable (plainReply nodes) := by
  refine ⟨⟨_, rfl⟩, ?_, ?_⟩
  · rintro _ ⟨⟩
    refine ⟨⟨_, rfl⟩, ?_⟩
    rintro _ ⟨⟩
    refine ⟨⟨_, rfl⟩, ?_⟩
    rintro _ ⟨⟩
    exact h
  · rintro _ ⟨⟩

/-- Of two objects the second one is passed over, for it has null for a number inside an object. The
first one has a number two objects deep, with a plus sign, and null for the other number. -/
theorem markets_of_two_objects :
    let x : Index := ⟨"http://127.0.0.1", "0xaa", "0xcc::usdc::USDC"⟩
    let first := plainObject "0xa" [
      ("yes", .ofMembers [("value", .ofMembers [("value", .ofString "+7")])]), ("no", .null)]
    let second := plainObject "0xb" [("yes", .ofMembers [("value", .null)])]
    x.markets (.response 200 (plainReply [first, second]).compact) =
      .ok [⟨"0xa", "", "", 7, 0, 0, 0, 0, none, none, ""⟩] := by
  intro x first second
  have hexact : (plainReply [first, second]).IsExact := by
    simp [plainReply, first, second, plainObject, Term.IsExact, Term.ofMembers, Term.ofString,
      Term.tokens, Term.itemTokens, Term.memberTokens, Token.IsExact]
  have hreply : IsReply (plainReply [first, second]) [first, second] :=
    isReply_plainReply (by simp [first, second, isNode_plainObject])
  have hreadable : IsReadable (plainReply [first, second]) := by
    refine isReadable_plainReply (List.forall_mem_cons.2 ⟨isReadableNode_plainObject (by decide),
      List.forall_mem_singleton.2 (isReadableNode_plainObject (by decide))⟩)
  have hfirst : IsObjectOf first ⟨"0xa", "", "", 7, 0, 0, 0, 0, none, none, ""⟩ :=
    ⟨rfl, _, rfl,
      { topic := .missing
        description := .missing
        yes := ⟨some 7, .given (.value rfl (.value rfl (.text (by decide)))), rfl⟩
        no := ⟨none, .null, rfl⟩
        startTime := ⟨none, .missing, rfl⟩
        endTime := ⟨none, .missing, rfl⟩
        balance := ⟨none, .missing, rfl⟩
        yesPrice := .missing
        noPrice := .missing
        oracleConfig := rfl }⟩
  have hsecond (m : Market) : ¬ IsObjectOf second m := by
    rintro ⟨-, content, hcontent, hlayout⟩
    cases hcontent
    obtain ⟨amount, hamount, -⟩ := hlayout.yes
    obtain _ | _ | ⟨_ | _ | ⟨hvalue, hnull⟩⟩ := hamount
    cases hvalue
    cases hnull
  obtain ⟨hread, -⟩ := markets_of_objects x (Nat.le_refl 200) (by decide)
    (Term.ofText?_compact hexact) (by decide) hreply
  obtain ⟨results, hmarkets, hresults⟩ := hread hreadable
  obtain _ | ⟨hmarket, _ | ⟨hnone, ⟨⟩⟩⟩ := hresults
  cases (hmarket _).2 hfirst
  rename_i result
  cases result with
  | none => exact hmarkets
  | some m => exact absurd ((hnone m).1 rfl) (hsecond m)

/-- A number beyond all finite ones in the second object costs the first one, which is a market. -/
theorem market_lost_to_number_beside_it :
    let x : Index := ⟨"http://127.0.0.1", "0xaa", "0xcc::usdc::USDC"⟩
    let first := plainObject "0xa" [("yes", .ofNat 7)]
    let second := plainObject "0xb" [("yes", .number ⟨false, 1, [], some 999⟩)]
    let reply := plainReply [first, second]
    Term.ofText? reply.compact = some reply ∧ reply.isUnambiguous = true ∧
      IsReply reply [first, second] ∧
      IsObjectOf first ⟨"0xa", "", "", 7, 0, 0, 0, 0, none, none, ""⟩ ∧
      x.markets (.response 200 reply.compact) = .error "Failed to parse GraphQL response" := by
  intro x first second reply
  have hexact : reply.IsExact := by
    simp [reply, plainReply, first, second, plainObject, Term.IsExact, Term.ofMembers,
      Term.ofString, Term.ofNat, Term.tokens, Term.itemTokens, Term.memberTokens, Token.IsExact,
      Number.IsExact, Number.ofNat]
  have hbody : Term.ofText? reply.compact = some reply := Term.ofText?_compact hexact
  have hfirst : IsObjectOf first ⟨"0xa", "", "", 7, 0, 0, 0, 0, none, none, ""⟩ :=
    ⟨rfl, _, rfl,
      { topic := .missing
        description := .missing
        yes := ⟨some 7, .given (.number (by decide)), rfl⟩
        no := ⟨none, .missing, rfl⟩
        startTime := ⟨none, .missing, rfl⟩
        endTime := ⟨none, .missing, rfl⟩
        balance := ⟨none, .missing, rfl⟩
        yesPrice := .missing
        noPrice := .missing
        oracleConfig := rfl }⟩
  refine ⟨hbody, by decide, isReply_plainReply (by simp [first, second, isNode_plainObject]),
    hfirst, ?_⟩
  have hnone : x.marketsCall.read reply = none := by decide +kernel
  have hresult : x.marketsCall.result (.response 200 reply.compact) =
      .error x.marketsCall.unreadable := by
    simp only [Http.Call.result, hbody, Option.bind_some, hnone]
    rfl
  rw [markets, hresult]
  rfl

end

end Index

end PredictionMarket
