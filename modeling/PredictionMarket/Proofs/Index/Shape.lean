import PredictionMarket.Index.Query
import PredictionMarket.Proofs.Index.Layout

/-!
# What a reply looks like

A reply of the index lists objects of the ledger. It is a JSON text of some shape, and what is
looked at in it has to be readable besides.

## Main definitions

* `Index.IsReply`: a reply with the objects it lists.
* `Index.IsObjectOf`: the market that an object is.
* `Index.IsReadable`: a reply of which everything that is looked at is readable.

## Design notes

A text may follow the grammar of JSON and hold half of a surrogate pair, a number beyond all finite
ones, or too many open containers. Where such a thing is looked at, the reader takes the whole reply
for no JSON at all. Members that are passed over may hold anything.
-/

namespace PredictionMarket

open Json

namespace Json.Term

/-- An object of any members. -/
def IsObject (t : Term) : Prop :=
  ∃ members, t = .object members

/-- An object whose names are texts. -/
def IsRecord (t : Term) : Prop :=
  ∃ ms, t = .ofMembers ms

/-- A string, which may hold half of a surrogate pair. -/
def IsString (t : Term) : Prop :=
  ∃ s, t = .text s

/-- A string that is a text. -/
def IsText (t : Term) : Prop :=
  ∃ s, t = .ofString s

end Json.Term

namespace Index

/-- A member that may be missing or null. -/
def IsOptional (p : Term → Prop) (field : Option Term) : Prop :=
  ∀ t, field = some t → t = .null ∨ p t

/-! ### The shape of a reply -/

/-- An error with a message. -/
structure IsError (t : Term) : Prop where
  object : t.IsObject
  message : ∃ message, t.get? "message" = some message ∧ message.IsString

/-- Contents that are a JSON object. -/
structure IsContents (t : Term) : Prop where
  object : t.IsObject
  json : ∃ json, t.get? "json" = some json ∧ json.IsObject

/-- What an object of the ledger says of its contents. -/
structure IsMoveObject (t : Term) : Prop where
  object : t.IsObject
  contents : IsOptional IsContents (t.get? "contents")

/-- An object of the ledger. -/
structure IsNode (t : Term) : Prop where
  object : t.IsObject
  address : ∃ address, t.get? "address" = some address ∧ address.IsString
  digest : IsOptional Term.IsString (t.get? "digest")
  asMoveObject : IsOptional IsMoveObject (t.get? "asMoveObject")

/-- A list of objects of the ledger. -/
structure IsNodeList (t : Term) (nodes : List Term) : Prop where
  object : t.IsObject
  items : t.get? "nodes" = some (.array nodes)
  isNode : ∀ node ∈ nodes, IsNode node

/-- The data of a reply with a list of objects. -/
structure IsData (t : Term) (nodes : List Term) : Prop where
  object : t.IsObject
  objects : ∃ objects, t.get? "objects" = some objects ∧ IsNodeList objects nodes

/-- A reply with a list of objects, and perhaps with errors. -/
structure IsReply (t : Term) (nodes : List Term) : Prop where
  object : t.IsObject
  data : ∃ data, t.get? "data" = some data ∧ IsData data nodes
  errors : ∀ errors, t.get? "errors" = some errors →
    ∃ es, errors = .array es ∧ ∀ e ∈ es, IsError e

/-- The content of an object of the ledger, if it has one. -/
def content? (node : Term) : Option Term :=
  ((node.get? "asMoveObject").bind (Term.get? "contents")).bind (Term.get? "json")

/-- The market that an object of the ledger is. -/
structure IsObjectOf (node : Term) (m : Market) : Prop where
  address : node.get? "address" = some (.ofString m.address)
  content : ∃ content, content? node = some content ∧ IsLayout content m

/-! ### What is readable -/

/-- An error is readable: its names and its message are texts. -/
structure IsReadableError (t : Term) : Prop where
  record : t.IsRecord
  message : ∀ message, t.get? "message" = some message → message.IsText

/-- Contents are readable: in the object that they are all strings are texts and all numbers in
range, and no more containers are open than may be. -/
structure IsReadableContents (t : Term) : Prop where
  record : t.IsRecord
  json : ∀ json, t.get? "json" = some json → json.isHeld Node.contentDepth = true

/-- What an object of the ledger says of its contents is readable. -/
structure IsReadableMoveObject (t : Term) : Prop where
  record : t.IsRecord
  contents : IsOptional IsReadableContents (t.get? "contents")

/-- An object of the ledger is readable. -/
structure IsReadableNode (t : Term) : Prop where
  record : t.IsRecord
  address : ∀ address, t.get? "address" = some address → address.IsText
  digest : IsOptional Term.IsText (t.get? "digest")
  asMoveObject : IsOptional IsReadableMoveObject (t.get? "asMoveObject")

/-- A list of objects of the ledger is readable. -/
structure IsReadableNodeList (t : Term) : Prop where
  record : t.IsRecord
  items : ∀ nodes, t.get? "nodes" = some (.array nodes) → ∀ node ∈ nodes, IsReadableNode node

/-- The data of a reply are readable. -/
structure IsReadableData (t : Term) : Prop where
  record : t.IsRecord
  objects : ∀ objects, t.get? "objects" = some objects → IsReadableNodeList objects

/-- A reply is readable: everything that is looked at in it is. -/
structure IsReadable (t : Term) : Prop where
  record : t.IsRecord
  data : ∀ data, t.get? "data" = some data → IsReadableData data
  errors : ∀ es, t.get? "errors" = some (.array es) → ∀ e ∈ es, IsReadableError e

end Index

end PredictionMarket
