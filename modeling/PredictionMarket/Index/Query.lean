import PredictionMarket.Holdings
import PredictionMarket.Http.Call
import PredictionMarket.Index.Layout

/-!
# Asking the index

The index answers queries about the objects of the ledger. An answer has data, or it has errors, or
both, and then the data counts.

## Main definitions

* `Index.Answer`: the answer to a query.
* `Index.marketsCall`, `Index.markets`: the markets of a package.
* `Index.holdingsCall`, `Index.holdings`: the coins of an owner.
-/

namespace PredictionMarket

open Json

/-- An index, and what is asked of it. -/
structure Index where
  endpoint : String
  /-- The package whose markets count. -/
  package : String
  /-- The type of the coins that count. -/
  coinType : String
deriving DecidableEq, Repr

namespace Index

/-- The answer to a query. -/
structure Answer (α : Type) where
  data : Option α
  /-- The messages of the errors. -/
  errors : List String

namespace Answer

variable {α : Type}

def message? (t : Term) : Option String :=
  match t.slots? ["message"] with
  | some [message] => message.required Term.string?
  | _ => none

def ofTerm? (read : Term → Option α) (t : Term) : Option (Answer α) :=
  match t.slots? ["data", "errors"] with
  | some [data, errors] => do
    return {
      data := ← data.optional read
      errors := ← errors.orElse [] (Term.list? message?) }
  | _ => none

/-- The data of an answer, or what its errors say. -/
def result (a : Answer α) : Except String α :=
  match a.data with
  | some data => .ok data
  | none => .error ("GraphQL query returned no data: " ++ "; ".intercalate a.errors)

end Answer

/-- The only field of a record. -/
def only? {α : Type} (name : String) (read : Slot → Option α) (t : Term) : Option α :=
  match t.slots? [name] with
  | some [slot] => read slot
  | _ => none

/-- The nodes of a list, which may leave them out. -/
def nodes? {α : Type} (read : Term → Option α) : Term → Option (List α) :=
  only? "nodes" (Slot.orElse [] (Term.list? read))

/-- An object of the ledger with its content, if it has any. -/
structure Node where
  address : String
  content : Option Value

namespace Node

/-- How many containers are open around the content of an object. -/
def contentDepth : Nat := 7

/-- The value of a tree inside containers of some depth. -/
def value? (outer : Nat) (t : Term) : Option Value :=
  if t.isHeld outer then Value.ofTerm? t else none

/-- The content in the tree of an object. -/
def content? (t : Term) : Option (Option Value) :=
  only? "contents" (Slot.optional (only? "json" (Slot.required (value? contentDepth)))) t

def ofTerm? (t : Term) : Option Node :=
  match t.slots? ["address", "digest", "asMoveObject"] with
  | some [address, digest, object] => do
    let address ← address.required Term.string?
    let _ ← digest.optional Term.string?
    let content ← object.optional content?
    return ⟨address, content.join⟩
  | _ => none

/-- The market that an object is, if it is one. -/
def market? (n : Node) : Option Market :=
  n.content.bind (Index.market? n.address)

end Node

/-- How many containers are open around the balance of a coin. -/
def balanceDepth : Nat := 6

/-- The coin of a tree. -/
def coin? (t : Term) : Option Coin :=
  match t.slots? ["address", "coinBalance"] with
  | some [id, balance] => do
    let id ← id.required Term.string?
    let balance ← balance.orElse .null (Node.value? balanceDepth)
    return ⟨id, ← Value.amountOrZero? (some balance)⟩
  | _ => none

/-- The objects in the data of a tree. -/
def objects? : Term → Option (List Node) :=
  only? "objects" (Slot.required (nodes? Node.ofTerm?))

/-- The coins in the data of a tree, none if the owner is not known. -/
def coins? (t : Term) : Option (List Coin) :=
  (only? "address" (Slot.optional (only? "coins" (Slot.required (nodes? coin?)))) t).map
    fun coins => coins.getD []

def lines (ls : List String) : String :=
  "\n" ++ String.join (ls.map (· ++ "\n"))

/-- The query for objects of a type. -/
def objectsQuery : String :=
  lines [
    "query Markets($type: String!) \x7b",
    "  objects(filter: \x7b type: $type \x7d) \x7b",
    "    nodes \x7b",
    "      address",
    "      digest",
    "      asMoveObject \x7b",
    "        contents \x7b",
    "          json",
    "        \x7d",
    "      \x7d",
    "    \x7d",
    "  \x7d",
    "\x7d"]

/-- The query for coins of an owner. -/
def coinsQuery : String :=
  lines [
    "query Coins($owner: SuiAddress!, $type: String!) \x7b",
    "  address(address: $owner) \x7b",
    "    coins(type: $type) \x7b",
    "      nodes \x7b",
    "        address",
    "        coinBalance",
    "      \x7d",
    "    \x7d",
    "  \x7d",
    "\x7d"]

variable (x : Index)

/-- The call that puts a query with variables. -/
def query {α : Type} (text : String) (fields : List (String × Term))
    (read : Term → Option α) : Http.Call (Answer α) where
  request := .postJson x.endpoint
    (.ofMembers [("query", .ofString text), ("variables", .ofMembers fields)])
  unreachable := "Failed to reach GraphQL endpoint"
  refused := some "GraphQL endpoint returned an error status"
  unreadable := "Failed to parse GraphQL response"
  read := Answer.ofTerm? read

/-- The call that asks for the markets. -/
def marketsCall : Http.Call (Answer (List Node)) :=
  x.query objectsQuery [("type", .ofString (x.package ++ "::market::Market"))] objects?

/-- The markets in a reply. Objects that are no markets are passed over. -/
def markets (reply : Http.Reply) : Except String (List Market) := do
  let answer ← x.marketsCall.result reply
  let nodes ← answer.result
  return nodes.filterMap Node.market?

/-- The call that asks for the coins of an owner. -/
def holdingsCall (owner : String) : Http.Call (Answer (List Coin)) :=
  x.query coinsQuery [("owner", .ofString owner), ("type", .ofString x.coinType)] coins?

/-- The coins of an owner in a reply. -/
def holdings (owner : String) (reply : Http.Reply) : Except String Holdings := do
  let answer ← (x.holdingsCall owner).result reply
  return ⟨owner, ← answer.result⟩

end Index

end PredictionMarket
