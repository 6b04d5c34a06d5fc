import PredictionMarket.Http.Call
import PredictionMarket.Prompt
import PredictionMarket.Settings

/-!
# Storing texts

A publisher stores texts as blobs, which are known by their identifiers.

## Main definitions

* `Blob`: what a stored text is known by.
* `Publisher.call`, `Publisher.stored`: storing a text.
-/

namespace PredictionMarket

open Json

/-- What a stored text is known by. -/
structure Blob where
  /-- The object on the ledger that holds the blob, if the publisher tells it. -/
  object : Option String
  id : String
deriving DecidableEq, Repr

def Blob.toTerm (b : Blob) : Term :=
  .ofMembers [("id", .ofOption .ofString b.object), ("blob_id", .ofString b.id)]

/-- A publisher by its address, and how long it is to keep texts. -/
structure Publisher where
  base : String
  retention : Retention
deriving DecidableEq, Repr

namespace Publisher

/-- What a publisher says: that a blob is new, or that it was there before. -/
structure Receipt where
  created : Option Blob
  certified : Option Blob
deriving DecidableEq, Repr

namespace Receipt

/-- The blob of a new object. -/
def object? (t : Term) : Option Blob :=
  match t.slots? ["id", "blobId"] with
  | some [object, id] => do
    return { object := some (← object.required Term.string?), id := ← id.required Term.string? }
  | _ => none

/-- The blob that is new. -/
def created? (t : Term) : Option Blob :=
  match t.slots? ["blobObject"] with
  | some [object] => object.required object?
  | _ => none

/-- The blob that was there before. -/
def certified? (t : Term) : Option Blob :=
  match t.slots? ["blobId", "object"] with
  | some [id, object] => do
    return {
      id := ← id.required Term.string?
      object := ← object.orElse none (Term.nullable Term.string?) }
  | _ => none

def ofTerm? (t : Term) : Option Receipt :=
  match t.slots? ["newlyCreated", "alreadyCertified"] with
  | some [created, certified] => do
    return { created := ← created.optional created?, certified := ← certified.optional certified? }
  | _ => none

end Receipt

variable (p : Publisher)

def url : String :=
  Http.joined p.base ("/v1/blobs?epochs=" ++ toString p.retention.epochs.toNat ++
    if p.retention.deletable then "&deletable=true" else "")

def call (content : String) : Http.Call Receipt where
  request := .put p.url content
  unreachable := "Failed to reach Walrus publisher"
  refused := some "Walrus publisher rejected the blob"
  unreadable := "Failed to parse Walrus publisher response"
  read := Receipt.ofTerm?

/-- The blob that a text is stored as. -/
def stored (content : String) (reply : Http.Reply) : Except UploadError Blob :=
  match (p.call content).result reply with
  | .error cause => .error (.remote cause)
  | .ok receipt =>
    match receipt.created <|> receipt.certified with
    | some blob => .ok blob
    | none => .error .missingBlobId

end Publisher

end PredictionMarket
