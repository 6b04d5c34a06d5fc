import PredictionMarket.Json.Record
import PredictionMarket.Time.Reader

/-!
# Types that are written in JSON

`Json.Codec` gives the two directions between a type and the tree of a JSON text. `Json.encode`
and `Json.decode?` add the text itself.
-/

namespace PredictionMarket

namespace Json

/-- A type with a form in JSON. -/
class Codec (α : Type) where
  /-- The tree of a value. -/
  toTerm : α → Term
  /-- The value of a tree. -/
  ofTerm? : Term → Option α

def encode {α : Type} [Codec α] (a : α) : String :=
  (Codec.toTerm a).compact

/-- The value of a text. -/
def decode? (α : Type) [Codec α] (s : String) : Option α :=
  (Term.ofText? s).bind Codec.ofTerm?

namespace Term

/-- An instant as a string. -/
def ofInstant (t : Instant) : Term :=
  ofString (t.text "Z")

/-- The instant that a string gives. -/
def instant? (t : Term) : Option Instant :=
  t.string?.bind Instant.ofText?

/-- A member, or none for an absent value. -/
def member {α : Type} (name : String) (toTerm : α → Term) : Option α → List (String × Term)
  | some a => [(name, toTerm a)]
  | none => []

end Term

end Json

end PredictionMarket
