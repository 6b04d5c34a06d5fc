/-!
# Sides of a binary market

A market has two outcomes, `Side.yes` and `Side.no`.
-/

namespace PredictionMarket

/-- An outcome of a binary market. -/
inductive Side where
  | yes
  | no
deriving DecidableEq, Repr

/-- A text that names no side, in lower case. -/
structure UnknownSide where
  text : String
deriving DecidableEq, Repr

def UnknownSide.message (e : UnknownSide) : String :=
  "Unknown side: " ++ e.text

namespace Side

/-- The byte that stands for a side in a transaction. -/
def flag : Side → UInt8
  | yes => 1
  | no => 0

def label : Side → String
  | yes => "YES"
  | no => "NO"

/-- The name of a side in data exchanged with servers. -/
def name : Side → String
  | yes => "Yes"
  | no => "No"

/-- The side that a text names by its label or by the first letter of it, in any case. -/
def ofText (s : String) : Except UnknownSide Side :=
  let text := s.toLower
  if text == "yes" || text == "y" then .ok yes
  else if text == "no" || text == "n" then .ok no
  else .error ⟨text⟩

end Side

end PredictionMarket
