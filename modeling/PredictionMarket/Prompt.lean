import PredictionMarket.Json.Codec
import PredictionMarket.Text.Blank

/-!
# Resolution prompts

A `Prompt` is the text by which a market is to be resolved. It is stored as a JSON text with a line
for every field.
-/

namespace PredictionMarket

/-- Why something was not stored. -/
inductive UploadError where
  | emptyPrompt
  /-- The answer of the publisher names no blob. -/
  | missingBlobId
  | remote (cause : String)
deriving DecidableEq, Repr

def UploadError.message : UploadError → String
  | emptyPrompt => "Prompt is empty"
  | missingBlobId => "Publisher response carried no blob id"
  | remote cause => "Upload failed: " ++ cause

/-- A text by which a market is to be resolved. -/
structure Prompt where
  title : String
  prompt : String
  timestamp : Instant
deriving DecidableEq, Repr

namespace Prompt

def defaultTitle : String := "AI Resolution Prompt"

/-- The name of the kind of text that a prompt is. -/
def kind : String := "ai-resolution"

/-- A prompt that is not blank, as of the time that it is given, with the default title in the place
of a blank one. -/
def make (title prompt : String) : Except UploadError (Instant → Prompt) :=
  if Text.isAllBlank prompt then .error .emptyPrompt
  else .ok (mk (if Text.isAllBlank title then defaultTitle else title) prompt)

def toTerm (p : Prompt) : Json.Term :=
  .ofMembers [("title", .ofString p.title), ("prompt", .ofString p.prompt),
    ("timestamp", .ofInstant p.timestamp), ("type", .ofString kind)]

/-- The text that is stored for a prompt. -/
def text (p : Prompt) : String :=
  p.toTerm.prettyText

end Prompt

end PredictionMarket
