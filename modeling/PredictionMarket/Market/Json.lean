import PredictionMarket.Json.Codec
import PredictionMarket.Market.Basic

/-!
# Markets and sides in JSON
-/

namespace PredictionMarket

open Json

namespace Side

/-- The side with a name. -/
def ofName? (name : String) : Option Side :=
  if name == "Yes" then some yes else if name == "No" then some no else none

/-- The side that a tree gives by its name, alone or as the only key of an object, with null. -/
def ofTerm? : Term → Option Side
  | .text name => name.bind ofName?
  | .object [(name, .null)] => name.bind ofName?
  | _ => none

instance : Codec Side where
  toTerm side := .ofString side.name
  ofTerm? := ofTerm?

end Side

namespace Market

/-- The names of the fields of a market. -/
def fieldNames : List String :=
  ["address", "topic", "description", "yes", "no", "start_time", "end_time", "balance",
    "yes_price", "no_price", "oracle_config"]

def toTerm (m : Market) : Term :=
  .ofMembers [
    ("address", .ofString m.address),
    ("topic", .ofString m.topic),
    ("description", .ofString m.description),
    ("yes", .ofWord m.yes),
    ("no", .ofWord m.no),
    ("start_time", .ofWord m.startTime),
    ("end_time", .ofWord m.endTime),
    ("balance", .ofWord m.balance),
    ("yes_price", .ofOption .ofWord m.yesPrice),
    ("no_price", .ofOption .ofWord m.noPrice),
    ("oracle_config", .ofString m.oracleConfig)]

def ofTerm? (t : Term) : Option Market :=
  match t.slots? fieldNames with
  | some [address, topic, description, yes, no, start, finish, balance, yesPrice, noPrice,
      oracleConfig] => do
    return {
      address := ← address.required Term.string?
      topic := ← topic.required Term.string?
      description := ← description.required Term.string?
      yes := ← yes.required Term.word?
      no := ← no.required Term.word?
      startTime := ← start.required Term.word?
      endTime := ← finish.required Term.word?
      balance := ← balance.required Term.word?
      yesPrice := ← yesPrice.optional Term.word?
      noPrice := ← noPrice.optional Term.word?
      oracleConfig := ← oracleConfig.required Term.string? }
  | _ => none

instance : Codec Market where
  toTerm := toTerm
  ofTerm? := ofTerm?

end Market

end PredictionMarket
