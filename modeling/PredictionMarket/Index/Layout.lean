import PredictionMarket.Json.Value
import PredictionMarket.Market.Basic

/-!
# Markets as the index holds them

The index gives the content of a market object as any JSON value. Numbers in it may be numbers,
texts or objects that hold one of both, and what is missing has a default.

## Main definitions

* `Json.Value.amount?`: a number in any of these forms.
* `Index.market?`: the market that a content stands for.
-/

namespace PredictionMarket

namespace Json.Value

mutual

/-- The number that a value stands for: a number, its digits, or an object with such a value. -/
def amount? : Value → Option UInt64
  | natural n => some n
  | string s => Literal.word? s
  | object members => memberAmount? members
  | _ => none

/-- The number that the member `value` stands for. -/
def memberAmount? : List (String × Value) → Option UInt64
  | [] => none
  | (k, v) :: ms => if k = "value" then v.amount? else memberAmount? ms

end

/-- The fields of a record as far as there is something for them. An array with more items is no
record. -/
def fields? (names : List String) : Value → Option (List (Option Value))
  | object members => some (names.map fun name => members.lookup name)
  | array items =>
    if items.length ≤ names.length then
      some (items.map some ++ List.replicate (names.length - items.length) none)
    else none
  | _ => none

/-- A text that may be missing. -/
def textOr (default : String) : Option Value → Option String
  | none => some default
  | some (string s) => some s
  | some _ => none

/-- A number that may be missing or null. -/
def optionalAmount? : Option Value → Option (Option UInt64)
  | none => some none
  | some null => some none
  | some v => v.amount?.map some

/-- A number, zero if it is missing or null. -/
def amountOrZero? (field : Option Value) : Option UInt64 :=
  (optionalAmount? field).map fun n => n.getD 0

/-- Any value as a text: a text itself, nothing for null, and the JSON text of others. -/
def plainText : Value → String
  | string s => s
  | null => ""
  | v => v.text

end Json.Value

namespace Index

open Json

/-- The fields of a market object. -/
def fieldNames : List String :=
  ["topic", "description", "yes", "no", "start_time", "end_time", "balance", "yesprice", "noprice",
    "oracle_config"]

/-- The market at an address that a content stands for. -/
def market? (address : String) (content : Value) : Option Market :=
  match content.fields? fieldNames with
  | some [topic, description, yes, no, start, finish, balance, yesPrice, noPrice,
      oracleConfig] => do
    return {
      address
      topic := ← Value.textOr "" topic
      description := ← Value.textOr "" description
      yes := ← Value.amountOrZero? yes
      no := ← Value.amountOrZero? no
      startTime := ← Value.amountOrZero? start
      endTime := ← Value.amountOrZero? finish
      balance := ← Value.amountOrZero? balance
      yesPrice := ← Value.optionalAmount? yesPrice
      noPrice := ← Value.optionalAmount? noPrice
      oracleConfig := (oracleConfig.getD .null).plainText }
  | _ => none

end Index

end PredictionMarket
