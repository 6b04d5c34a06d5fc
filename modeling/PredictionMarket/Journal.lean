import PredictionMarket.Time.Instant

/-!
# The trade journal

The journal is a text of comma-separated values: a header and a row for every action, in the order
of the actions.

## Main definitions

* `Journal.Row`, `Journal.Row.line`: an action and its row.
* `Journal.opened`: the journal after it is opened, which starts a new one with the header.
* `Csv.rows`: reading comma-separated values, with doubled quotes inside quoted fields.

## Design notes

Only the status of a row is quoted where it needs to be: it is the one field that holds sentences.
-/

namespace PredictionMarket

namespace Journal

/-- An action on a market and what came of it. -/
structure Row where
  timestamp : Instant
  market : String
  action : String
  side : Option String
  quantity : Option UInt64
  price : Option UInt64
  digest : Option String
  status : String
deriving DecidableEq, Repr

def header : String := "timestamp,market,action,side,quantity,price,digest,status"

/-- Whether a field of a row has to be quoted. -/
def needsQuotes (field : String) : Bool :=
  field.toList.any fun c => c == ',' || c == '\"' || c == '\n'

/-- A field with a comma, a quote or a line feed between quotes, with its quotes doubled; any other
field as it is. -/
def escaped (field : String) : String :=
  if needsQuotes field then
    String.ofList ('\"' :: field.toList.flatMap (fun c => if c == '\"' then [c, c] else [c]) ++
      ['\"'])
  else field

/-- A number that may be absent. -/
def numberField : Option UInt64 → String
  | some n => toString n.toNat
  | none => ""

namespace Row

/-- The fields of a row in front of its status. -/
def columns (r : Row) : List String :=
  [r.timestamp.text "+00:00", r.market, r.action, r.side.getD "", numberField r.quantity,
    numberField r.price, r.digest.getD ""]

def fields (r : Row) : List String :=
  r.columns ++ [r.status]

def line (r : Row) : String :=
  ",".intercalate (r.columns ++ [escaped r.status]) ++ "\n"

/-- The row of an event that is no transaction. -/
def event (timestamp : Instant) (market event : String) : Row :=
  { timestamp, market, action := "event", side := none, quantity := none, price := none,
    digest := none, status := event }

end Row

/-- The text of a journal after it is opened: a new one starts with the header. -/
def opened : Option String → String
  | some text => text
  | none => header ++ "\n"

/-- The text of a journal with one more row. -/
def appended (text : String) (r : Row) : String :=
  text ++ r.line

end Journal

namespace Csv

/-- Where the reader of comma-separated values stands, with what it has read in reverse. -/
inductive Place where
  /-- At the start of a field. -/
  | start
  /-- In a field without quotes. -/
  | plain (field : List Char)
  /-- Between the quotes of a field. -/
  | quoted (field : List Char)
  /-- After a quote in a quoted field, which ends it or is the first of two. -/
  | closing (field : List Char)

/-- The characters of the field at a place. -/
def Place.field : Place → List Char
  | start => []
  | plain f => f
  | quoted f => f
  | closing f => f

/-- A row being read, with the rows before it, all in reverse. -/
structure State where
  rows : List (List (List Char))
  fields : List (List Char)
  place : Place

/-- One character. Outside quotes a comma ends a field and a line feed a row. -/
def step (s : State) (c : Char) : State :=
  match s.place with
  | .quoted f =>
    if c == '\"' then { s with place := .closing f } else { s with place := .quoted (c :: f) }
  | .start =>
    if c == '\"' then { s with place := .quoted [] } else finish s c
  | .closing f => if c == '\"' then { s with place := .quoted (c :: f) } else finish s c
  | .plain _ => finish s c
where
  /-- A character outside quotes. -/
  finish (s : State) (c : Char) : State :=
    let field := s.place.field
    if c == ',' then { s with fields := field.reverse :: s.fields, place := .start }
    else if c == '\n' then
      { rows := (field.reverse :: s.fields).reverse :: s.rows, fields := [], place := .start }
    else { s with place := .plain (c :: field) }

/-- The rows of a text in which every row ends with a line feed. -/
def rows (text : String) : List (List String) :=
  let final := text.toList.foldl step ⟨[], [], .start⟩
  final.rows.reverse.map fun row => row.map String.ofList

end Csv

end PredictionMarket
