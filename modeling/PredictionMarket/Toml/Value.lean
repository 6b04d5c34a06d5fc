import PredictionMarket.Number.Binary64

/-!
# TOML documents as trees

A `Toml.Document` grows by the lines of a TOML text: headers open tables, and keys are given values
in the table that was opened last. A table remembers how it came to be, because that decides what
may still be added to it.

## Main definitions

* `Toml.Value`, `Toml.Table`: the tree of a document.
* `Toml.Table.insert?`: the value of a dotted key.
* `Toml.Document.assign?`, `Toml.Document.openTable?`, `Toml.Document.openElement?`: the lines.
-/

namespace PredictionMarket

namespace Toml

/-- How a table came to be. -/
inductive Origin where
  /-- It is written in braces, and complete. -/
  | inlined
  /-- It has a header of its own. -/
  | header
  /-- It stands in the path of a header. -/
  | implied
  /-- It stands in the path of a dotted key. -/
  | dotted
deriving DecidableEq, Repr

/-- The value of a key. -/
inductive Value where
  | string (s : String)
  | integer (n : Int)
  | float (x : Binary64)
  | boolean (b : Bool)
  /-- A date, a time or both, as written. -/
  | moment (written : String)
  | array (items : List Value)
  | table (origin : Origin) (members : List (String × Value))
  /-- Tables with a common header in double brackets, in the order of the text. -/
  | tables (elements : List (List (String × Value)))

/-- The members of a table, each key once. -/
abbrev Table := List (String × Value)

/-- A dotted key: the tables on the way, and the name in the last of them. -/
structure Key where
  path : List String
  name : String
deriving DecidableEq, Repr

namespace Table

/-- The table with a key changed to a value, or with a new key. -/
def put (t : Table) (name : String) (v : Value) : Table :=
  if (t.lookup name).isSome then t.map fun (k, old) => (k, if k == name then v else old)
  else t ++ [(name, v)]

/-- The table with the value of a new name at the end of a path. Tables that are missing on the way
are made. Those that are there may have come from dotted keys, or from the path of a header unless
the name is to stand in them directly. -/
def insert? (name : String) (v : Value) : (path : List String) → Table → Option Table
  | [], t => if (t.lookup name).isSome then none else some (t.put name v)
  | step :: path, t =>
    match t.lookup step with
    | none => (insert? name v path []).map fun inner => t.put step (.table .dotted inner)
    | some (.table origin inner) =>
      if origin = .dotted ∨ origin = .implied ∧ path ≠ [] then
        (insert? name v path inner).map fun inner => t.put step (.table origin inner)
      else none
    | some (.tables elements) =>
      match elements.getLast? with
      | some inner =>
        if path = [] then none
        else (insert? name v path inner).map fun inner =>
          t.put step (.tables (elements.dropLast ++ [inner]))
      | none => none
    | some _ => none

/-- The table with a change to the table at the end of a path of headers. Tables that are missing on
the way are made, and of tables with a common header the last one counts. -/
def changeAt? (change : Table → Option Table) : (path : List String) → Table → Option Table
  | [], t => change t
  | step :: path, t =>
    match t.lookup step with
    | none => (changeAt? change path []).map fun inner => t.put step (.table .implied inner)
    | some (.table origin inner) =>
      if origin = .inlined then none
      else (changeAt? change path inner).map fun inner => t.put step (.table origin inner)
    | some (.tables elements) =>
      match elements.getLast? with
      | some inner =>
        (changeAt? change path inner).map fun inner =>
          t.put step (.tables (elements.dropLast ++ [inner]))
      | none => none
    | some _ => none

/-- The table with a header for a name, which no other header and no key may have. -/
def open? (name : String) (t : Table) : Option Table :=
  match t.lookup name with
  | none => some (t.put name (.table .header []))
  | some (.table .implied inner) => some (t.put name (.table .header inner))
  | some _ => none

/-- The table with a header in double brackets for a name. -/
def openElement? (name : String) (t : Table) : Option Table :=
  match t.lookup name with
  | none => some (t.put name (.tables [[]]))
  | some (.tables elements) => some (t.put name (.tables (elements ++ [[]])))
  | some _ => none

end Table

/-- A document up to some line. -/
structure Document where
  root : Table
  /-- The path of the table that was opened last. -/
  opened : List String

namespace Document

def empty : Document := ⟨[], []⟩

variable (d : Document)

/-- The document after a line that gives a key a value. -/
def assign? (key : Key) (v : Value) : Option Document :=
  (d.root.changeAt? (Table.insert? key.name v key.path) d.opened).map fun root => { d with root }

/-- The document after the header of a table. -/
def openTable? (key : Key) : Option Document :=
  (d.root.changeAt? (Table.open? key.name) key.path).map (⟨·, key.path ++ [key.name]⟩)

/-- The document after a header in double brackets. -/
def openElement? (key : Key) : Option Document :=
  (d.root.changeAt? (Table.openElement? key.name) key.path).map (⟨·, key.path ++ [key.name]⟩)

end Document

end Toml

end PredictionMarket
