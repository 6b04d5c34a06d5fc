import PredictionMarket.Http.Rehearsal
import PredictionMarket.Program.Host

/-!
# A host in memory

`Host.Rehearsal` stands in for the host of a program: its files are texts in directories, its clock
stands still, and all servers are one that answers by routes, in the order of the requests.

## Main definitions

* `Host.Rehearsal.place?`: where a path leads.
* `Host.Rehearsal.answered`: the answer to a question, and the host after it.
* `Host.Rehearsal.hold`: a whole dialogue.
-/

namespace PredictionMarket

namespace Host

/-- The names on the way from the root to a directory or a file. -/
abbrev Location := List String

/-- Where a path leads: to a directory, or to a name in one. -/
inductive Place where
  | directory (location : Location)
  | file (location : Location)
deriving DecidableEq, Repr

/-- A host in memory. -/
structure Rehearsal where
  now : Instant
  directories : List Location
  /-- The directory in which the program runs. -/
  here : Location
  /-- The files by their locations, the first one of a location counting. -/
  files : List (Location × String)
  /-- The lines that were printed. -/
  printed : List String
  server : Http.Rehearsal

namespace Rehearsal

/-- How many bytes the name of a file may have. -/
def nameLimit : Nat := 255

/-- How many bytes a path may have. -/
def pathLimit : Nat := 4095

/-- Whether a file can have a name that stands in a path. -/
def isName (name : String) : Bool :=
  name.utf8ByteSize ≤ nameLimit && !name.toList.contains '\x00'

variable (h : Rehearsal)

/-- Where names lead from a directory. All but the last one have to be those of directories, and
a path that ends in a slash or a point leads to a directory only. -/
def follow (start : Location) : List String → Option Place
  | [] => some (.directory start)
  | name :: names =>
    if name == "" || name == "." then follow start names
    else if name == ".." then follow start.dropLast names
    else if h.directories.contains (start ++ [name]) then follow (start ++ [name]) names
    else if names.isEmpty && isName name then some (.file (start ++ [name]))
    else none

/-- Where a path leads. -/
def place? (path : String) : Option Place :=
  if path == "" || pathLimit < path.utf8ByteSize then none
  else h.follow (if path.startsWith "/" then [] else h.here) (path.splitOn "/")

/-- The text of the file at a path. -/
def file? (path : String) : Option String :=
  match h.place? path with
  | some (.file location) => h.files.lookup location
  | _ => none

/-- Whether there is something at a path. -/
def has (path : String) : Bool :=
  match h.place? path with
  | some (.file location) => (h.files.lookup location).isSome
  | some (.directory _) => true
  | none => false

/-- The host with a text in the file at a path, if there can be one. -/
def write? (path text : String) : Option Rehearsal :=
  match h.place? path with
  | some (.file location) => some { h with files := (location, text) :: h.files }
  | _ => none

/-- Whether an attempt worked, and the host after it. -/
def attempted (after : Option Rehearsal) : Bool × Rehearsal :=
  (after.isSome, after.getD h)

/-- The answer to a question, and the host after it. -/
def answered : (q : Question) → q.Answer × Rehearsal
  | .print line => ((), { h with printed := h.printed ++ [line] })
  | .directoriesAbove => (some h.here.length, h)
  | .examine path => ((if (h.file? path).isSome then .file else .nothing : Finding), h)
  | .readLines path => (((h.file? path).getD "").splitOn "\n", h)
  | .readFile path => (h.file? path, h)
  | .hasFile path => (h.has path, h)
  | .createFile path text => attempted h (h.write? path text)
  | .extendFile path text =>
    attempted h ((h.file? path).bind fun before => h.write? path (before ++ text))
  | .now => (h.now, h)
  | .number => ((0 : UInt64), h)
  | .send _ _ r => ((h.server.reply r).1, { h with server := (h.server.reply r).2 })
  | .sendBoth _ first second =>
    let (one, server) := h.server.reply first
    let (other, server) := server.reply second
    ((⟨1, one⟩, ⟨2, other⟩), { h with server })

/-- The answer to a question of a program. -/
def answer (q : Question) : StateM Rehearsal q.Answer :=
  fun h => h.answered q

/-- The result of a dialogue, and the host after it. -/
def hold {α : Type} (session : Session α) : α × Rehearsal :=
  StateT.run (m := Id) (session.run answer) h

end Rehearsal

end Host

end PredictionMarket
