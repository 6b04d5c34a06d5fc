import PredictionMarket.Dialogue
import PredictionMarket.Http.Call
import PredictionMarket.Time.Instant

/-!
# What a program asks of its host

A program prints, reads and writes files, reads the clock, draws numbers and sends requests.
Everything else it computes by itself.
-/

namespace PredictionMarket

/-- The servers that a program sends requests to. -/
inductive Server where
  | index
  | app
  | publisher
  | signer
deriving DecidableEq, Repr

namespace Host

/-- What is found at a path. -/
inductive Finding where
  | file
  /-- There is nothing, or something that is no file. -/
  | nothing
  /-- The host does not tell. -/
  | unknown
deriving DecidableEq, Repr

/-- A question that a program puts. -/
inductive Question where
  /-- Prints a line. -/
  | print (line : String)
  /-- How many directories are above the one in which the program runs, if that is known. -/
  | directoriesAbove
  /-- What is at a path. -/
  | examine (path : String)
  /-- The lines of a file up to the first one that cannot be read. -/
  | readLines (path : String)
  /-- The text of a file, if it can be read. -/
  | readFile (path : String)
  /-- Whether there is a file. -/
  | hasFile (path : String)
  /-- Makes a file with a text, and tells whether that worked. -/
  | createFile (path text : String)
  /-- Adds a text to a file, and tells whether that worked. -/
  | extendFile (path text : String)
  /-- What time it is. -/
  | now
  /-- A number by chance. -/
  | number
  /-- What a server replies within some seconds. -/
  | send (server : Server) (seconds : UInt64) (r : Http.Request)
  /-- What the application replies within some seconds to two requests that are under way together.
  -/
  | sendBoth (seconds : UInt64) (first second : Http.Request)

/-- The answers to a question. -/
def Question.Answer : Question → Type
  | print _ => Unit
  | directoriesAbove => Option Nat
  | examine _ => Finding
  | readLines _ => List String
  | readFile _ => Option String
  | hasFile _ => Bool
  | createFile .. => Bool
  | extendFile .. => Bool
  | now => Instant
  | number => UInt64
  | send .. => Http.Reply
  | sendBoth .. => Http.TimedReply × Http.TimedReply

/-- A dialogue with a host. -/
abbrev Session := Dialogue Question.Answer

/-- A dialogue with a host that may stop with a complaint. -/
abbrev Attempt := ExceptT String Session

def put (q : Question) : Session q.Answer :=
  Dialogue.put q

def print (line : String) : Session Unit :=
  put (.print line)

/-- A result, or a complaint. -/
def attempt {α : Type} (outcome : Except String α) : Attempt α :=
  ExceptT.mk (pure outcome)

def printAll : List String → Session Unit
  | [] => return ()
  | line :: lines => do
    print line
    printAll lines

def now : Session Instant :=
  put .now

/-- The text of a file, if it can be read. -/
def readFile (path : String) : Session (Option String) :=
  put (.readFile path)

/-- The first of some paths at which there is a file. The search ends where the host does not tell
what there is. -/
def firstFile? : List String → Session (Option String)
  | [] => return none
  | path :: paths => do
    match ← put (.examine path) with
    | .file => return some path
    | .nothing => firstFile? paths
    | .unknown => return none

def send (server : Server) (seconds : UInt64) (r : Http.Request) : Session Http.Reply :=
  put (.send server seconds r)

def report (lines : List String) : Attempt Unit :=
  ExceptT.lift (printAll lines)

end Host

end PredictionMarket
