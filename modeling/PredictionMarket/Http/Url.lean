import PredictionMarket.Number.Literal

/-!
# Addresses of servers

A `Url` is an address of the scheme `http`, brought into the one form that goes over the wire.

## Main definitions

* `Http.Url.ofText?`: the address that a text gives.
* `Http.Url.text`, `Http.Url.target`: the address as a whole, and the part that the server is told.
* `Http.joined`: an address below another one.

## Design notes

Hosts are names or numbers of plain characters, without a user in front of them. In a path, `.` and
`..` are resolved, and a backslash is a slash. Characters that may not stand in a path or a query
are written as the bytes of their encoding in UTF-8.
-/

namespace PredictionMarket

namespace Http

/-- An address of the scheme `http`. -/
structure Url where
  host : String
  /-- The number of the service on the host, none for the usual one. -/
  service : Option Nat
  /-- The path, which starts with a slash. -/
  path : String
  query : Option String
  fragment : Option String
deriving DecidableEq, Repr

/-- The number of the usual service. -/
def usualService : Nat := 80

namespace Url

/-- A character that does not count at the ends of an address. -/
def isEdge (c : Char) : Bool :=
  c.toNat ≤ 0x20

/-- A character that does not count anywhere in an address. -/
def isSkipped (c : Char) : Bool :=
  c == '\t' || c == '\n' || c == '\r'

/-- The characters of an address that count. -/
def significant (s : String) : List Char :=
  (((s.toList.dropWhile isEdge).reverse.dropWhile isEdge).reverse).filter (!isSkipped ·)

def isSlash (c : Char) : Bool :=
  c == '/' || c == '\\'

/-- A byte as a percent sign and two hexadecimal digits. -/
def percent (b : UInt8) : List Char :=
  ['%', (Nat.digitChar (b.toNat / 16)).toUpper, (Nat.digitChar (b.toNat % 16)).toUpper]

/-- Text in which certain characters, and all that are not ASCII, are written as bytes. -/
def encode (special : List Char) (cs : List Char) : List Char :=
  cs.flatMap fun c =>
    if c.toNat < 0x20 || 0x7f ≤ c.toNat || special.contains c then
      (String.singleton c).toUTF8.toList.flatMap percent
    else [c]

/-- The characters that are written as bytes in a fragment. -/
def fragmentSpecials : List Char := [' ', '\"', '<', '>', '`']

/-- The characters that are written as bytes in a path. -/
def pathSpecials : List Char := fragmentSpecials ++ ['#', '?', '\x7b', '\x7d']

/-- The characters that are written as bytes in a query. -/
def querySpecials : List Char := [' ', '\"', '#', '<', '>', '\'']

/-- A step of a path as it counts, with an escaped point read as a point. -/
def step (segment : List Char) : List Char :=
  match segment.map Char.toLower with
  | ['%', '2', 'e'] => ['.']
  | ['.', '%', '2', 'e'] => ['.', '.']
  | ['%', '2', 'e', '.'] => ['.', '.']
  | ['%', '2', 'e', '%', '2', 'e'] => ['.', '.']
  | _ => segment

/-- The steps of a path, in reverse, after one more. A point at the end leaves an empty step. -/
def walk (steps : List (List Char)) (segment : List Char) (isLast : Bool) : List (List Char) :=
  let ending : List (List Char) := if isLast then [[]] else []
  match step segment with
  | ['.'] => ending ++ steps
  | ['.', '.'] => ending ++ steps.tail
  | _ => encode pathSpecials segment :: steps

/-- The steps of a path, in reverse, after further ones. -/
def walkAll (steps : List (List Char)) : List (List Char) → List (List Char)
  | [] => steps
  | segment :: segments => walkAll (walk steps segment segments.isEmpty) segments

/-- The path that is written as a text, without the slash at its start. -/
def pathOf (cs : List Char) : String :=
  let steps := (walkAll [] (cs.splitOnP isSlash)).reverse
  String.ofList (steps.flatMap fun s => '/' :: s)

def isHostChar (c : Char) : Bool :=
  c.isAlphanum || c == '.' || c == '-' || c == '_'

/-- The number of a service after the colon, none for the usual one or for an empty text. -/
def service? (cs : List Char) : Option (Option Nat) :=
  match cs with
  | [] => some none
  | _ :: [] => some none
  | _ :: digits =>
    (Literal.unsigned? digits).bind fun n =>
      if n = usualService then some none else if n < UInt16.size then some (some n) else none

/-- The text after a mark, with what stands before it. -/
def cut (mark : Char) (cs : List Char) : List Char × Option (List Char) :=
  (cs.takeWhile (· != mark), (cs.dropWhile (· != mark)).tail?)

/-- The address that a text gives. -/
def ofText? (s : String) : Option Url := do
  let cs := significant s
  if (cs.take 5).map Char.toLower ≠ ['h', 't', 't', 'p', ':'] then none
  let cs := (cs.drop 5).dropWhile isSlash
  let isEnd (c : Char) : Bool := isSlash c || c == '?' || c == '#'
  let authority := cs.takeWhile (!isEnd ·)
  let host := authority.takeWhile (· != ':')
  if host.isEmpty || !host.all isHostChar then none
  let service ← service? (authority.dropWhile (· != ':'))
  let (rest, fragment) := cut '#' (cs.dropWhile (!isEnd ·))
  let (path, query) := cut '?' rest
  return {
    host := String.ofList (host.map Char.toLower)
    service
    path := pathOf (path.drop 1)
    query := query.map fun q => String.ofList (encode querySpecials q)
    fragment := fragment.map fun f => String.ofList (encode fragmentSpecials f) }

/-- A text after its mark, or nothing. -/
def marked (mark : String) : Option String → String
  | some text => mark ++ text
  | none => ""

/-- The path with the query, which a request names. -/
def target (u : Url) : String :=
  u.path ++ marked "?" u.query

/-- The host with the number of the service. -/
def authority (u : Url) : String :=
  u.host ++ marked ":" (u.service.map toString)

def text (u : Url) : String :=
  "http://" ++ u.authority ++ u.target ++ marked "#" u.fragment

end Url

/-- The address of something below a base, which may end with slashes. -/
def joined (base path : String) : String :=
  String.ofList (base.toList.reverse.dropWhile (· == '/')).reverse ++ path

end Http

end PredictionMarket
