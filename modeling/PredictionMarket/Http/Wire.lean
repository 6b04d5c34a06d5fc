import PredictionMarket.Http.Call
import PredictionMarket.Text.Blank

/-!
# Requests and responses as bytes

A request goes over the wire as lines, an empty line and its body, and so does a response. Every
connection is used for one request, so that a response ends with its connection at the latest.

## Main definitions

* `Http.Request.bytes`: the bytes of a request.
* `Http.Reply.ofBytes`: the reply that bytes make.
* `Http.Wire.dechunked?`: the body of a response that is sent in pieces.
-/

namespace PredictionMarket

namespace Http

namespace Wire

def lineEnd : String := "\r\n"

def headers (r : Request) (u : Url) : List (String × String) :=
  [("host", u.authority), ("accept", "*/*"), ("connection", "close"),
    ("content-length", toString r.body.utf8ByteSize)] ++ r.headers

def head (r : Request) (u : Url) : String :=
  r.method.word ++ " " ++ u.target ++ " HTTP/1.1" ++ lineEnd ++
    String.join ((headers r u).map fun (name, value) => name ++ ": " ++ value ++ lineEnd) ++ lineEnd

/-- The bytes in front of the first end of a line, and those after it. -/
def line? : List UInt8 → Option (List UInt8 × List UInt8)
  | [] => none
  | 13 :: 10 :: rest => some ([], rest)
  | b :: rest => (line? rest).map fun (l, rest) => (b :: l, rest)

/-- What comes after a line is shorter than what began with it. -/
theorem length_of_line? {bs l rest : List UInt8} (h : line? bs = some (l, rest)) :
    rest.length < bs.length := by
  fun_induction line? bs generalizing l with
  | case1 => simp at h
  | case2 r =>
    obtain ⟨-, rfl⟩ := Prod.mk.inj (Option.some.inj h)
    exact Nat.lt_succ_of_lt (Nat.lt_succ_self r.length)
  | case3 b r _ ih =>
    obtain ⟨⟨l', rest'⟩, hl, heq⟩ := Option.map_eq_some_iff.1 h
    obtain ⟨-, rfl⟩ := Prod.mk.inj heq
    exact Nat.lt_succ_of_lt (ih hl)

/-- Bytes as characters of the same numbers. -/
def characters (bs : List UInt8) : List Char :=
  bs.map fun b => Char.ofNat b.toNat

/-- The lines in front of the first empty one, and the bytes after it. -/
def lines? (bs : List UInt8) : Option (List (List Char) × List UInt8) :=
  match h : line? bs with
  | none => none
  | some (l, rest) =>
    if l.isEmpty then some ([], rest)
    else
      have : rest.length < bs.length := length_of_line? h
      (lines? rest).map fun (ls, rest) => (characters l :: ls, rest)
termination_by bs.length

/-- The number at the start of a line, in hexadecimal digits. -/
def chunkSize? (l : List UInt8) : Option Nat :=
  match (characters l).takeWhile Literal.isHexDigit with
  | [] => none
  | ds => some (ds.foldl (fun n d => n * 16 + (Literal.hexDigit? d).getD 0) 0)

/-- The body that is sent in pieces, each after its size and with an end of line. The last piece is
empty. -/
def dechunked? (bs : List UInt8) : Option (List UInt8) :=
  match h : line? bs with
  | none => none
  | some (l, rest) =>
    match chunkSize? l with
    | none => none
    | some 0 => some []
    | some n =>
      if rest.length < n + lineEnd.length then none
      else
        have : rest.length < bs.length := length_of_line? h
        (dechunked? (rest.drop (n + lineEnd.length))).map (rest.take n ++ ·)
termination_by bs.length
decreasing_by
  rw [List.length_drop]
  omega

/-- The value of a header, by its name in small letters. -/
def header? (name : String) (headers : List (List Char)) : Option String :=
  headers.findSome? fun h =>
    let (n, value) := Url.cut ':' h
    if n.map Char.toLower = name.toList then value.map fun v => Text.trim (String.ofList v)
    else none

def body? (headers : List (List Char)) (rest : List UInt8) : Option (List UInt8) :=
  if header? "transfer-encoding" headers == some "chunked" then dechunked? rest
  else
    match (header? "content-length" headers).bind String.toNat? with
    | some n => if rest.length < n then none else some (rest.take n)
    | none => some rest

/-- What stands for a body that is no text or is not there as a whole. -/
def unreadable : String := "\uFFFD"

def text (headers : List (List Char)) (rest : List UInt8) : String :=
  ((body? headers rest).bind fun bs => String.fromUTF8? ⟨bs.toArray⟩).getD unreadable

/-- The status in the first line of a response. -/
def status? (l : List Char) : Option Nat :=
  (String.ofList ((l.dropWhile (· != ' ')).drop 1 |>.take 3)).toNat?

end Wire

/-- The bytes of a request to an address. -/
def Request.bytes (r : Request) (u : Url) : ByteArray :=
  (Wire.head r u ++ r.body).toUTF8

/-- The reply that bytes make; nothing came back if they are no response. -/
def Reply.ofBytes (bs : List UInt8) : Reply :=
  let reply? : Option Reply := do
    let (lines, rest) ← Wire.lines? bs
    let status ← Wire.status? (← lines.head?)
    return .response status (if hasBody status then Wire.text lines.tail rest else "")
  reply?.getD .unreachable

end Http

end PredictionMarket
