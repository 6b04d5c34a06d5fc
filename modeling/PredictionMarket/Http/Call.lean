import PredictionMarket.Http.Url
import PredictionMarket.Json.Codec

/-!
# Calls of servers

A `Call` is a request together with what its reply means. Making a request is up to the
surroundings, so a call is a plain value and its result a function of the reply.

## Main definitions

* `Http.Request`, `Http.Reply`: what is sent and what comes back.
* `Http.Call.result`: the result of a call, or the reason why there is none.
-/

namespace PredictionMarket

namespace Http

/-- What is done with a resource. -/
inductive Method where
  | get
  | post
  | put
deriving DecidableEq, Repr

/-- The word for a method. -/
def Method.word : Method → String
  | get => "GET"
  | post => "POST"
  | put => "PUT"

/-- What is sent to a server. -/
structure Request where
  method : Method
  url : String
  headers : List (String × String)
  body : String
deriving DecidableEq, Repr

namespace Request

/-- A request that only asks. -/
def get (url : String) (headers : List (String × String)) : Request :=
  ⟨.get, url, headers, ""⟩

/-- A request with a JSON text. -/
def postJson (url : String) (t : Json.Term) : Request :=
  ⟨.post, url, [("content-type", "application/json")], t.compact⟩

/-- A request with a text of any kind. -/
def put (url body : String) : Request :=
  ⟨.put, url, [], body⟩

end Request

/-- What comes back. -/
inductive Reply where
  /-- Nothing came back, or the request could not be sent. -/
  | unreachable
  | response (status : Nat) (body : String)
deriving DecidableEq, Repr

/-- A reply with the time that it takes. -/
structure TimedReply where
  delay : Nat
  reply : Reply
deriving DecidableEq, Repr

/-- The short description of a status that stands for an error. -/
def reason : Nat → String
  | 400 => "Bad Request"
  | 401 => "Unauthorized"
  | 402 => "Payment Required"
  | 403 => "Forbidden"
  | 404 => "Not Found"
  | 405 => "Method Not Allowed"
  | 406 => "Not Acceptable"
  | 407 => "Proxy Authentication Required"
  | 408 => "Request Timeout"
  | 409 => "Conflict"
  | 410 => "Gone"
  | 411 => "Length Required"
  | 412 => "Precondition Failed"
  | 413 => "Payload Too Large"
  | 414 => "URI Too Long"
  | 415 => "Unsupported Media Type"
  | 416 => "Range Not Satisfiable"
  | 417 => "Expectation Failed"
  | 418 => "I'm a teapot"
  | 421 => "Misdirected Request"
  | 422 => "Unprocessable Entity"
  | 423 => "Locked"
  | 424 => "Failed Dependency"
  | 426 => "Upgrade Required"
  | 428 => "Precondition Required"
  | 429 => "Too Many Requests"
  | 431 => "Request Header Fields Too Large"
  | 451 => "Unavailable For Legal Reasons"
  | 500 => "Internal Server Error"
  | 501 => "Not Implemented"
  | 502 => "Bad Gateway"
  | 503 => "Service Unavailable"
  | 504 => "Gateway Timeout"
  | 505 => "HTTP Version Not Supported"
  | 506 => "Variant Also Negotiates"
  | 507 => "Insufficient Storage"
  | 508 => "Loop Detected"
  | 510 => "Not Extended"
  | 511 => "Network Authentication Required"
  | _ => "<unknown status code>"

/-- Whether a status stands for an error. -/
def isError (status : Nat) : Bool :=
  400 ≤ status && status < 600

/-- Whether a response of a status has a body. -/
def hasBody (status : Nat) : Bool :=
  status != 204 && status != 304

/-- The sentence for a status that stands for an error. -/
def statusText (status : Nat) (url : String) : String :=
  let side := if status < 500 then "client" else "server"
  let url := ((Url.ofText? url).map Url.text).getD url
  "HTTP status " ++ side ++ " error (" ++ toString status ++ " " ++ reason status ++
    ") for url (" ++ url ++ ")"

/-- A request together with what its reply means. -/
structure Call (α : Type) where
  request : Request
  /-- What is said if nothing comes back. -/
  unreachable : String
  /-- What is said of an error, where that is not left to its status. -/
  refused : Option String
  /-- What is said of a body that means nothing. -/
  unreadable : String
  read : Json.Term → Option α

namespace Call

variable {α : Type} (c : Call α)

/-- The result of a call. -/
def result : Reply → Except String α
  | .unreachable => .error c.unreachable
  | .response status body =>
    if isError status then .error (c.refused.getD (statusText status c.request.url))
    else
      match (Json.Term.ofText? body).bind c.read with
      | some a => .ok a
      | none => .error c.unreadable

end Call

end Http

end PredictionMarket
