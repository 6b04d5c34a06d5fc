import PredictionMarket.Http.Call

/-!
# A server that answers by routes

`Http.Rehearsal` stands in for a server whose answers are known beforehand: the first route that a
request takes decides on its answer. Requests to other servers reach nothing.
-/

namespace PredictionMarket

namespace Http

/-- What is answered to the requests of a method to a path; none stands for any. -/
structure Route where
  method : Option String
  path : Option String
  status : Nat
  body : String
deriving DecidableEq, Repr

/-- Whether a method and a path take a route. -/
def Route.isTakenBy (r : Route) (method path : String) : Bool :=
  r.method.all (· == method) && r.path.all (· == path)

/-- A server that answers by routes. -/
structure Rehearsal where
  /-- The host of the server with the number of the service. -/
  authority : String
  /-- Whether the server listens. -/
  isUp : Bool
  routes : List Route
  /-- The requests that reached the server. -/
  requests : List Request
deriving DecidableEq, Repr

namespace Rehearsal

variable (h : Rehearsal)

def base : String :=
  "http://" ++ h.authority

/-- Whether requests to an address reach the server. -/
def isReached (u : Url) : Bool :=
  h.isUp && u.authority == h.authority

/-- The answer to requests of a method to a path. -/
def response (method path : String) : Reply :=
  match h.routes.find? (Route.isTakenBy · method path) with
  | some r => .response r.status (if hasBody r.status then r.body else "")
  | none => .response 404 ""

/-- The reply to a request, and the server after it. -/
def reply (r : Request) : Reply × Rehearsal :=
  match Url.ofText? r.url with
  | none => (.unreachable, h)
  | some u =>
    if h.isReached u then
      (h.response r.method.word u.path, { h with requests := h.requests ++ [r] })
    else (.unreachable, h)

end Rehearsal

end Http

end PredictionMarket
