import CrmAutomation.Api.Operation

/-!
# Serving requests

`serve` answers one request: it finds the endpoint, turns failures into responses, and adds the
headers that every response has. Browsers of other origins are told whether they may use the API.
-/

namespace CrmAutomation.Api

variable {σ : Type}

/-! ## Other origins -/

/-- The methods that other origins may use. -/
def allowedMethods : List String := ["GET", "POST", "PUT", "OPTIONS"]

/-- The headers that other origins may send. -/
def allowedHeaders : List String :=
  ["Accept", "Accept-Language", "Authorization", "Content-Language", "Content-Type",
    "X-Request-ID"]

/-- How long a browser may keep what it was told, in seconds. -/
def preflightAge : Nat := 600

def allowsEveryOrigin (s : Settings) : Bool := s.origins.contains "*"

def allowsOrigin (s : Settings) (origin : String) : Bool :=
  allowsEveryOrigin s || s.origins.contains origin

/-- Whether a list of header names has only names that may be sent. -/
def allowsHeaders (names : String) : Bool :=
  (Text.splitOn ',' names).all fun name =>
    (allowedHeaders.map Text.lower).contains (Text.trim (Text.lower name))

/-- What is wrong with what a browser asks for. -/
def preflightProblems (s : Settings) (r : Http.Request) (origin method : String) : List String :=
  (if allowsOrigin s origin then [] else ["origin"])
    ++ (if allowedMethods.contains method then [] else ["method"])
    ++ (if ((r.header? "access-control-request-headers").map allowsHeaders).getD true then []
      else ["headers"])
    ++ (if (r.header? "access-control-request-private-network").isSome then ["private-network"]
      else [])

/-- The headers that the answer to a browser depends on. -/
def decisiveHeaders : List String :=
  ["Origin", "Access-Control-Request-Method", "Access-Control-Request-Headers",
    "Access-Control-Request-Private-Network"]

/-- The answer to a browser that asks before it makes a request. -/
def preflight (s : Settings) (r : Http.Request) (origin method : String) : Response :=
  let headers := [("vary", String.intercalate ", " decisiveHeaders),
      ("access-control-allow-methods", String.intercalate ", " allowedMethods),
      ("access-control-max-age", toString preflightAge),
      ("access-control-allow-headers", String.intercalate ", " allowedHeaders),
      ("access-control-allow-credentials", "true")]
    ++ (if allowsOrigin s origin then [("access-control-allow-origin", origin)] else [])
  match preflightProblems s r origin method with
  | [] => { status := 200, headers := headers, body := .text "OK" }
  | problems => {
      status := 400
      headers := headers
      body := .text ("Disallowed CORS " ++ String.intercalate ", " problems) }

/-- What a response says to a browser of another origin. -/
def originHeaders (s : Settings) (r : Http.Request) (origin : String) : List (String × String) :=
  let named := [("access-control-allow-origin", origin), ("vary", "Origin")]
  ("access-control-allow-credentials", "true") ::
    (if allowsEveryOrigin s then
      if (r.header? "cookie").isSome then named else [("access-control-allow-origin", "*")]
    else if s.origins.contains origin then named
    else [("vary", "Origin")])

/-! ## Every response -/

/-- The headers that keep browsers from doing what they should not. -/
def securityHeaders (s : Settings) : List (String × String) :=
  [("x-content-type-options", "nosniff"), ("x-frame-options", "DENY"),
    ("referrer-policy", "strict-origin-when-cross-origin"), ("cache-control", "no-store")]
  ++ (if s.isProduction then
    [("strict-transport-security", "max-age=31536000; includeSubDomains")] else [])

/-- The response to a request that leads somewhere. -/
def dispatch (s : Server σ) (r : Http.Request) : Engine σ Response :=
  let path := Url.unescape r.url.requestPath
  match route s.settings.apiRoot r.method path with
  | .nowhere => return .detail 404 "Not Found"
  | .wrongMethod allowed =>
    return (Response.detail 405 "Method Not Allowed").withHeader ("allow", allowed)
  | .elsewhere =>
    let target : Url := { r.url with path := withOtherEnd path }
    let location := Url.escape Url.textSafe target.text
    return { status := 307, headers := [("location", location)], body := .text "" }
  | .endpoint e => operate s r (Http.Query.read (r.url.query.getD "")) e

/-- The response to a request, failures being responses too. -/
def track (s : Server σ) (r : Http.Request) : Engine σ Response := do
  let fresh ← Engine.freshId s.env .request
  let given := (r.header? "x-request-id").getD ""
  let id := if given = "" then fresh else given
  let response ← match ← Engine.attempt (dispatch s r) with
    | .ok response => pure response
    | .error f => pure (failureResponse s.settings.isProduction id f)
  return response.withHeaders (("x-request-id", id) :: securityHeaders s.settings)

/-- Answers a request. -/
def serve (s : Server σ) (r : Http.Request) : Engine σ Response := do
  match r.header? "origin" with
  | none => track s r
  | some origin =>
    match r.method, r.header? "access-control-request-method" with
    | "OPTIONS", some method => return preflight s.settings r origin method
    | _, _ => return (← track s r).withHeaders (originHeaders s.settings r origin)

/-- What a client sees that goes where it is sent, at most `left` times. -/
def serveFollowing (s : Server σ) : Nat → Http.Request → Engine σ Response
  | 0, r => serve s r
  | left + 1, r => do
    let response ← serve s r
    match response.header? "location" with
    | some location =>
      let url ← Engine.ofExcept (Url.read location)
      serveFollowing s left { r with url := url }
    | none => return response

end CrmAutomation.Api
