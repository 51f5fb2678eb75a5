import Elms.Lib.Urllib
import Elms.Shared.Basic

/-!
# The API Gateway

`api_gateway/jwt_middleware.py` and `router.py`, from the request a client
sends to the request the downstream service receives. The route is matched on
the decoded path of the target, while authentication and forwarding read
`request.url.path`, which is parsed again from a text with the `Host` header
in it.

`python-jose` and `httpx` are not part of the repository: `decode_token` is a
parameter, and `Httpx` is what the gateway relies on when it sends a path.
-/

namespace Elms

/-! ## §1  Requests -/

/-- Header lines, in order. -/
abbrev Headers := List (String × String)

/-- The header lines as an ASGI server presents them. -/
def asgiHeaders (lines : Headers) : Headers :=
  lines.map fun line => (PyStr.lower line.1, line.2)

/-- `headers.get(key)`: the first line of that name. -/
def Headers.get? (headers : Headers) (key : String) : Option String :=
  (headers.find? fun line => line.1 = PyStr.lower key).map Prod.snd

inductive Scheme where
  | http
  | https
deriving DecidableEq, Repr

def Scheme.value : Scheme → List Char
  | .http => "http".toList
  | .https => "https".toList

/-- A request as the client sent it, and how it came in: the scheme, and the
address of the server for a request without `Host`. -/
structure HttpRequest where
  method : String
  rawPath : List Char
  queryString : List Char := []
  lines : Headers
  body : List UInt8 := []
  scheme : Scheme := .http
  server : String := "api-gateway:8000"
deriving DecidableEq

namespace HttpRequest

/-- `scope["path"]` -/
def path (request : HttpRequest) : List Char := Urllib.unquote request.rawPath

/-- `request.headers` -/
def headers (request : HttpRequest) : Headers := asgiHeaders request.lines

def host (request : HttpRequest) : List Char :=
  ((request.headers.get? "host").getD request.server).toList

/-- The text of `request.url`, after its `://`. -/
def urlRest (request : HttpRequest) : List Char :=
  request.host ++ request.path ++
    if request.queryString = [] then [] else '?' :: request.queryString

/-- `request.url.path`; `none` is the `ValueError` of a bad authority. -/
def urlPath (checkNetloc : List Char → Bool) (request : HttpRequest) :
    Option (List Char) :=
  (Urllib.urlsplit checkNetloc
    (request.scheme.value ++ "://".toList ++ request.urlRest)).map
      Urllib.SplitResult.path

/-- `dict(request.query_params)` -/
def queryParams (request : HttpRequest) : Dict (List Char) (List Char) :=
  Dict.ofList (Urllib.parseQsl request.queryString)

end HttpRequest

/-! ## §2  `jwt_middleware.py` -/

/-- The claims of a token that the router reads. -/
structure Claims where
  sub : Option String
  role : Option String
deriving DecidableEq, Repr

def PUBLIC_PATHS : List String :=
  ["/auth/login", "/health", "/docs", "/openapi.json", "/redoc"]

/-- `JWTAuthMiddleware.dispatch`: the `_unauthorized` answer it gives itself,
or the `request.state.user` with which the request goes on. -/
def dispatch (decodeToken : String → Option Claims) (urlPath : List Char)
    (headers : Headers) : Except HTTPException (Option Claims) :=
  if String.ofList urlPath ∈ PUBLIC_PATHS then .ok none
  else
    let authHeader := (headers.get? "Authorization").getD ""
    let (scheme, token) := PyStr.partition ' ' authHeader
    if PyStr.lower scheme ≠ "bearer" ∨ PyStr.strip token = "" then
      .error (unauthorized "Missing or malformed Authorization header")
    else
      match decodeToken (PyStr.strip token) with
      | none => .error (unauthorized "Invalid or expired authentication token")
      | some claims => .ok (some claims)

/-! ## §3  `_build_forward_headers` -/

/-- `_HOP_BY_HOP` -/
def HOP_BY_HOP : List String :=
  ["connection", "keep-alive", "proxy-authenticate", "proxy-authorization",
   "te", "trailers", "transfer-encoding", "upgrade", "host", "content-length"]

/-- `headers[name] = value`, if the claim is there and not empty. -/
def injectClaim (name : String) (claim : Option String)
    (headers : Dict String String) : Dict String String :=
  match claim with
  | none => headers
  | some value => if value = "" then headers else headers.set name value

/-- `_build_forward_headers` -/
def buildForwardHeaders (headers : Headers) (user : Option Claims) :
    Dict String String :=
  let forwarded := Dict.ofList
    (headers.filter fun line => PyStr.lower line.1 ∉ HOP_BY_HOP)
  match user with
  | none => forwarded
  | some user =>
      injectClaim "X-User-Role" user.role
        (injectClaim "X-User-Id" user.sub forwarded)

/-! ## §4  The route table -/

def AUTH_SERVICE : String := "auth-service"
def BALANCE_SERVICE : String := "leave-balance-service"
def REQUEST_SERVICE : String := "leave-request-service"
def MANAGER_SERVICE : String := "manager-service"

/-- A segment of a route: a fixed text, or a `{param}`, which matches one or
more characters other than `/`. -/
inductive Segment where
  | lit (s : String)
  | param
deriving DecidableEq, Repr

def Segment.Matches : Segment → List Char → Prop
  | .lit l, s => s = l.toList
  | .param, s => s ≠ []

instance : ∀ (seg : Segment) (s : List Char), Decidable (seg.Matches s)
  | .lit l, s => inferInstanceAs (Decidable (s = l.toList))
  | .param, s => inferInstanceAs (Decidable (s ≠ []))

/-- A path is matched segment by segment. -/
def matchPath : List Segment → List Char → Bool
  | seg :: segs, '/' :: rest =>
      decide (seg.Matches (rest.takeWhile (· ≠ '/'))) &&
        matchPath segs (rest.dropWhile (· ≠ '/'))
  | [], [] => true
  | _, _ => false

structure Route where
  method : String
  segments : List Segment
  service : String
deriving DecidableEq, Repr

/-- The pattern of a route ends in `$`, which also matches before a line feed
at the very end of the path. -/
def Route.matchesPath (r : Route) (path : List Char) : Bool :=
  matchPath r.segments path ||
    (decide (path.getLast? = some '\n') && matchPath r.segments path.dropLast)

namespace Router

def login : Route := ⟨"POST", [.lit "auth", .lit "login"], AUTH_SERVICE⟩

def myBalances : Route :=
  ⟨"GET", [.lit "employees", .lit "me", .lit "balances"], BALANCE_SERVICE⟩

def employeeBalances : Route :=
  ⟨"GET", [.lit "employees", .param, .lit "balances"], BALANCE_SERVICE⟩

def applyLeave : Route := ⟨"POST", [.lit "leaves"], REQUEST_SERVICE⟩

def leaveHistory : Route :=
  ⟨"GET", [.lit "leaves", .lit "history"], REQUEST_SERVICE⟩

def cancelLeave : Route :=
  ⟨"PATCH", [.lit "leaves", .param, .lit "cancel"], REQUEST_SERVICE⟩

def managerRequests : Route :=
  ⟨"GET", [.lit "manager", .lit "requests"], MANAGER_SERVICE⟩

def approveRequest : Route :=
  ⟨"POST", [.lit "manager", .lit "requests", .param, .lit "approve"],
   MANAGER_SERVICE⟩

def rejectRequest : Route :=
  ⟨"POST", [.lit "manager", .lit "requests", .param, .lit "reject"],
   MANAGER_SERVICE⟩

/-- The nine routes, in the order in which they are tried. -/
def routes : List Route :=
  [login, myBalances, employeeBalances, applyLeave, leaveHistory, cancelLeave,
   managerRequests, approveRequest, rejectRequest]

def matchRoute (method : String) (path : List Char) : Option Route :=
  routes.find? fun r => r.method = method ∧ r.matchesPath path = true

end Router

/-! ## §5  `_forward` -/

/-- What the gateway relies on when it has `httpx` request
`base_url + path`: that a path is percent-encoded where it has to be and is
otherwise sent as it is. The real client also removes `.` and `..` segments
from a path; that is left out here. -/
structure Httpx where
  /-- The path sent; `none` is the `InvalidURL` of a path it refuses. -/
  wirePath : List Char → Option (List Char)
  /-- Characters that a path cannot have are percent-encoded; the escapes it has
  already, and its segments, are left alone. -/
  unquote_wirePath : ∀ path wire, '?' ∉ path → '#' ∉ path → path ≠ [] →
    wirePath path = some wire → Urllib.unquote wire = Urllib.unquote path
  /-- The path of a bare `base_url` is `/`. -/
  wirePath_nil : wirePath [] = some ['/']

/-- Sending paths that need no encoding as they are. -/
def Httpx.plain : Httpx where
  wirePath := fun path => some (if path = [] then ['/'] else path)
  unquote_wirePath := by
    intro path wire _ _ hne h
    rw [if_neg hne] at h
    cases h
    rfl
  wirePath_nil := rfl

/-- What is sent downstream. -/
structure Forwarded where
  service : String
  method : String
  path : List Char
  params : Dict (List Char) (List Char)
  headers : Dict String String
  content : List UInt8
deriving DecidableEq

/-- `_forward`, up to its await. Header values are sent as they are; the real
client refuses one with a character outside ASCII, so that such a request is
answered with 500 and is not forwarded at all. -/
def forward (httpx : Httpx) (request : HttpRequest) (urlPath : List Char)
    (user : Option Claims) (serviceName : String) : Option Forwarded :=
  match httpx.wirePath urlPath with
  | none => none
  | some path =>
      some { service := serviceName
             method := request.method
             path := path
             params := request.queryParams
             headers := buildForwardHeaders request.headers user
             content := request.body }

/-- What a request comes to at the gateway, before a service has answered. -/
inductive Handled where
  | answered (e : HTTPException)
  /-- No route: the framework answers. -/
  | notRouted
  | forwarded (f : Forwarded)
deriving DecidableEq

/-- The gateway: the middleware, the router, and the handler of the route. -/
def gateway (checkNetloc : List Char → Bool) (decodeToken : String → Option Claims)
    (httpx : Httpx) (request : HttpRequest) : Handled :=
  match request.urlPath checkNetloc with
  | none => .answered internalServerError
  | some urlPath =>
      match dispatch decodeToken urlPath request.headers with
      | .error e => .answered e
      | .ok user =>
          match Router.matchRoute request.method request.path with
          | none => .notRouted
          | some route =>
              match forward httpx request urlPath user route.service with
              | none => .answered internalServerError
              | some f => .forwarded f

namespace Forwarded

/-- The path that the downstream service decodes. -/
def decodedPath (f : Forwarded) : List Char := Urllib.unquote f.path

/-- `get_caller` in the downstream service. -/
def caller (f : Forwarded) : Except HTTPException CallerIdentity :=
  getCaller ((asgiHeaders f.headers.entries).get? "x-user-id")
    ((asgiHeaders f.headers.entries).get? "x-user-role")

end Forwarded

/-- The user that the middleware lets the request through with. -/
def HttpRequest.AcceptedWith (checkNetloc : List Char → Bool)
    (decodeToken : String → Option Claims) (request : HttpRequest)
    (user : Option Claims) : Prop :=
  ∃ urlPath, request.urlPath checkNetloc = some urlPath ∧
    dispatch decodeToken urlPath request.headers = .ok user

/-- **A forwarded request**, inverted. -/
theorem gateway_eq_forwarded {checkNetloc : List Char → Bool}
    {decodeToken : String → Option Claims} {httpx : Httpx}
    {request : HttpRequest} {f : Forwarded}
    (h : gateway checkNetloc decodeToken httpx request = .forwarded f) :
    ∃ urlPath user route,
      request.urlPath checkNetloc = some urlPath ∧
      dispatch decodeToken urlPath request.headers = .ok user ∧
      Router.matchRoute request.method request.path = some route ∧
      forward httpx request urlPath user route.service = some f := by
  unfold gateway at h
  split at h
  · cases h
  · rename_i urlPath hurl
    split at h
    · cases h
    · rename_i user huser
      split at h
      · cases h
      · rename_i route hroute
        split at h
        · cases h
        · rename_i f' hf
          cases h
          exact ⟨urlPath, user, route, hurl, huser, hroute, hf⟩

/-! ## §6  A gateway to run -/

/-- An authority without brackets passes. -/
def noBrackets (netloc : List Char) : Bool := '[' ∉ netloc && ']' ∉ netloc

/-- The token of the first employee. -/
def decodeEmp1 (token : String) : Option Claims :=
  if token = "emp1-token" then
    some { sub := some EMP1_ID, role := some "EMPLOYEE" }
  else none

end Elms
