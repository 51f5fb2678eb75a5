import Elms.Lib.JsonOps

/-!
# Where is service X?

`shared/service_client.py`: one lookup at Consul's health API, and the static
address when it offers nothing. `httpx` is not part of the repository; a call
comes to an `HttpAnswer`, and how it decodes a body is a parameter. The body
of the loop over the entries is the gateway resolver's too (`entryBaseUrl`).
-/

namespace Elms

open Json

/-! ## §1  `httpx` -/

/-- What an HTTP call came to. -/
inductive HttpAnswer where
  | transportError
  | response (statusCode : Nat) (content : ByteArray)

/-- `response.is_success` -/
def isSuccess (statusCode : Nat) : Bool := 200 ≤ statusCode && statusCode ≤ 299

/-- What a client of another service can raise. -/
inductive ClientError where
  | httpError
  | loadError (e : LoadError)
  | opError (e : OpError)
  | keyError (message : String)
deriving DecidableEq, Repr

/-- The body of an answer that `raise_for_status` lets through; everything
else raises an `httpx.HTTPError`. -/
def raiseForStatus : HttpAnswer → Except ClientError ByteArray
  | .transportError => .error .httpError
  | .response statusCode content =>
      if isSuccess statusCode then .ok content else .error .httpError

/-- `response.json()` of that body. -/
def responseJson (decode : ByteArray → Except LoadError Json)
    (answer : HttpAnswer) : Except ClientError Json := do
  let content ← raiseForStatus answer
  (decode content).mapError .loadError

theorem responseJson_response (decode : ByteArray → Except LoadError Json)
    (statusCode : Nat) (content : ByteArray) :
    responseJson decode (.response statusCode content) =
      if isSuccess statusCode then (decode content).mapError .loadError
      else .error .httpError := by
  dsimp only [responseJson, raiseForStatus]
  cases isSuccess statusCode <;> rfl

/-- `isinstance(exc, (httpx.HTTPError, ValueError))` -/
def ClientError.isLookupFailure : ClientError → Bool
  | .httpError => true
  | .loadError .jsonDecodeError => true
  | .loadError .valueError => true
  | .loadError .recursionError => false
  | .opError e => e = .valueError
  | .keyError _ => false

/-! ## §2  The static map -/

/-- `http://host:port` -/
def baseUrl (host port : Text) : Text :=
  text "http://" ++ host ++ text ":" ++ port

/-- `_static_base_url`, over the map of either resolver. -/
def staticBaseUrl (services : Dict String (String × Nat)) (serviceName : String) :
    Except ClientError Text :=
  match services.get? serviceName with
  | none => .error (.keyError s!"Unknown downstream service '{serviceName}'")
  | some (host, port) => .ok (baseUrl (text host) (text (toString port)))

/-! ## §3  `_query_consul` -/

section Query

variable (py : Interpreter) (decode : ByteArray → Except LoadError Json)

/-- The `try` statement of both resolvers: the entries, unless the lookup
failed. -/
def lookUp (answer : HttpAnswer) : Except ClientError (Option Json) :=
  match responseJson decode answer with
  | .ok entries => .ok (some entries)
  | .error exc => if exc.isLookupFailure then .ok none else .error exc

/-- One turn of the loop over the entries: the URL, if the entry has one. -/
def entryBaseUrl (entry : Json) : Except OpError (Option Text) := do
  let service ← entry.dictGet "Service" (.object [])
  let node ← entry.dictGet "Node" (.object [])
  let address ← service.dictGet "Address"
  -- `node.get` is not called when the service has an address
  let address ← if address.truth py then .ok address else node.dictGet "Address"
  let port ← service.dictGet "Port"
  if address.truth py && port.truth py then
    .ok (some (baseUrl (pyStr py address) (pyStr py port)))
  else .ok none

namespace ServiceClient

def AUTH_SERVICE : String := "auth-service"
def BALANCE_SERVICE : String := "leave-balance-service"
def REQUEST_SERVICE : String := "leave-request-service"
def MANAGER_SERVICE : String := "manager-service"
def NOTIFICATION_SERVICE : String := "notification-service"

def STATIC_SERVICE_MAP : Dict String (String × Nat) :=
  Dict.ofList
    [(AUTH_SERVICE, (AUTH_SERVICE, 8001)),
     (BALANCE_SERVICE, (BALANCE_SERVICE, 8002)),
     (REQUEST_SERVICE, (REQUEST_SERVICE, 8003)),
     (MANAGER_SERVICE, (MANAGER_SERVICE, 8004)),
     (NOTIFICATION_SERVICE, (NOTIFICATION_SERVICE, 8005))]

/-- The loop returns at the first entry that has a URL. -/
def firstBaseUrl : List Json → Except OpError (Option Text)
  | [] => .ok none
  | entry :: entries => do
      match ← entryBaseUrl py entry with
      | some url => .ok (some url)
      | none => firstBaseUrl entries

/-- `_query_consul`, on what Consul answered for the service. -/
def queryConsul (answer : HttpAnswer) : Except ClientError (Option Text) := do
  match ← lookUp decode answer with
  | none => .ok none
  | some value =>
      let entries ← value.iterate.mapError .opError
      (firstBaseUrl py entries).mapError .opError

/-- `resolve` -/
def resolve (serviceName : String) (answer : HttpAnswer) :
    Except ClientError Text := do
  match ← queryConsul py decode answer with
  | some url =>
      if url.isEmpty then staticBaseUrl STATIC_SERVICE_MAP serviceName else .ok url
  | none => staticBaseUrl STATIC_SERVICE_MAP serviceName

end ServiceClient

/-! ## §4  What an entry carries -/

/-- The URL of an entry with a usable address, the Service's or else the
Node's, and a usable port; of any JSON value whatever. -/
def usableUrl (entry : Json) : Option Text :=
  let service := entry.member "Service" (.object [])
  let node := entry.member "Node" (.object [])
  let address :=
    if (service.member "Address").truth py then service.member "Address"
    else node.member "Address"
  let port := service.member "Port"
  if address.truth py && port.truth py then
    some (baseUrl (pyStr py address) (pyStr py port))
  else none

/-- An entry that the loop gets through: an object whose Service, if it is
there, is an object, and so is its Node unless the Service has an address. -/
structure WellFormedEntry (entry : Json) : Prop where
  isObject : entry.IsObject
  service : (entry.member "Service" (.object [])).IsObject
  node : ((entry.member "Service" (.object [])).member "Address").truth py = true ∨
    (entry.member "Node" (.object [])).IsObject

variable {py}

theorem entryBaseUrl_of_wellFormed {entry : Json} (h : WellFormedEntry py entry) :
    entryBaseUrl py entry = .ok (usableUrl py entry) := by
  unfold entryBaseUrl usableUrl
  rw [dictGet_of_isObject h.isObject, dictGet_of_isObject h.isObject]
  dsimp only [bind, Except.bind]
  rw [dictGet_of_isObject h.service, dictGet_of_isObject h.service]
  dsimp only
  by_cases haddress :
      ((entry.member "Service" (.object [])).member "Address").truth py = true
  · simp only [haddress, if_true]
    split <;> rfl
  · rw [dictGet_of_isObject (h.node.resolve_left haddress)]
    simp only [haddress, Bool.false_eq_true, if_false]
    split <;> rfl

theorem entryBaseUrl_of_not_wellFormed {entry : Json}
    (h : ¬ WellFormedEntry py entry) :
    entryBaseUrl py entry = .error .attributeError := by
  unfold entryBaseUrl
  by_cases hentry : entry.IsObject
  · rw [dictGet_of_isObject hentry, dictGet_of_isObject hentry]
    dsimp only [bind, Except.bind]
    by_cases hservice : (entry.member "Service" (.object [])).IsObject
    · rw [dictGet_of_isObject hservice]
      dsimp only
      have haddress :
          ¬ ((entry.member "Service" (.object [])).member "Address").truth py = true :=
        fun ha => h ⟨hentry, hservice, Or.inl ha⟩
      rw [if_neg haddress,
        dictGet_of_not_isObject fun hn => h ⟨hentry, hservice, Or.inr hn⟩]
    · rw [dictGet_of_not_isObject hservice]
  · rw [dictGet_of_not_isObject hentry]
    rfl

theorem ServiceClient.firstBaseUrl_cons {entry : Json} (entries : List Json)
    (h : WellFormedEntry py entry) :
    firstBaseUrl py (entry :: entries) =
      match usableUrl py entry with
      | some url => .ok (some url)
      | none => firstBaseUrl py entries := by
  rw [firstBaseUrl, entryBaseUrl_of_wellFormed h]
  rfl

/-- The shared resolver finds the first URL that is carried. -/
theorem ServiceClient.firstBaseUrl_eq {entries : List Json}
    (h : ∀ entry ∈ entries, WellFormedEntry py entry) :
    firstBaseUrl py entries = .ok (entries.filterMap (usableUrl py)).head? := by
  induction entries with
  | nil => rfl
  | cons entry entries ih =>
      rw [firstBaseUrl_cons entries (h entry List.mem_cons_self),
        List.filterMap_cons]
      cases usableUrl py entry with
      | some url => rfl
      | none => exact ih fun e he => h e (List.mem_cons_of_mem _ he)

end Query

end Elms
