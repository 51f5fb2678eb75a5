import Elms.Gateway.Main
import Mathlib

/-!
# The identity a request is forwarded under

The forwarded headers are a dictionary with case-sensitive keys: the client's
`x-user-id` and the gateway's `X-User-Id` are two entries, in this order. The
downstream service compares names without case and takes the first, so a
client that sends the header names its own identity (`impersonation`); the
claims of the token count exactly for the headers it does not send, or sends
with the same values (`caller_is_claimant_iff`).
-/

namespace Elms

/-! ## §1  What the dictionary keeps of the client's headers -/

/-- The value of the client's last line of that name. -/
def lastHeader (lines : Headers) (name : String) : Option String :=
  (lines.reverse.find? fun line => PyStr.lower line.1 = name).map Prod.snd

/-- The dictionary before the claims are put in. -/
def clientHeaders (lines : Headers) : Dict String String :=
  Dict.ofList ((asgiHeaders lines).filter fun line =>
    PyStr.lower line.1 ∉ HOP_BY_HOP)

/-- Under an end-to-end name it holds the last value. -/
theorem get?_clientHeaders (lines : Headers) {name : String}
    (hname : PyStr.lower name = name) (hhop : name ∉ HOP_BY_HOP) :
    (clientHeaders lines).get? name = lastHeader lines name := by
  have hline : ∀ line : String × String,
      (PyStr.lower (PyStr.lower line.1) ∉ HOP_BY_HOP ∧
        PyStr.lower line.1 = name) ↔ PyStr.lower line.1 = name := by
    intro line
    refine ⟨fun h => h.2, fun h => ⟨?_, h⟩⟩
    rw [h, hname]
    exact hhop
  unfold clientHeaders lastHeader asgiHeaders
  rw [Dict.get?_ofList, ← List.filter_reverse, List.find?_filter,
    ← List.map_reverse, List.find?_map, Option.map_map]
  simp only [Function.comp_def, decide_eq_true_eq, hline]

@[simp] theorem lower_lower (s : String) :
    PyStr.lower (PyStr.lower s) = PyStr.lower s := by
  simp [PyStr.lower, Function.comp_def]

/-- Its keys are as the server presented them. -/
theorem lower_of_mem_keys {lines : Headers} {k : String}
    (h : k ∈ (clientHeaders lines).keys) : PyStr.lower k = k := by
  obtain ⟨line, hline, rfl⟩ := List.mem_map.mp (Dict.mem_keys_ofList.mp h)
  obtain ⟨raw, -, rfl⟩ := List.mem_map.mp (List.mem_filter.mp hline).1
  exact lower_lower raw.1

/-! ## §2  What the downstream service reads -/

/-- The client's header comes first, and what follows is looked at only if
there is none. -/
theorem get?_asgiHeaders_append (lines rest : Headers) {name : String}
    (hname : PyStr.lower name = name) :
    (asgiHeaders ((clientHeaders lines).entries ++ rest)).get? name =
      ((clientHeaders lines).get? name).or ((asgiHeaders rest).get? name) := by
  have hlow : asgiHeaders (clientHeaders lines).entries =
      (clientHeaders lines).entries := by
    have hid : ∀ line ∈ (clientHeaders lines).entries,
        (PyStr.lower line.1, line.2) = id line := by
      intro line hline
      rw [lower_of_mem_keys (List.mem_map_of_mem hline)]
      rfl
    unfold asgiHeaders
    rw [List.map_congr_left hid, List.map_id]
  have happ : asgiHeaders ((clientHeaders lines).entries ++ rest) =
      (clientHeaders lines).entries ++ asgiHeaders rest := by
    unfold asgiHeaders at hlow ⊢
    rw [List.map_append, hlow]
  unfold Headers.get? Dict.get?
  rw [happ, List.find?_append, Option.map_or, hname]

/-- The claims go behind the client's headers, which have no capitals. -/
theorem entries_buildForwardHeaders (lines : Headers) {sub role : String}
    (hsub : sub ≠ "") (hrole : role ≠ "") :
    (buildForwardHeaders (asgiHeaders lines)
      (some { sub := some sub, role := some role })).entries =
      (clientHeaders lines).entries ++
        [("X-User-Id", sub), ("X-User-Role", role)] := by
  have hid : "X-User-Id" ∉ (clientHeaders lines).keys := fun h =>
    absurd (lower_of_mem_keys h) (by decide +kernel)
  have hr : "X-User-Role" ∉ (clientHeaders lines).keys := fun h =>
    absurd (lower_of_mem_keys h) (by decide +kernel)
  have hr' : "X-User-Role" ∉ ((clientHeaders lines).set "X-User-Id" sub).keys := by
    rw [Dict.mem_keys_set]
    rintro (h | h)
    · exact absurd h (by decide)
    · exact hr h
  show (injectClaim "X-User-Role" (some role)
    (injectClaim "X-User-Id" (some sub) (clientHeaders lines))).entries = _
  simp only [injectClaim, if_neg hsub, if_neg hrole]
  rw [Dict.entries_set_of_not_mem role hr', Dict.entries_set_of_not_mem sub hid,
    List.append_assoc]
  rfl

/-- **Who the downstream service takes the caller for**: a client's header
goes before the claim. -/
theorem Forwarded.caller_eq {f : Forwarded} {lines : Headers}
    {sub role : String} (hsub : sub ≠ "") (hrole : role ≠ "")
    (hf : f.headers = buildForwardHeaders (asgiHeaders lines)
      (some { sub := some sub, role := some role })) :
    f.caller = getCaller (some ((lastHeader lines "x-user-id").getD sub))
      (some ((lastHeader lines "x-user-role").getD role)) := by
  have hid : PyStr.lower "x-user-id" = "x-user-id" := by decide +kernel
  have hr : PyStr.lower "x-user-role" = "x-user-role" := by decide +kernel
  have hclaims : (asgiHeaders [("X-User-Id", sub), ("X-User-Role", role)]) =
      [("x-user-id", sub), ("x-user-role", role)] := by
    have h₁ : PyStr.lower "X-User-Id" = "x-user-id" := by decide +kernel
    have h₂ : PyStr.lower "X-User-Role" = "x-user-role" := by decide +kernel
    simp only [asgiHeaders, List.map_cons, List.map_nil, h₁, h₂]
  unfold Forwarded.caller
  rw [hf, entries_buildForwardHeaders lines hsub hrole,
    get?_asgiHeaders_append lines _ hid, get?_asgiHeaders_append lines _ hr,
    get?_clientHeaders lines hid (by decide),
    get?_clientHeaders lines hr (by decide), hclaims]
  congr 1
  · cases lastHeader lines "x-user-id" with
    | none => simp [Headers.get?, hid]
    | some v => rfl
  · cases lastHeader lines "x-user-role" with
    | none => simp [Headers.get?, hr]
    | some v => rfl

/-! ## §3  The identity of the claims -/

/-- The client's own identity headers, if it sends any, say what the claims
say. -/
def HttpRequest.KeepsIdentity (request : HttpRequest) (c : CallerIdentity) :
    Prop :=
  (∀ v ∈ lastHeader request.lines "x-user-id", v = c.userId) ∧
  (∀ v ∈ lastHeader request.lines "x-user-role", v = c.role.value)

instance (request : HttpRequest) (c : CallerIdentity) :
    Decidable (request.KeepsIdentity c) :=
  inferInstanceAs (Decidable (_ ∧ _))

/-- **One request** is taken for one of the claimant exactly if the client's
own headers agree. -/
theorem Forwarded.caller_eq_ok_iff {checkNetloc : List Char → Bool}
    {decodeToken : String → Option Claims} {httpx : Httpx}
    {request : HttpRequest} {f : Forwarded} {claims : Claims}
    {c : CallerIdentity}
    (hf : gateway checkNetloc decodeToken httpx request = .forwarded f)
    (haccept : request.AcceptedWith checkNetloc decodeToken (some claims))
    (hsub : claims.sub = some c.userId)
    (hrole : claims.role = some c.role.value) :
    f.caller = .ok c ↔ request.KeepsIdentity c := by
  obtain ⟨urlPath, user, route, hurl, huser, -, hforward⟩ :=
    gateway_eq_forwarded hf
  obtain ⟨urlPath', hurl', huser'⟩ := haccept
  have hpath : urlPath' = urlPath := Option.some.inj (hurl'.symm.trans hurl)
  have hclaims : user = some { sub := some c.userId, role := some c.role.value } := by
    rw [hpath] at huser'
    have hu : user = some claims := Except.ok.inj (huser.symm.trans huser')
    rw [hu, ← hsub, ← hrole]
  have hheaders : f.headers = buildForwardHeaders (asgiHeaders request.lines)
      (some { sub := some c.userId, role := some c.role.value }) := by
    rw [← hclaims]
    unfold forward at hforward
    split at hforward
    · cases hforward
    · cases hforward
      rfl
  have hvalue : c.role.value ≠ "" := by cases c.role <;> decide
  rw [Forwarded.caller_eq c.nonempty hvalue hheaders, getCaller_eq_ok_iff]
  unfold HttpRequest.KeepsIdentity
  simp only [Option.some.injEq, Option.mem_def]
  refine and_congr ?_ ?_
  · cases lastHeader request.lines "x-user-id" <;> simp
  · cases lastHeader request.lines "x-user-role" <;> simp

/-- **The identity across the gateway.** A request that the middleware accepts
is taken for one of the claimant exactly if the identity headers that the
client may have sent itself agree with the claims; so two such requests with
the same claims act under the same identity. -/
theorem caller_is_claimant_iff {checkNetloc : List Char → Bool}
    {decodeToken : String → Option Claims} {httpx : Httpx} {claims : Claims}
    {c : CallerIdentity} (hsub : claims.sub = some c.userId)
    (hrole : claims.role = some c.role.value) :
    (∀ request f, gateway checkNetloc decodeToken httpx request = .forwarded f →
      request.AcceptedWith checkNetloc decodeToken (some claims) →
      (f.caller = .ok c ↔ request.KeepsIdentity c)) ∧
    ∀ request request' f f',
      gateway checkNetloc decodeToken httpx request = .forwarded f →
      gateway checkNetloc decodeToken httpx request' = .forwarded f' →
      request.AcceptedWith checkNetloc decodeToken (some claims) →
      request'.AcceptedWith checkNetloc decodeToken (some claims) →
      request.KeepsIdentity c → request'.KeepsIdentity c →
      f.caller = f'.caller := by
  refine ⟨fun request f hf ha => Forwarded.caller_eq_ok_iff hf ha hsub hrole, ?_⟩
  intro request request' f f' hf hf' ha ha' hk hk'
  rw [(Forwarded.caller_eq_ok_iff hf ha hsub hrole).mpr hk,
    (Forwarded.caller_eq_ok_iff hf' ha' hsub hrole).mpr hk']

/-- The first employee reads the team requests, with more headers. -/
def teamRequests (lines : Headers) : HttpRequest :=
  { method := "GET", rawPath := "/manager/requests".toList
    lines := ("Host", "localhost:8000") ::
      ("Authorization", "Bearer emp1-token") :: lines }

/-- What the Manager Service receives for it. -/
def teamRequestsForwarded (lines : Headers) : Forwarded :=
  { service := MANAGER_SERVICE, method := "GET"
    path := "/manager/requests".toList, params := Dict.empty
    headers := Dict.ofList ([("authorization", "Bearer emp1-token")] ++
      asgiHeaders lines ++
      [("X-User-Id", EMP1_ID), ("X-User-Role", "EMPLOYEE")])
    content := [] }

theorem caller_is_claimant_iff_emp1 :
    gateway noBrackets decodeEmp1 Httpx.plain
      (teamRequests [("Accept", "*/*")]) =
        .forwarded (teamRequestsForwarded [("Accept", "*/*")]) ∧
    (teamRequestsForwarded [("Accept", "*/*")]).caller = .ok emp1 := by
  have hf : gateway noBrackets decodeEmp1 Httpx.plain
      (teamRequests [("Accept", "*/*")]) =
        .forwarded (teamRequestsForwarded [("Accept", "*/*")]) := by
    decide +kernel
  have haccept : (teamRequests [("Accept", "*/*")]).AcceptedWith noBrackets
      decodeEmp1 (some { sub := some EMP1_ID, role := some "EMPLOYEE" }) :=
    ⟨"/manager/requests".toList, by decide +kernel, by decide +kernel⟩
  have hiff := (@caller_is_claimant_iff noBrackets decodeEmp1 Httpx.plain
    { sub := some EMP1_ID, role := some "EMPLOYEE" } emp1 rfl rfl).1
    _ _ hf haccept
  exact ⟨hf, hiff.mpr (by decide +kernel)⟩

/-- The headers of a client that would rather be the manager. -/
def managerHeaders : Headers :=
  [("X-User-Id", MANAGER1_ID), ("X-User-Role", "MANAGER")]

/-- With the token of an employee, the manager's requests are read. -/
theorem impersonation :
    ¬ ∀ (checkNetloc : List Char → Bool) (decodeToken : String → Option Claims)
      (httpx : Httpx) (request : HttpRequest) (f : Forwarded) (claims : Claims)
      (c : CallerIdentity),
      gateway checkNetloc decodeToken httpx request = .forwarded f →
      request.AcceptedWith checkNetloc decodeToken (some claims) →
      claims.sub = some c.userId → claims.role = some c.role.value →
      f.caller = .ok c := by
  intro hall
  have hf : gateway noBrackets decodeEmp1 Httpx.plain
      (teamRequests managerHeaders) =
        .forwarded (teamRequestsForwarded managerHeaders) := by
    decide +kernel
  have haccept : (teamRequests managerHeaders).AcceptedWith noBrackets
      decodeEmp1 (some { sub := some EMP1_ID, role := some "EMPLOYEE" }) :=
    ⟨"/manager/requests".toList, by decide +kernel, by decide +kernel⟩
  have hemp := hall _ _ _ _ _ _ emp1 hf haccept rfl rfl
  have hmanager : (teamRequestsForwarded managerHeaders).caller = .ok manager1 := by
    decide +kernel
  rw [hmanager] at hemp
  exact absurd (Except.ok.inj hemp) (by decide)

end Elms
