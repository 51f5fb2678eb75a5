import Elms.Gateway.ConsulResolver

/-!
# Discovery with and without Consul

The gateway and the services resolve names with two copies of one parser. On
an answer that both get through they agree: the URLs that are carried are what
the gateway rotates over, the first of them is what the services use, and
without any both fall back to the same static address. An answer with an entry
of another shape is raised out of the resolvers instead
(`discovery_falls_back_iff`).
-/

namespace Elms

open Json

variable (py : Interpreter) (decode : ByteArray → Except LoadError Json)

/-! ## §1  Answers -/

/-- A value whose entries the loop gets through, all of them. -/
def WellFormedEntries : Json → Prop
  | .array entries => ∀ entry ∈ entries, WellFormedEntry py entry
  -- nothing is gone through in these two
  | .object members => members = []
  | .str s => s = []
  | _ => False

/-- The URLs that an answer carries, in its order. -/
def usableUrls (answer : HttpAnswer) : List Text :=
  match responseJson decode answer with
  | .ok (.array entries) => entries.filterMap (usableUrl py)
  | _ => []

/-- The lookup fails in a way that is expected, or its body has the shape that
is expected. -/
def WellFormedAnswer (answer : HttpAnswer) : Prop :=
  match responseJson decode answer with
  | .ok value => WellFormedEntries py value
  | .error exc => exc.isLookupFailure = true

variable {py decode}

theorem not_wellFormedEntry_str (s : Text) : ¬ WellFormedEntry py (.str s) := by
  intro h
  obtain ⟨members, hm⟩ := h.isObject
  cases hm

/-- What is gone through is well formed exactly if the value is. -/
theorem wellFormedEntries_iff {value : Json} :
    WellFormedEntries py value ↔ ∃ entries, value.iterate = .ok entries ∧
      ∀ entry ∈ entries, WellFormedEntry py entry := by
  have hempty : ∀ {α : Type} (l : List α) (f : α → Text),
      l = [] ↔ ∃ entries, (.ok (l.map fun x => Json.str (f x)) :
        Except OpError (List Json)) = .ok entries ∧
        ∀ entry ∈ entries, WellFormedEntry py entry := by
    intro α l f
    constructor
    · rintro rfl
      exact ⟨[], rfl, fun entry h => (by cases h)⟩
    · rintro ⟨entries, he, hall⟩
      cases he
      cases l with
      | nil => rfl
      | cons x xs =>
          exact absurd (hall _ List.mem_cons_self) (not_wellFormedEntry_str _)
  cases value with
  | array entries => simp [WellFormedEntries, iterate]
  | object members => exact hempty members Prod.fst
  | str s => exact hempty s fun c => [c]
  | _ => simp [WellFormedEntries, iterate]

/-- Only an array carries anything. -/
theorem usableUrls_of_iterate {answer : HttpAnswer} {value : Json}
    {entries : List Json} (hjson : responseJson decode answer = .ok value)
    (h : value.iterate = .ok entries)
    (hall : ∀ entry ∈ entries, WellFormedEntry py entry) :
    usableUrls py decode answer = entries.filterMap (usableUrl py) := by
  have hwf := wellFormedEntries_iff.mpr ⟨entries, h, hall⟩
  rw [usableUrls, hjson]
  cases value with
  | array es =>
      cases h
      rfl
  | object members =>
      cases h
      rw [show members = [] from hwf]
      rfl
  | str s =>
      cases h
      rw [show s = [] from hwf]
      rfl
  | _ => cases h

/-- **What both parsers start from**: nothing, or entries that they get
through. -/
theorem lookUp_of_wellFormed {answer : HttpAnswer}
    (h : WellFormedAnswer py decode answer) :
    (lookUp decode answer = .ok none ∧ usableUrls py decode answer = []) ∨
    ∃ value entries, lookUp decode answer = .ok (some value) ∧
      value.iterate = .ok entries ∧
      (∀ entry ∈ entries, WellFormedEntry py entry) ∧
      usableUrls py decode answer = entries.filterMap (usableUrl py) := by
  unfold WellFormedAnswer at h
  cases hjson : responseJson decode answer with
  | error exc =>
      rw [hjson] at h
      left
      rw [lookUp, usableUrls, hjson]
      exact ⟨if_pos h, rfl⟩
  | ok value =>
      rw [hjson] at h
      obtain ⟨entries, hentries, hall⟩ := wellFormedEntries_iff.mp h
      right
      refine ⟨value, entries, ?_, hentries, hall,
        usableUrls_of_iterate hjson hentries hall⟩
      rw [lookUp, hjson]

/-! ## §2  The two lookups -/

namespace ConsulResolver

theorem foldlM_baseUrls {entries : List Json}
    (h : ∀ entry ∈ entries, WellFormedEntry py entry) (found : List Text) :
    (entries.foldlM (fun baseUrls entry => do
      let url ← entryBaseUrl py entry
      .ok (baseUrls ++ url.toList)) found : Except OpError (List Text)) =
      .ok (found ++ entries.filterMap (usableUrl py)) := by
  induction entries generalizing found with
  | nil => simp [pure, Except.pure]
  | cons entry entries ih =>
      rw [List.foldlM_cons, entryBaseUrl_of_wellFormed (h entry List.mem_cons_self)]
      show List.foldlM _ (found ++ (usableUrl py entry).toList) entries = _
      rw [ih fun e he => h e (List.mem_cons_of_mem _ he), List.filterMap_cons]
      cases usableUrl py entry <;> simp

/-- The gateway finds all the URLs that are carried. -/
theorem allBaseUrls_eq {entries : List Json}
    (h : ∀ entry ∈ entries, WellFormedEntry py entry) :
    allBaseUrls py entries = .ok (entries.filterMap (usableUrl py)) :=
  foldlM_baseUrls h []

/-- It does not stop at the first of them, so one bad entry anywhere is
enough. -/
theorem foldlM_baseUrls_error {entries : List Json} {entry : Json}
    (hmem : entry ∈ entries) (hbad : ¬ WellFormedEntry py entry)
    (found : List Text) : ∃ e,
    (entries.foldlM (fun baseUrls entry => do
      let url ← entryBaseUrl py entry
      .ok (baseUrls ++ url.toList)) found : Except OpError (List Text)) =
      .error e := by
  induction entries generalizing found with
  | nil => cases hmem
  | cons first entries ih =>
      rw [List.foldlM_cons]
      by_cases hfirst : WellFormedEntry py first
      · rw [entryBaseUrl_of_wellFormed hfirst]
        apply ih
        rcases List.mem_cons.mp hmem with rfl | hmem
        · exact absurd hfirst hbad
        · exact hmem
      · rw [entryBaseUrl_of_not_wellFormed hfirst]
        exact ⟨_, rfl⟩

theorem queryConsul_of_wellFormed {answer : HttpAnswer}
    (h : WellFormedAnswer py decode answer) :
    queryConsul py decode answer = .ok (usableUrls py decode answer) := by
  rcases lookUp_of_wellFormed h with ⟨hlook, hnone⟩ |
    ⟨value, entries, hlook, hentries, hall, hcarried⟩
  · rw [queryConsul, hlook, hnone]
    rfl
  · rw [queryConsul, hlook, hcarried]
    dsimp only [bind, Except.bind]
    rw [hentries]
    dsimp only [Except.mapError]
    rw [allBaseUrls_eq hall]

theorem queryConsul_of_not_wellFormed {answer : HttpAnswer}
    (h : ¬ WellFormedAnswer py decode answer) :
    ∃ exc, queryConsul py decode answer = .error exc := by
  unfold queryConsul lookUp
  unfold WellFormedAnswer at h
  cases hjson : responseJson decode answer with
  | error exc =>
      rw [hjson] at h
      dsimp only at h ⊢
      rw [if_neg h]
      exact ⟨exc, rfl⟩
  | ok value =>
      rw [hjson] at h
      dsimp only [bind, Except.bind] at h ⊢
      cases hentries : value.iterate with
      | error e => exact ⟨_, rfl⟩
      | ok entries =>
          have hbad : ∃ entry ∈ entries, ¬ WellFormedEntry py entry := by
            by_contra hall
            push Not at hall
            exact h (wellFormedEntries_iff.mpr ⟨entries, hentries, hall⟩)
          obtain ⟨entry, hmem, hnot⟩ := hbad
          obtain ⟨e, he⟩ := foldlM_baseUrls_error hmem hnot []
          refine ⟨.opError e, ?_⟩
          dsimp only [Except.mapError]
          rw [allBaseUrls, he]

end ConsulResolver

theorem ServiceClient.queryConsul_of_wellFormed {answer : HttpAnswer}
    (h : WellFormedAnswer py decode answer) :
    queryConsul py decode answer = .ok (usableUrls py decode answer).head? := by
  rcases lookUp_of_wellFormed h with ⟨hlook, hnone⟩ |
    ⟨value, entries, hlook, hentries, hall, hcarried⟩
  · rw [queryConsul, hlook, hnone]
    rfl
  · rw [queryConsul, hlook, hcarried]
    dsimp only [bind, Except.bind]
    rw [hentries]
    dsimp only [Except.mapError]
    rw [firstBaseUrl_eq hall]

/-! ## §3  Falling back -/

/-- Both maps hold the same addresses. -/
theorem static_service_maps_eq :
    ConsulResolver.STATIC_SERVICE_MAP = ServiceClient.STATIC_SERVICE_MAP := rfl

theorem staticBaseUrl_of_mem {services : Dict String (String × Nat)}
    {serviceName : String} (h : serviceName ∈ services.keys) :
    ∃ url, staticBaseUrl services serviceName = .ok url := by
  obtain ⟨⟨host, port⟩, hget⟩ := Dict.exists_get?_of_mem_keys h
  rw [staticBaseUrl, hget]
  exact ⟨_, rfl⟩

variable (py decode) in
/-- Both resolvers return a URL: the static one if the answer carries none;
otherwise the gateway one of those that are carried, which it goes on to
rotate over, and the services the first of them. -/
def FallsBack (roundRobin : ConsulResolver.RoundRobin) (serviceName : String)
    (answer : HttpAnswer) : Prop :=
  ∃ gatewayUrl roundRobin' serviceUrl static,
    ConsulResolver.resolve roundRobin serviceName
      (ConsulResolver.queryConsul py decode answer) =
        (.ok gatewayUrl, roundRobin') ∧
    ServiceClient.resolve py decode serviceName answer = .ok serviceUrl ∧
    staticBaseUrl ServiceClient.STATIC_SERVICE_MAP serviceName = .ok static ∧
    (usableUrls py decode answer = [] →
      gatewayUrl = static ∧ serviceUrl = static) ∧
    (usableUrls py decode answer ≠ [] →
      gatewayUrl ∈ usableUrls py decode answer ∧
      (usableUrls py decode answer).head? = some serviceUrl ∧
      ∃ r, roundRobin'.get? serviceName = some r ∧
        r.instanceKey = usableUrls py decode answer)

/-- A URL that is carried is not empty, so `or` takes it. -/
theorem usableUrl_ne_nil {entry : Json} {url : Text}
    (h : usableUrl py entry = some url) : url ≠ [] := by
  obtain ⟨-, hurl⟩ := Option.ite_none_right_eq_some.mp h
  rw [← Option.some.inj hurl]
  exact List.cons_ne_nil _ _

theorem ServiceClient.resolve_of_wellFormed {answer : HttpAnswer}
    (h : WellFormedAnswer py decode answer) (serviceName : String) :
    resolve py decode serviceName answer =
      match (usableUrls py decode answer).head? with
      | some url => .ok url
      | none => staticBaseUrl STATIC_SERVICE_MAP serviceName := by
  rw [resolve, queryConsul_of_wellFormed h]
  dsimp only [bind, Except.bind]
  cases hhead : (usableUrls py decode answer).head? with
  | none => rfl
  | some url =>
      have hmem : url ∈ usableUrls py decode answer := List.mem_of_head? hhead
      have hne : url ≠ [] := by
        unfold usableUrls at hmem
        split at hmem
        · obtain ⟨entry, -, hurl⟩ := List.mem_filterMap.mp hmem
          exact usableUrl_ne_nil hurl
        · cases hmem
      dsimp only
      rw [if_neg (by simpa using hne)]

/-- **When discovery falls back.** For a known service and any state of the
gateway, both resolvers return a base URL, the static one in the same cases,
exactly if the lookup fails in a way that is expected or the entries of the
answer have the shape that is expected. -/
theorem discovery_falls_back_iff (py : Interpreter)
    (decode : ByteArray → Except LoadError Json)
    (roundRobin : ConsulResolver.RoundRobin) {serviceName : String}
    (hknown : serviceName ∈ ServiceClient.STATIC_SERVICE_MAP.keys)
    (answer : HttpAnswer) :
    FallsBack py decode roundRobin serviceName answer ↔
      WellFormedAnswer py decode answer := by
  constructor
  · rintro ⟨url, roundRobin', serviceUrl, static, hgateway, -⟩
    by_contra hbad
    obtain ⟨exc, hexc⟩ := ConsulResolver.queryConsul_of_not_wellFormed hbad
    rw [hexc] at hgateway
    cases hgateway
  · intro h
    obtain ⟨static, hstatic⟩ := staticBaseUrl_of_mem hknown
    have hservice := ServiceClient.resolve_of_wellFormed h serviceName
    unfold FallsBack
    rw [ConsulResolver.queryConsul_of_wellFormed h, hservice]
    cases hurls : usableUrls py decode answer with
    | nil =>
        refine ⟨static, roundRobin, static, static, ?_, hstatic, hstatic, ?_, ?_⟩
        · rw [ConsulResolver.resolve_nil, static_service_maps_eq, hstatic]
        · exact fun _ => ⟨rfl, rfl⟩
        · exact fun hne => absurd rfl hne
    | cons url urls =>
        have hne : url :: urls ≠ [] := List.cons_ne_nil _ _
        have hitems := ConsulResolver.items_rotation roundRobin serviceName hne
        set rotation := ConsulResolver.rotation roundRobin serviceName
          (url :: urls) hne with hrotation
        refine ⟨rotation.next.1, roundRobin.set serviceName rotation.next.2, url,
          static, ConsulResolver.resolve_of_ne roundRobin serviceName hne, rfl,
          hstatic, fun hnil => absurd hnil hne, fun _ => ⟨?_, rfl, ?_⟩⟩
        · rw [← hitems]
          exact List.get_mem _ _
        · refine ⟨rotation.next.2, Dict.get?_set_self _ _ _, ?_⟩
          exact rotation.items_eq.symm.trans hitems

/-- `json.loads` of a UTF-8 body. -/
def utf8Json (py : Interpreter) (content : ByteArray) : Except LoadError Json :=
  match decodeUtf8 content with
  | none => .error .valueError
  | some s => loads py s

/-- The default limits, for printable ASCII without floats. -/
def asciiInterpreter : Interpreter where
  maxDepth := 1000
  maxDepth_pos := by decide
  maxStrDigits := 4300
  isPrintable := fun c => c.val < 127
  floatRepr := fun _ => "1.5"
  floatRepr_head := fun _ => ⟨'1', by decide, by decide⟩

theorem responseJson_utf8Json {py : Interpreter} {s : List Char} {value : Json}
    (h : loads py s = .ok value) :
    responseJson (utf8Json py) (.response 200 (encodeUtf8 s)) = .ok value := by
  show (utf8Json py (encodeUtf8 s)).mapError ClientError.loadError = .ok value
  rw [utf8Json, decodeUtf8_encodeUtf8]
  dsimp only
  rw [h]
  rfl

/-- One instance without an address of its own. -/
def nodeAddress : List Char :=
  ['[', '\x7b', '"', 'N', 'o', 'd', 'e', '"', ':', '\x7b', '"', 'A', 'd', 'd', 'r',
   'e', 's', 's', '"', ':', '"', 'n', '"', '\x7d', ',', '"', 'S', 'e', 'r', 'v',
   'i', 'c', 'e', '"', ':', '\x7b', '"', 'P', 'o', 'r', 't', '"', ':', '8', '0',
   '\x7d', '\x7d', ']']

theorem discovery_falls_back_nodeAddress :
    FallsBack asciiInterpreter (utf8Json asciiInterpreter) Dict.empty "auth-service"
      (.response 200 (encodeUtf8 nodeAddress)) := by
  have hloads : loads asciiInterpreter nodeAddress =
      .ok (.array [.object
        [(text "Node", .object [(text "Address", .str (text "n"))]),
         (text "Service", .object [(text "Port", .int 80)])]]) := by
    rfl
  refine (discovery_falls_back_iff _ _ Dict.empty (by decide) _).mpr ?_
  rw [WellFormedAnswer, responseJson_utf8Json hloads]
  intro entry hentry
  rw [List.mem_singleton.mp hentry]
  exact ⟨⟨_, rfl⟩, ⟨_, rfl⟩, Or.inr ⟨_, rfl⟩⟩

/-- An entry whose Service is null. -/
def nullService : List Char :=
  ['[', '\x7b', '"', 'S', 'e', 'r', 'v', 'i', 'c', 'e', '"', ':', 'n', 'u', 'l',
   'l', '\x7d', ']']

/-- It is raised out of the resolver, where the static address is expected. -/
theorem discovery_raises_nullService :
    ¬ ∀ (py : Interpreter) (decode : ByteArray → Except LoadError Json)
      (roundRobin : ConsulResolver.RoundRobin) (serviceName : String)
      (answer : HttpAnswer),
      serviceName ∈ ServiceClient.STATIC_SERVICE_MAP.keys →
        FallsBack py decode roundRobin serviceName answer := by
  intro hall
  have hloads : loads asciiInterpreter nullService =
      .ok (.array [.object [(text "Service", .null)]]) := by
    rfl
  obtain ⟨url, roundRobin', serviceUrl, static, hgateway, -⟩ :=
    hall asciiInterpreter (utf8Json asciiInterpreter) Dict.empty "auth-service"
      (.response 200 (encodeUtf8 nullService)) (by decide)
  have hquery : ConsulResolver.queryConsul asciiInterpreter
      (utf8Json asciiInterpreter) (.response 200 (encodeUtf8 nullService)) =
        .error (.opError .attributeError) := by
    rw [ConsulResolver.queryConsul, lookUp, responseJson_utf8Json hloads]
    rfl
  rw [hquery] at hgateway
  cases hgateway

end Elms
