import Elms.Manager.Main
import Elms.Requests.Service

/-!
# The team view

`GET /manager/requests` over two services: the client drops the filters that
are not supplied, the Request Service parses the rest and filters its manager
index, and the Manager Service adds the display names. What comes back is the
scan of the store for the team and the filters (`team_view_exact`), because
the stored routing is the org chart's.
-/

namespace Elms

open Calendar

/-! ## §1  `list_team_requests` -/

/-- The filters of the route, as the manager's request carries them. -/
structure TeamFilters where
  statusFilter : Option String := none
  employeeId : Option String := none
  fromDate : Option String := none
  toDate : Option String := none
deriving DecidableEq, Repr

/-- The value, unless `if value:` is false of it. -/
def supplied (value : Option String) : Option String :=
  value.filter fun v => v ≠ ""

/-- `if value: params[key] = value` -/
def setSupplied (params : Dict String String) (key : String)
    (value : Option String) : Dict String String :=
  match supplied value with
  | none => params
  | some v => params.set key v

/-- The query parameters that `list_team_requests` sends. -/
def listTeamRequests (managerId : String) (f : TeamFilters) :
    Dict String String :=
  let params := Dict.ofList [("manager_id", managerId)]
  let params := setSupplied params "status" f.statusFilter
  let params := setSupplied params "employee_id" f.employeeId
  let params := setSupplied params "from_date" f.fromDate
  setSupplied params "to_date" f.toDate

theorem get?_setSupplied (params : Dict String String) (key x : String)
    (value : Option String) :
    (setSupplied params key value).get? x =
      if x = key then (supplied value).or (params.get? x) else params.get? x := by
  unfold setSupplied
  cases supplied value with
  | none => simp
  | some v =>
      rw [Dict.get?_set]
      rfl

/-- What the Request Service finds under each name. -/
theorem get?_listTeamRequests (managerId : String) (f : TeamFilters)
    (x : String) :
    (listTeamRequests managerId f).get? x =
      if x = "to_date" then supplied f.toDate
      else if x = "from_date" then supplied f.fromDate
      else if x = "employee_id" then supplied f.employeeId
      else if x = "status" then supplied f.statusFilter
      else if x = "manager_id" then some managerId
      else none := by
  have hbase : (Dict.ofList [("manager_id", managerId)]).get? x =
      if x = "manager_id" then some managerId else none := by
    show (Dict.empty.set "manager_id" managerId).get? x = _
    rw [Dict.get?_set]
    rfl
  unfold listTeamRequests
  simp only [get?_setSupplied, hbase]
  split_ifs <;> simp_all

/-! ## §2  The two handlers -/

section Dates

-- how a query parameter is read as a date; `none` if it cannot be
variable (parseDate : String → Option Date)

/-- The query of the internal listing; every parameter that cannot be read is
named. -/
def ListFilters.parse (params : Dict String String) :
    Except HTTPException ListFilters :=
  let status := (params.get? "status").map LeaveStatus.ofValue?
  let fromDate := (params.get? "from_date").map parseDate
  let toDate := (params.get? "to_date").map parseDate
  if status = some none ∨ fromDate = some none ∨ toDate = some none then
    .error (unprocessable
      ((if status = some none then [["query", "status"]] else []) ++
       (if fromDate = some none then [["query", "from_date"]] else []) ++
       (if toDate = some none then [["query", "to_date"]] else [])))
  else
    .ok { managerId := params.get? "manager_id"
          employeeId := params.get? "employee_id"
          requestId := params.get? "request_id"
          status := status.join
          fromDate := fromDate.join
          toDate := toDate.join }

/-- `GET /internal/requests` -/
def internalRequests (st : RequestStore) (params : Dict String String) :
    Response (List LeaveRequestResponse) := do
  let filters ← ListFilters.parse parseDate params
  listRequests st filters

/-- `list_requests` of the Manager Service, on what its call came to. -/
def ManagerService.listRequests (chart : OrgChart) (caller : CallerIdentity)
    (reply : Reply (Response (List LeaveRequestResponse))) :
    Response (List ManagerRequestView) := do
  let _ ← requireManager caller
  let response ← call reply
  let items ← propagate response
  return items.map (.fromPayload chart)

/-- `GET /manager/requests`, answered by the Request Service's store. -/
def teamView (chart : OrgChart) (st : RequestStore) (caller : CallerIdentity)
    (f : TeamFilters) : Response (List ManagerRequestView) :=
  ManagerService.listRequests chart caller
    (.ok (internalRequests parseDate st (listTeamRequests caller.userId f)))

/-- Data come back only to a manager, and only from a 2xx answer. -/
theorem ManagerService.listRequests_eq_ok_iff {chart : OrgChart}
    {caller : CallerIdentity}
    {reply : Reply (Response (List LeaveRequestResponse))}
    {views : List ManagerRequestView} :
    ManagerService.listRequests chart caller reply = .ok views ↔
      caller.role = .MANAGER ∧ ∃ items, reply = .ok (.ok items) ∧
        views = items.map (.fromPayload chart) := by
  simp only [ManagerService.listRequests, bind, Except.bind, pure, Except.pure]
  cases hm : requireManager caller with
  | error e =>
      simp only [reduceCtorEq, false_iff]
      rintro ⟨hrole, -⟩
      rw [requireManager_eq_ok_iff.mpr ⟨hrole, rfl⟩] at hm
      cases hm
  | ok c =>
      have hrole := (requireManager_eq_ok_iff.mp hm).1
      rcases reply with e | (e | items)
      · cases e <;> simp [call]
      · simp [call, propagate]
      · simp [call, propagate, hrole, eq_comm]

/-! ## §3  What the filters ask for -/

/-- Every supplied filter can be read. -/
structure TeamFilters.WellFormed (f : TeamFilters) : Prop where
  status : ∀ x ∈ supplied f.statusFilter, LeaveStatus.ofValue? x ≠ none
  fromDate : ∀ x ∈ supplied f.fromDate, parseDate x ≠ none
  toDate : ∀ x ∈ supplied f.toDate, parseDate x ≠ none

/-- The request satisfies every supplied filter. -/
def TeamFilters.Selects (f : TeamFilters) (r : LeaveRequest) : Prop :=
  (∀ x ∈ supplied f.statusFilter, LeaveStatus.ofValue? x = some r.status) ∧
  (∀ x ∈ supplied f.employeeId, r.employeeId = x) ∧
  (∀ x ∈ supplied f.fromDate, ∃ d, parseDate x = some d ∧ r.endDate ≥ d) ∧
  (∀ x ∈ supplied f.toDate, ∃ d, parseDate x = some d ∧ r.startDate ≤ d)

instance (f : TeamFilters) (r : LeaveRequest) :
    Decidable (f.Selects parseDate r) :=
  inferInstanceAs (Decidable (_ ∧ _ ∧ _ ∧ _))

variable {parseDate}

/-- A parsed filter lets through what its text asks for. -/
theorem all_bind_iff {α β : Type} {o : Option α} {g : α → Option β}
    (h : ∀ x ∈ o, g x ≠ none) (p : β → Bool) :
    (o.bind g).all p = true ↔ ∀ x ∈ o, ∃ b, g x = some b ∧ p b = true := by
  cases o with
  | none => simp
  | some x =>
      obtain ⟨b, hb⟩ := Option.ne_none_iff_exists'.mp (h x rfl)
      simp [hb]

/-- The Request Service reads the client's parameters back, or names one that
it cannot read. -/
theorem parse_listTeamRequests (m : String) (f : TeamFilters) :
    (¬ f.WellFormed parseDate → ∃ locs,
      ListFilters.parse parseDate (listTeamRequests m f) =
        .error (unprocessable locs)) ∧
    (f.WellFormed parseDate →
      ListFilters.parse parseDate (listTeamRequests m f) =
        .ok { managerId := some m
              employeeId := supplied f.employeeId
              requestId := none
              status := (supplied f.statusFilter).bind LeaveStatus.ofValue?
              fromDate := (supplied f.fromDate).bind parseDate
              toDate := (supplied f.toDate).bind parseDate }) := by
  have hread : ∀ {β : Type} (o : Option String) (g : String → Option β),
      o.map g = some none ↔ ¬ ∀ x ∈ o, g x ≠ none := by
    intro β o g
    cases o <;> simp
  have hwf : f.WellFormed parseDate ↔
      ¬ ((supplied f.statusFilter).map LeaveStatus.ofValue? = some none ∨
        (supplied f.fromDate).map parseDate = some none ∨
        (supplied f.toDate).map parseDate = some none) := by
    rw [hread, hread, hread, not_or, not_or, not_not, not_not, not_not]
    exact ⟨fun h => ⟨h.status, h.fromDate, h.toDate⟩,
      fun h => ⟨h.1, h.2.1, h.2.2⟩⟩
  rw [hwf, not_not]
  simp only [ListFilters.parse, get?_listTeamRequests]
  constructor
  · intro h
    refine ⟨_, if_pos ?_⟩
    simpa using h
  · intro h
    refine (if_neg ?_).trans ?_
    · simpa using h
    · have hjoin : ∀ {β : Type} (o : Option String) (g : String → Option β),
          (o.map g).join = o.bind g := by
        intro β o g
        cases o <;> rfl
      simp [hjoin]

/-- The filter chain of the listing is the scan for the selected requests. -/
theorem selects_iff {f : TeamFilters} (h : f.WellFormed parseDate)
    (r : LeaveRequest) :
    (((supplied f.employeeId).all fun e => r.employeeId = e) &&
      (((supplied f.statusFilter).bind LeaveStatus.ofValue?).all
        fun s => r.status = s) &&
      (((supplied f.fromDate).bind parseDate).all fun d => d ≤ r.endDate) &&
      (((supplied f.toDate).bind parseDate).all fun d => r.startDate ≤ d)) =
      true ↔ f.Selects parseDate r := by
  rw [Bool.and_eq_true, Bool.and_eq_true, Bool.and_eq_true,
    all_bind_iff h.status, all_bind_iff h.fromDate, all_bind_iff h.toDate]
  unfold TeamFilters.Selects
  simp only [Option.all_eq_true, decide_eq_true_eq, ge_iff_le]
  constructor
  · rintro ⟨⟨⟨he, hs⟩, hf⟩, ht⟩
    refine ⟨fun x hx => ?_, he, hf, ht⟩
    obtain ⟨st, hst, rfl⟩ := hs x hx
    exact hst
  · rintro ⟨hs, he, hf, ht⟩
    exact ⟨⟨⟨he, fun x hx => ⟨_, hs x hx, rfl⟩⟩, hf⟩, ht⟩

/-! ## §4  The view is exact -/

/-- The manager index is the team: every stored request is routed to the
manager that the org chart gives its employee. -/
theorem getRequestsForManager_team {chart : OrgChart} {s : RequestService}
    (hI : s.Inv chart) (m : String) :
    s.store.getRequestsForManager m =
      some (s.store.requests.filter fun r =>
        chart.getManagerId r.employeeId = some m) := by
  rw [RequestStore.getRequestsForManager_eq hI.wf]
  congr 1
  apply List.filter_congr
  intro r hr
  rw [(hI.sound_of_mem hr).routed]
  simp

/-- **The team view is exact.** Filters that cannot be read give an error and
no data. Otherwise a manager sees the requests of its team that satisfy every
supplied filter, each once, in submission order, and no others. -/
theorem team_view_exact {chart : OrgChart} {s : RequestService}
    (hs : RequestService.Reachable chart s) {caller : CallerIdentity}
    (hrole : caller.role = .MANAGER) (f : TeamFilters) :
    (¬ f.WellFormed parseDate → ∃ e,
      teamView parseDate chart s.store caller f = .error e ∧
      e.statusCode = 422) ∧
    (f.WellFormed parseDate → ∃ views,
      teamView parseDate chart s.store caller f = .ok views ∧
      views.map ManagerRequestView.toLeaveRequest =
        s.store.requests.filter (fun r =>
          chart.getManagerId r.employeeId = some caller.userId ∧
          f.Selects parseDate r) ∧
      (views.map fun v => v.requestId).Nodup ∧
      ∀ v ∈ views, chart.getManagerId v.employeeId = some caller.userId) := by
  have hI := hs.inv
  obtain ⟨hbad, hgood⟩ :
      (¬ f.WellFormed parseDate → _) ∧ (f.WellFormed parseDate → _) :=
    parse_listTeamRequests caller.userId f
  constructor
  · intro h
    obtain ⟨locs, hlocs⟩ := hbad h
    refine ⟨unprocessable locs, ?_, rfl⟩
    unfold teamView ManagerService.listRequests internalRequests
    rw [hlocs, requireManager_eq_ok_iff.mpr ⟨hrole, rfl⟩]
    rfl
  · intro h
    set selected := s.store.requests.filter (fun r =>
      decide (chart.getManagerId r.employeeId = some caller.userId ∧
        f.Selects parseDate r)) with hsel
    have hanswer : internalRequests parseDate s.store
        (listTeamRequests caller.userId f) = .ok selected := by
      unfold internalRequests
      rw [hgood h]
      show listRequests s.store _ = _
      simp only [listRequests, listStart, getRequestsForManager_team hI,
        List.filter_filter]
      rw [hsel]
      congr 1
      apply List.filter_congr
      intro r _
      rw [Bool.eq_iff_iff, Bool.and_eq_true, selects_iff h, decide_eq_true_eq,
        decide_eq_true_eq]
      exact and_comm
    refine ⟨selected.map (.fromPayload chart), ?_, ?_, ?_, ?_⟩
    · exact ManagerService.listRequests_eq_ok_iff.mpr
        ⟨hrole, selected, by rw [hanswer], rfl⟩
    · rw [List.map_map]
      exact List.map_id selected
    · rw [List.map_map]
      exact RequestStore.nodup_map_filter hI.wf _
    · intro v hv
      obtain ⟨r, hr, rfl⟩ := List.mem_map.mp hv
      have := (List.mem_filter.mp hr).2
      rw [decide_eq_true_eq] at this
      exact this.1

end Dates

/-- The ten days from 2024-04-24 on, by their ISO texts. -/
def springDay (text : String) : Option Date :=
  ((List.range 10).map fun i => (⟨739000 + i⟩ : Date)).find?
    fun d => isoformat d = text

/-- The pending requests that reach into the 25th or later; the empty
`employee_id` of the form is dropped. -/
def pendingSpring : TeamFilters :=
  { statusFilter := some "PENDING"
    employeeId := some ""
    fromDate := some "2024-04-25" }

/-- Two teams: the seeded one, and an employee with another manager. -/
def twoTeams : OrgChart :=
  SEED_USERS ++
    [⟨"manager-2", "manager2", .MANAGER, none⟩,
     ⟨"employee-3", "emp3", .EMPLOYEE, some "manager-2"⟩]

/-- The same trip for three employees, two of them of one team: one of these two
withdraws, and the other also asks for days before it. -/
def fourRequests : List RequestLabel :=
  [.applyLeave emp1 familyTrip ⟨738990⟩, .answerBalance 0 (.ok 12),
   .resumeApply 0 "request-1" 100 101,
   .applyLeave emp2 familyTrip ⟨738990⟩, .answerBalance 1 (.ok 12),
   .resumeApply 1 "request-2" 102 103,
   .cancelLeave emp2 "request-2" 104,
   .applyLeave { userId := "employee-3", role := .EMPLOYEE } familyTrip ⟨738990⟩,
   .answerBalance 2 (.ok 12),
   .resumeApply 2 "request-3" 105 106,
   .applyLeave emp1 { familyTrip with startDate := ⟨738992⟩, endDate := ⟨738994⟩ }
     ⟨738990⟩,
   .answerBalance 3 (.ok 12),
   .resumeApply 3 "request-4" 107 108]

theorem team_view_exact_pendingSpring :
    ∃ s, Transition.run (RequestService.step twoTeams) RequestService.empty
        fourRequests = some s ∧
      s.store.requests.length = 4 ∧
      ∃ views, teamView springDay twoTeams s.store manager1 pendingSpring =
          .ok views ∧
        views.map ManagerRequestView.toLeaveRequest =
          s.store.requests.filter (fun r =>
            twoTeams.getManagerId r.employeeId = some MANAGER1_ID ∧
            pendingSpring.Selects springDay r) ∧
        (views.map ManagerRequestView.toLeaveRequest).map LeaveRequest.requestId =
          ["request-1"] := by
  have hrun : ∃ s, Transition.run (RequestService.step twoTeams)
        RequestService.empty fourRequests = some s ∧
      s.store.requests.length = 4 ∧
      (s.store.requests.filter (fun r =>
        twoTeams.getManagerId r.employeeId = some MANAGER1_ID ∧
        pendingSpring.Selects springDay r)).map LeaveRequest.requestId =
          ["request-1"] := by
    decide +kernel
  obtain ⟨s, hs, hfour, hids⟩ := hrun
  have hwf : pendingSpring.WellFormed springDay :=
    ⟨by decide +kernel, by decide +kernel, by decide +kernel⟩
  obtain ⟨views, hviews, hexact, -, -⟩ :=
    (team_view_exact ⟨_, hs⟩ (show manager1.role = .MANAGER from rfl)
      pendingSpring).2 hwf
  refine ⟨s, hs, hfour, views, hviews, hexact, ?_⟩
  rw [hexact]
  exact hids

end Elms
