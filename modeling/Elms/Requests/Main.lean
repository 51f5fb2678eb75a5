import Elms.Balance.Store
import Elms.Requests.Store

/-!
# The Leave Request Service's handlers

`leave_request_service/schemas.py`, `validators.py`, `balance_client.py` and
`main.py`. A handler is written as the segments between its awaits:
`apply_leave` has two, around the balance lookup; the other two writers have
none, so each is one atomic function from the store to an answer and a store.
-/

namespace Elms

open Calendar

/-! ## §1  Schemas -/

/-- The JSON body of `POST /leaves`, before its bounds are checked. -/
structure ApplyLeaveBody where
  leaveType : LeaveType
  startDate : Date
  endDate : Date
  numberOfDays : Int
  reason : String
  reportingManagerId : Option String
deriving DecidableEq, Repr

/-- Three days of casual leave. -/
def familyTrip : ApplyLeaveBody :=
  { leaveType := .CASUAL, startDate := ⟨739000⟩, endDate := ⟨739002⟩,
    numberOfDays := 3, reason := "Family trip", reportingManagerId := none }

/-- Three more days, a week after the trip. -/
def laterTrip : ApplyLeaveBody :=
  { familyTrip with startDate := ⟨739010⟩, endDate := ⟨739012⟩ }

structure ApplyLeaveRequest extends ApplyLeaveBody where
  numberOfDays_gt : 0 < numberOfDays
  reason_length : 1 ≤ reason.length ∧ reason.length ≤ 500
  reportingManagerId_minLength : ∀ m ∈ reportingManagerId, 1 ≤ m.length
deriving DecidableEq

def ApplyLeaveRequest.parse (body : ApplyLeaveBody) :
    Except HTTPException ApplyLeaveRequest :=
  if h : 0 < body.numberOfDays ∧
      (1 ≤ body.reason.length ∧ body.reason.length ≤ 500) ∧
      ∀ m ∈ body.reportingManagerId, 1 ≤ m.length then
    .ok ⟨body, h.1, h.2.1, h.2.2⟩
  else
    .error (unprocessable
      ((if 0 < body.numberOfDays then [] else [["body", "number_of_days"]]) ++
       (if 1 ≤ body.reason.length ∧ body.reason.length ≤ 500 then []
        else [["body", "reason"]]) ++
       (if ∀ m ∈ body.reportingManagerId, 1 ≤ m.length then []
        else [["body", "reporting_manager_id"]])))

/-- The JSON body of the internal status transition. -/
structure StatusUpdateBody where
  newStatus : LeaveStatus
  managerId : String
  rejectionReason : Option String
deriving DecidableEq, Repr

structure StatusUpdateRequest extends StatusUpdateBody where
  managerId_minLength : 1 ≤ managerId.length
  rejectionReason_maxLength : ∀ r ∈ rejectionReason, r.length ≤ 500
deriving DecidableEq

def StatusUpdateRequest.parse (body : StatusUpdateBody) :
    Except HTTPException StatusUpdateRequest :=
  if h : 1 ≤ body.managerId.length ∧
      ∀ r ∈ body.rejectionReason, r.length ≤ 500 then
    .ok ⟨body, h.1, h.2⟩
  else
    .error (unprocessable
      ((if 1 ≤ body.managerId.length then [] else [["body", "manager_id"]]) ++
       (if ∀ r ∈ body.rejectionReason, r.length ≤ 500 then []
        else [["body", "rejection_reason"]])))

/-- `LeaveRequestResponse` has the very fields of the model, and `from_model`
copies them. -/
abbrev LeaveRequestResponse := LeaveRequest

/-! ## §2  Validators -/

/-- `_ACTIVE_STATUSES` -/
def LeaveStatus.isActive (s : LeaveStatus) : Bool :=
  s = .PENDING || s = .APPROVED

/-- `validate_dates`, on the day `today`. -/
def validateDates (today startDate endDate : Date) (numberOfDays : Int) :
    Except HTTPException Unit :=
  if startDate > endDate then
    .error (badRequest "start_date must not be after end_date")
  else if startDate < today then
    .error (badRequest "start_date must not be in the past")
  else
    let inclusiveDays : Int := endDate.sub startDate + 1
    if numberOfDays ≠ inclusiveDays then
      .error (badRequest (s!"number_of_days ({numberOfDays}) does not " ++
        s!"match the inclusive date range ({inclusiveDays} day(s))"))
    else .ok ()

/-- The loop of `check_overlap` over the employee's requests. -/
def checkOverlapLoop (startDate endDate : Date) :
    List LeaveRequest → Except HTTPException Unit
  | [] => .ok ()
  | existing :: rest =>
      if ¬ existing.status.isActive then
        checkOverlapLoop startDate endDate rest
      else if existing.startDate ≤ endDate ∧ startDate ≤ existing.endDate then
        .error (conflict (s!"A {existing.status.value} leave request " ++
          s!"already exists for dates {isoformat existing.startDate} to " ++
          s!"{isoformat existing.endDate}"))
      else checkOverlapLoop startDate endDate rest

/-- `check_overlap` -/
def checkOverlap (st : RequestStore) (employeeId : String)
    (startDate endDate : Date) : Except HTTPException Unit :=
  match st.getRequestsForEmployee employeeId with
  | none => .error internalServerError
  | some existing => checkOverlapLoop startDate endDate existing

/-! ## §3  `balance_client.py` -/

/-- The first item of the wanted type; an employee without one has 0 left. -/
def remainingIn (leaveType : LeaveType) : List BalanceItem → Int
  | [] => 0
  | item :: items =>
      if item.leaveType = leaveType then item.remaining
      else remainingIn leaveType items

/-- `fetch_remaining`: the self-read of the balance route, made under the
employee's own headers; any non-2xx answer is raised. Employee ids are the
UUID texts of the org chart, which read back from the URL as they are. What it
does with the HTTP answer is `BalanceClient.fetchRemaining`. -/
def fetchRemaining (balances : BalanceStore) (chart : OrgChart)
    (employeeId : String) (leaveType : LeaveType) : Reply Int :=
  match getCaller (some employeeId) (some Role.EMPLOYEE.value) with
  | .error _ => .error .httpxError
  | .ok caller =>
      match balances.employeeBalances chart caller employeeId with
      | .error _ => .error .httpxError
      | .ok payload => .ok (remainingIn leaveType payload.balances)

/-! ## §4  `apply_leave` -/

/-- `_resolve_manager` -/
def resolveManager (chart : OrgChart) (employeeId : String)
    (provided : Option String) : Except HTTPException String :=
  match chart.getManagerId employeeId with
  | none =>
      .error (badRequest "No reporting manager is configured for this user")
  | some resolved =>
      if provided ≠ none ∧ provided ≠ some resolved then
        .error (badRequest
          "reporting_manager_id does not match the employee's manager")
      else .ok resolved

/-- `apply_leave` up to the balance lookup: the payload that passed its
checks, and the manager it is routed to. -/
def applyLeave (chart : OrgChart) (st : RequestStore) (today : Date)
    (caller : CallerIdentity) (body : ApplyLeaveBody) :
    Except HTTPException (ApplyLeaveRequest × String) := do
  let payload ← ApplyLeaveRequest.parse body
  validateDates today payload.startDate payload.endDate payload.numberOfDays
  let managerId ← resolveManager chart caller.userId payload.reportingManagerId
  checkOverlap st caller.userId payload.startDate payload.endDate
  return (payload, managerId)

/-- The record that an admitted application becomes. -/
def ApplyLeaveRequest.toRequest (payload : ApplyLeaveRequest)
    (caller : CallerIdentity) (managerId uuid : String)
    (createdAt updatedAt : Timestamp) : LeaveRequest :=
  { requestId := uuid
    employeeId := caller.userId
    leaveType := payload.leaveType
    startDate := payload.startDate
    endDate := payload.endDate
    numberOfDays := payload.numberOfDays
    reason := payload.reason
    reportingManagerId := managerId
    createdAt := createdAt
    updatedAt := updatedAt }

/-- `apply_leave` from the balance lookup on, up to the insertion. -/
def applyLeaveResumed (caller : CallerIdentity) (payload : ApplyLeaveRequest)
    (managerId uuid : String) (createdAt updatedAt : Timestamp)
    (reply : Reply Int) : Except HTTPException LeaveRequest :=
  match reply with
  | .error .circuitBreakerError =>
      .error (serviceUnavailable "Leave Balance Service is unavailable")
  | .error .httpxError =>
      .error (serviceUnavailable "Leave Balance Service is unavailable")
  | .ok remaining =>
      if payload.numberOfDays > remaining then
        .error (conflict
          (s!"Insufficient {payload.leaveType.value} balance: requested " ++
            s!"{payload.numberOfDays}, remaining {remaining}"))
      else .ok (payload.toRequest caller managerId uuid createdAt updatedAt)

/-! ## §5  `cancel_leave` and `update_request_status` -/

/-- `cancel_leave` -/
def cancelLeave (st : RequestStore) (caller : CallerIdentity) (leaveId : String)
    (now : Timestamp) : Response LeaveRequestResponse × RequestStore :=
  match st.getRequest leaveId with
  | none =>
      (.error (notFound "Leave request not found"), st)
  | some request =>
      if request.employeeId ≠ caller.userId then
        (.error (forbidden "Not authorized to cancel this leave request"), st)
      else if request.status ≠ .PENDING then
        (.error (conflict ("Only a PENDING request can be cancelled " ++
          s!"(current status: {request.status.value})")), st)
      else
        (.ok (request.setStatus .CANCELLED none now),
         st.setStatus leaveId request .CANCELLED none now)

/-- `payload.rejection_reason and payload.rejection_reason.strip()` -/
def hasReason (rejectionReason : Option String) : Bool :=
  match rejectionReason with
  | none => false
  | some r => r ≠ "" && PyStr.strip r ≠ ""

/-- `update_request_status` -/
def updateRequestStatus (st : RequestStore) (requestId : String)
    (body : StatusUpdateBody) (now : Timestamp) :
    Response LeaveRequestResponse × RequestStore :=
  match StatusUpdateRequest.parse body with
  | .error e => (.error e, st)
  | .ok payload =>
      match st.getRequest requestId with
      | none =>
          (.error (notFound "Leave request not found"), st)
      | some request =>
          if request.reportingManagerId ≠ payload.managerId then
            (.error (forbidden
              "This request is not routed to the acting manager"), st)
          else if request.status ≠ .PENDING then
            (.error (conflict ("Only a PENDING request can be updated " ++
              s!"(current status: {request.status.value})")), st)
          else if payload.newStatus ≠ .APPROVED ∧
              payload.newStatus ≠ .REJECTED then
            (.error (badRequest "new_status must be APPROVED or REJECTED"), st)
          else if payload.newStatus = .REJECTED ∧
              hasReason payload.rejectionReason = false then
            (.error (badRequest
              "A rejection reason is required when rejecting a request"), st)
          else
            (.ok (request.setStatus payload.newStatus payload.rejectionReason now),
             st.setStatus requestId request payload.newStatus
               payload.rejectionReason now)

/-! ## §6  The internal listing -/

structure ListFilters where
  managerId : Option String := none
  employeeId : Option String := none
  requestId : Option String := none
  status : Option LeaveStatus := none
  fromDate : Option Date := none
  toDate : Option Date := none
deriving DecidableEq, Repr

/-- Where the listing starts from: one selector is used, in this order. -/
def listStart (st : RequestStore) (f : ListFilters) :
    Option (List LeaveRequest) :=
  match f.requestId, f.managerId, f.employeeId with
  | some requestId, _, _ => some (st.getRequest requestId).toList
  | none, some managerId, _ => st.getRequestsForManager managerId
  | none, none, some employeeId => st.getRequestsForEmployee employeeId
  | none, none, none => some st.requests

/-- `list_requests` -/
def listRequests (st : RequestStore) (f : ListFilters) :
    Response (List LeaveRequestResponse) :=
  match listStart st f with
  | none => .error internalServerError
  | some requests =>
      .ok (requests.filter fun r =>
        (f.employeeId.all fun e => r.employeeId = e) &&
        (f.status.all fun s => r.status = s) &&
        (f.fromDate.all fun d => d ≤ r.endDate) &&
        (f.toDate.all fun d => r.startDate ≤ d))

/-! ## §7  What the handlers check -/

theorem validateDates_eq_ok_iff {today s e : Date} {n : Int} :
    validateDates today s e n = .ok () ↔
      s ≤ e ∧ today ≤ s ∧ n = e.sub s + 1 := by
  unfold validateDates
  by_cases hse : s ≤ e
  · rw [if_neg (not_lt.mpr hse)]
    by_cases hts : today ≤ s
    · rw [if_neg (not_lt.mpr hts)]
      by_cases hn : n = e.sub s + 1
      · simp [hse, hts, hn]
      · simp [hn]
    · rw [if_pos (not_le.mp hts)]
      simp [hts]
  · rw [if_pos (not_le.mp hse)]
    simp [hse]

/-- The resolved manager is the org chart's, whatever the client supplied. -/
theorem resolveManager_eq_ok_iff {chart : OrgChart} {e : String}
    {provided : Option String} {m : String} :
    resolveManager chart e provided = .ok m ↔
      chart.getManagerId e = some m ∧ (provided = none ∨ provided = some m) := by
  unfold resolveManager
  cases hm : chart.getManagerId e with
  | none => simp
  | some resolved =>
      simp only [Option.some.injEq]
      split
      · rename_i h
        simp only [reduceCtorEq, false_iff]
        rintro ⟨rfl, h' | h'⟩
        · exact h.1 h'
        · exact h.2 h'
      · rename_i h
        simp only [Except.ok.injEq]
        constructor
        · rintro rfl
          refine ⟨rfl, ?_⟩
          by_cases hn : provided = none
          · exact Or.inl hn
          · exact Or.inr (by by_contra hs; exact h ⟨hn, hs⟩)
        · exact fun h' => h'.1

/-- The loop passes exactly when no active request meets the new range. -/
theorem checkOverlapLoop_eq_ok_iff {s e : Date} : ∀ {rs : List LeaveRequest},
    checkOverlapLoop s e rs = .ok () ↔
      ∀ r ∈ rs, r.status.isActive = true → ¬ (r.startDate ≤ e ∧ s ≤ r.endDate)
  | [] => by simp [checkOverlapLoop]
  | r :: rs => by
      rw [List.forall_mem_cons, checkOverlapLoop]
      by_cases hact : r.status.isActive = true
      · rw [if_neg (by simpa using hact)]
        by_cases hov : r.startDate ≤ e ∧ s ≤ r.endDate
        · rw [if_pos hov]
          simp only [reduceCtorEq, false_iff]
          exact fun h => h.1 hact hov
        · rw [if_neg hov, checkOverlapLoop_eq_ok_iff]
          exact ⟨fun h => ⟨fun _ => hov, h⟩, fun h => h.2⟩
      · rw [if_pos (by simpa using hact), checkOverlapLoop_eq_ok_iff]
        exact ⟨fun h => ⟨fun h' => absurd h' hact, h⟩, fun h => h.2⟩

theorem checkOverlap_eq_ok_iff {st : RequestStore} (hwf : st.WF) {emp : String}
    {s e : Date} :
    checkOverlap st emp s e = .ok () ↔
      ∀ id r, st.getRequest id = some r → r.employeeId = emp →
        r.status.isActive = true → ¬ (r.startDate ≤ e ∧ s ≤ r.endDate) := by
  rw [checkOverlap, RequestStore.getRequestsForEmployee_eq hwf]
  simp only [checkOverlapLoop_eq_ok_iff, List.mem_filter, decide_eq_true_eq,
    RequestStore.mem_requests_iff]
  constructor
  · intro h id r hr he
    exact h r ⟨⟨id, hr⟩, he⟩
  · rintro h r ⟨⟨id, hr⟩, he⟩
    exact h id r hr he

/-- What `apply_leave` has established when it goes to await the balance. -/
theorem applyLeave_eq_ok {chart : OrgChart} {st : RequestStore} {today : Date}
    {caller : CallerIdentity} {body : ApplyLeaveBody}
    {payload : ApplyLeaveRequest} {m : String}
    (h : applyLeave chart st today caller body = .ok (payload, m)) :
    payload.startDate ≤ payload.endDate ∧ today ≤ payload.startDate ∧
    payload.numberOfDays = payload.endDate.sub payload.startDate + 1 ∧
    chart.getManagerId caller.userId = some m ∧
    checkOverlap st caller.userId payload.startDate payload.endDate = .ok () := by
  simp only [applyLeave, bind, Except.bind, pure, Except.pure] at h
  cases hp : ApplyLeaveRequest.parse body with
  | error e => simp [hp] at h
  | ok p =>
      simp only [hp] at h
      cases hd : validateDates today p.startDate p.endDate p.numberOfDays with
      | error e => simp [hd] at h
      | ok u =>
          simp only [hd] at h
          cases hm : resolveManager chart caller.userId p.reportingManagerId with
          | error e => simp [hm] at h
          | ok m' =>
              simp only [hm] at h
              cases ho : checkOverlap st caller.userId p.startDate p.endDate with
              | error e => simp [ho] at h
              | ok u' =>
                  simp only [ho, Except.ok.injEq, Prod.mk.injEq] at h
                  obtain ⟨rfl, rfl⟩ := h
                  obtain ⟨hse, hts, hn⟩ := validateDates_eq_ok_iff.mp hd
                  exact ⟨hse, hts, hn, (resolveManager_eq_ok_iff.mp hm).1, ho⟩

/-- An application is admitted exactly when the lookup answered with enough. -/
theorem applyLeaveResumed_eq_ok_iff {caller : CallerIdentity}
    {payload : ApplyLeaveRequest} {m uuid : String} {c u : Timestamp}
    {reply : Reply Int} {r : LeaveRequest} :
    applyLeaveResumed caller payload m uuid c u reply = .ok r ↔
      (∃ remaining, reply = .ok remaining ∧ payload.numberOfDays ≤ remaining) ∧
      r = payload.toRequest caller m uuid c u := by
  rcases reply with err | remaining
  · cases err <;> simp [applyLeaveResumed]
  · simp only [applyLeaveResumed, Except.ok.injEq, exists_eq_left']
    split
    · simp only [reduceCtorEq, false_iff]
      omega
    · rename_i h
      simp only [Except.ok.injEq]
      exact ⟨fun hr => ⟨by omega, hr.symm⟩, fun hr => hr.2.symm⟩

/-- `cancel_leave` goes through: the caller's own PENDING request. -/
structure CancelAccepted (st : RequestStore) (caller : CallerIdentity)
    (leaveId : String) (r : LeaveRequest) : Prop where
  stored : st.getRequest leaveId = some r
  own : r.employeeId = caller.userId
  pending : r.status = .PENDING

instance (st : RequestStore) (caller : CallerIdentity) (leaveId : String) :
    Decidable (∃ r, CancelAccepted st caller leaveId r) :=
  decidable_of_iff
    (∃ r, st.getRequest leaveId = some r ∧ r.employeeId = caller.userId ∧
      r.status = .PENDING)
    ⟨fun ⟨r, hs, ho, hp⟩ => ⟨r, hs, ho, hp⟩, fun ⟨r, h⟩ =>
      ⟨r, h.stored, h.own, h.pending⟩⟩

/-- **`cancel_leave`, inverted**: refused, or the caller's own PENDING request
becomes CANCELLED. -/
theorem cancelLeave_cases (st : RequestStore) (caller : CallerIdentity)
    (leaveId : String) (now : Timestamp) :
    ((∀ r, ¬ CancelAccepted st caller leaveId r) ∧
      ∃ e, cancelLeave st caller leaveId now = (.error e, st)) ∨
    (∃ r, CancelAccepted st caller leaveId r ∧
      cancelLeave st caller leaveId now =
        (.ok (r.setStatus .CANCELLED none now),
         st.setStatus leaveId r .CANCELLED none now)) := by
  unfold cancelLeave
  cases hr : st.getRequest leaveId with
  | none =>
      refine Or.inl ⟨fun r h => ?_, _, rfl⟩
      exact absurd (hr.symm.trans h.stored) (by simp)
  | some r =>
      have huniq : ∀ r', CancelAccepted st caller leaveId r' → r' = r :=
        fun r' h => Option.some.inj (h.stored.symm.trans hr)
      simp only
      by_cases he : r.employeeId = caller.userId
      · rw [if_neg (not_not.mpr he)]
        by_cases hs : r.status = .PENDING
        · rw [if_neg (not_not.mpr hs)]
          exact Or.inr ⟨r, ⟨hr, he, hs⟩, rfl⟩
        · rw [if_pos hs]
          exact Or.inl ⟨fun r' h => hs (huniq r' h ▸ h.pending), _, rfl⟩
      · rw [if_pos he]
        exact Or.inl ⟨fun r' h => he (huniq r' h ▸ h.own), _, rfl⟩

/-- `update_request_status` goes through: a valid body from the manager the
PENDING request is routed to, with a reason if it rejects. -/
structure UpdateAccepted (st : RequestStore) (requestId : String)
    (body : StatusUpdateBody) (r : LeaveRequest) : Prop where
  schema : 1 ≤ body.managerId.length ∧
    ∀ reason ∈ body.rejectionReason, reason.length ≤ 500
  stored : st.getRequest requestId = some r
  routed : r.reportingManagerId = body.managerId
  pending : r.status = .PENDING
  target : body.newStatus = .APPROVED ∨
    (body.newStatus = .REJECTED ∧ hasReason body.rejectionReason = true)

instance (st : RequestStore) (requestId : String) (body : StatusUpdateBody) :
    Decidable (∃ r, UpdateAccepted st requestId body r) :=
  decidable_of_iff
    ((1 ≤ body.managerId.length ∧
      ∀ reason ∈ body.rejectionReason, reason.length ≤ 500) ∧
      (∃ r, st.getRequest requestId = some r ∧
        r.reportingManagerId = body.managerId ∧ r.status = .PENDING) ∧
      (body.newStatus = .APPROVED ∨
        (body.newStatus = .REJECTED ∧
          hasReason body.rejectionReason = true)))
    ⟨fun ⟨hsch, ⟨r, hs, hm, hp⟩, ht⟩ => ⟨r, hsch, hs, hm, hp, ht⟩,
      fun ⟨r, h⟩ => ⟨h.schema, ⟨r, h.stored, h.routed, h.pending⟩, h.target⟩⟩

/-- **`update_request_status`, inverted**: refused with the store as it was,
or the addressed PENDING request takes the decision. -/
theorem updateRequestStatus_cases (st : RequestStore) (requestId : String)
    (body : StatusUpdateBody) (now : Timestamp) :
    ((∀ r, ¬ UpdateAccepted st requestId body r) ∧
      ∃ e, updateRequestStatus st requestId body now = (.error e, st)) ∨
    (∃ r, UpdateAccepted st requestId body r ∧
      updateRequestStatus st requestId body now =
        (.ok (r.setStatus body.newStatus body.rejectionReason now),
         st.setStatus requestId r body.newStatus body.rejectionReason now)) := by
  unfold updateRequestStatus StatusUpdateRequest.parse
  by_cases hb : 1 ≤ body.managerId.length ∧
      ∀ r ∈ body.rejectionReason, r.length ≤ 500
  swap
  · rw [dif_neg hb]
    exact Or.inl ⟨fun r h => hb h.schema, _, rfl⟩
  rw [dif_pos hb]
  simp only
  cases hr : st.getRequest requestId with
  | none =>
      refine Or.inl ⟨fun r h => ?_, _, rfl⟩
      exact absurd (hr.symm.trans h.stored) (by simp)
  | some r =>
      have huniq : ∀ r', UpdateAccepted st requestId body r' → r' = r :=
        fun r' h => Option.some.inj (h.stored.symm.trans hr)
      simp only
      by_cases hm : r.reportingManagerId = body.managerId
      swap
      · rw [if_pos hm]
        exact Or.inl ⟨fun r' h => hm (huniq r' h ▸ h.routed), _, rfl⟩
      rw [if_neg (not_not.mpr hm)]
      by_cases hs : r.status = .PENDING
      swap
      · rw [if_pos hs]
        exact Or.inl ⟨fun r' h => hs (huniq r' h ▸ h.pending), _, rfl⟩
      rw [if_neg (not_not.mpr hs)]
      by_cases ha : body.newStatus = .APPROVED
      · rw [if_neg (by simp [ha]), if_neg (by simp [ha])]
        exact Or.inr ⟨r, ⟨hb, hr, hm, hs, Or.inl ha⟩, rfl⟩
      by_cases hj : body.newStatus = .REJECTED
      swap
      · rw [if_pos ⟨ha, hj⟩]
        refine Or.inl ⟨fun r' h => ?_, _, rfl⟩
        rcases h.target with h' | h'
        · exact ha h'
        · exact hj h'.1
      rw [if_neg (by simp [hj])]
      by_cases hreason : hasReason body.rejectionReason = true
      · rw [if_neg (by simp [hreason])]
        exact Or.inr ⟨r, ⟨hb, hr, hm, hs, Or.inr ⟨hj, hreason⟩⟩, rfl⟩
      · rw [if_pos ⟨hj, by simpa using hreason⟩]
        refine Or.inl ⟨fun r' h => ?_, _, rfl⟩
        rcases h.target with h' | h'
        · exact ha h'
        · exact hreason h'.2

/-- Selecting by id answers the stored record. -/
theorem listRequests_requestId (st : RequestStore) (id : String) :
    listRequests st { requestId := some id } = .ok (st.getRequest id).toList := by
  simp [listRequests, listStart]

/-- A reason that counts is there and contains a non-whitespace character. -/
theorem hasReason_eq_true_iff {reason : Option String} :
    hasReason reason = true ↔
      ∃ s, reason = some s ∧ ∃ c ∈ s.toList, PyStr.isSpace c = false := by
  cases reason with
  | none => simp [hasReason]
  | some s =>
      have hempty : (∃ c ∈ s.toList, PyStr.isSpace c = false) → s ≠ "" := by
        rintro ⟨c, hc, -⟩ rfl
        simp at hc
      simp only [hasReason, Bool.and_eq_true, decide_eq_true_eq, ne_eq,
        PyStr.strip_eq_empty_iff, Option.some.injEq, exists_eq_left']
      simp only [not_forall, Bool.not_eq_true, exists_prop]
      exact ⟨fun h => h.2, fun h => ⟨hempty h, h⟩⟩

end Elms
