import Elms.Balance.Store
import Elms.Requests.Main

/-!
# The Manager Service's handlers

`manager_service/schemas.py`, `clients.py` and `main.py`. The service holds no
state: approving and rejecting are three, or two, calls to the services that
do. A handler is written as the segments between its awaits, each a function of
the answer it was waiting for; `Call` is what it sends.
-/

namespace Elms

open Calendar

/-! ## §1  Schemas -/

/-- The JSON body of a rejection, before its bounds are checked. -/
structure RejectLeaveBody where
  rejectionReason : String
deriving DecidableEq, Repr

structure RejectLeaveRequest extends RejectLeaveBody where
  rejectionReason_length :
    1 ≤ rejectionReason.length ∧ rejectionReason.length ≤ 500
deriving DecidableEq

def RejectLeaveRequest.parse (body : RejectLeaveBody) :
    Except HTTPException RejectLeaveRequest :=
  if h : 1 ≤ body.rejectionReason.length ∧
      body.rejectionReason.length ≤ 500 then
    .ok ⟨body, h⟩
  else .error (unprocessable [["body", "rejection_reason"]])

/-- A request as shown to its manager: all of its fields, and the employee's
display name. -/
structure ManagerRequestView extends LeaveRequest where
  employeeName : Option String
deriving DecidableEq, Repr

def ManagerRequestView.fromPayload (chart : OrgChart)
    (data : LeaveRequestResponse) : ManagerRequestView :=
  { toLeaveRequest := data
    employeeName := (chart.getUser data.employeeId).map SeedUser.username }

/-! ## §2  `clients.py` -/

/-- The calls an approval or a rejection sends. Stored ids are `uuid4` texts,
so one that exists reads back from the URL as it is. -/
inductive Call where
  | getRequest (requestId : String)
  | deductBalance (employeeId : String) (leaveType : LeaveType) (days : Int)
  | setRequestStatus (requestId : String) (body : StatusUpdateBody)
deriving DecidableEq, Repr

/-! ## §3  `_call`, `_propagate`, `_load_team_request` -/

/-- `_call`: a call that did not come back is a 503. -/
def call {α : Type} : Reply α → Except HTTPException α
  | .error .circuitBreakerError =>
      .error (serviceUnavailable "A downstream service is unavailable")
  | .error .httpxError =>
      .error (serviceUnavailable "A downstream service is unavailable")
  | .ok response => .ok response

/-- `_propagate`: an error of the downstream service is raised again. -/
def propagate {α : Type} : Response α → Except HTTPException α
  | .error e =>
      .error { statusCode := e.statusCode, detail := e.detail,
               isError := e.isError }
  | .ok payload => .ok payload

/-- `_load_team_request`, from the answer of `get_request` on. -/
def loadTeamRequest (managerId : String)
    (reply : Reply (Response (List LeaveRequestResponse))) :
    Except HTTPException LeaveRequestResponse := do
  let response ← call reply
  match ← propagate response with
  | [] =>
      throw (notFound "Leave request not found")
  | leaveRequest :: _ =>
      if leaveRequest.reportingManagerId ≠ managerId then
        throw (forbidden "This request is not routed to you")
      else return leaveRequest

/-! ## §4  `approve_request` and `reject_request` -/

/-- Which of the two handlers runs, with the body of a rejection. -/
inductive Decision where
  | approve
  | reject (payload : RejectLeaveRequest)
deriving DecidableEq

namespace Decision

def newStatus : Decision → LeaveStatus
  | approve => .APPROVED
  | reject _ => .REJECTED

def rejectionReason : Decision → Option String
  | approve => none
  | reject payload => some payload.rejectionReason

def participle : Decision → String
  | approve => "approved"
  | reject _ => "rejected"

end Decision

/-- The two handlers up to their first await: the guard on the role, and the
schema of a rejection. -/
def approveRequest (caller : CallerIdentity) : Except HTTPException Decision := do
  let _ ← requireManager caller
  return .approve

def rejectRequest (caller : CallerIdentity) (body : RejectLeaveBody) :
    Except HTTPException Decision := do
  let _ ← requireManager caller
  let payload ← RejectLeaveRequest.parse body
  return .reject payload

/-- The request that the handler goes on with, once it has been loaded. -/
def requestLoaded (d : Decision) (caller : CallerIdentity)
    (reply : Reply (Response (List LeaveRequestResponse))) :
    Except HTTPException LeaveRequestResponse := do
  let leaveRequest ← loadTeamRequest caller.userId reply
  if leaveRequest.status ≠ .PENDING then
    throw (conflict (s!"Only a PENDING request can be {d.participle} " ++
      s!"(current status: {leaveRequest.status.value})"))
  else return leaveRequest

/-- The answer of the deduction, read only for errors. -/
def balanceDeducted (reply : Reply (Response DeductResponse)) :
    Except HTTPException Unit := do
  let deductResponse ← call reply
  let _ ← propagate deductResponse
  return ()

/-- The answer of the status update, shown to the manager. -/
def statusUpdated (chart : OrgChart)
    (reply : Reply (Response LeaveRequestResponse)) :
    Except HTTPException ManagerRequestView := do
  let updateResponse ← call reply
  let updated ← propagate updateResponse
  return .fromPayload chart updated

/-- The event that the handler publishes when it succeeds. -/
def Decision.event (d : Decision) (leaveRequest : LeaveRequestResponse)
    (requestId : String) : Event :=
  match d with
  | .approve => .leaveApproved leaveRequest.employeeId requestId
  | .reject payload =>
      .leaveRejected leaveRequest.employeeId requestId payload.rejectionReason

/-- The body that `set_request_status` sends for the handler; a reason that is
`None` is left out. -/
def Decision.body (d : Decision) (caller : CallerIdentity) : StatusUpdateBody :=
  { newStatus := d.newStatus
    managerId := caller.userId
    rejectionReason := d.rejectionReason }

/-- What an approval sends to deduct the days. -/
def deductCall (leaveRequest : LeaveRequestResponse) : Call :=
  .deductBalance leaveRequest.employeeId leaveRequest.leaveType
    leaveRequest.numberOfDays

/-! ## §5  What the segments check -/

theorem requireManager_eq_ok_iff {caller c : CallerIdentity} :
    requireManager caller = .ok c ↔ caller.role = .MANAGER ∧ c = caller := by
  unfold requireManager
  split
  · rename_i h
    simp only [reduceCtorEq, false_iff]
    exact fun h' => h h'.1
  · rename_i h
    rw [not_not] at h
    simp only [Except.ok.injEq]
    exact ⟨fun h' => ⟨h, h'.symm⟩, fun h' => h'.2.symm⟩

theorem approveRequest_eq_ok_iff {caller : CallerIdentity} {d : Decision} :
    approveRequest caller = .ok d ↔ caller.role = .MANAGER ∧ d = .approve := by
  simp only [approveRequest, bind, Except.bind, pure, Except.pure]
  cases h : requireManager caller with
  | error e =>
      simp only [reduceCtorEq, false_iff]
      rintro ⟨hrole, -⟩
      rw [requireManager_eq_ok_iff.mpr ⟨hrole, rfl⟩] at h
      cases h
  | ok c =>
      have hrole := (requireManager_eq_ok_iff.mp h).1
      simp only [Except.ok.injEq]
      exact ⟨fun h' => ⟨hrole, h'.symm⟩, fun h' => h'.2.symm⟩

/-- A rejection that gets past its checks has a manager for caller and a
decision that is a rejection. -/
theorem rejectRequest_eq_ok {caller : CallerIdentity} {body : RejectLeaveBody}
    {d : Decision} (h : rejectRequest caller body = .ok d) :
    caller.role = .MANAGER ∧ ∃ payload, d = .reject payload := by
  simp only [rejectRequest, bind, Except.bind, pure, Except.pure] at h
  split at h
  · cases h
  · rename_i hc
    have hrole := (requireManager_eq_ok_iff.mp hc).1
    split at h
    · cases h
    · cases h
      exact ⟨hrole, _, rfl⟩

/-- A loaded request is the first one answered, routed to the manager. -/
theorem loadTeamRequest_eq_ok_iff {managerId : String}
    {reply : Reply (Response (List LeaveRequestResponse))}
    {r : LeaveRequestResponse} :
    loadTeamRequest managerId reply = .ok r ↔
      (∃ rest, reply = .ok (.ok (r :: rest))) ∧
      r.reportingManagerId = managerId := by
  simp only [loadTeamRequest, bind, Except.bind, pure, Except.pure]
  rcases reply with e | (e | rs)
  · cases e <;> simp [call]
  · simp [call, propagate]
  · simp only [call, propagate]
    rcases rs with _ | ⟨r', rest⟩
    · simp [throw, throwThe, MonadExceptOf.throw]
    · simp only
      by_cases hm : r'.reportingManagerId = managerId
      · rw [if_neg (not_not.mpr hm)]
        simp only [Except.ok.injEq, List.cons.injEq, exists_and_left,
          exists_eq', and_true]
        constructor
        · rintro rfl
          exact ⟨rfl, hm⟩
        · exact fun h => h.1
      · rw [if_pos hm]
        simp only [throw, throwThe, MonadExceptOf.throw, reduceCtorEq,
          Except.ok.injEq, List.cons.injEq, exists_and_left, exists_eq',
          and_true, false_iff]
        rintro ⟨rfl, h⟩
        exact hm h

/-- A handler goes on exactly with the PENDING request it was answered, if
that is routed to its caller. -/
theorem requestLoaded_eq_ok_iff {d : Decision} {caller : CallerIdentity}
    {reply : Reply (Response (List LeaveRequestResponse))}
    {r : LeaveRequestResponse} :
    requestLoaded d caller reply = .ok r ↔
      (∃ rest, reply = .ok (.ok (r :: rest))) ∧
      r.reportingManagerId = caller.userId ∧ r.status = .PENDING := by
  rw [← and_assoc, ← loadTeamRequest_eq_ok_iff]
  simp only [requestLoaded, bind, Except.bind, pure, Except.pure]
  cases loadTeamRequest caller.userId reply with
  | error e => simp
  | ok r' =>
      simp only [Except.ok.injEq]
      by_cases hp : r'.status = .PENDING
      · rw [if_neg (not_not.mpr hp)]
        simp only [Except.ok.injEq]
        constructor
        · rintro rfl
          exact ⟨rfl, hp⟩
        · exact fun h => h.1
      · rw [if_pos hp]
        simp only [throw, throwThe, MonadExceptOf.throw, reduceCtorEq,
          false_iff]
        rintro ⟨rfl, hp'⟩
        exact hp hp'

theorem balanceDeducted_eq_ok_iff {reply : Reply (Response DeductResponse)} :
    balanceDeducted reply = .ok () ↔ ∃ b, reply = .ok (.ok b) := by
  simp only [balanceDeducted, bind, Except.bind, pure, Except.pure]
  rcases reply with e | (e | b)
  · cases e <;> simp [call]
  · simp [call, propagate]
  · simp [call, propagate]

theorem statusUpdated_eq_ok_iff {chart : OrgChart}
    {reply : Reply (Response LeaveRequestResponse)} {v : ManagerRequestView} :
    statusUpdated chart reply = .ok v ↔
      ∃ r, reply = .ok (.ok r) ∧ v = .fromPayload chart r := by
  simp only [statusUpdated, bind, Except.bind, pure, Except.pure]
  rcases reply with e | (e | r)
  · cases e <;> simp [call]
  · simp [call, propagate]
  · simp [call, propagate, eq_comm]

end Elms
