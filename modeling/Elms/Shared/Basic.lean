import Elms.Lib.Dict
import Elms.Lib.PyStr

/-!
# What every service shares

The value sets of `shared/enums.py`, the HTTP errors the handlers raise, the
org chart of `shared/seed_config.py` and the caller identity of
`shared/auth_context.py`.
-/

namespace Elms

/-! ## §1  Enumerations (`shared/enums.py`) -/

inductive Role where
  | EMPLOYEE
  | MANAGER
deriving DecidableEq, Repr

def Role.value : Role → String
  | .EMPLOYEE => "EMPLOYEE"
  | .MANAGER => "MANAGER"

/-- `Role(x)`; `none` is the `ValueError`. -/
def Role.ofValue? (x : String) : Option Role :=
  [Role.EMPLOYEE, Role.MANAGER].find? fun r => r.value = x

theorem Role.ofValue?_eq_some_iff {x : String} {r : Role} :
    Role.ofValue? x = some r ↔ r.value = x := by
  constructor
  · intro h
    simpa using List.find?_some h
  · rintro rfl
    cases r <;> decide

inductive LeaveType where
  | CASUAL
  | SICK
  | PRIVILEGE
deriving DecidableEq, Repr

def LeaveType.value : LeaveType → String
  | .CASUAL => "CASUAL"
  | .SICK => "SICK"
  | .PRIVILEGE => "PRIVILEGE"

inductive LeaveStatus where
  | PENDING
  | APPROVED
  | REJECTED
  | CANCELLED
deriving DecidableEq, Repr

def LeaveStatus.value : LeaveStatus → String
  | .PENDING => "PENDING"
  | .APPROVED => "APPROVED"
  | .REJECTED => "REJECTED"
  | .CANCELLED => "CANCELLED"

/-- `LeaveStatus(x)`; `none` is the `ValueError`. -/
def LeaveStatus.ofValue? (x : String) : Option LeaveStatus :=
  [LeaveStatus.PENDING, .APPROVED, .REJECTED, .CANCELLED].find?
    fun s => s.value = x

inductive NotificationEventType where
  | LEAVE_APPLIED
  | LEAVE_APPROVED
  | LEAVE_REJECTED
  | SYSTEM_ERROR
deriving DecidableEq, Repr

def NotificationEventType.value : NotificationEventType → String
  | .LEAVE_APPLIED => "LEAVE_APPLIED"
  | .LEAVE_APPROVED => "LEAVE_APPROVED"
  | .LEAVE_REJECTED => "LEAVE_REJECTED"
  | .SYSTEM_ERROR => "SYSTEM_ERROR"

/-! ## §2  Errors -/

/-- What an error response carries under `detail`: a text written by the
handler, or the field paths of a schema violation. -/
inductive Detail where
  | text (s : String)
  | fields (locs : List (List String))
deriving DecidableEq, Repr

/-- `fastapi.HTTPException`. The status of an error is never below 400, which
is what `_propagate` tells errors from answers by. -/
structure HTTPException where
  statusCode : Nat
  detail : Detail
  isError : 400 ≤ statusCode := by decide
deriving DecidableEq, Repr

/-! `HTTPException(status_code=…, detail=msg)`, for each status that the
handlers raise with a text of their own. -/

def badRequest (msg : String) : HTTPException :=
  { statusCode := 400, detail := .text msg }

def unauthorized (msg : String) : HTTPException :=
  { statusCode := 401, detail := .text msg }

def forbidden (msg : String) : HTTPException :=
  { statusCode := 403, detail := .text msg }

def notFound (msg : String) : HTTPException :=
  { statusCode := 404, detail := .text msg }

def conflict (msg : String) : HTTPException :=
  { statusCode := 409, detail := .text msg }

def serviceUnavailable (msg : String) : HTTPException :=
  { statusCode := 503, detail := .text msg }

/-- A schema violation, reported with the paths of the offending fields. -/
def unprocessable (locs : List (List String)) : HTTPException :=
  { statusCode := 422, detail := .fields locs }

/-- `unhandled_exception_handler`: any other exception becomes a plain 500. -/
def internalServerError : HTTPException :=
  { statusCode := 500, detail := .text "Internal server error" }

/-- An answer of another service: its JSON body, or the error it sent. -/
abbrev Response (α : Type) := Except HTTPException α

/-- Why awaiting a downstream call raised: `pybreaker.CircuitBreakerError` or
an `httpx.HTTPError`. -/
inductive CallError where
  | circuitBreakerError
  | httpxError
deriving DecidableEq, Repr

/-- What awaiting a downstream call came to. -/
abbrev Reply (α : Type) := Except CallError α

/-- A notification handed to `publish_event`, with its payload. -/
inductive Event where
  | leaveApplied (employeeId managerId leaveRequestId : String)
  | leaveApproved (employeeId leaveRequestId : String)
  | leaveRejected (employeeId leaveRequestId reason : String)
deriving DecidableEq, Repr

/-! ## §3  The org chart (`shared/seed_config.py`) -/

structure SeedUser where
  userId : String
  username : String
  role : Role
  managerId : Option String
deriving DecidableEq, Repr

/-- The platform's accounts, as a list of seed users. -/
abbrev OrgChart := List SeedUser

def MANAGER1_ID : String := "00000000-0000-0000-0000-000000000001"
def EMP1_ID : String := "00000000-0000-0000-0000-000000000002"
def EMP2_ID : String := "00000000-0000-0000-0000-000000000003"

/-- The accounts the platform ships with. -/
def SEED_USERS : OrgChart :=
  [⟨MANAGER1_ID, "manager1", .MANAGER, none⟩,
   ⟨EMP1_ID, "emp1", .EMPLOYEE, some MANAGER1_ID⟩,
   ⟨EMP2_ID, "emp2", .EMPLOYEE, some MANAGER1_ID⟩]

namespace OrgChart

/-- `_USERS_BY_ID`, a later entry for the same id replacing an earlier one. -/
def usersById (chart : OrgChart) : Dict String SeedUser :=
  chart.foldl (fun d u => d.set u.userId u) Dict.empty

def getUser (chart : OrgChart) (userId : String) : Option SeedUser :=
  chart.usersById.get? userId

def getManagerId (chart : OrgChart) (employeeId : String) : Option String :=
  match chart.usersById.get? employeeId with
  | some user => user.managerId
  | none => none

def isTeamMember (chart : OrgChart) (managerId employeeId : String) : Bool :=
  match chart.usersById.get? employeeId with
  | some user => user.managerId = some managerId
  | none => false

end OrgChart

/-! ## §4  The caller (`shared/auth_context.py`) -/

/-- The authenticated caller. `get_caller` builds it only from a nonempty
header, so the id is never empty. -/
structure CallerIdentity where
  userId : String
  role : Role
  nonempty : userId ≠ "" := by decide
deriving DecidableEq, Repr

/-- The identities of the seeded manager and of the two employees. -/
def manager1 : CallerIdentity := { userId := MANAGER1_ID, role := .MANAGER }
def emp1 : CallerIdentity := { userId := EMP1_ID, role := .EMPLOYEE }
def emp2 : CallerIdentity := { userId := EMP2_ID, role := .EMPLOYEE }

/-- `get_caller`, on the two header values a request carries. -/
def getCaller (xUserId xUserRole : Option String) :
    Except HTTPException CallerIdentity :=
  match xUserId, xUserRole with
  | some userId, some userRole =>
      if h : userId = "" ∨ userRole = "" then
        .error (unauthorized "Missing authenticated user context")
      else
        match Role.ofValue? userRole with
        | some role => .ok ⟨userId, role, fun he => h (Or.inl he)⟩
        | none =>
            .error (unauthorized "Invalid user role in request context")
  | _, _ =>
      .error (unauthorized "Missing authenticated user context")

/-- `require_manager` -/
def requireManager (caller : CallerIdentity) :
    Except HTTPException CallerIdentity :=
  if caller.role ≠ .MANAGER then
    .error (forbidden "This action requires a manager role")
  else .ok caller

/-- The identity is built exactly from a nonempty id and a known role. -/
theorem getCaller_eq_ok_iff {xUserId xUserRole : Option String}
    {c : CallerIdentity} :
    getCaller xUserId xUserRole = .ok c ↔
      xUserId = some c.userId ∧ xUserRole = some c.role.value := by
  have hrole : c.role.value ≠ "" := by cases c.role <;> decide
  rcases xUserId with _ | userId
  · simp [getCaller]
  rcases xUserRole with _ | userRole
  · simp [getCaller]
  simp only [getCaller, Option.some.injEq]
  split
  · rename_i h
    constructor
    · intro hc
      cases hc
    · rintro ⟨rfl, rfl⟩
      rcases h with h | h
      · exact absurd h c.nonempty
      · exact absurd h hrole
  · cases hr : Role.ofValue? userRole with
    | none =>
        constructor
        · intro hc
          cases hc
        · rintro ⟨-, rfl⟩
          rw [Role.ofValue?_eq_some_iff.mpr rfl] at hr
          cases hr
    | some role =>
        have hv := Role.ofValue?_eq_some_iff.mp hr
        constructor
        · intro hc
          cases hc
          exact ⟨rfl, hv.symm⟩
        · rintro ⟨rfl, rfl⟩
          have he : role = c.role := by
            have := Role.ofValue?_eq_some_iff.mpr (rfl : c.role.value = _)
            rw [this] at hr
            exact (Option.some.inj hr).symm
          subst he
          rfl

end Elms
