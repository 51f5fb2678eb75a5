import Elms.Manager.Main
import Elms.Requests.Lifecycle

/-!
# The platform as one transition system

The Leave Request Service, the Leave Balance Service and any number of
`approve_request` and `reject_request` handlers of the Manager Service. A
handler has at most one call on the wire (`sent`); the call takes effect when
it is delivered, and its answer reaches the handler if that still waits for
it. A call whose sender gave up stays on the wire: it may be delivered later,
or never. The `/internal` routes have no other caller.

`ledger` is an account of the proof, not data of the program: the deductions
that the Balance Service has accepted, each under the request it was made for.
-/

namespace Elms

open Calendar Transition

/-! ## §1  Handlers -/

/-- Where a decision is: awaiting one of its calls (with the answer once it is
there), ended, or given up. -/
inductive ManagerPoint where
  | loading (reply : Option (Reply (Response (List LeaveRequestResponse))))
  | deducting (leaveRequest : LeaveRequestResponse)
      (reply : Option (Reply (Response DeductResponse)))
  | updating (leaveRequest : LeaveRequestResponse)
      (reply : Option (Reply (Response LeaveRequestResponse)))
  | done (result : Response ManagerRequestView)
  | abandoned
deriving DecidableEq

structure ManagerHandler where
  decision : Decision
  requestId : String
  caller : CallerIdentity
  point : ManagerPoint
  sent : Option Call
deriving DecidableEq

/-- What happens to a handler without another service: it goes on with its
answer, the answer is lost, an open breaker raises, or it is abandoned. -/
inductive HandlerMove where
  | resume
  | loseAnswer
  | block
  | breakerError
  | abandon
deriving DecidableEq, Repr

namespace ManagerHandler

/-- The handler once its guards have passed: its first call is sent. -/
def start (d : Decision) (requestId : String) (caller : CallerIdentity) :
    ManagerHandler :=
  { decision := d
    requestId := requestId
    caller := caller
    point := .loading none
    sent := some (.getRequest requestId) }

/-- The handler goes on from its await with the answer that is there. -/
def resume (chart : OrgChart) (h : ManagerHandler) :
    Option (ManagerHandler × List Event) :=
  match h.point with
  | .loading (some reply) =>
      match requestLoaded h.decision h.caller reply with
      | .error e => some ({ h with point := .done (.error e) }, [])
      | .ok leaveRequest =>
          match h.decision with
          | .approve =>
              some ({ h with point := .deducting leaveRequest none
                             sent := some (deductCall leaveRequest) }, [])
          | .reject _ =>
              some ({ h with point := .updating leaveRequest none
                             sent := some (.setRequestStatus h.requestId
                               (h.decision.body h.caller)) }, [])
  | .deducting leaveRequest (some reply) =>
      match balanceDeducted reply with
      | .error e => some ({ h with point := .done (.error e) }, [])
      | .ok () =>
          some ({ h with point := .updating leaveRequest none
                         sent := some (.setRequestStatus h.requestId
                           (h.decision.body h.caller)) }, [])
  | .updating leaveRequest (some reply) =>
      match statusUpdated chart reply with
      | .error e => some ({ h with point := .done (.error e) }, [])
      | .ok view =>
          some ({ h with point := .done (.ok view) },
            [h.decision.event leaveRequest h.requestId])
  | _ => none

/-- What awaiting the call raises, in place of any answer. -/
def fail (e : CallError) : ManagerPoint → Option ManagerPoint
  | .loading _ => some (.loading (some (.error e)))
  | .deducting leaveRequest _ => some (.deducting leaveRequest (some (.error e)))
  | .updating leaveRequest _ => some (.updating leaveRequest (some (.error e)))
  | _ => none

def move (chart : OrgChart) (h : ManagerHandler) :
    HandlerMove → Option (ManagerHandler × List Event)
  | .resume => h.resume chart
  | .loseAnswer =>
      (fail .httpxError h.point).map fun p => ({ h with point := p }, [])
  | .block =>
      -- the breaker is open: the wrapped call is not sent at all
      match h.point with
      | .deducting leaveRequest none =>
          some ({ h with point := .deducting leaveRequest
                           (some (.error .circuitBreakerError))
                         sent := none }, [])
      | .updating leaveRequest none =>
          some ({ h with point := .updating leaveRequest
                           (some (.error .circuitBreakerError))
                         sent := none }, [])
      | _ => none
  | .breakerError =>
      -- the answer came, but recording it on the breaker raised
      match h.point with
      | .deducting leaveRequest (some _) =>
          some ({ h with point := .deducting leaveRequest
                           (some (.error .circuitBreakerError)) }, [])
      | .updating leaveRequest (some _) =>
          some ({ h with point := .updating leaveRequest
                           (some (.error .circuitBreakerError)) }, [])
      | _ => none
  | .abandon =>
      match h.point with
      | .loading _ => some ({ h with point := .abandoned }, [])
      | .deducting _ _ => some ({ h with point := .abandoned }, [])
      | .updating _ _ => some ({ h with point := .abandoned }, [])
      | _ => none

/-- An answer arrives; a handler that no longer waits for it ignores it. -/
def receiveLoad (h : ManagerHandler)
    (response : Response (List LeaveRequestResponse)) : ManagerHandler :=
  match h.point with
  | .loading none =>
      { h with point := .loading (some (.ok response)), sent := none }
  | _ => { h with sent := none }

def receiveDeduct (h : ManagerHandler) (response : Response DeductResponse) :
    ManagerHandler :=
  match h.point with
  | .deducting leaveRequest none =>
      { h with point := .deducting leaveRequest (some (.ok response))
               sent := none }
  | _ => { h with sent := none }

def receiveUpdate (h : ManagerHandler)
    (response : Response LeaveRequestResponse) : ManagerHandler :=
  match h.point with
  | .updating leaveRequest none =>
      { h with point := .updating leaveRequest (some (.ok response))
               sent := none }
  | _ => { h with sent := none }

end ManagerHandler

/-! ## §2  Worlds and steps -/

/-- One accepted deduction, and the request it was made for. -/
structure Deduction where
  requestId : String
  employeeId : String
  leaveType : LeaveType
  days : Int
deriving DecidableEq, Repr

structure World where
  requests : RequestService
  balances : BalanceStore
  manager : List ManagerHandler := []
  ledger : List Deduction := []
  published : List Event := []
deriving DecidableEq

/-- The operations of the gateway that change nothing. -/
inductive ReadOperation where
  | login (username : String)
  | myBalances (caller : CallerIdentity)
  | employeeBalances (caller : CallerIdentity) (employeeId : String)
  | leaveHistory (caller : CallerIdentity)
  | managerRequests (caller : CallerIdentity)
deriving DecidableEq, Repr

inductive WorldLabel where
  | read (operation : ReadOperation)
  | applyLeave (caller : CallerIdentity) (body : ApplyLeaveBody) (today : Date)
  | fetchRemaining (i : Nat)
  | failLookup (i : Nat) (e : CallError)
  | resumeApply (i : Nat) (uuid : String) (createdAt updatedAt : Timestamp)
  | abandonApply (i : Nat)
  | cancelLeave (caller : CallerIdentity) (leaveId : String) (now : Timestamp)
  | approveRequest (caller : CallerIdentity) (requestId : String)
  | rejectRequest (caller : CallerIdentity) (requestId : String)
      (body : RejectLeaveBody)
  | deliver (j : Nat) (now : Timestamp)
  | handler (j : Nat) (m : HandlerMove)

namespace World

/-- The label of the Leave Request Service that a step takes of itself. The
balance lookup reads the Balance Service as it is at that moment. -/
def requestLabel (chart : OrgChart) (w : World) :
    WorldLabel → Option RequestLabel
  | .applyLeave caller body today => some (.applyLeave caller body today)
  | .fetchRemaining i =>
      match w.requests.applies[i]? with
      | some ⟨caller, .awaitingBalance payload _ none⟩ =>
          some (.answerBalance i (Elms.fetchRemaining w.balances chart
            caller.userId payload.leaveType))
      | _ => none
  | .failLookup i e => some (.answerBalance i (.error e))
  | .resumeApply i uuid createdAt updatedAt =>
      some (.resumeApply i uuid createdAt updatedAt)
  | .abandonApply i => some (.abandonApply i)
  | .cancelLeave caller leaveId now => some (.cancelLeave caller leaveId now)
  | _ => none

/-- A decision starts, if its guards pass. -/
def begin (w : World) (requestId : String) (caller : CallerIdentity) :
    Except HTTPException Decision → World
  | .error _ => w
  | .ok d => { w with manager := w.manager ++ [.start d requestId caller] }

/-- The call of handler `j` takes effect, and is answered. -/
def serve (w : World) (j : Nat) (h : ManagerHandler) (now : Timestamp) :
    Call → World
  | .getRequest requestId =>
      { w with manager := w.manager.set j (h.receiveLoad
          (listRequests w.requests.store { requestId := some requestId })) }
  | .deductBalance employeeId leaveType days =>
      match w.balances.deductBalance employeeId leaveType days with
      | (.error e, balances) =>
          { w with balances := balances
                   manager := w.manager.set j (h.receiveDeduct (.error e)) }
      | (.ok r, balances) =>
          { w with balances := balances
                   manager := w.manager.set j (h.receiveDeduct (.ok r))
                   ledger := w.ledger ++
                     [⟨h.requestId, employeeId, leaveType, days⟩] }
  | .setRequestStatus requestId body =>
      match updateRequestStatus w.requests.store requestId body now with
      | (response, store) =>
          { w with requests := { w.requests with store := store }
                   manager := w.manager.set j (h.receiveUpdate response) }

def step (chart : OrgChart) (w : World) (l : WorldLabel) : Option World :=
  match l with
  | .read _ => some w
  | .approveRequest caller requestId =>
      some (w.begin requestId caller (Elms.approveRequest caller))
  | .rejectRequest caller requestId body =>
      some (w.begin requestId caller (Elms.rejectRequest caller body))
  | .deliver j now =>
      match w.manager[j]? with
      | none => none
      | some h => h.sent.map (w.serve j h now)
  | .handler j m =>
      match w.manager[j]? with
      | none => none
      | some h => (h.move chart m).map fun (h', events) =>
          { w with manager := w.manager.set j h'
                   published := w.published ++ events }
  | l =>
      match w.requestLabel chart l with
      | none => none
      | some rl => (RequestService.step chart w.requests rl).map fun s =>
          { w with requests := s }

variable {chart : OrgChart} {w w' : World} {l : WorldLabel}

theorem step_deliver_iff {j : Nat} {now : Timestamp} :
    step chart w (.deliver j now) = some w' ↔
      ∃ h c, w.manager[j]? = some h ∧ h.sent = some c ∧
        w' = w.serve j h now c := by
  simp only [step]
  constructor
  · intro hl
    split at hl
    · cases hl
    · rename_i h hj
      obtain ⟨c, hc, he⟩ := Option.map_eq_some_iff.mp hl
      exact ⟨h, c, hj, hc, he.symm⟩
  · rintro ⟨h, c, hj, hc, rfl⟩
    simp only [hj, hc, Option.map_some]

theorem step_handler_iff {j : Nat} {m : HandlerMove} :
    step chart w (.handler j m) = some w' ↔
      ∃ h h' events, w.manager[j]? = some h ∧
        h.move chart m = some (h', events) ∧
        w' = { w with manager := w.manager.set j h'
                      published := w.published ++ events } := by
  simp only [step]
  constructor
  · intro hl
    split at hl
    · cases hl
    · rename_i h hj
      obtain ⟨⟨h', events⟩, hm, he⟩ := Option.map_eq_some_iff.mp hl
      exact ⟨h, h', events, hj, hm, he.symm⟩
  · rintro ⟨h, h', events, hj, hm, rfl⟩
    simp only [hj, hm, Option.map_some]

/-- A step that the Leave Request Service takes of itself. -/
theorem step_of_requestLabel {rl : RequestLabel}
    (h : w.requestLabel chart l = some rl) :
    step chart w l = (RequestService.step chart w.requests rl).map
      fun s => { w with requests := s } := by
  cases l with
  | fetchRemaining i => simp only [step, h]
  | read op => cases h
  | approveRequest caller id => cases h
  | rejectRequest caller id body => cases h
  | deliver j now => cases h
  | handler j m => cases h
  | _ =>
      cases h
      rfl

/-- **Step inversion.** A step is a read, a step of the Leave Request Service
of itself, the start of a decision by a manager, a move of one handler, or the
delivery of one handler's call. -/
theorem step_cases (hl : step chart w l = some w') :
    w' = w ∨
    (∃ rl s, w.requestLabel chart l = some rl ∧
      RequestService.step chart w.requests rl = some s ∧
      w' = { w with requests := s }) ∨
    (∃ d requestId caller, caller.role = .MANAGER ∧
      w' = { w with manager := w.manager ++ [.start d requestId caller] }) ∨
    (∃ j m h h' events, l = .handler j m ∧ w.manager[j]? = some h ∧
      h.move chart m = some (h', events) ∧
      w' = { w with manager := w.manager.set j h'
                    published := w.published ++ events }) ∨
    (∃ j now h c, l = .deliver j now ∧ w.manager[j]? = some h ∧
      h.sent = some c ∧ w' = w.serve j h now c) := by
  have own : ∀ {rl}, w.requestLabel chart l = some rl →
      (RequestService.step chart w.requests rl).map
        (fun s => { w with requests := s }) = some w' →
      ∃ rl s, w.requestLabel chart l = some rl ∧
        RequestService.step chart w.requests rl = some s ∧
        w' = { w with requests := s } := by
    intro rl hrl h
    obtain ⟨s, hs, he⟩ := Option.map_eq_some_iff.mp h
    exact ⟨rl, s, hrl, hs, he.symm⟩
  cases l with
  | read op =>
      cases hl
      exact Or.inl rfl
  | approveRequest caller requestId =>
      simp only [step, Option.some.injEq] at hl
      subst hl
      cases h : Elms.approveRequest caller with
      | error e => exact Or.inl rfl
      | ok d =>
          exact Or.inr (Or.inr (Or.inl ⟨d, requestId, caller,
            (approveRequest_eq_ok_iff.mp h).1, rfl⟩))
  | rejectRequest caller requestId body =>
      simp only [step, Option.some.injEq] at hl
      subst hl
      cases h : Elms.rejectRequest caller body with
      | error e => exact Or.inl rfl
      | ok d =>
          exact Or.inr (Or.inr (Or.inl ⟨d, requestId, caller,
            (rejectRequest_eq_ok h).1, rfl⟩))
  | deliver j now =>
      obtain ⟨h, c, hj, hc, he⟩ := step_deliver_iff.mp hl
      exact Or.inr (Or.inr (Or.inr (Or.inr ⟨j, now, h, c, rfl, hj, hc, he⟩)))
  | handler j m =>
      obtain ⟨h, h', events, hj, hm, he⟩ := step_handler_iff.mp hl
      exact Or.inr (Or.inr (Or.inr (Or.inl ⟨j, m, h, h', events, rfl, hj, hm,
        he⟩)))
  | fetchRemaining i =>
      simp only [step] at hl
      split at hl
      · cases hl
      · rename_i rl hrl
        exact Or.inr (Or.inl (own hrl hl))
  | applyLeave caller body today =>
      exact Or.inr (Or.inl (own rfl hl))
  | failLookup i e => exact Or.inr (Or.inl (own rfl hl))
  | resumeApply i uuid c u => exact Or.inr (Or.inl (own rfl hl))
  | abandonApply i => exact Or.inr (Or.inl (own rfl hl))
  | cancelLeave caller id now => exact Or.inr (Or.inl (own rfl hl))

/-- The Leave Request Service sees a world step as one of its own, or none. -/
theorem requests_step (hl : step chart w l = some w') :
    Reaches (RequestService.step chart) w.requests w'.requests := by
  rcases step_cases hl with rfl | ⟨rl, s, -, hs, rfl⟩ | ⟨d, id, caller, -, rfl⟩ |
    ⟨j, m, h, h', events, -, -, -, rfl⟩ | ⟨j, now, h, c, -, -, -, rfl⟩
  · exact Reaches.refl _
  · exact Reaches.single hs
  · exact Reaches.refl _
  · exact Reaches.refl _
  · cases c with
    | getRequest id => exact Reaches.refl _
    | deductBalance e t d =>
        simp only [serve]
        split <;> exact Reaches.refl _
    | setRequestStatus id body =>
        exact Reaches.single (l := .updateStatus id body now) rfl

/-- **Simulation**: projected to the Leave Request Service, a run of the
platform is a run of that service. -/
theorem requests_reaches (h : Reaches (step chart) w w') :
    Reaches (RequestService.step chart) w.requests w'.requests :=
  reaches_of_simulation (π := World.requests)
    (fun _ _ _ hl => requests_step hl) h

/-! ## §3  What the delivery of a call does -/

/-- A deduction is refused and answered with the error, or accepted. -/
theorem serve_deductBalance (w : World) (j : Nat) (h : ManagerHandler)
    (now : Timestamp) (e : String) (t : LeaveType) (d : Int) :
    (¬ w.balances.Deductible e t d ∧ ∃ err,
      w.serve j h now (.deductBalance e t d) =
        { w with manager := w.manager.set j (h.receiveDeduct (.error err)) }) ∨
    (w.balances.Deductible e t d ∧ ∃ r,
      w.serve j h now (.deductBalance e t d) =
        { w with balances := (w.balances.deductBalance e t d).2
                 manager := w.manager.set j (h.receiveDeduct (.ok r))
                 ledger := w.ledger ++ [⟨h.requestId, e, t, d⟩] }) := by
  rcases BalanceStore.deductBalance_cases w.balances e t d with
    ⟨hn, err, he⟩ | ⟨hd, b, r, -, he⟩
  · refine Or.inl ⟨hn, err, ?_⟩
    simp only [serve, he]
  · refine Or.inr ⟨hd, r, ?_⟩
    simp only [serve, he]

/-- A status update is refused and answered with the error, or accepted. -/
theorem serve_setRequestStatus (w : World) (j : Nat) (h : ManagerHandler)
    (now : Timestamp) (id : String) (body : StatusUpdateBody) :
    ((∀ r, ¬ UpdateAccepted w.requests.store id body r) ∧ ∃ err,
      w.serve j h now (.setRequestStatus id body) =
        { w with manager := w.manager.set j (h.receiveUpdate (.error err)) }) ∨
    (∃ r, UpdateAccepted w.requests.store id body r ∧
      w.serve j h now (.setRequestStatus id body) =
        { w with
          requests := { w.requests with
            store := w.requests.store.setStatus id r body.newStatus
              body.rejectionReason now }
          manager := w.manager.set j (h.receiveUpdate (.ok
            (r.setStatus body.newStatus body.rejectionReason now))) }) := by
  rcases updateRequestStatus_cases w.requests.store id body now with
    ⟨hn, err, he⟩ | ⟨r, hr, he⟩
  · refine Or.inl ⟨hn, err, ?_⟩
    simp only [serve, he]
  · refine Or.inr ⟨r, hr, ?_⟩
    simp only [serve, he]

/-- Of itself the Leave Request Service decides nothing. -/
theorem requestLabel_ne_updateStatus {rl : RequestLabel}
    (h : w.requestLabel chart l = some rl) (id : String)
    (body : StatusUpdateBody) (now : Timestamp) :
    rl ≠ .updateStatus id body now := by
  rintro rfl
  cases l with
  | fetchRemaining i =>
      simp only [requestLabel] at h
      split at h <;> cases h
  | _ => cases h

/-- It cancels only when a `cancel_leave` comes in. -/
theorem requestLabel_eq_cancelLeave {caller : CallerIdentity} {id : String}
    {now : Timestamp}
    (h : w.requestLabel chart l = some (.cancelLeave caller id now)) :
    l = .cancelLeave caller id now := by
  cases l with
  | fetchRemaining i =>
      simp only [requestLabel] at h
      split at h <;> cases h
  | cancelLeave caller' id' now' =>
      cases h
      rfl
  | _ => cases h

end World

end Elms
