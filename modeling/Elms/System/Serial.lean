import Elms.Balance.Calls
import Elms.System.World

/-!
# One decision at a time

`approve_request` and `reject_request` run alone, every call answered by the
service it goes to. The guards of a decision are those of three services, in
the order Manager, Request, Balance, Request; alone, the last ones can no
longer refuse what the first ones let through, and every refusal comes before
any effect (`serial_decisions`).
-/

namespace Elms

open Calendar Transition

/-! ## §1  The handlers alone -/

/-- What the Leave Request Service and the Leave Balance Service hold. -/
structure Stores where
  requests : RequestStore
  balances : BalanceStore
deriving DecidableEq

namespace Stores

/-- The deduction of an approval; a rejection makes none. -/
def deduct (p : Stores) (d : Decision) (leaveRequest : LeaveRequestResponse) :
    Except HTTPException Unit × BalanceStore :=
  match d with
  | .approve =>
      match p.balances.deductBalance leaveRequest.employeeId
        leaveRequest.leaveType leaveRequest.numberOfDays with
      | (response, balances) => (balanceDeducted (.ok response), balances)
  | .reject _ => (.ok (), p.balances)

/-- The segments of a decision with nothing in between, from its guards on. -/
def decide (chart : OrgChart) (p : Stores) (caller : CallerIdentity)
    (requestId : String) (now : Timestamp) :
    Except HTTPException Decision → Response ManagerRequestView × Stores
  | .error e => (.error e, p)
  | .ok d =>
      match requestLoaded d caller
        (.ok (listRequests p.requests { requestId := some requestId })) with
      | .error e => (.error e, p)
      | .ok leaveRequest =>
          match p.deduct d leaveRequest with
          | (.error e, balances) => (.error e, { p with balances := balances })
          | (.ok (), balances) =>
              match updateRequestStatus p.requests requestId (d.body caller)
                now with
              | (response, requests) =>
                  (statusUpdated chart (.ok response), ⟨requests, balances⟩)

/-- `approve_request`, alone. -/
def approveRequest (chart : OrgChart) (p : Stores) (caller : CallerIdentity)
    (requestId : String) (now : Timestamp) :
    Response ManagerRequestView × Stores :=
  p.decide chart caller requestId now (Elms.approveRequest caller)

/-- `reject_request`, alone. -/
def rejectRequest (chart : OrgChart) (p : Stores) (caller : CallerIdentity)
    (requestId : String) (body : RejectLeaveBody) (now : Timestamp) :
    Response ManagerRequestView × Stores :=
  p.decide chart caller requestId now (Elms.rejectRequest caller body)

end Stores

namespace World

variable {chart : OrgChart}

def stores (w : World) : Stores := ⟨w.requests.store, w.balances⟩

/-- What happens to a decision that came in alone, once it has started: its
calls are delivered and it goes on with the answers, as far as it gets. -/
def decisionSegments (w : World) (d : Decision) (caller : CallerIdentity)
    (requestId : String) (now : Timestamp) : List WorldLabel :=
  let j := w.manager.length
  let load : List WorldLabel := [.deliver j now, .handler j .resume]
  match requestLoaded d caller
    (.ok (listRequests w.requests.store { requestId := some requestId })) with
  | .error _ => load
  | .ok leaveRequest =>
      match d with
      | .reject _ => load ++ [.deliver j now, .handler j .resume]
      | .approve =>
          match (w.stores.deduct .approve leaveRequest).1 with
          | .error _ => load ++ [.deliver j now, .handler j .resume]
          | .ok () =>
              load ++ [.deliver j now, .handler j .resume,
                .deliver j now, .handler j .resume]

/-- The world with one more handler, the last one. -/
def withHandler (w : World) (h : ManagerHandler) : World :=
  { w with manager := w.manager ++ [h] }

theorem set_withHandler (w : World) (h h' : ManagerHandler) :
    (w.withHandler h).manager.set w.manager.length h' = w.manager ++ [h'] := by
  simp [withHandler]

/-- One turn of the last handler: its call is answered, and it goes on. -/
theorem run_turn {w w₁ : World} {h h₁ h' : ManagerHandler} {c : Call}
    {events : List Event} {now : Timestamp} {ls : List WorldLabel}
    (hsent : h.sent = some c)
    (hserve : (w.withHandler h).serve w.manager.length h now c =
      w₁.withHandler h₁)
    (hmanager : w₁.manager = w.manager)
    (hresume : h₁.resume chart = some (h', events)) :
    run (step chart) (w.withHandler h)
        (.deliver w.manager.length now ::
          .handler w.manager.length .resume :: ls) =
      run (step chart)
        ({ w₁ with published := w₁.published ++ events }.withHandler h') ls := by
  have hlast : ∀ (v : World) (x : ManagerHandler), v.manager = w.manager →
      (v.withHandler x).manager[w.manager.length]? = some x := by
    intro v x hv
    simp [withHandler, hv]
  have hdeliver : step chart (w.withHandler h) (.deliver w.manager.length now) =
      some (w₁.withHandler h₁) :=
    step_deliver_iff.mpr ⟨h, c, hlast w h rfl, hsent, hserve.symm⟩
  have hgo : step chart (w₁.withHandler h₁)
      (.handler w.manager.length .resume) =
      some ({ w₁ with published := w₁.published ++ events }.withHandler h') := by
    refine step_handler_iff.mpr ⟨h₁, h', events, hlast w₁ h₁ hmanager, hresume, ?_⟩
    rw [← hmanager, set_withHandler]
    rfl
  rw [run_cons_of_step hdeliver, run_cons_of_step hgo]

/-- The load is answered from the store. -/
theorem serve_load (w : World) (d : Decision) (requestId : String)
    (caller : CallerIdentity) (now : Timestamp) :
    (w.withHandler (.start d requestId caller)).serve w.manager.length
        (.start d requestId caller) now (.getRequest requestId) =
      w.withHandler { ManagerHandler.start d requestId caller with
        point := .loading (some (.ok (listRequests w.requests.store
          { requestId := some requestId })))
        sent := none } := by
  simp only [serve, set_withHandler]
  rfl

/-- The deduction is answered by the Balance Service. -/
theorem serve_deduction (w : World) (h : ManagerHandler)
    (r : LeaveRequestResponse) (hpoint : h.point = .deducting r none)
    (now : Timestamp) :
    ∃ ledger, (w.withHandler h).serve w.manager.length h now (deductCall r) =
      { w with
        balances := (w.balances.deductBalance r.employeeId r.leaveType
          r.numberOfDays).2
        ledger := ledger }.withHandler
        { h with
          point := .deducting r (some (.ok (w.balances.deductBalance
            r.employeeId r.leaveType r.numberOfDays).1))
          sent := none } := by
  simp only [deductCall, serve, withHandler]
  cases hb : w.balances.deductBalance r.employeeId r.leaveType
      r.numberOfDays with
  | mk response balances =>
      cases response with
      | error e =>
          refine ⟨w.ledger, ?_⟩
          simp [ManagerHandler.receiveDeduct, hpoint]
      | ok b =>
          refine ⟨w.ledger ++ [⟨h.requestId, r.employeeId, r.leaveType,
            r.numberOfDays⟩], ?_⟩
          simp [ManagerHandler.receiveDeduct, hpoint]

/-- The status update is answered by the Leave Request Service. -/
theorem serve_update (w : World) (h : ManagerHandler)
    (r : LeaveRequestResponse) (hpoint : h.point = .updating r none)
    (now : Timestamp) (requestId : String) (body : StatusUpdateBody) :
    (w.withHandler h).serve w.manager.length h now
        (.setRequestStatus requestId body) =
      { w with requests := { w.requests with
          store := (updateRequestStatus w.requests.store requestId body now).2 } }.withHandler
        { h with
          point := .updating r (some (.ok (updateRequestStatus
            w.requests.store requestId body now).1))
          sent := none } := by
  simp [serve, withHandler, ManagerHandler.receiveUpdate, hpoint]

/-- The handler has ended with `result`, and the services hold `p`. -/
def EndsWith (w w' : World) (result : Response ManagerRequestView)
    (p : Stores) : Prop :=
  w'.stores = p ∧ ∃ h, w'.manager = w.manager ++ [h] ∧ h.point = .done result

/-- The last turn, which all decisions share. -/
theorem run_update {w : World} {h : ManagerHandler} {r : LeaveRequestResponse}
    {body : StatusUpdateBody} (hpoint : h.point = .updating r none)
    (hsent : h.sent = some (.setRequestStatus h.requestId body))
    (now : Timestamp) :
    ∃ w', run (step chart) (w.withHandler h)
        [.deliver w.manager.length now, .handler w.manager.length .resume] =
          some w' ∧
      w.EndsWith w'
        (statusUpdated chart (.ok (updateRequestStatus w.requests.store
          h.requestId body now).1))
        ⟨(updateRequestStatus w.requests.store h.requestId body now).2,
          w.balances⟩ := by
  have hserve := serve_update w h r hpoint now h.requestId body
  let answered : ManagerHandler := { h with
    point := .updating r (some (.ok (updateRequestStatus w.requests.store
      h.requestId body now).1))
    sent := none }
  cases hu : statusUpdated chart (.ok (updateRequestStatus w.requests.store
      h.requestId body now).1) with
  | error e =>
      have hend : answered.resume chart =
          some ({ answered with point := .done (.error e) }, []) := by
        simp only [ManagerHandler.resume, answered, hu]
      rw [run_turn hsent hserve rfl hend]
      exact ⟨_, rfl, rfl, _, rfl, rfl⟩
  | ok view =>
      have hend : answered.resume chart =
          some ({ answered with point := .done (.ok view) },
            [h.decision.event r h.requestId]) := by
        simp only [ManagerHandler.resume, answered, hu]
      rw [run_turn hsent hserve rfl hend]
      exact ⟨_, rfl, rfl, _, rfl, rfl⟩

/-- The handler `start`, with the answer to its load. -/
def loaded (w : World) (d : Decision) (requestId : String)
    (caller : CallerIdentity) : ManagerHandler :=
  { ManagerHandler.start d requestId caller with
    point := .loading (some (.ok
      (listRequests w.requests.store { requestId := some requestId })))
    sent := none }

/-- **Taking the segments of a decision one after the other is the handler
alone.** -/
theorem run_decisionSegments (w : World) (d : Decision)
    (caller : CallerIdentity) (requestId : String) (now : Timestamp) :
    ∃ w', run (step chart) (w.begin requestId caller (.ok d))
        (w.decisionSegments d caller requestId now) = some w' ∧
      w.EndsWith w'
        (w.stores.decide chart caller requestId now (.ok d)).1
        (w.stores.decide chart caller requestId now (.ok d)).2 := by
  let started := ManagerHandler.start d requestId caller
  have hload : (w.withHandler started).serve w.manager.length started now
      (.getRequest requestId) = w.withHandler (w.loaded d requestId caller) :=
    serve_load w d requestId caller now
  show ∃ w', run (step chart) (w.withHandler started) _ = some w' ∧ _
  unfold decisionSegments Stores.decide
  simp only [show w.stores.requests = w.requests.store from rfl]
  cases hr : requestLoaded d caller
      (.ok (listRequests w.requests.store { requestId := some requestId })) with
  | error e =>
      have hresume : (w.loaded d requestId caller).resume chart =
          some ({ w.loaded d requestId caller with point := .done (.error e) },
            []) := by
        simp only [ManagerHandler.resume, loaded, ManagerHandler.start, hr]
      simp only
      rw [run_turn rfl hload rfl hresume]
      exact ⟨_, rfl, rfl, _, rfl, rfl⟩
  | ok r =>
      -- the world after the load, which publishes nothing
      let w₁ : World := { w with published := w.published ++ [] }
      cases d with
      | reject payload =>
          let updating : ManagerHandler := { started with
            point := .updating r none
            sent := some (.setRequestStatus requestId
              ((Decision.reject payload).body caller)) }
          have hresume : (w.loaded (.reject payload) requestId caller).resume
              chart = some (updating, []) := by
            simp only [ManagerHandler.resume, loaded, ManagerHandler.start, hr]
            rfl
          simp only [Stores.deduct, List.cons_append, List.nil_append]
          rw [run_turn rfl hload rfl hresume]
          exact run_update (w := w₁) (h := updating) rfl rfl now
      | approve =>
          let deducting : ManagerHandler := { started with
            point := .deducting r none
            sent := some (deductCall r) }
          have hresume : (w.loaded .approve requestId caller).resume chart =
              some (deducting, []) := by
            simp only [ManagerHandler.resume, loaded, ManagerHandler.start, hr]
            rfl
          obtain ⟨ledger, hdeduct⟩ := serve_deduction w₁ deducting r rfl now
          have hdeducted : w.stores.deduct .approve r =
              (balanceDeducted (.ok (w.balances.deductBalance r.employeeId
                r.leaveType r.numberOfDays).1),
               (w.balances.deductBalance r.employeeId r.leaveType
                r.numberOfDays).2) := rfl
          let answered : ManagerHandler := { deducting with
            point := .deducting r (some (.ok (w.balances.deductBalance
              r.employeeId r.leaveType r.numberOfDays).1))
            sent := none }
          simp only [hdeducted]
          cases hb : balanceDeducted (.ok (w.balances.deductBalance r.employeeId
              r.leaveType r.numberOfDays).1) with
          | error e =>
              have hend : answered.resume chart =
                  some ({ answered with point := .done (.error e) }, []) := by
                simp only [ManagerHandler.resume, answered, hb]
              simp only [List.cons_append, List.nil_append]
              rw [run_turn rfl hload rfl hresume,
                run_turn (w := w₁) rfl hdeduct rfl hend]
              exact ⟨_, rfl, rfl, _, rfl, rfl⟩
          | ok u =>
              let updating : ManagerHandler := { answered with
                point := .updating r none
                sent := some (.setRequestStatus requestId
                  (Decision.approve.body caller)) }
              have hgo : answered.resume chart = some (updating, []) := by
                simp only [ManagerHandler.resume, answered, hb]
                rfl
              simp only [List.cons_append, List.nil_append]
              rw [run_turn rfl hload rfl hresume,
                run_turn (w := w₁) rfl hdeduct rfl hgo]
              exact run_update (h := updating) rfl rfl now

end World

/-! ## §3  What a decision asks for -/

/-- The first four conditions: a MANAGER decides on a stored request that is
routed to them and PENDING. -/
structure Stores.MayDecide (p : Stores) (caller : CallerIdentity)
    (requestId : String) (r : LeaveRequest) : Prop where
  manager : caller.role = .MANAGER
  stored : p.requests.getRequest requestId = some r
  routed : r.reportingManagerId = caller.userId
  pending : r.status = .PENDING

/-- The employee's balance of the type that is asked for has the days left. -/
structure BalanceStore.Covers (st : BalanceStore) (r : LeaveRequest)
    (b : LeaveBalance) : Prop where
  stored : st.getBalance r.employeeId r.leaveType = some b
  enough : r.numberOfDays ≤ b.remaining

/-- `st'` is `st` with `r'` in the place of the request `id`. -/
structure RequestStore.Replaced (st st' : RequestStore) (id : String)
    (r' : LeaveRequest) : Prop where
  there : st'.getRequest id = some r'
  others : ∀ id', id' ≠ id → st'.getRequest id' = st.getRequest id'
  order : st'.requestsStore.keys = st.requestsStore.keys
  byEmployee : st'.employeeRequestsIndex = st.employeeRequestsIndex
  byManager : st'.managerRequestsIndex = st.managerRequestsIndex

/-- `st'` is `st` with `b'` in the place of the balance `(e, t)`. -/
structure BalanceStore.Replaced (st st' : BalanceStore) (e : String)
    (t : LeaveType) (b' : LeaveBalance) : Prop where
  there : st'.getBalance e t = some b'
  others : ∀ e' t', (e', t') ≠ (e, t) → st'.getBalance e' t' = st.getBalance e' t'
  order : st'.balancesStore.keys = st.balancesStore.keys
  index : st'.employeeLeavetypeIndex = st.employeeLeavetypeIndex

/-- The status of the first of the four conditions that fails. -/
def Stores.guardFailure (p : Stores) (caller : CallerIdentity)
    (requestId : String) : Option Nat :=
  if caller.role ≠ .MANAGER then some 403
  else
    match p.requests.getRequest requestId with
    | none => some 404
    | some r =>
        if r.reportingManagerId ≠ caller.userId then some 403
        else if r.status ≠ .PENDING then some 409
        else none

/-- What is wrong with the balance, if anything. -/
def Stores.balanceFailure (p : Stores) (requestId : String) : Option Nat :=
  match p.requests.getRequest requestId with
  | none => none
  | some r =>
      match p.balances.getBalance r.employeeId r.leaveType with
      | none => some 404
      | some b => if b.remaining < r.numberOfDays then some 409 else none

/-- What is wrong with the reason, if anything. -/
def reasonFailure (payload : RejectLeaveRequest) : Option Nat :=
  if payload.rejectionReason.toList.all PyStr.isSpace then some 400 else none

/-- The services are reachable, each with whatever the other one has seen. -/
structure Stores.Reachable (chart : OrgChart) (p : Stores) : Prop where
  requests : ∃ s, RequestService.Reachable chart s ∧ s.store = p.requests
  balances : p.balances.Reachable

/-! ## §4  The segments on stored data -/

variable {chart : OrgChart} {p : Stores} {caller : CallerIdentity}
  {requestId : String} {now : Timestamp} {r : LeaveRequest}

theorem RequestStore.replaced_setStatus {st : RequestStore} {id : String}
    (hr : st.getRequest id = some r) (newStatus : LeaveStatus)
    (reason : Option String) (now : Timestamp) :
    st.Replaced (st.setStatus id r newStatus reason now) id
      (r.setStatus newStatus reason now) where
  there := by rw [getRequest_setStatus, if_pos rfl]
  others := fun id' h => by rw [getRequest_setStatus, if_neg h]
  order := Dict.keys_set_of_get? _ hr
  byEmployee := rfl
  byManager := rfl

theorem BalanceStore.replaced_putBalance {st : BalanceStore} (hwf : st.WF)
    {e : String} {t : LeaveType} {b b' : LeaveBalance}
    (hb : st.getBalance e t = some b) :
    st.Replaced (st.putBalance e t b') e t b' := by
  have hput : ∀ e' t', (st.putBalance e t b').getBalance e' t' =
      if (e', t') = (e, t) then some b' else st.getBalance e' t' :=
    fun e' t' => getBalance_putBalance hwf hb
  constructor
  · rw [hput, if_pos rfl]
  · intro e' t' hne
    rw [hput, if_neg hne]
  · unfold getBalance at hb
    unfold putBalance
    cases hi : st.employeeLeavetypeIndex.get? (e, t) with
    | none => rfl
    | some id =>
        rw [hi] at hb
        exact Dict.keys_set_of_get? _ hb
  · unfold putBalance
    cases st.employeeLeavetypeIndex.get? (e, t) <;> rfl

/-- A reachable request asks for at least one day, of a real employee, and
has no reason on it while it is PENDING. -/
theorem Stores.Reachable.request (hp : p.Reachable chart)
    (hr : p.requests.getRequest requestId = some r) :
    1 ≤ r.employeeId.length ∧ 0 < r.numberOfDays ∧
    (r.status = .PENDING → r.rejectionReason = none) := by
  obtain ⟨s, hs, hstore⟩ := hp.requests
  rw [← hstore] at hr
  have hsound := hs.inv.sound requestId r hr
  refine ⟨?_, ?_, ?_⟩
  · have hne : r.employeeId.length ≠ 0 := fun h =>
      hs.employeeId_ne requestId r hr (String.length_eq_zero_iff.mp h)
    omega
  · have hle := hsound.ordered
    rw [Date.le_def] at hle
    rw [hsound.counted, Date.sub]
    omega
  · intro hpending
    have hmatch := (RequestService.Reachable.reasonsMatch hs requestId r hr).1
    cases hreason : r.rejectionReason with
    | none => rfl
    | some reason =>
        rw [hreason, hpending] at hmatch
        simp at hmatch

/-- The load refuses with the first of its three conditions that fails. -/
theorem requestLoaded_stored (d : Decision) (caller : CallerIdentity)
    (st : RequestStore) (requestId : String) :
    (∃ e, requestLoaded d caller
        (.ok (listRequests st { requestId := some requestId })) = .error e ∧
      (caller.role = .MANAGER → ∀ balances,
        Stores.guardFailure ⟨st, balances⟩ caller requestId =
          some e.statusCode)) ∨
    (∃ r, requestLoaded d caller
        (.ok (listRequests st { requestId := some requestId })) = .ok r ∧
      st.getRequest requestId = some r ∧
      r.reportingManagerId = caller.userId ∧ r.status = .PENDING) := by
  rw [listRequests_requestId]
  simp only [requestLoaded, loadTeamRequest, call, propagate, bind, Except.bind,
    pure, Except.pure, Stores.guardFailure]
  cases hr : st.getRequest requestId with
  | none =>
      refine Or.inl ⟨_, rfl, fun hrole balances => ?_⟩
      rw [if_neg (not_not.mpr hrole)]
      rfl
  | some r =>
      simp only [Option.toList_some]
      by_cases hm : r.reportingManagerId = caller.userId
      · rw [if_neg (not_not.mpr hm)]
        simp only
        by_cases hs : r.status = .PENDING
        · rw [if_neg (not_not.mpr hs)]
          exact Or.inr ⟨r, rfl, rfl, hm, hs⟩
        · rw [if_pos hs]
          refine Or.inl ⟨_, rfl, fun hrole balances => ?_⟩
          rw [if_neg (not_not.mpr hrole), if_neg (not_not.mpr hm), if_pos hs]
          rfl
      · rw [if_pos hm]
        refine Or.inl ⟨_, rfl, fun hrole balances => ?_⟩
        rw [if_neg (not_not.mpr hrole), if_pos hm]
        rfl

/-- A deduction that passes its schema fails only for the balance: 404 if
there is none, 409 if it is short. -/
theorem BalanceStore.deductBalance_outcome (st : BalanceStore) {e : String}
    (t : LeaveType) {days : Int} (he : 1 ≤ e.length) (hd : 0 < days) :
    (st.getBalance e t = none ∧ ∃ err,
      st.deductBalance e t days = (.error err, st) ∧ err.statusCode = 404) ∨
    (∃ b, st.getBalance e t = some b ∧ b.remaining < days ∧ ∃ err,
      st.deductBalance e t days = (.error err, st) ∧ err.statusCode = 409) ∨
    (∃ b response, st.getBalance e t = some b ∧ days ≤ b.remaining ∧
      st.deductBalance e t days =
        (.ok response, st.putBalance e t { b with used := b.used + days })) := by
  have hparse : DeductRequest.parse e t days = .ok ⟨e, t, days, he, hd⟩ := by
    rw [DeductRequest.parse, dif_pos ⟨he, hd⟩]
  have hpos : ¬ days ≤ 0 := by omega
  simp only [deductBalance, hparse, applyDeduction]
  cases hb : st.getBalance e t with
  | none => exact Or.inl ⟨rfl, _, rfl, rfl⟩
  | some b =>
      simp only [if_neg hpos]
      by_cases hover : days > b.remaining
      · rw [if_pos hover]
        exact Or.inr (Or.inl ⟨b, rfl, hover, _, rfl, rfl⟩)
      · rw [if_neg hover]
        exact Or.inr (Or.inr ⟨b, _, rfl, by omega, rfl⟩)

/-- Whoever fails the first guard is refused with nothing done. -/
theorem requireManager_eq_error (h : caller.role ≠ .MANAGER) :
    requireManager caller =
      .error (forbidden "This action requires a manager role") :=
  if_pos h

/-- The update of a request that has passed the guards is accepted. -/
theorem updateAccepted_of_mayDecide (h : p.MayDecide caller requestId r)
    (d : Decision) (now : Timestamp)
    (hreason : ∀ reason ∈ d.rejectionReason, reason.length ≤ 500)
    (htarget : d.newStatus = .APPROVED ∨
      (d.newStatus = .REJECTED ∧ hasReason d.rejectionReason = true)) :
    updateRequestStatus p.requests requestId (d.body caller) now =
      (.ok (r.setStatus d.newStatus d.rejectionReason now),
       p.requests.setStatus requestId r d.newStatus d.rejectionReason now) := by
  have hacc : UpdateAccepted p.requests requestId (d.body caller) r := by
    refine ⟨⟨?_, hreason⟩, h.stored, h.routed, h.pending, htarget⟩
    have hne : caller.userId.length ≠ 0 := fun h0 =>
      caller.nonempty (String.length_eq_zero_iff.mp h0)
    show 1 ≤ caller.userId.length
    omega
  rcases updateRequestStatus_cases p.requests requestId (d.body caller) now with
    ⟨hno, -⟩ | ⟨r', hr', he⟩
  · exact absurd hacc (hno r)
  · rw [he, Option.some.inj (hr'.stored.symm.trans h.stored)]
    rfl

/-- Past the guards, a rejection without a reason is a 400. -/
theorem updateRequestStatus_blank (h : p.MayDecide caller requestId r)
    (payload : RejectLeaveRequest) (now : Timestamp)
    (hblank : hasReason (some payload.rejectionReason) = false) :
    ∃ e, updateRequestStatus p.requests requestId
        ((Decision.reject payload).body caller) now = (.error e, p.requests) ∧
      e.statusCode = 400 := by
  have hlen : 1 ≤ caller.userId.length := by
    have hne : caller.userId.length ≠ 0 := fun h0 =>
      caller.nonempty (String.length_eq_zero_iff.mp h0)
    omega
  have hbody : 1 ≤ ((Decision.reject payload).body caller).managerId.length ∧
      ∀ reason ∈ ((Decision.reject payload).body caller).rejectionReason,
        reason.length ≤ 500 := by
    refine ⟨hlen, fun reason hr => ?_⟩
    cases hr
    exact payload.rejectionReason_length.2
  have hrouted : r.reportingManagerId =
      ((Decision.reject payload).body caller).managerId := h.routed
  have htarget : ¬ (((Decision.reject payload).body caller).newStatus ≠
      .APPROVED ∧
      ((Decision.reject payload).body caller).newStatus ≠ .REJECTED) :=
    fun hn => hn.2 rfl
  simp only [updateRequestStatus, StatusUpdateRequest.parse, dif_pos hbody,
    h.stored]
  rw [if_neg (not_not.mpr hrouted), if_neg (not_not.mpr h.pending),
    if_neg htarget, if_pos ⟨rfl, hblank⟩]
  exact ⟨_, rfl, rfl⟩

section Outcomes

variable {d : Decision}

theorem Stores.decide_load_error {e : HTTPException}
    (h : requestLoaded d caller
      (.ok (listRequests p.requests { requestId := some requestId })) =
        .error e) :
    p.decide chart caller requestId now (.ok d) = (.error e, p) := by
  simp only [Stores.decide, h]

variable (hload : requestLoaded d caller
  (.ok (listRequests p.requests { requestId := some requestId })) = .ok r)
include hload

theorem Stores.decide_deduct_error {e : HTTPException}
    (h : p.deduct d r = (.error e, p.balances)) :
    p.decide chart caller requestId now (.ok d) = (.error e, p) := by
  simp only [Stores.decide, hload, h]

theorem Stores.decide_updated {balances : BalanceStore}
    {response : Response LeaveRequestResponse} {requests : RequestStore}
    (h : p.deduct d r = (.ok (), balances))
    (hu : updateRequestStatus p.requests requestId (d.body caller) now =
      (response, requests)) :
    p.decide chart caller requestId now (.ok d) =
      (statusUpdated chart (.ok response), ⟨requests, balances⟩) := by
  simp only [Stores.decide, hload, h, hu]

end Outcomes

/-- The guards pass exactly for a request that the caller may decide on. -/
theorem Stores.MayDecide.guardFailure (h : p.MayDecide caller requestId r) :
    p.guardFailure caller requestId = none := by
  simp only [Stores.guardFailure, h.stored]
  rw [if_neg (not_not.mpr h.manager), if_neg (not_not.mpr h.routed),
    if_neg (not_not.mpr h.pending)]

/-! ## §5  Serial decisions are exact -/

/-- **Alone, an approval** fails at the first condition that does not hold and
changes nothing, or makes its two changes. -/
theorem approve_outcome (hp : p.Reachable chart) (caller : CallerIdentity)
    (requestId : String) (now : Timestamp) :
    (∃ e, p.approveRequest chart caller requestId now = (.error e, p) ∧
      (p.guardFailure caller requestId).or (p.balanceFailure requestId) =
        some e.statusCode) ∨
    (∃ r b view p', p.MayDecide caller requestId r ∧ p.balances.Covers r b ∧
      p.approveRequest chart caller requestId now = (.ok view, p') ∧
      p.requests.Replaced p'.requests requestId
        { r with status := .APPROVED, updatedAt := now } ∧
      p.balances.Replaced p'.balances r.employeeId r.leaveType
        { b with used := b.used + r.numberOfDays }) := by
  unfold Stores.approveRequest
  by_cases hrole : caller.role = .MANAGER
  swap
  · rw [Elms.approveRequest, requireManager_eq_error hrole]
    refine Or.inl ⟨_, rfl, ?_⟩
    rw [Stores.guardFailure, if_pos hrole]
    rfl
  rw [approveRequest_eq_ok_iff.mpr ⟨hrole, rfl⟩]
  rcases requestLoaded_stored .approve caller p.requests requestId with
    ⟨e, he, hcode⟩ | ⟨r, hload, hr, hm, hs⟩
  · refine Or.inl ⟨e, Stores.decide_load_error he, ?_⟩
    rw [hcode hrole p.balances]
    rfl
  obtain ⟨hemp, hdays, hnoreason⟩ := hp.request hr
  have hmay : p.MayDecide caller requestId r := ⟨hrole, hr, hm, hs⟩
  rw [hmay.guardFailure, Option.none_or]
  rcases p.balances.deductBalance_outcome r.leaveType hemp hdays with
    ⟨hb, err, herr, hcode⟩ | ⟨b, hb, hshort, err, herr, hcode⟩ |
    ⟨b, response, hb, henough, hok⟩
  · refine Or.inl ⟨err, Stores.decide_deduct_error hload ?_, ?_⟩
    · simp only [Stores.deduct, herr]
      rfl
    · simp only [Stores.balanceFailure, hr, hb, hcode]
  · refine Or.inl ⟨err, Stores.decide_deduct_error hload ?_, ?_⟩
    · simp only [Stores.deduct, herr]
      rfl
    · simp only [Stores.balanceFailure, hr, hb, if_pos hshort, hcode]
  · have hdeduct : p.deduct .approve r = (.ok (), p.balances.putBalance
        r.employeeId r.leaveType { b with used := b.used + r.numberOfDays }) := by
      simp only [Stores.deduct, hok]
      rfl
    have hupdate := updateAccepted_of_mayDecide hmay .approve now
      (fun reason h => by cases h) (Or.inl rfl)
    have hchange : r.setStatus .APPROVED none now =
        { r with status := .APPROVED, updatedAt := now } := by
      simp only [LeaveRequest.setStatus, hnoreason hs]
      rfl
    refine Or.inr ⟨r, b, _, _, hmay, ⟨hb, henough⟩,
      Stores.decide_updated hload hdeduct hupdate, ?_, ?_⟩
    · rw [← hchange]
      exact RequestStore.replaced_setStatus hr _ _ _
    · exact BalanceStore.replaced_putBalance hp.balances.wf hb

/-- **Alone, a rejection** fails at the first condition that does not hold and
changes nothing, or makes its one change. -/
theorem reject_outcome (caller : CallerIdentity) (requestId : String)
    (payload : RejectLeaveRequest) (now : Timestamp) :
    (∃ e, p.rejectRequest chart caller requestId payload.toRejectLeaveBody now =
        (.error e, p) ∧
      (p.guardFailure caller requestId).or (reasonFailure payload) =
        some e.statusCode) ∨
    (∃ r view p', p.MayDecide caller requestId r ∧
      reasonFailure payload = none ∧
      p.rejectRequest chart caller requestId payload.toRejectLeaveBody now =
        (.ok view, p') ∧
      p.requests.Replaced p'.requests requestId
        { r with status := .REJECTED
                 rejectionReason := some payload.rejectionReason
                 updatedAt := now } ∧
      p'.balances = p.balances) := by
  have hreason : reasonFailure payload = none ↔
      hasReason (some payload.rejectionReason) = true := by
    rw [hasReason_eq_true_iff, reasonFailure]
    simp
  unfold Stores.rejectRequest
  by_cases hrole : caller.role = .MANAGER
  swap
  · rw [Elms.rejectRequest, requireManager_eq_error hrole]
    refine Or.inl ⟨_, rfl, ?_⟩
    rw [Stores.guardFailure, if_pos hrole]
    rfl
  have hguard : Elms.rejectRequest caller payload.toRejectLeaveBody =
      .ok (.reject payload) := by
    rw [Elms.rejectRequest, requireManager_eq_ok_iff.mpr ⟨hrole, rfl⟩]
    simp only [RejectLeaveRequest.parse, bind, Except.bind,
      dif_pos payload.rejectionReason_length]
    rfl
  rw [hguard]
  rcases requestLoaded_stored (.reject payload) caller p.requests requestId with
    ⟨e, he, hcode⟩ | ⟨r, hload, hr, hm, hs⟩
  · refine Or.inl ⟨e, Stores.decide_load_error he, ?_⟩
    rw [hcode hrole p.balances]
    rfl
  have hmay : p.MayDecide caller requestId r := ⟨hrole, hr, hm, hs⟩
  rw [hmay.guardFailure, Option.none_or]
  by_cases hblank : reasonFailure payload = none
  · have hupdate := updateAccepted_of_mayDecide hmay (.reject payload) now
      (fun reason h => by cases h; exact payload.rejectionReason_length.2)
      (Or.inr ⟨rfl, hreason.mp hblank⟩)
    refine Or.inr ⟨r, _, _, hmay, hblank,
      Stores.decide_updated hload rfl hupdate, ?_, rfl⟩
    exact RequestStore.replaced_setStatus hr _ _ _
  · -- the Request Service is the one that sees a blank reason
    have hfalse : hasReason (some payload.rejectionReason) = false :=
      Bool.eq_false_iff.mpr fun h => hblank (hreason.mpr h)
    obtain ⟨e, hupdate, hcode⟩ :=
      updateRequestStatus_blank hmay payload now hfalse
    have hcode' : reasonFailure payload = some e.statusCode := by
      unfold reasonFailure at hblank ⊢
      split at hblank
      · rw [if_pos ‹_›, hcode]
      · exact absurd rfl hblank
    exact Or.inl ⟨e, Stores.decide_updated hload rfl hupdate, hcode'⟩

/-- An approval succeeds exactly for a MANAGER, on a stored PENDING request
routed to them, with a balance that covers it; then that request's status and
`updated_at` and the days of that balance change, and nothing else does.
Otherwise nothing changes, and the first condition that fails is named. -/
structure Stores.ApprovalExact (chart : OrgChart) (p : Stores)
    (caller : CallerIdentity) (requestId : String) (now : Timestamp) :
    Prop where
  succeeds_iff :
    (∃ view p', p.approveRequest chart caller requestId now = (.ok view, p')) ↔
      ∃ r b, p.MayDecide caller requestId r ∧ p.balances.Covers r b
  effect : ∀ view p',
    p.approveRequest chart caller requestId now = (.ok view, p') →
    ∃ r b, p.MayDecide caller requestId r ∧ p.balances.Covers r b ∧
      p.requests.Replaced p'.requests requestId
        { r with status := .APPROVED, updatedAt := now } ∧
      p.balances.Replaced p'.balances r.employeeId r.leaveType
        { b with used := b.used + r.numberOfDays }
  refused : ∀ e p',
    p.approveRequest chart caller requestId now = (.error e, p') →
    p' = p ∧ (p.guardFailure caller requestId).or (p.balanceFailure requestId) =
      some e.statusCode

/-- The same for a rejection, whose last condition is a reason that is not
blank, and which changes nothing but the request's status, reason and
`updated_at`. -/
structure Stores.RejectionExact (chart : OrgChart) (p : Stores)
    (caller : CallerIdentity) (requestId : String)
    (payload : RejectLeaveRequest) (now : Timestamp) : Prop where
  succeeds_iff :
    (∃ view p', p.rejectRequest chart caller requestId
      payload.toRejectLeaveBody now = (.ok view, p')) ↔
      (∃ r, p.MayDecide caller requestId r) ∧
      ∃ c ∈ payload.rejectionReason.toList, PyStr.isSpace c = false
  effect : ∀ view p',
    p.rejectRequest chart caller requestId payload.toRejectLeaveBody now =
      (.ok view, p') →
    ∃ r, p.MayDecide caller requestId r ∧
      p.requests.Replaced p'.requests requestId
        { r with status := .REJECTED
                 rejectionReason := some payload.rejectionReason
                 updatedAt := now } ∧
      p'.balances = p.balances
  refused : ∀ e p',
    p.rejectRequest chart caller requestId payload.toRejectLeaveBody now =
      (.error e, p') →
    p' = p ∧ (p.guardFailure caller requestId).or (reasonFailure payload) =
      some e.statusCode

theorem approvalExact (hp : p.Reachable chart) :
    p.ApprovalExact chart caller requestId now := by
  rcases approve_outcome hp caller requestId now with
    ⟨e, hrun, hcode⟩ | ⟨r, b, view, p', hmay, hcov, hrun, hreq, hbal⟩
  · constructor
    · rw [hrun]
      constructor
      · rintro ⟨view, p', h⟩
        cases h
      · rintro ⟨r, b, hmay, hcov⟩
        rw [hmay.guardFailure, Option.none_or] at hcode
        simp only [Stores.balanceFailure, hmay.stored, hcov.stored,
          if_neg (not_lt.mpr hcov.enough)] at hcode
        cases hcode
    · intro view p' h
      rw [hrun] at h
      cases h
    · intro e' p' h
      rw [hrun] at h
      cases h
      exact ⟨rfl, hcode⟩
  · constructor
    · exact ⟨fun _ => ⟨r, b, hmay, hcov⟩, fun _ => ⟨view, p', hrun⟩⟩
    · intro view' q h
      rw [hrun] at h
      cases h
      exact ⟨r, b, hmay, hcov, hreq, hbal⟩
    · intro e q h
      rw [hrun] at h
      cases h

theorem rejectionExact (payload : RejectLeaveRequest) :
    p.RejectionExact chart caller requestId payload now := by
  have hreason : reasonFailure payload = none ↔
      ∃ c ∈ payload.rejectionReason.toList, PyStr.isSpace c = false := by
    unfold reasonFailure
    simp
  rcases reject_outcome (p := p) caller requestId payload now with
    ⟨e, hrun, hcode⟩ | ⟨r, view, p', hmay, hnone, hrun, hreq, hbal⟩
  · constructor
    · rw [hrun]
      constructor
      · rintro ⟨view, p', h⟩
        cases h
      · rintro ⟨⟨r, hmay⟩, hc⟩
        rw [hmay.guardFailure, Option.none_or, hreason.mpr hc] at hcode
        cases hcode
    · intro view p' h
      rw [hrun] at h
      cases h
    · intro e' p' h
      rw [hrun] at h
      cases h
      exact ⟨rfl, hcode⟩
  · constructor
    · exact ⟨fun _ => ⟨⟨r, hmay⟩, hreason.mp hnone⟩, fun _ => ⟨view, p', hrun⟩⟩
    · intro view' q h
      rw [hrun] at h
      cases h
      exact ⟨r, hmay, hreq, hbal⟩
    · intro e q h
      rw [hrun] at h
      cases h

/-- **Serial decisions are exact**, on every reachable state of the two
services. -/
theorem serial_decisions (hp : p.Reachable chart) (caller : CallerIdentity)
    (requestId : String) (now : Timestamp) :
    p.ApprovalExact chart caller requestId now ∧
    ∀ payload : RejectLeaveRequest,
      p.RejectionExact chart caller requestId payload now :=
  ⟨approvalExact hp, fun payload => rejectionExact payload⟩

/-- The record that an employee's casual leave is kept in. -/
def casualBalance : List BalanceStore.StoreCall :=
  [.addBalance ⟨"balance-1", EMP1_ID, .CASUAL, 12, 0⟩]

theorem serial_decisions_appliedRun :
    ∃ s b, run (RequestService.step SEED_USERS) RequestService.empty
        RequestService.appliedRun = some s ∧
      run BalanceStore.step BalanceStore.empty casualBalance = some b ∧
      (∃ view p', (Stores.mk s.store b).approveRequest SEED_USERS manager1
        "request-1" 200 = (.ok view, p')) ∧
      ∀ e p', (Stores.mk s.store b).rejectRequest SEED_USERS emp1 "request-1"
        ⟨"No cover"⟩ 200 = (.error e, p') → p' = ⟨s.store, b⟩ := by
  have hruns : ∃ s, run (RequestService.step SEED_USERS) RequestService.empty
        RequestService.appliedRun = some s ∧
      ∃ b, run BalanceStore.step BalanceStore.empty casualBalance = some b ∧
      ∃ r, s.store.getRequest "request-1" = some r ∧
        r.reportingManagerId = MANAGER1_ID ∧ r.status = .PENDING ∧
        ∃ c, b.getBalance r.employeeId r.leaveType = some c ∧
          r.numberOfDays ≤ c.remaining := by
    decide +kernel
  obtain ⟨s, hs, b, hb, r, hr, hm, hp, c, hc, hle⟩ := hruns
  have hreach : (Stores.mk s.store b).Reachable SEED_USERS :=
    ⟨⟨s, ⟨_, hs⟩, rfl⟩, ⟨_, hb⟩⟩
  obtain ⟨happrove, -⟩ := serial_decisions hreach manager1 "request-1" 200
  obtain ⟨-, hreject⟩ := serial_decisions hreach emp1 "request-1" 200
  refine ⟨s, b, hs, hb, ?_, fun e p' h => ?_⟩
  · exact happrove.succeeds_iff.mpr ⟨r, c, ⟨rfl, hr, hm, hp⟩, hc, hle⟩
  · exact ((hreject ⟨⟨"No cover"⟩, by decide⟩).refused e p' h).1

end Elms
