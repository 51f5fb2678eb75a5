import Elms.System.World

/-!
# The invariant of the platform

What a handler carries from one await to the next stays true of the services:
the copy of the request that it read (the days, type, employee and manager of
a stored request never change), and, once its deduction was answered, that the
deduction is in the ledger. With it, every APPROVED request is paid for. None
of this needs a call to be answered, or a handler to finish.
-/

namespace Elms

open Calendar Transition

/-! ## §1  What one handler relies on -/

/-- The record `r` that was read is stored under `id`, its status aside. -/
def Holds (st : RequestStore) (id : String) (r : LeaveRequest) : Prop :=
  ∃ r', st.getRequest id = some r' ∧ r.SameLeave r'

/-- A deduction has been accepted for the request `id`. -/
def Paid (ledger : List Deduction) (id : String) : Prop :=
  ∃ d ∈ ledger, d.requestId = id

theorem RequestService.Evolves.sameLeave {r r' : LeaveRequest}
    (h : RequestService.Evolves r r') : r.SameLeave r' := by
  rcases h with rfl | ⟨hs, -, -⟩
  · exact LeaveRequest.SameLeave.refl _
  · exact hs

theorem Holds.mono {st st' : RequestStore} {id : String} {r : LeaveRequest}
    (h : Holds st id r) (hst : RequestService.StoreEvolves st st') :
    Holds st' id r := by
  obtain ⟨r', hr', hs⟩ := h
  obtain ⟨r'', hr'', he⟩ := hst id r' hr'
  exact ⟨r'', hr'', hs.trans he.sameLeave⟩

theorem Paid.mono {ledger ledger' : List Deduction} {id : String}
    (h : Paid ledger id) (hsub : ledger ⊆ ledger') : Paid ledger' id := by
  obtain ⟨d, hd, hid⟩ := h
  exact ⟨d, hsub hd, hid⟩

namespace ManagerHandler

/-- What holds at an await: the copy is true and routed to the caller, and an
approval past its deduction is paid for. -/
def PointOk (st : RequestStore) (ledger : List Deduction)
    (h : ManagerHandler) : ManagerPoint → Prop
  | .loading reply =>
      ∀ r rest, reply = some (.ok (.ok (r :: rest))) → Holds st h.requestId r
  | .deducting r reply =>
      h.decision = .approve ∧ Holds st h.requestId r ∧
      r.reportingManagerId = h.caller.userId ∧
      ∀ b, reply = some (.ok (.ok b)) → Paid ledger h.requestId
  | .updating r _ =>
      Holds st h.requestId r ∧ r.reportingManagerId = h.caller.userId ∧
      (h.decision = .approve → Paid ledger h.requestId)
  | .done _ => True
  | .abandoned => True

/-- What holds of the call on the wire, whether or not anyone waits for it. -/
def SentOk (st : RequestStore) (ledger : List Deduction)
    (h : ManagerHandler) : Option Call → Prop
  | some (.deductBalance e t d) =>
      h.decision = .approve ∧
      ∃ r, Holds st h.requestId r ∧ Call.deductBalance e t d = deductCall r
  | some (.setRequestStatus id body) =>
      id = h.requestId ∧ body = h.decision.body h.caller ∧
      (h.decision = .approve → Paid ledger h.requestId)
  | some (.getRequest id) => id = h.requestId
  | none => True

structure Ok (st : RequestStore) (ledger : List Deduction)
    (h : ManagerHandler) : Prop where
  manager : h.caller.role = .MANAGER
  point : PointOk st ledger h h.point
  sent : SentOk st ledger h h.sent

variable {chart : OrgChart} {st st' : RequestStore}
  {ledger ledger' : List Deduction} {h h' : ManagerHandler}

/-- Stores evolve and the ledger grows: what a handler relies on stays. -/
theorem Ok.mono (hok : Ok st ledger h)
    (hst : RequestService.StoreEvolves st st') (hsub : ledger ⊆ ledger') :
    Ok st' ledger' h := by
  obtain ⟨hmgr, hpoint, hsent⟩ := hok
  refine ⟨hmgr, ?_, ?_⟩
  · cases hp : h.point with
    | loading reply =>
        rw [hp] at hpoint
        exact fun r rest hr => (hpoint r rest hr).mono hst
    | deducting r reply =>
        rw [hp] at hpoint
        obtain ⟨hd, hr, hm, hpaid⟩ := hpoint
        exact ⟨hd, hr.mono hst, hm, fun b hb => (hpaid b hb).mono hsub⟩
    | updating r reply =>
        rw [hp] at hpoint
        obtain ⟨hr, hm, hpaid⟩ := hpoint
        exact ⟨hr.mono hst, hm, fun hd => (hpaid hd).mono hsub⟩
    | done result => trivial
    | abandoned => trivial
  · cases hs : h.sent with
    | none => trivial
    | some c =>
        rw [hs] at hsent
        cases c with
        | getRequest id => exact hsent
        | deductBalance e t d =>
            obtain ⟨hd, r, hr, hc⟩ := hsent
            exact ⟨hd, r, hr.mono hst, hc⟩
        | setRequestStatus id body =>
            obtain ⟨hid, hbody, hpaid⟩ := hsent
            exact ⟨hid, hbody, fun hd => (hpaid hd).mono hsub⟩

theorem ok_start (st : RequestStore) (ledger : List Deduction) (d : Decision)
    (id : String) {caller : CallerIdentity} (hm : caller.role = .MANAGER) :
    Ok st ledger (start d id caller) where
  manager := hm
  point := fun r rest hr => by cases hr
  sent := rfl

/-- What a handler goes on with was checked when it read the answer. -/
theorem Ok.resume (hok : Ok st ledger h) {events : List Event}
    (hm : h.resume chart = some (h', events)) : Ok st ledger h' := by
  obtain ⟨hmgr, hpoint, hsent⟩ := hok
  simp only [ManagerHandler.resume] at hm
  cases hp : h.point with
  | loading reply =>
      rw [hp] at hm hpoint
      rcases reply with _ | reply
      · cases hm
      simp only at hm
      split at hm
      · cases hm
        exact ⟨hmgr, trivial, hsent⟩
      · rename_i r hr
        obtain ⟨⟨rest, hreply⟩, hroute, -⟩ := requestLoaded_eq_ok_iff.mp hr
        have hholds := hpoint r rest (by rw [hreply])
        split at hm
        · rename_i hd
          cases hm
          refine ⟨hmgr, ⟨hd, hholds, hroute, fun b hb => by cases hb⟩, ?_⟩
          exact ⟨hd, r, hholds, rfl⟩
        · rename_i payload hd
          have hne : h.decision = .approve → Paid ledger h.requestId := by
            intro ha
            rw [hd] at ha
            cases ha
          cases hm
          exact ⟨hmgr, ⟨hholds, hroute, hne⟩, rfl, rfl, hne⟩
  | deducting r reply =>
      rw [hp] at hm hpoint
      rcases reply with _ | reply
      · cases hm
      simp only at hm
      obtain ⟨hd, hholds, hroute, hpaid⟩ := hpoint
      split at hm
      · cases hm
        exact ⟨hmgr, trivial, hsent⟩
      · rename_i hok
        obtain ⟨b, rfl⟩ := balanceDeducted_eq_ok_iff.mp hok
        cases hm
        have hp' : h.decision = .approve → Paid ledger h.requestId :=
          fun _ => hpaid b rfl
        exact ⟨hmgr, ⟨hholds, hroute, hp'⟩, rfl, rfl, hp'⟩
  | updating r reply =>
      rw [hp] at hm
      rcases reply with _ | reply
      · cases hm
      simp only at hm
      split at hm <;> cases hm <;> exact ⟨hmgr, trivial, hsent⟩
  | done result => rw [hp] at hm; cases hm
  | abandoned => rw [hp] at hm; cases hm

/-- A handler's own moves rely on nothing new. -/
theorem Ok.move (hok : Ok st ledger h) {m : HandlerMove} {events : List Event}
    (hm : h.move chart m = some (h', events)) : Ok st ledger h' := by
  have hresume : h.resume chart = some (h', events) → Ok st ledger h' := hok.resume
  obtain ⟨hmgr, hpoint, hsent⟩ := hok
  cases m with
  | resume => exact hresume hm
  | loseAnswer =>
      simp only [ManagerHandler.move] at hm
      cases hp : h.point with
      | loading reply =>
          rw [hp] at hm
          cases hm
          exact ⟨hmgr, fun r rest hr => (by cases hr), hsent⟩
      | deducting r reply =>
          rw [hp] at hm hpoint
          cases hm
          obtain ⟨hd, hholds, hroute, -⟩ := hpoint
          exact ⟨hmgr, ⟨hd, hholds, hroute, fun b hb => by cases hb⟩, hsent⟩
      | updating r reply =>
          rw [hp] at hm hpoint
          cases hm
          exact ⟨hmgr, hpoint, hsent⟩
      | done result => rw [hp] at hm; cases hm
      | abandoned => rw [hp] at hm; cases hm
  | block =>
      simp only [ManagerHandler.move] at hm
      split at hm
      · rename_i r hp
        rw [hp] at hpoint
        cases hm
        obtain ⟨hd, hholds, hroute, -⟩ := hpoint
        exact ⟨hmgr, ⟨hd, hholds, hroute, fun b hb => by cases hb⟩, trivial⟩
      · rename_i r hp
        rw [hp] at hpoint
        cases hm
        exact ⟨hmgr, hpoint, trivial⟩
      · cases hm
  | breakerError =>
      simp only [ManagerHandler.move] at hm
      split at hm
      · rename_i r reply hp
        rw [hp] at hpoint
        cases hm
        obtain ⟨hd, hholds, hroute, -⟩ := hpoint
        exact ⟨hmgr, ⟨hd, hholds, hroute, fun b hb => by cases hb⟩, hsent⟩
      · rename_i r reply hp
        rw [hp] at hpoint
        cases hm
        exact ⟨hmgr, hpoint, hsent⟩
      · cases hm
  | abandon =>
      simp only [ManagerHandler.move] at hm
      split at hm
      · cases hm
        exact ⟨hmgr, trivial, hsent⟩
      · cases hm
        exact ⟨hmgr, trivial, hsent⟩
      · cases hm
        exact ⟨hmgr, trivial, hsent⟩
      · cases hm

theorem Ok.receiveLoad (hok : Ok st ledger h) :
    Ok st ledger (h.receiveLoad
      (listRequests st { requestId := some h.requestId })) := by
  obtain ⟨hmgr, hpoint, -⟩ := hok
  unfold ManagerHandler.receiveLoad
  split
  · refine ⟨hmgr, fun r rest hr => ?_, trivial⟩
    rw [listRequests_requestId] at hr
    cases hg : st.getRequest h.requestId with
    | none => rw [hg] at hr; cases hr
    | some r' =>
        rw [hg] at hr
        cases hr
        exact ⟨r, hg, LeaveRequest.SameLeave.refl r⟩
  · exact ⟨hmgr, hpoint, trivial⟩

theorem Ok.receiveDeduct (hok : Ok st ledger h)
    {response : Response DeductResponse}
    (hpaid : ∀ b, response = .ok b → Paid ledger h.requestId) :
    Ok st ledger (h.receiveDeduct response) := by
  obtain ⟨hmgr, hpoint, -⟩ := hok
  unfold ManagerHandler.receiveDeduct
  split
  · rename_i r hp
    rw [hp] at hpoint
    obtain ⟨hd, hholds, hroute, -⟩ := hpoint
    refine ⟨hmgr, ⟨hd, hholds, hroute, fun b hb => hpaid b ?_⟩, trivial⟩
    cases hb
    rfl
  · exact ⟨hmgr, hpoint, trivial⟩

theorem Ok.receiveUpdate (hok : Ok st ledger h)
    (response : Response LeaveRequestResponse) :
    Ok st ledger (h.receiveUpdate response) := by
  obtain ⟨hmgr, hpoint, -⟩ := hok
  unfold ManagerHandler.receiveUpdate
  split
  · rename_i r hp
    rw [hp] at hpoint
    exact ⟨hmgr, hpoint, trivial⟩
  · exact ⟨hmgr, hpoint, trivial⟩

end ManagerHandler


namespace World

/-! ## §2  What holds of a world -/

/-- **The invariant.** The Leave Request Service keeps its own; handlers rely
on true things; each deduction in the ledger is for a stored request, of its
days, type and employee; and every APPROVED request is paid for. -/
structure Inv (chart : OrgChart) (w : World) : Prop where
  requests : w.requests.Inv chart
  handlers : ∀ h ∈ w.manager, h.Ok w.requests.store w.ledger
  ledger : ∀ d ∈ w.ledger, 0 < d.days ∧
    ∃ r, w.requests.store.getRequest d.requestId = some r ∧
      r.employeeId = d.employeeId ∧ r.leaveType = d.leaveType ∧
      r.numberOfDays = d.days
  approved : ∀ id r, w.requests.store.getRequest id = some r →
    r.status = .APPROVED → Paid w.ledger id

/-- Where runs start: nothing is APPROVED yet and no decision is under way. -/
structure Initial (chart : OrgChart) (w : World) : Prop where
  requests : w.requests.Inv chart
  balances : w.balances.WF
  none_approved : ∀ id r, w.requests.store.getRequest id = some r →
    r.status ≠ .APPROVED
  no_handlers : w.manager = []
  no_deductions : w.ledger = []

theorem Initial.inv {chart : OrgChart} {w : World} (h : Initial chart w) :
    Inv chart w where
  requests := h.requests
  handlers := by
    rw [h.no_handlers]
    intro x hx
    cases hx
  ledger := by
    rw [h.no_deductions]
    intro d hd
    cases hd
  approved := fun id r hr ha => absurd ha (h.none_approved id r hr)

/-- A readable id for each balance record. -/
def seededId (e : String) (t : LeaveType) : String := e ++ "-" ++ t.value

/-- The platform as it starts up. -/
def seeded : World :=
  { requests := RequestService.empty
    balances :=
      match seedBalances seededId SEED_USERS with
      | .ok st => st
      | .error _ => BalanceStore.empty }

theorem seeded_balances : seeded.balances.WF ∧
    ∀ e t, seeded.balances.usedOf e t = 0 ∧
      0 ≤ seeded.balances.totalOf e t := by
  have hfresh : ((seedRecords seededId SEED_USERS).map
      LeaveBalance.balanceId).Nodup := by decide +kernel
  have hok : seedBalances seededId SEED_USERS = .ok seeded.balances := by
    decide +kernel
  exact BalanceStore.seedBalances_spec hfresh hok

theorem seeded_initial : Initial SEED_USERS seeded where
  requests := RequestService.inv_empty SEED_USERS
  balances := seeded_balances.1
  none_approved := fun id r h => by cases h
  no_handlers := rfl
  no_deductions := rfl

variable {chart : OrgChart} {w w' : World} {l : WorldLabel}

theorem storeEvolves_step (hl : step chart w l = some w') :
    RequestService.StoreEvolves w.requests.store w'.requests.store :=
  RequestService.storeEvolves_reaches (requests_step hl)

theorem ledger_step (hl : step chart w l = some w') : w.ledger ⊆ w'.ledger := by
  rcases step_cases hl with rfl | ⟨rl, s, -, hs, rfl⟩ | ⟨d, id, caller, -, rfl⟩ |
    ⟨j, m, h, h', events, -, -, -, rfl⟩ | ⟨j, now, h, c, -, -, -, rfl⟩
  · exact List.Subset.refl _
  · exact List.Subset.refl _
  · exact List.Subset.refl _
  · exact List.Subset.refl _
  · cases c with
    | getRequest id => exact List.Subset.refl _
    | deductBalance e t d =>
        simp only [serve]
        split
        · exact List.Subset.refl _
        · exact List.subset_append_left _ _
    | setRequestStatus id body => exact List.Subset.refl _

/-! ## §3  Every step keeps it -/

/-- Replacing one handler, with services that moved on. -/
theorem handlers_set {st st' : RequestStore} {ledger ledger' : List Deduction}
    {hs : List ManagerHandler} {j : Nat} {h' : ManagerHandler}
    (hok : ∀ h ∈ hs, h.Ok st ledger)
    (hst : RequestService.StoreEvolves st st') (hsub : ledger ⊆ ledger')
    (hnew : h'.Ok st' ledger') : ∀ h ∈ hs.set j h', h.Ok st' ledger' := by
  intro h hmem
  rcases List.mem_or_eq_of_mem_set hmem with hmem | rfl
  · exact (hok h hmem).mono hst hsub
  · exact hnew

theorem handlers_step (hI : Inv chart w) (hl : step chart w l = some w') :
    ∀ h ∈ w'.manager, h.Ok w'.requests.store w'.ledger := by
  have hst := storeEvolves_step hl
  have hsub := ledger_step hl
  rcases step_cases hl with rfl | ⟨rl, s, -, hs, rfl⟩ |
    ⟨d, id, caller, hmgr, rfl⟩ | ⟨j, m, h, h', events, -, hj, hm, rfl⟩ |
    ⟨j, now, h, c, -, hj, hc, rfl⟩
  · exact hI.handlers
  · exact fun h hmem => (hI.handlers h hmem).mono hst hsub
  · intro h hmem
    rcases List.mem_append.mp hmem with hmem | hmem
    · exact hI.handlers h hmem
    · rw [List.mem_singleton.mp hmem]
      exact ManagerHandler.ok_start _ _ d id hmgr
  · have hok := hI.handlers h (List.mem_of_getElem? hj)
    exact handlers_set hI.handlers hst hsub (hok.move hm)
  · have hok := hI.handlers h (List.mem_of_getElem? hj)
    cases c with
    | getRequest id =>
        have hid : id = h.requestId := by
          have hsent := hok.sent
          rw [hc] at hsent
          exact hsent
        subst hid
        exact handlers_set hI.handlers hst hsub hok.receiveLoad
    | deductBalance e t d =>
        rcases serve_deductBalance w j h now e t d with
          ⟨-, err, he⟩ | ⟨-, r, he⟩
        · rw [he] at hst hsub ⊢
          exact handlers_set hI.handlers hst hsub
            (hok.receiveDeduct fun b hb => by cases hb)
        · rw [he] at hst hsub ⊢
          have hpaid : Paid (w.ledger ++ [⟨h.requestId, e, t, d⟩]) h.requestId :=
            ⟨_, List.mem_append_right _ (List.mem_singleton_self _), rfl⟩
          exact handlers_set hI.handlers hst hsub
            ((hok.mono hst hsub).receiveDeduct fun _ _ => hpaid)
    | setRequestStatus id body =>
        rcases serve_setRequestStatus w j h now id body with
          ⟨-, err, he⟩ | ⟨r, -, he⟩
        · rw [he] at hst hsub ⊢
          exact handlers_set hI.handlers hst hsub (hok.receiveUpdate _)
        · rw [he] at hst hsub ⊢
          exact handlers_set hI.handlers hst hsub
            ((hok.mono hst hsub).receiveUpdate _)

/-- A deduction that is accepted is for the request its handler read. -/
theorem deduction_matches (hI : Inv chart w) {h : ManagerHandler}
    (hmem : h ∈ w.manager) {e : String} {t : LeaveType} {d : Int}
    (hc : h.sent = some (.deductBalance e t d)) :
    ∃ r, w.requests.store.getRequest h.requestId = some r ∧
      r.employeeId = e ∧ r.leaveType = t ∧ r.numberOfDays = d := by
  have hsent := (hI.handlers h hmem).sent
  rw [hc] at hsent
  obtain ⟨-, r, ⟨r', hr', hsame⟩, hcall⟩ := hsent
  obtain ⟨-, hemp, htype, -, -, hdays, -⟩ := hsame
  unfold deductCall at hcall
  cases hcall
  exact ⟨r', hr', hemp, htype, hdays⟩

theorem ledger_matches_step (hI : Inv chart w)
    (hl : step chart w l = some w') :
    ∀ d ∈ w'.ledger, 0 < d.days ∧
      ∃ r, w'.requests.store.getRequest d.requestId = some r ∧
        r.employeeId = d.employeeId ∧ r.leaveType = d.leaveType ∧
        r.numberOfDays = d.days := by
  have hst := storeEvolves_step hl
  have old : ∀ d ∈ w.ledger, 0 < d.days ∧
      ∃ r, w'.requests.store.getRequest d.requestId = some r ∧
        r.employeeId = d.employeeId ∧ r.leaveType = d.leaveType ∧
        r.numberOfDays = d.days := by
    intro d hd
    obtain ⟨hpos, r, hr, hemp, htype, hdays⟩ := hI.ledger d hd
    obtain ⟨r', hr', hev⟩ := hst _ r hr
    obtain ⟨-, hemp', htype', -, -, hdays', -⟩ := hev.sameLeave
    exact ⟨hpos, r', hr', hemp'.trans hemp, htype'.trans htype,
      hdays'.trans hdays⟩
  rcases step_cases hl with rfl | ⟨rl, s, -, hs, rfl⟩ | ⟨d, id, caller, -, rfl⟩ |
    ⟨j, m, h, h', events, -, -, -, rfl⟩ | ⟨j, now, h, c, -, hj, hc, rfl⟩
  · exact old
  · exact old
  · exact old
  · exact old
  · cases c with
    | getRequest id => exact old
    | setRequestStatus id body => exact old
    | deductBalance e t d =>
        have hmem := List.mem_of_getElem? hj
        rcases serve_deductBalance w j h now e t d with
          ⟨-, err, he⟩ | ⟨hd, r, he⟩
        · rw [he] at old ⊢
          exact old
        · rw [he] at old ⊢
          intro x hx
          rcases List.mem_append.mp hx with hx | hx
          · exact old x hx
          · rw [List.mem_singleton.mp hx]
            exact ⟨hd.1.2, deduction_matches hI hmem hc⟩

/-- **Who writes a status.** Across a step a stored request is unchanged, or
has just been inserted, or cancelled by a `cancel_leave`, or decided by the
update that a handler sent for it. -/
theorem getRequest_step (hI : Inv chart w) (hl : step chart w l = some w')
    {id : String} {r' : LeaveRequest}
    (hr' : w'.requests.store.getRequest id = some r') :
    w.requests.store.getRequest id = some r' ∨
    (w.requests.store.getRequest id = none ∧ r'.status = .PENDING) ∨
    (∃ caller now r, l = .cancelLeave caller id now ∧
      CancelAccepted w.requests.store caller id r ∧
      r' = r.setStatus .CANCELLED none now) ∨
    (∃ j now h r, l = .deliver j now ∧ w.manager[j]? = some h ∧
      h.requestId = id ∧
      h.sent = some (.setRequestStatus id (h.decision.body h.caller)) ∧
      UpdateAccepted w.requests.store id (h.decision.body h.caller) r ∧
      r' = r.setStatus h.decision.newStatus h.decision.rejectionReason now) := by
  rcases step_cases hl with rfl | ⟨rl, s, hrl, hs, rfl⟩ | ⟨d, k, caller, -, rfl⟩ |
    ⟨j, m, h, h', events, -, -, -, rfl⟩ | ⟨j, now, h, c, hlab, hj, hc, rfl⟩
  · exact Or.inl hr'
  · rcases RequestService.getRequest_step hs hr' with h | ⟨hn, hp, -⟩ |
      ⟨caller, now, r, rfl, hacc, rfl⟩ | ⟨body, now, r, rfl, -⟩
    · exact Or.inl h
    · exact Or.inr (Or.inl ⟨hn, hp⟩)
    · exact Or.inr (Or.inr (Or.inl ⟨caller, now, r,
        requestLabel_eq_cancelLeave hrl, hacc, rfl⟩))
    · exact absurd rfl (requestLabel_ne_updateStatus hrl id body now)
  · exact Or.inl hr'
  · exact Or.inl hr'
  · cases c with
    | getRequest k => exact Or.inl hr'
    | deductBalance e t d =>
        left
        rcases serve_deductBalance w j h now e t d with
          ⟨-, err, he⟩ | ⟨-, r, he⟩ <;> rw [he] at hr' <;> exact hr'
    | setRequestStatus k body =>
        have hsent := (hI.handlers h (List.mem_of_getElem? hj)).sent
        rw [hc] at hsent
        obtain ⟨rfl, rfl, -⟩ := hsent
        rcases serve_setRequestStatus w j h now h.requestId
            (h.decision.body h.caller) with ⟨-, err, he⟩ | ⟨r, hacc, he⟩
        · rw [he] at hr'
          exact Or.inl hr'
        · rw [he] at hr'
          simp only [RequestStore.getRequest_setStatus] at hr'
          split at hr'
          · rename_i hid
            subst hid
            cases hr'
            exact Or.inr (Or.inr (Or.inr ⟨j, now, h, r, hlab, hj, rfl, hc, hacc,
              rfl⟩))
          · exact Or.inl hr'

/-- **No approval without a deduction**: only an approval that is past its
deduction sends APPROVED. -/
theorem approved_step (hI : Inv chart w) (hl : step chart w l = some w') :
    ∀ id r, w'.requests.store.getRequest id = some r → r.status = .APPROVED →
      Paid w'.ledger id := by
  intro id r' hr' ha
  have hpaid : Paid w.ledger id := by
    rcases getRequest_step hI hl hr' with h | ⟨-, hp⟩ |
      ⟨caller, now, r, -, -, rfl⟩ | ⟨j, now, h, r, -, hj, rfl, hc, -, rfl⟩
    · exact hI.approved id r' h ha
    · rw [hp] at ha
      cases ha
    · cases ha
    · have hsent := (hI.handlers h (List.mem_of_getElem? hj)).sent
      rw [hc] at hsent
      obtain ⟨-, -, hpaid⟩ := hsent
      refine hpaid ?_
      have hnew : h.decision.newStatus = .APPROVED := ha
      cases hd : h.decision with
      | approve => rfl
      | reject payload => rw [hd] at hnew; cases hnew
  exact hpaid.mono (ledger_step hl)

theorem inv_step (hI : Inv chart w) (hl : step chart w l = some w') :
    Inv chart w' where
  requests := invariant (fun _ _ _ => RequestService.inv_step) hI.requests
    (requests_step hl)
  handlers := handlers_step hI hl
  ledger := ledger_matches_step hI hl
  approved := approved_step hI hl

theorem Initial.reaches_inv (h : Initial chart w)
    (hr : Reaches (step chart) w w') : Inv chart w' :=
  invariant (fun _ _ _ => inv_step) h.inv hr

end World

end Elms
