import Elms.Requests.BalanceClient
import Elms.Requests.Service

/-!
# Which applications are admitted

`apply_leave` run alone, its balance lookup answered by the Balance Service.
The five gates are stated here by what they are for: days on the calendar,
the org chart, the days left. `applyLeaveAlone_iff` says that the handler
admits exactly the applications that meet them, and which status the first
one that fails gives.
-/

namespace Elms

open Calendar Transition

/-! ## §1  The handler alone -/

/-- `apply_leave` with nothing between its two segments. -/
def applyLeaveAlone (chart : OrgChart) (balances : BalanceStore)
    (st : RequestStore) (today : Date) (caller : CallerIdentity)
    (body : ApplyLeaveBody) (uuid : String) (createdAt updatedAt : Timestamp) :
    Response LeaveRequestResponse × RequestStore :=
  match applyLeave chart st today caller body with
  | .error e => (.error e, st)
  | .ok (payload, managerId) =>
      match applyLeaveResumed caller payload managerId uuid createdAt updatedAt
        (fetchRemaining balances chart caller.userId payload.leaveType) with
      | .error e => (.error e, st)
      | .ok request => (.ok request, st.addRequest request)

namespace RequestService

variable {chart : OrgChart}

/-- The segments of an application that comes in alone: those before the one
that ends it, and that one. -/
def applySegments (chart : OrgChart) (balances : BalanceStore)
    (s : RequestService) (today : Date) (caller : CallerIdentity)
    (body : ApplyLeaveBody) (uuid : String) (createdAt updatedAt : Timestamp) :
    List RequestLabel × RequestLabel :=
  match Elms.applyLeave chart s.store today caller body with
  | .error _ => ([], .applyLeave caller body today)
  | .ok (payload, _) =>
      ([.applyLeave caller body today,
        .answerBalance s.applies.length
          (fetchRemaining balances chart caller.userId payload.leaveType)],
       .resumeApply s.applies.length uuid createdAt updatedAt)

/-- Taking these segments one after the other is the handler alone. -/
theorem run_applySegments (s : RequestService) (balances : BalanceStore)
    (today : Date) (caller : CallerIdentity) (body : ApplyLeaveBody)
    {uuid : String} (c u : Timestamp)
    (hfresh : uuid ∉ s.store.requestsStore.keys) :
    ∃ s₁ s', run (step chart) s (applySegments chart balances s today caller
        body uuid c u).1 = some s₁ ∧
      exec chart s₁ (applySegments chart balances s today caller body uuid
          c u).2 =
        some (s', some (applyLeaveAlone chart balances s.store today caller
          body uuid c u).1) ∧
      s'.store = (applyLeaveAlone chart balances s.store today caller body uuid
        c u).2 := by
  unfold applySegments applyLeaveAlone
  cases ha : Elms.applyLeave chart s.store today caller body with
  | error e =>
      refine ⟨s, { s with applies := s.applies ++ [⟨caller, .done (.error e)⟩] },
        rfl, ?_, rfl⟩
      simp only [exec, ha]
  | ok pm =>
      obtain ⟨payload, m⟩ := pm
      simp only
      generalize fetchRemaining balances chart caller.userId
        payload.leaveType = reply
      let i := s.applies.length
      let waiting : ApplyHandler :=
        ⟨caller, .awaitingBalance payload m (some reply)⟩
      let s₁ : RequestService := { s with applies := s.applies ++ [waiting] }
      have hrun : run (step chart) s
          [.applyLeave caller body today, .answerBalance i reply] = some s₁ := by
        simp [run, step, exec, ha, setApply, i, s₁, waiting]
      have hwaiting : s₁.applies[i]? = some waiting := by
        simp [i, s₁]
      cases hr : applyLeaveResumed caller payload m uuid c u reply with
      | error e =>
          refine ⟨s₁, s₁.setApply i ⟨caller, .done (.error e)⟩, hrun, ?_, rfl⟩
          simp only [exec, hwaiting, waiting, s₁, if_neg hfresh, hr, i]
      | ok request =>
          refine ⟨s₁, { s₁.setApply i ⟨caller, .done (.ok request)⟩ with
              store := s₁.store.addRequest request
              published := s₁.published ++
                [.leaveApplied caller.userId m uuid] }, hrun, ?_, rfl⟩
          simp only [exec, hwaiting, waiting, s₁, if_neg hfresh, hr, i]

end RequestService

/-! ## §2  The gates -/

namespace ApplyLeaveRequest

variable {chart : OrgChart} {st : RequestStore} {today : Date}
  {caller : CallerIdentity} {payload : ApplyLeaveRequest}

/-- A range of days from today on, with the right number of them. -/
structure DatesValid (today : Date) (payload : ApplyLeaveRequest) : Prop where
  ordered : payload.startDate ≤ payload.endDate
  notPast : today ≤ payload.startDate
  counted : payload.numberOfDays =
    (Set.Icc payload.startDate payload.endDate).ncard

/-- The caller's manager is `m`, and no other one is asked for. -/
def RoutedTo (chart : OrgChart) (caller : CallerIdentity)
    (payload : ApplyLeaveRequest) (m : String) : Prop :=
  chart.getManagerId caller.userId = some m ∧
  ∀ provided, payload.reportingManagerId = some provided → provided = m

/-- No day asked for is covered by an active request of the caller. -/
def DaysFree (st : RequestStore) (caller : CallerIdentity)
    (payload : ApplyLeaveRequest) : Prop :=
  ∀ day, payload.startDate ≤ day → day ≤ payload.endDate →
    ∀ id r, st.getRequest id = some r → r.employeeId = caller.userId →
      r.status = .PENDING ∨ r.status = .APPROVED →
      ¬ (r.startDate ≤ day ∧ day ≤ r.endDate)

/-- A payload is what its own body parses to. -/
theorem parse_body (payload : ApplyLeaveRequest) :
    parse payload.toApplyLeaveBody = .ok payload := by
  unfold parse
  rw [dif_pos ⟨payload.numberOfDays_gt, payload.reason_length,
    payload.reportingManagerId_minLength⟩]

theorem validateDates_eq_ok_iff_datesValid :
    validateDates today payload.startDate payload.endDate
      payload.numberOfDays = .ok () ↔ DatesValid today payload := by
  rw [validateDates_eq_ok_iff]
  constructor
  · rintro ⟨hse, hts, hn⟩
    exact ⟨hse, hts, hn.trans (ncard_Icc hse).symm⟩
  · rintro ⟨hse, hts, hn⟩
    exact ⟨hse, hts, hn.trans (ncard_Icc hse)⟩

theorem resolveManager_eq_ok_iff_routedTo {m : String} :
    resolveManager chart caller.userId payload.reportingManagerId = .ok m ↔
      RoutedTo chart caller payload m := by
  rw [resolveManager_eq_ok_iff]
  unfold RoutedTo
  cases payload.reportingManagerId with
  | none => simp
  | some provided => simp

theorem isActive_iff {status : LeaveStatus} :
    status.isActive = true ↔ status = .PENDING ∨ status = .APPROVED := by
  simp [LeaveStatus.isActive]

/-- The endpoint comparisons of `check_overlap` are about days: stored ranges
are not empty. -/
theorem checkOverlap_eq_ok_iff_daysFree (hwf : st.WF)
    (hord : ∀ id r, st.getRequest id = some r → r.startDate ≤ r.endDate)
    (hse : payload.startDate ≤ payload.endDate) :
    checkOverlap st caller.userId payload.startDate payload.endDate = .ok () ↔
      DaysFree st caller payload := by
  rw [checkOverlap_eq_ok_iff hwf]
  constructor
  · intro h day hs he id r hr hemp hact ⟨hrs, hre⟩
    exact h id r hr hemp (isActive_iff.mpr hact)
      ⟨hrs.trans he, hs.trans hre⟩
  · intro h id r hr hemp hact hmeet
    obtain ⟨day, ⟨hrs, hre⟩, hs, he⟩ :=
      (sharesDay_iff (hord id r hr) hse).mpr hmeet
    exact h day hs he id r hr hemp (isActive_iff.mp hact) ⟨hrs, hre⟩

/-! What each gate raises. -/

theorem validateDates_error {s e : Date} {n : Int} {err : HTTPException}
    (h : validateDates today s e n = .error err) : err.statusCode = 400 := by
  unfold validateDates at h
  split at h
  · cases h
    rfl
  · split at h
    · cases h
      rfl
    · simp only at h
      split at h <;> cases h
      rfl

theorem resolveManager_error {e : String} {provided : Option String}
    {err : HTTPException} (h : resolveManager chart e provided = .error err) :
    err.statusCode = 400 := by
  unfold resolveManager at h
  split at h
  · cases h
    rfl
  · split at h <;> cases h
    rfl

theorem checkOverlapLoop_error {s e : Date} {err : HTTPException} :
    ∀ {rs : List LeaveRequest}, checkOverlapLoop s e rs = .error err →
      err.statusCode = 409
  | [], h => by cases h
  | r :: rs, h => by
      unfold checkOverlapLoop at h
      split at h
      · exact checkOverlapLoop_error h
      · split at h
        · cases h
          rfl
        · exact checkOverlapLoop_error h

theorem checkOverlap_error (hwf : st.WF) {e : String} {s d : Date}
    {err : HTTPException} (h : checkOverlap st e s d = .error err) :
    err.statusCode = 409 := by
  rw [checkOverlap, RequestStore.getRequestsForEmployee_eq hwf] at h
  exact checkOverlapLoop_error h

theorem applyLeaveResumed_error {m uuid : String} {c u : Timestamp}
    {remaining : Int} {err : HTTPException}
    (h : applyLeaveResumed caller payload m uuid c u (.ok remaining) =
      .error err) : err.statusCode = 409 := by
  unfold applyLeaveResumed at h
  simp only at h
  split at h <;> cases h
  rfl

end ApplyLeaveRequest

/-! ## §3  Admission -/

/-- The store has one record more, at the end of the store and of its two
indexes, and is otherwise the same. -/
structure RequestStore.Inserted (st st' : RequestStore) (r : LeaveRequest) :
    Prop where
  stored : ∀ id, st'.getRequest id =
    if id = r.requestId then some r else st.getRequest id
  listed : st'.requests = st.requests ++ [r]
  byEmployee : ∀ e, st'.employeeRequestsIndex.getList e =
    st.employeeRequestsIndex.getList e ++
      if e = r.employeeId then [r.requestId] else []
  byManager : ∀ m, st'.managerRequestsIndex.getList m =
    st.managerRequestsIndex.getList m ++
      if m = r.reportingManagerId then [r.requestId] else []

theorem RequestStore.inserted_addRequest {st : RequestStore} {r : LeaveRequest}
    (hfresh : r.requestId ∉ st.requestsStore.keys) :
    st.Inserted (st.addRequest r) r where
  stored := getRequest_addRequest st r
  listed := RequestStore.requests_addRequest hfresh
  byEmployee := by
    intro e
    simp only [addRequest, Dict.getList_push]
    by_cases he : e = r.employeeId
    · rw [if_pos he, if_pos he, he]
    · rw [if_neg he, if_neg he, List.append_nil]
  byManager := by
    intro m
    simp only [addRequest, Dict.getList_push]
    by_cases hm : m = r.reportingManagerId
    · rw [if_pos hm, if_pos hm, hm]
    · rw [if_neg hm, if_neg hm, List.append_nil]

namespace ApplyLeaveRequest

variable {chart : OrgChart} {balances : BalanceStore} {s : RequestService}

/-- **Admission, inverted.** With the gates in their order: the first one that
fails refuses, with the store as it was; past all of them the record is in. -/
theorem applyLeaveAlone_cases (hI : s.Inv chart) (hwf : balances.WF)
    (today : Date) (caller : CallerIdentity) (payload : ApplyLeaveRequest)
    (uuid : String) (c u : Timestamp) :
    (¬ (DatesValid today payload ∧ ∃ m, RoutedTo chart caller payload m) ∧
      ∃ e, applyLeaveAlone chart balances s.store today caller
        payload.toApplyLeaveBody uuid c u = (.error e, s.store) ∧
        e.statusCode = 400) ∨
    (∃ m, DatesValid today payload ∧ RoutedTo chart caller payload m ∧
      ¬ (DaysFree s.store caller payload ∧ payload.numberOfDays ≤
        balances.remainingOf caller.userId payload.leaveType) ∧
      ∃ e, applyLeaveAlone chart balances s.store today caller
        payload.toApplyLeaveBody uuid c u = (.error e, s.store) ∧
        e.statusCode = 409) ∨
    (∃ m, DatesValid today payload ∧ RoutedTo chart caller payload m ∧
      DaysFree s.store caller payload ∧ payload.numberOfDays ≤
        balances.remainingOf caller.userId payload.leaveType ∧
      applyLeaveAlone chart balances s.store today caller
        payload.toApplyLeaveBody uuid c u =
        (.ok (payload.toRequest caller m uuid c u),
          s.store.addRequest (payload.toRequest caller m uuid c u))) := by
  have hord : ∀ id r, s.store.getRequest id = some r →
      r.startDate ≤ r.endDate := fun id r hr => (hI.sound id r hr).ordered
  simp only [applyLeaveAlone, applyLeave, parse_body, bind, Except.bind, pure,
    Except.pure]
  cases hd : validateDates today payload.startDate payload.endDate
      payload.numberOfDays with
  | error e =>
      refine Or.inl ⟨fun h => ?_, e, rfl, validateDates_error hd⟩
      rw [validateDates_eq_ok_iff_datesValid.mpr h.1] at hd
      cases hd
  | ok u₁ =>
  have hdates := validateDates_eq_ok_iff_datesValid.mp hd
  cases hm : resolveManager chart caller.userId payload.reportingManagerId with
  | error e =>
      refine Or.inl ⟨?_, e, rfl, resolveManager_error hm⟩
      rintro ⟨-, m, hrouted⟩
      rw [resolveManager_eq_ok_iff_routedTo.mpr hrouted] at hm
      cases hm
  | ok m =>
  have hrouted := resolveManager_eq_ok_iff_routedTo.mp hm
  right
  have hfree : checkOverlap s.store caller.userId payload.startDate
      payload.endDate = .ok () ↔ DaysFree s.store caller payload :=
    checkOverlap_eq_ok_iff_daysFree hI.wf hord hdates.ordered
  cases ho : checkOverlap s.store caller.userId payload.startDate
      payload.endDate with
  | error e =>
      refine Or.inl ⟨m, hdates, hrouted, fun h => ?_, e, rfl,
        checkOverlap_error hI.wf ho⟩
      rw [hfree.mpr h.1] at ho
      cases ho
  | ok u₂ =>
  simp only [BalanceStore.fetchRemaining_eq hwf]
  cases hr : applyLeaveResumed caller payload m uuid c u
      (.ok (balances.remainingOf caller.userId payload.leaveType)) with
  | error e =>
      refine Or.inl ⟨m, hdates, hrouted, fun h => ?_, e, rfl,
        applyLeaveResumed_error hr⟩
      rw [applyLeaveResumed_eq_ok_iff.mpr ⟨⟨_, rfl, h.2⟩, rfl⟩] at hr
      cases hr
  | ok r =>
      obtain ⟨⟨remaining, hrem, hle⟩, rfl⟩ := applyLeaveResumed_eq_ok_iff.mp hr
      cases hrem
      exact Or.inr ⟨m, hdates, hrouted, hfree.mp ho, hle, rfl⟩

/-- **Apply admits exactly the valid applications.** In every reachable state
of the Leave Request Service, over every balance store: the handler answers
with a record exactly if the dates are valid, the manager is the right one, no
day is taken and the days are left; the record is then PENDING, routed to the
manager of the org chart, and all that was added. Otherwise nothing is stored,
and the status is 400 if the dates or the manager fail, and 409 if not. -/
theorem applyLeaveAlone_iff (hs : RequestService.Reachable chart s)
    (hb : balances.Reachable) (today : Date) (caller : CallerIdentity)
    (payload : ApplyLeaveRequest) (uuid : String) (c u : Timestamp) :
    ((∃ r, (applyLeaveAlone chart balances s.store today caller
        payload.toApplyLeaveBody uuid c u).1 = .ok r) ↔
      DatesValid today payload ∧ (∃ m, RoutedTo chart caller payload m) ∧
      DaysFree s.store caller payload ∧
      payload.numberOfDays ≤
        balances.remainingOf caller.userId payload.leaveType) ∧
    (∀ r st', applyLeaveAlone chart balances s.store today caller
        payload.toApplyLeaveBody uuid c u = (.ok r, st') →
      r.status = .PENDING ∧ (∃ m, RoutedTo chart caller payload m ∧
        r = payload.toRequest caller m uuid c u) ∧
      (uuid ∉ s.store.requestsStore.keys → s.store.Inserted st' r)) ∧
    ∀ e st', applyLeaveAlone chart balances s.store today caller
        payload.toApplyLeaveBody uuid c u = (.error e, st') →
      st' = s.store ∧
      (¬ (DatesValid today payload ∧ ∃ m, RoutedTo chart caller payload m) →
        e.statusCode = 400) ∧
      (DatesValid today payload ∧ (∃ m, RoutedTo chart caller payload m) →
        e.statusCode = 409) := by
  rcases applyLeaveAlone_cases hs.inv hb.wf today caller payload uuid c u with
    ⟨hno, e, he, hcode⟩ | ⟨m, hdates, hrouted, hno, e, he, hcode⟩ |
    ⟨m, hdates, hrouted, hfree, hle, he⟩
  · rw [he]
    refine ⟨iff_of_false ?_ ?_, ?_, ?_⟩
    · rintro ⟨r, hr⟩
      cases hr
    · exact fun h => hno ⟨h.1, h.2.1⟩
    · intro r st' h
      cases h
    · intro e' st' h
      cases h
      exact ⟨rfl, fun _ => hcode, fun h => absurd h hno⟩
  · rw [he]
    refine ⟨iff_of_false ?_ ?_, ?_, ?_⟩
    · rintro ⟨r, hr⟩
      cases hr
    · exact fun h => hno h.2.2
    · intro r st' h
      cases h
    · intro e' st' h
      cases h
      exact ⟨rfl, fun h => absurd ⟨hdates, m, hrouted⟩ h, fun _ => hcode⟩
  · rw [he]
    refine ⟨iff_of_true ⟨_, rfl⟩ ⟨hdates, ⟨m, hrouted⟩, hfree, hle⟩, ?_, ?_⟩
    · intro r st' h
      cases h
      refine ⟨rfl, ⟨m, hrouted, rfl⟩, fun hfresh => ?_⟩
      apply RequestStore.inserted_addRequest
      exact hfresh
    · intro e' st' h
      cases h

/-- The bodies of the two trips pass their schema. -/
def familyTripPayload : ApplyLeaveRequest where
  toApplyLeaveBody := familyTrip
  numberOfDays_gt := by decide
  reason_length := by decide +kernel
  reportingManagerId_minLength := fun m hm => by cases hm

def laterTripPayload : ApplyLeaveRequest where
  toApplyLeaveBody := laterTrip
  numberOfDays_gt := by decide
  reason_length := by decide +kernel
  reportingManagerId_minLength := fun m hm => by cases hm

/-- The first employee has withdrawn the one trip and waits for the other. -/
def withdrawnAndPending : List RequestLabel :=
  [.applyLeave emp1 familyTrip ⟨738990⟩,
   .answerBalance 0 (.ok 12),
   .resumeApply 0 "request-1" 100 101,
   .cancelLeave emp1 "request-1" 102,
   .applyLeave emp1 laterTrip ⟨738990⟩,
   .answerBalance 1 (.ok 12),
   .resumeApply 1 "request-2" 103 104]

/-- The days of the withdrawn request are free again, those of the other are
not. -/
theorem applyLeaveAlone_iff_familyTrip :
    ∃ s balances,
      run (RequestService.step SEED_USERS) RequestService.empty
        withdrawnAndPending = some s ∧
      s.store.requests.map (fun r => (r.requestId, r.status)) =
        [("request-1", .CANCELLED), ("request-2", .PENDING)] ∧
      ((∃ r, (applyLeaveAlone SEED_USERS balances s.store ⟨738990⟩ emp1
          familyTrip "request-3" 105 106).1 = .ok r) ∧
        DaysFree s.store emp1 familyTripPayload ∧
        3 ≤ balances.remainingOf EMP1_ID .CASUAL) ∧
      ∃ e, applyLeaveAlone SEED_USERS balances s.store ⟨738990⟩ emp1
          laterTrip "request-3" 105 106 = (.error e, s.store) ∧
        e.statusCode = 409 := by
  have hbalances : ∃ balances, run BalanceStore.step BalanceStore.empty
      [.addBalance ⟨"balance-1", EMP1_ID, .CASUAL, 12, 0⟩] = some balances ∧
      ∃ s, run (RequestService.step SEED_USERS) RequestService.empty
        withdrawnAndPending = some s ∧
      s.store.requests.map (fun r => (r.requestId, r.status)) =
        [("request-1", .CANCELLED), ("request-2", .PENDING)] ∧
      (applyLeaveAlone SEED_USERS balances s.store ⟨738990⟩ emp1 familyTrip
        "request-3" 105 106).1.isOk = true ∧
      (applyLeaveAlone SEED_USERS balances s.store ⟨738990⟩ emp1 laterTrip
        "request-3" 105 106).1.isOk = false := by decide +kernel
  obtain ⟨balances, hb, s, hs, hstatuses, hfirst, hsecond⟩ := hbalances
  have hreach : RequestService.Reachable SEED_USERS s := ⟨_, hs⟩
  have admits := fun payload => applyLeaveAlone_iff hreach ⟨_, hb⟩ ⟨738990⟩ emp1
    payload "request-3" 105 106
  refine ⟨s, balances, hs, hstatuses, ?_, ?_⟩
  · cases hout : (applyLeaveAlone SEED_USERS balances s.store ⟨738990⟩ emp1
        familyTrip "request-3" 105 106).1 with
    | error e =>
        rw [hout] at hfirst
        cases hfirst
    | ok r =>
        obtain ⟨-, -, hfree, hleft⟩ :=
          (admits familyTripPayload).1.mp ⟨r, hout⟩
        exact ⟨⟨r, rfl⟩, hfree, hleft⟩
  · rcases hout : applyLeaveAlone SEED_USERS balances s.store ⟨738990⟩ emp1
        laterTrip "request-3" 105 106 with ⟨e | r, st'⟩
    · have hdates : DatesValid ⟨738990⟩ laterTripPayload :=
        validateDates_eq_ok_iff_datesValid.mp (by decide)
      have hrouted : RoutedTo SEED_USERS emp1 laterTripPayload MANAGER1_ID :=
        ⟨by decide +kernel, fun m hm => by cases hm⟩
      obtain ⟨rfl, -, hcode⟩ := (admits laterTripPayload).2.2 e st' hout
      exact ⟨e, rfl, hcode ⟨hdates, _, hrouted⟩⟩
    · rw [hout] at hsecond
      cases hsecond

end ApplyLeaveRequest

end Elms
