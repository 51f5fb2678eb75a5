import Elms.Requests.Service

/-!
# The indexes of the request store

Over any interleaving of applications, cancellations and decisions, each index
list is the scan of the store that it stands for, and the store holds the
requests in the order in which their submission was announced.
-/

namespace Elms

open Calendar Transition

namespace RequestStore

/-! ## §1  What an index is for -/

/-- The index list `ids` and the read through it stand for the scan for `p`. -/
structure Indexes (st : RequestStore) (ids : List String)
    (read : Option (List LeaveRequest)) (p : LeaveRequest → Bool) : Prop where
  nodup : ids.Nodup
  scan : ids = (st.requests.filter p).map LeaveRequest.requestId
  read : read = some (st.requests.filter p)

theorem indexes_employee {st : RequestStore} (hwf : st.WF) (e : String) :
    st.Indexes (st.employeeRequestsIndex.getList e) (st.getRequestsForEmployee e)
      fun r => r.employeeId = e := by
  constructor
  · rw [hwf.byEmployee]
    exact nodup_map_filter hwf _
  · exact hwf.byEmployee e
  · exact getRequestsForEmployee_eq hwf e

theorem indexes_manager {st : RequestStore} (hwf : st.WF) (m : String) :
    st.Indexes (st.managerRequestsIndex.getList m) (st.getRequestsForManager m)
      fun r => r.reportingManagerId = m := by
  constructor
  · rw [hwf.byManager]
    exact nodup_map_filter hwf _
  · exact hwf.byManager m
  · exact getRequestsForManager_eq hwf m

end RequestStore

/-! ## §2  Submission order -/

/-- The event that announces the submission of a request. -/
def LeaveRequest.applied (r : LeaveRequest) : Event :=
  .leaveApplied r.employeeId r.reportingManagerId r.requestId

namespace RequestService

variable {chart : OrgChart}

/-- `set_status` leaves what was announced alone. -/
theorem applied_setStatus {st : RequestStore} {id : String} {r : LeaveRequest}
    (h : st.getRequest id = some r) (status : LeaveStatus)
    (reason : Option String) (now : Timestamp) :
    (st.setStatus id r status reason now).requests.map LeaveRequest.applied =
      st.requests.map LeaveRequest.applied := by
  have hall := RequestStore.map_filter_setStatus h status reason now
    (fun _ => true) rfl LeaveRequest.applied rfl
  rwa [List.filter_true, List.filter_true] at hall

/-- **Step lemma**: the store grows at its end, with what is announced. -/
theorem submitted_step {s s' : RequestService} {l : RequestLabel}
    (hI : s.store.requests.map LeaveRequest.applied = s.published)
    (hl : step chart s l = some s') :
    s'.store.requests.map LeaveRequest.applied = s'.published := by
  obtain ⟨out, he⟩ := step_eq_some_iff.mp hl
  rcases exec_cases he with ⟨hs, hp⟩ |
    ⟨i, uuid, c, u, caller, payload, m, -, hadm, hs, -, hp⟩ |
    ⟨caller, id, now, r, -, hacc, hs, -, hp⟩ |
    ⟨id, body, now, r, -, hacc, hs, -, hp⟩
  · rw [hs, hp]
    exact hI
  · have hreq : s'.store.requests =
        s.store.requests ++ [payload.toRequest caller m uuid c u] := by
      rw [hs]
      exact RequestStore.requests_addRequest hadm.fresh
    rw [hreq, hp, List.map_append, hI]
    rfl
  · rw [hs, hp, applied_setStatus hacc.stored]
    exact hI
  · rw [hs, hp, applied_setStatus hacc.stored]
    exact hI

theorem Reachable.submitted {s : RequestService} (h : Reachable chart s) :
    s.store.requests.map LeaveRequest.applied = s.published := by
  apply invariant (I := fun s : RequestService =>
    s.store.requests.map LeaveRequest.applied = s.published) _ _ h
  · intro u l u' hu hl
    exact submitted_step hu hl
  · rfl

/-! ## §3  The representation invariant -/

/-- **The store and its indexes**, in every reachable state: requests are held
in the order of their submission, both indexes read as full scans of them, and
each request spans a nonempty range of the days that it counts, routed to the
manager of its employee. -/
theorem request_store_invariant {s : RequestService} (h : Reachable chart s) :
    s.store.requests.map LeaveRequest.applied = s.published ∧
    (∀ e, s.store.Indexes (s.store.employeeRequestsIndex.getList e)
      (s.store.getRequestsForEmployee e) fun r => r.employeeId = e) ∧
    (∀ m, s.store.Indexes (s.store.managerRequestsIndex.getList m)
      (s.store.getRequestsForManager m) fun r => r.reportingManagerId = m) ∧
    ∀ r ∈ s.store.requests, r.startDate ≤ r.endDate ∧
      r.numberOfDays = (Set.Icc r.startDate r.endDate).ncard ∧
      chart.getManagerId r.employeeId = some r.reportingManagerId := by
  have hI := h.inv
  refine ⟨h.submitted, RequestStore.indexes_employee hI.wf,
    RequestStore.indexes_manager hI.wf, ?_⟩
  intro r hr
  have hsound := hI.sound_of_mem hr
  refine ⟨hsound.ordered, ?_, hsound.routed⟩
  rw [hsound.counted, ncard_Icc hsound.ordered]

/-- A request that is withdrawn, a second one, and its approval. -/
def withdrawnAndApproved : List RequestLabel :=
  [.applyLeave emp1 familyTrip ⟨738990⟩,
   .answerBalance 0 (.ok 12),
   .resumeApply 0 "request-1" 100 101,
   .cancelLeave emp1 "request-1" 102,
   .applyLeave emp1 familyTrip ⟨738990⟩,
   .answerBalance 1 (.ok 12),
   .resumeApply 1 "request-2" 103 104,
   .updateStatus "request-2" ⟨.APPROVED, MANAGER1_ID, none⟩ 105]

theorem request_store_invariant_withdrawnAndApproved :
    ∃ s, run (step SEED_USERS) empty withdrawnAndApproved = some s ∧
      s.store.employeeRequestsIndex.getList EMP1_ID = ["request-1", "request-2"] ∧
      (s.store.employeeRequestsIndex.getList EMP1_ID).Nodup ∧
      s.store.getRequestsForManager MANAGER1_ID =
        some (s.store.requests.filter fun r => r.reportingManagerId = MANAGER1_ID) ∧
      ∀ r ∈ s.store.requests,
        r.numberOfDays = (Set.Icc r.startDate r.endDate).ncard := by
  have hrun : ∃ s, run (step SEED_USERS) empty withdrawnAndApproved = some s ∧
      s.store.employeeRequestsIndex.getList EMP1_ID =
        ["request-1", "request-2"] := by
    decide +kernel
  obtain ⟨s, hs, hids⟩ := hrun
  obtain ⟨-, hemp, hman, hall⟩ := request_store_invariant ⟨_, hs⟩
  exact ⟨s, hs, hids, (hemp EMP1_ID).nodup, (hman MANAGER1_ID).read,
    fun r hr => (hall r hr).2.1⟩

end RequestService

end Elms
