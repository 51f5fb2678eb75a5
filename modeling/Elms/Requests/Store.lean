import Elms.Lib.Calendar
import Elms.Shared.Basic

/-!
# The request store

`leave_request_service/models.py` and `store.py`: the records by id and the
two secondary indexes, with the invariant that ties the three dictionaries
together (`RequestStore.WF`).
-/

namespace Elms

open Calendar

/-! ## §1  Records -/

structure LeaveRequest where
  requestId : String
  employeeId : String
  leaveType : LeaveType
  startDate : Date
  endDate : Date
  numberOfDays : Int
  reason : String
  reportingManagerId : String
  status : LeaveStatus := .PENDING
  rejectionReason : Option String := none
  createdAt : Timestamp
  updatedAt : Timestamp
deriving DecidableEq, Repr

/-- `set_status` on one record: the reason is kept only for a rejection. -/
def LeaveRequest.setStatus (r : LeaveRequest) (newStatus : LeaveStatus)
    (rejectionReason : Option String) (now : Timestamp) : LeaveRequest :=
  { r with
    status := newStatus
    rejectionReason :=
      if newStatus = .REJECTED then rejectionReason else none
    updatedAt := now }

/-- The two records agree on everything but status, reason and `updated_at`. -/
def LeaveRequest.SameLeave (r r' : LeaveRequest) : Prop :=
  r'.requestId = r.requestId ∧ r'.employeeId = r.employeeId ∧
  r'.leaveType = r.leaveType ∧ r'.startDate = r.startDate ∧
  r'.endDate = r.endDate ∧ r'.numberOfDays = r.numberOfDays ∧
  r'.reason = r.reason ∧ r'.reportingManagerId = r.reportingManagerId ∧
  r'.createdAt = r.createdAt

theorem LeaveRequest.SameLeave.refl (r : LeaveRequest) : r.SameLeave r :=
  ⟨rfl, rfl, rfl, rfl, rfl, rfl, rfl, rfl, rfl⟩

theorem LeaveRequest.SameLeave.trans {r r' r'' : LeaveRequest}
    (h : r.SameLeave r') (h' : r'.SameLeave r'') : r.SameLeave r'' := by
  obtain ⟨h₁, h₂, h₃, h₄, h₅, h₆, h₇, h₈, h₉⟩ := h
  obtain ⟨k₁, k₂, k₃, k₄, k₅, k₆, k₇, k₈, k₉⟩ := h'
  exact ⟨k₁.trans h₁, k₂.trans h₂, k₃.trans h₃, k₄.trans h₄, k₅.trans h₅,
    k₆.trans h₆, k₇.trans h₇, k₈.trans h₈, k₉.trans h₉⟩

theorem LeaveRequest.sameLeave_setStatus (r : LeaveRequest)
    (newStatus : LeaveStatus) (reason : Option String) (now : Timestamp) :
    r.SameLeave (r.setStatus newStatus reason now) :=
  ⟨rfl, rfl, rfl, rfl, rfl, rfl, rfl, rfl, rfl⟩

/-! ## §2  The store -/

/-- The three module-level dictionaries of the service. -/
structure RequestStore where
  requestsStore : Dict String LeaveRequest
  employeeRequestsIndex : Dict String (List String)
  managerRequestsIndex : Dict String (List String)
deriving DecidableEq

namespace RequestStore

def empty : RequestStore := ⟨Dict.empty, Dict.empty, Dict.empty⟩

/-- `add_request` -/
def addRequest (st : RequestStore) (request : LeaveRequest) : RequestStore :=
  { requestsStore := st.requestsStore.set request.requestId request
    employeeRequestsIndex :=
      st.employeeRequestsIndex.push request.employeeId request.requestId
    managerRequestsIndex :=
      st.managerRequestsIndex.push request.reportingManagerId request.requestId }

/-- `get_request` -/
def getRequest (st : RequestStore) (requestId : String) : Option LeaveRequest :=
  st.requestsStore.get? requestId

/-- `get_requests_for_employee`; `none` is the `KeyError` of a dangling id. -/
def getRequestsForEmployee (st : RequestStore) (employeeId : String) :
    Option (List LeaveRequest) :=
  (st.employeeRequestsIndex.getList employeeId).mapM st.requestsStore.get?

/-- `get_requests_for_manager` -/
def getRequestsForManager (st : RequestStore) (managerId : String) :
    Option (List LeaveRequest) :=
  (st.managerRequestsIndex.getList managerId).mapM st.requestsStore.get?

/-- `set_status` on the record held under `requestId`: handlers look the
record up and mutate that object, so the store sees the change. -/
def setStatus (st : RequestStore) (requestId : String) (request : LeaveRequest)
    (newStatus : LeaveStatus) (rejectionReason : Option String)
    (now : Timestamp) : RequestStore :=
  { st with
    requestsStore := st.requestsStore.set requestId
      (request.setStatus newStatus rejectionReason now) }

/-- All requests, in submission order. -/
def requests (st : RequestStore) : List LeaveRequest := st.requestsStore.values

@[simp] theorem getRequest_empty (id : String) : empty.getRequest id = none := rfl

theorem getRequest_addRequest (st : RequestStore) (r : LeaveRequest)
    (id : String) :
    (st.addRequest r).getRequest id =
      if id = r.requestId then some r else st.getRequest id :=
  Dict.get?_set _ _ _ _

theorem getRequest_setStatus (st : RequestStore) (id id' : String)
    (r : LeaveRequest) (s : LeaveStatus) (reason : Option String)
    (now : Timestamp) :
    (st.setStatus id r s reason now).getRequest id' =
      if id' = id then some (r.setStatus s reason now)
      else st.getRequest id' :=
  Dict.get?_set _ _ _ _

theorem forall_addRequest {P : String → LeaveRequest → Prop}
    {st : RequestStore} {r : LeaveRequest}
    (hst : ∀ id q, st.getRequest id = some q → P id q)
    (hr : P r.requestId r) :
    ∀ id q, (st.addRequest r).getRequest id = some q → P id q := by
  intro id q h
  rw [getRequest_addRequest] at h
  split at h
  · rename_i hid
    cases h
    exact hid ▸ hr
  · exact hst id q h

/-- What survives a change of status holds of every record after
`set_status`, when it held of every record before. -/
theorem forall_setStatus {P : String → LeaveRequest → Prop}
    {st : RequestStore} {id : String} {r : LeaveRequest}
    (hP : ∀ id (q q' : LeaveRequest), q.SameLeave q' → P id q → P id q')
    (hst : ∀ id q, st.getRequest id = some q → P id q)
    (hr : st.getRequest id = some r) (s : LeaveStatus)
    (reason : Option String) (now : Timestamp) :
    ∀ id' q, (st.setStatus id r s reason now).getRequest id' = some q →
      P id' q := by
  intro id' q h
  rw [getRequest_setStatus] at h
  split at h
  · rename_i hid
    cases h
    rw [hid]
    exact hP id r _ (r.sameLeave_setStatus _ _ _) (hst id r hr)
  · exact hst id' q h

theorem mem_requests_iff {st : RequestStore} {r : LeaveRequest} :
    r ∈ st.requests ↔ ∃ id, st.getRequest id = some r :=
  Dict.mem_values_iff

/-! ## §3  The representation invariant -/

/-- Records sit under their own id, and each index list is the scan of the
store that it stands for. -/
structure WF (st : RequestStore) : Prop where
  own : ∀ id r, st.getRequest id = some r → r.requestId = id
  byEmployee : ∀ e, st.employeeRequestsIndex.getList e =
    (st.requests.filter fun r => r.employeeId = e).map LeaveRequest.requestId
  byManager : ∀ m, st.managerRequestsIndex.getList m =
    (st.requests.filter fun r => r.reportingManagerId = m).map
      LeaveRequest.requestId

theorem empty_wf : empty.WF := by
  constructor
  · intro id r h
    cases h
  · intro e
    rfl
  · intro m
    rfl

/-- A request under a fresh id comes last. -/
theorem requests_addRequest {st : RequestStore} {r : LeaveRequest}
    (hid : r.requestId ∉ st.requestsStore.keys) :
    (st.addRequest r).requests = st.requests ++ [r] :=
  Dict.values_set_of_not_mem r hid

theorem addRequest_wf {st : RequestStore} (hwf : st.WF) {r : LeaveRequest}
    (hid : r.requestId ∉ st.requestsStore.keys) : (st.addRequest r).WF := by
  have hreq := requests_addRequest hid
  constructor
  · exact forall_addRequest hwf.own rfl
  · intro e
    rw [hreq]
    simp only [addRequest, Dict.getList_push, hwf.byEmployee]
    by_cases he : e = r.employeeId
    · simp [he]
    · simp [he, Ne.symm he]
  · intro m
    rw [hreq]
    simp only [addRequest, Dict.getList_push, hwf.byManager]
    by_cases hm : m = r.reportingManagerId
    · simp [hm]
    · simp [hm, Ne.symm hm]

/-- A scan that does not look at the status is untouched by `set_status`. -/
theorem map_filter_setStatus {α : Type} {st : RequestStore} {id : String}
    {r : LeaveRequest} (h : st.getRequest id = some r) (s : LeaveStatus)
    (reason : Option String) (now : Timestamp) (p : LeaveRequest → Bool)
    (hp : p (r.setStatus s reason now) = p r) (f : LeaveRequest → α)
    (hf : f (r.setStatus s reason now) = f r) :
    ((st.setStatus id r s reason now).requests.filter p).map f =
      (st.requests.filter p).map f := by
  obtain ⟨l, l', he, -, -, hs⟩ := Dict.entries_set_of_get? h
  simp only [requests, setStatus, Dict.values, hs, he, List.map_append,
    List.map_cons, List.filter_append, List.filter_cons, hp]
  cases p r
  · rfl
  · simp only [if_true, List.map_cons, hf]

theorem setStatus_wf {st : RequestStore} (hwf : st.WF) {id : String}
    {r : LeaveRequest} (h : st.getRequest id = some r) (s : LeaveStatus)
    (reason : Option String) (now : Timestamp) :
    (st.setStatus id r s reason now).WF := by
  constructor
  · refine forall_setStatus (fun id q q' hs hq => ?_) hwf.own h s reason now
    exact hs.1.trans hq
  · intro e
    rw [map_filter_setStatus h s reason now _ rfl _ rfl]
    exact hwf.byEmployee e
  · intro m
    rw [map_filter_setStatus h s reason now _ rfl _ rfl]
    exact hwf.byManager m

/-- No two stored requests have one id. -/
theorem nodup_requestIds {st : RequestStore} (hwf : st.WF) :
    (st.requests.map LeaveRequest.requestId).Nodup := by
  have hkeys : st.requests.map LeaveRequest.requestId =
      st.requestsStore.keys := by
    rw [requests, Dict.values, Dict.keys, List.map_map]
    apply List.map_congr_left
    intro p hp
    exact hwf.own p.1 p.2 (Dict.get?_eq_some_iff.mpr hp)
  rw [hkeys]
  exact st.requestsStore.nodup_keys

/-- So no two that a scan finds have one either. -/
theorem nodup_map_filter {st : RequestStore} (hwf : st.WF)
    (p : LeaveRequest → Bool) :
    ((st.requests.filter p).map LeaveRequest.requestId).Nodup := by
  have hsub : (st.requests.filter p).Sublist st.requests := List.filter_sublist
  exact (hsub.map LeaveRequest.requestId).nodup (nodup_requestIds hwf)

/-- Looking up the ids of stored records gives the records back. -/
theorem mapM_get?_requestId {st : RequestStore} (hwf : st.WF) :
    ∀ {rs : List LeaveRequest}, (∀ r ∈ rs, r ∈ st.requests) →
      (rs.map LeaveRequest.requestId).mapM st.requestsStore.get? = some rs
  | [], _ => rfl
  | r :: rs, hmem => by
      obtain ⟨id, hid⟩ := mem_requests_iff.mp (hmem r List.mem_cons_self)
      have hown := hwf.own id r hid
      rw [List.map_cons, List.mapM_cons, hown, show st.requestsStore.get? id =
        some r from hid, mapM_get?_requestId hwf
        fun r' hr' => hmem r' (List.mem_cons_of_mem _ hr')]
      rfl

/-- **No dangling ids**: the employee index reads as the full scan. -/
theorem getRequestsForEmployee_eq {st : RequestStore} (hwf : st.WF)
    (e : String) :
    st.getRequestsForEmployee e =
      some (st.requests.filter fun r => r.employeeId = e) := by
  rw [getRequestsForEmployee, hwf.byEmployee]
  exact mapM_get?_requestId hwf fun r hr => List.mem_of_mem_filter hr

theorem getRequestsForManager_eq {st : RequestStore} (hwf : st.WF)
    (m : String) :
    st.getRequestsForManager m =
      some (st.requests.filter fun r => r.reportingManagerId = m) := by
  rw [getRequestsForManager, hwf.byManager]
  exact mapM_get?_requestId hwf fun r hr => List.mem_of_mem_filter hr

end RequestStore

end Elms
