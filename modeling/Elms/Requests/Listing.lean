import Elms.Requests.Index

/-!
# The internal listing

`GET /internal/requests` starts from one selector and then narrows down. It is
meant as the conjunction of its filters; the chain that narrows down repeats
`employee_id` but not `manager_id`, so a lookup by `request_id` does not see
the manager it was given (`list_requests_conjunction_iff`).
-/

namespace Elms

open Calendar

/-! ## §1  What the filters ask for -/

namespace ListFilters

/-- The filters that the chain applies, whatever the listing started from. -/
def Narrows (f : ListFilters) (r : LeaveRequest) : Prop :=
  (∀ e ∈ f.employeeId, r.employeeId = e) ∧
  (∀ s ∈ f.status, r.status = s) ∧
  (∀ d ∈ f.fromDate, r.endDate ≥ d) ∧
  (∀ d ∈ f.toDate, r.startDate ≤ d)

/-- The request satisfies every filter that is supplied. -/
def Selects (f : ListFilters) (r : LeaveRequest) : Prop :=
  (∀ id ∈ f.requestId, r.requestId = id) ∧
  (∀ m ∈ f.managerId, r.reportingManagerId = m) ∧
  f.Narrows r

/-- The request that is asked for by its id is another manager's, and none of
the other filters excludes it. -/
def MissesManager (f : ListFilters) (r : LeaveRequest) : Prop :=
  r.requestId ∈ f.requestId ∧
  (∃ m ∈ f.managerId, r.reportingManagerId ≠ m) ∧
  f.Narrows r

instance (f : ListFilters) (r : LeaveRequest) : Decidable (f.Narrows r) :=
  inferInstanceAs (Decidable (_ ∧ _ ∧ _ ∧ _))

instance (f : ListFilters) (r : LeaveRequest) : Decidable (f.Selects r) :=
  inferInstanceAs (Decidable (_ ∧ _ ∧ _))

/-- The scan that the selector in use stands for. -/
def Starts (f : ListFilters) (r : LeaveRequest) : Prop :=
  match f.requestId, f.managerId, f.employeeId with
  | some id, _, _ => r.requestId = id
  | none, some m, _ => r.reportingManagerId = m
  | none, none, some e => r.employeeId = e
  | none, none, none => True

instance (f : ListFilters) : DecidablePred f.Starts := by
  intro r
  unfold Starts
  split <;> infer_instance

/-- The two readings of the filters differ on the missed requests only. -/
theorem starts_and_narrows_iff (f : ListFilters) (r : LeaveRequest) :
    f.Starts r ∧ f.Narrows r ↔ f.Selects r ∨ f.MissesManager r := by
  obtain ⟨managerId, employeeId, requestId, status, fromDate, toDate⟩ := f
  cases requestId with
  | some id =>
      cases managerId with
      | some m =>
          simp only [Starts, Selects, MissesManager, Option.mem_def,
            Option.some.injEq, forall_eq', exists_eq_left']
          constructor
          · rintro ⟨hid, hn⟩
            by_cases hm : r.reportingManagerId = m
            · exact Or.inl ⟨hid, hm, hn⟩
            · exact Or.inr ⟨hid.symm, hm, hn⟩
          · rintro (⟨hid, -, hn⟩ | ⟨hid, -, hn⟩)
            · exact ⟨hid, hn⟩
            · exact ⟨hid.symm, hn⟩
      | none => simp [Starts, Selects, MissesManager]
  | none =>
      cases managerId with
      | some m => simp [Starts, Selects, MissesManager]
      | none =>
          cases employeeId with
          | some e => simp +contextual [Starts, Selects, MissesManager, Narrows]
          | none => simp [Starts, Selects, MissesManager]

end ListFilters

/-! ## §2  Each branch is a scan -/

/-- A lookup by id is the scan for that id. -/
theorem RequestStore.toList_getRequest {st : RequestStore} (hwf : st.WF)
    (id : String) :
    (st.getRequest id).toList = st.requests.filter fun r => r.requestId = id := by
  cases hg : st.getRequest id with
  | none =>
      symm
      rw [Option.toList_none, List.filter_eq_nil_iff]
      intro r hr hid
      obtain ⟨k, hk⟩ := mem_requests_iff.mp hr
      rw [← of_decide_eq_true hid, hwf.own k r hk, hk] at hg
      cases hg
  | some r =>
      obtain ⟨l, l', hsplit⟩ :=
        List.append_of_mem (mem_requests_iff.mpr ⟨id, hg⟩)
      have hown := hwf.own id r hg
      have hnodup := nodup_requestIds hwf
      rw [hsplit, List.map_append, List.map_cons, List.nodup_middle,
        List.nodup_cons, ← List.map_append, hown] at hnodup
      -- no other record has the id
      have hother : ∀ r' ∈ l ++ l', ¬ decide (r'.requestId = id) = true := by
        intro r' hr' hid
        exact hnodup.1 (List.mem_map.mpr ⟨r', hr', of_decide_eq_true hid⟩)
      rw [hsplit, List.filter_append, List.filter_cons_of_pos (by simpa using hown),
        List.filter_eq_nil_iff.mpr fun r' hr' =>
          hother r' (List.mem_append_left _ hr'),
        List.filter_eq_nil_iff.mpr fun r' hr' =>
          hother r' (List.mem_append_right _ hr')]
      rfl

/-- **One lemma for the four branches**: whatever the listing starts from, it
is the scan for the selector in use. -/
theorem listStart_eq {st : RequestStore} (hwf : st.WF) (f : ListFilters) :
    listStart st f = some (st.requests.filter fun r => f.Starts r) := by
  obtain ⟨managerId, employeeId, requestId, status, fromDate, toDate⟩ := f
  cases requestId with
  | some id =>
      show some (st.getRequest id).toList = _
      rw [RequestStore.toList_getRequest hwf]
      rfl
  | none =>
      cases managerId with
      | some m => exact RequestStore.getRequestsForManager_eq hwf m
      | none =>
          cases employeeId with
          | some e => exact RequestStore.getRequestsForEmployee_eq hwf e
          | none =>
              show some st.requests = _
              rw [Option.some.injEq, eq_comm, List.filter_eq_self]
              exact fun r _ => decide_eq_true trivial

/-- The listing is a scan for the requests that it starts from and narrows
down to. -/
theorem listRequests_eq {st : RequestStore} (hwf : st.WF) (f : ListFilters) :
    listRequests st f =
      .ok (st.requests.filter fun r => f.Starts r ∧ f.Narrows r) := by
  unfold listRequests
  rw [listStart_eq hwf]
  dsimp only
  rw [List.filter_filter]
  congr 1
  apply List.filter_congr
  intro r _
  rw [Bool.eq_iff_iff]
  simp only [ListFilters.Narrows, Bool.and_eq_true, Option.all_eq_true,
    decide_eq_true_eq, ge_iff_le, and_assoc]
  exact ⟨fun ⟨he, hs, hf, ht, h⟩ => ⟨h, he, hs, hf, ht⟩,
    fun ⟨h, he, hs, hf, ht⟩ => ⟨he, hs, hf, ht, h⟩⟩

/-! ## §3  The conjunction -/

/-- The listing answers with the stored requests that satisfy every supplied
filter, each once, in submission order. -/
def ListsConjunction (st : RequestStore) (f : ListFilters) : Prop :=
  ∃ rs, listRequests st f = .ok rs ∧
    rs = (st.requests.filter fun r => f.Selects r) ∧
    (rs.map LeaveRequest.requestId).Nodup

/-- **When the listing is the conjunction of its filters**: exactly if it is
not asked, by id and manager, for a request of another manager that no other
filter excludes. -/
theorem list_requests_conjunction_iff {chart : OrgChart} {s : RequestService}
    (hs : RequestService.Reachable chart s) (f : ListFilters) :
    ListsConjunction s.store f ↔
      ¬ ∃ r ∈ s.store.requests, f.MissesManager r := by
  have hwf := hs.inv.wf
  unfold ListsConjunction
  rw [listRequests_eq hwf]
  constructor
  · rintro ⟨rs, hrs, rfl, -⟩ ⟨r, hr, hmiss⟩
    have hlist := Except.ok.inj hrs
    have hstart := (f.starts_and_narrows_iff r).mpr (Or.inr hmiss)
    have hmem : r ∈ s.store.requests.filter fun r => f.Selects r := by
      rw [← hlist]
      exact List.mem_filter.mpr ⟨hr, by simpa using hstart⟩
    have hsel : f.Selects r := by simpa using (List.mem_filter.mp hmem).2
    obtain ⟨-, ⟨m, hm, hne⟩, -⟩ := hmiss
    exact hne (hsel.2.1 m hm)
  · intro hnone
    refine ⟨_, rfl, ?_, RequestStore.nodup_map_filter hwf _⟩
    apply List.filter_congr
    intro r hr
    rw [decide_eq_decide, f.starts_and_narrows_iff]
    exact or_iff_left fun hmiss => hnone ⟨r, hr, hmiss⟩

/-- A request of the first employee, asked for by id, employee and status. -/
def lookup : ListFilters :=
  { employeeId := some EMP1_ID
    requestId := some "request-1"
    status := some .PENDING }

/-- What is pending of that employee, asked for by the manager. -/
def pendingOfEmp1 : ListFilters :=
  { managerId := some MANAGER1_ID
    employeeId := some EMP1_ID
    status := some .PENDING }

/-- The first employee applies. -/
def applyOnce : List RequestLabel :=
  [.applyLeave emp1 familyTrip ⟨738990⟩, .answerBalance 0 (.ok 12),
   .resumeApply 0 "request-1" 100 101]

/-- So does the second one, and the first for another trip, which is withdrawn. -/
def applyThrice : List RequestLabel :=
  applyOnce ++
    [.applyLeave emp2 familyTrip ⟨738990⟩, .answerBalance 1 (.ok 12),
     .resumeApply 1 "request-2" 102 103,
     .applyLeave emp1 laterTrip ⟨738990⟩, .answerBalance 2 (.ok 12),
     .resumeApply 2 "request-3" 104 105,
     .cancelLeave emp1 "request-3" 106]

theorem list_requests_conjunction_lookup :
    ∃ s, Transition.run (RequestService.step SEED_USERS) RequestService.empty
        applyThrice = some s ∧
      s.store.requests.map (fun r => (r.requestId, r.employeeId, r.status)) =
        [("request-1", EMP1_ID, .PENDING), ("request-2", EMP2_ID, .PENDING),
         ("request-3", EMP1_ID, .CANCELLED)] ∧
      ∀ f ∈ [lookup, pendingOfEmp1], ListsConjunction s.store f ∧
        (listRequests s.store f).map (List.map LeaveRequest.requestId) =
          .ok ["request-1"] := by
  have hrun : ∃ s, Transition.run (RequestService.step SEED_USERS)
        RequestService.empty applyThrice = some s ∧
      s.store.requests.map (fun r => (r.requestId, r.employeeId, r.status)) =
        [("request-1", EMP1_ID, .PENDING), ("request-2", EMP2_ID, .PENDING),
         ("request-3", EMP1_ID, .CANCELLED)] ∧
      ∀ f ∈ [lookup, pendingOfEmp1],
        (listRequests s.store f).map (List.map LeaveRequest.requestId) =
          .ok ["request-1"] := by
    decide +kernel
  obtain ⟨s, hs, hstored, hids⟩ := hrun
  refine ⟨s, hs, hstored, fun f hf => ⟨?_, hids f hf⟩⟩
  apply (list_requests_conjunction_iff ⟨_, hs⟩ f).mpr
  rintro ⟨r, -, hid, ⟨m, hm, -⟩, -⟩
  -- neither listing asks by id and by manager
  simp only [List.mem_cons, List.not_mem_nil, or_false] at hf
  rcases hf with rfl | rfl
  · cases hm
  · cases hid

/-- The same request, with a manager that it is not routed to. -/
def ofAnother : ListFilters :=
  { managerId := some EMP2_ID, requestId := some "request-1" }

/-- Asked for by id and by somebody who is not its manager, the request is
returned all the same. -/
theorem list_requests_misses_manager :
    ¬ ∀ (chart : OrgChart) (s : RequestService),
      RequestService.Reachable chart s → ∀ f, ListsConjunction s.store f := by
  intro hall
  have hrun : ∃ s, Transition.run (RequestService.step SEED_USERS)
        RequestService.empty applyOnce = some s ∧
      (listRequests s.store ofAnother).map List.length = .ok 1 ∧
      (s.store.requests.filter fun r => ofAnother.Selects r) = [] := by
    decide +kernel
  obtain ⟨s, hs, hlist, hnone⟩ := hrun
  obtain ⟨rs, hrs, hsel, -⟩ := hall _ _ ⟨_, hs⟩ ofAnother
  rw [hnone] at hsel
  rw [hrs, hsel] at hlist
  cases hlist

end Elms
