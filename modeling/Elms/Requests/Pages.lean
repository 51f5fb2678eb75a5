import Elms.Requests.History

/-!
# History pages

The pages of `leave_history` on one snapshot of the store: for every filter
and every page size they partition the employee's requests of the wanted
status (`history_pages_partition`).
-/

namespace Elms

/-! ## §1  The filter -/

theorem LeaveStatus.ofValue?_value (s : LeaveStatus) :
    LeaveStatus.ofValue? s.value = some s := by
  cases s <;> decide

/-- The filter asks for the status `wanted`, in any letter case; without one
it is absent, empty or `ALL`. -/
def HistoryQuery.Asks (q : HistoryQuery) : Option LeaveStatus → Prop
  | none => q.ReadsAll
  | some wanted => ∃ text ∈ q.statusFilter, PyStr.upper text = wanted.value

instance (q : HistoryQuery) : ∀ wanted, Decidable (q.Asks wanted)
  | none => inferInstanceAs (Decidable q.ReadsAll)
  | some wanted =>
      inferInstanceAs
        (Decidable (∃ text ∈ q.statusFilter, PyStr.upper text = wanted.value))

theorem wantedStatus_of_asks {q : HistoryQuery} {wanted : Option LeaveStatus}
    (h : q.Asks wanted) : wantedStatus q.statusFilter = .ok wanted := by
  cases wanted with
  | none =>
      cases hf : q.statusFilter with
      | none => rfl
      | some text => exact if_pos (h text hf)
  | some wanted =>
      obtain ⟨text, hf, hupper⟩ := h
      -- no status is empty or called ALL
      have hother : ¬ (text = "" ∨ PyStr.upper text = "ALL") := by
        rintro (rfl | hall)
        · revert hupper
          cases wanted <;> decide
        · rw [hall] at hupper
          revert hupper
          cases wanted <;> decide
      rw [hf, wantedStatus, if_neg hother, hupper, LeaveStatus.ofValue?_value]

/-! ## §2  One page and all of them -/

/-- The page count is the rounded-up quotient; no special case is needed for
the empty list. -/
theorem totalPages_pageOf (q : HistoryQuery) (rs : List LeaveRequest) :
    (q.pageOf rs).totalPages = ((rs.length ⌈/⌉ q.pageSize.toNat : Nat) : Int) := by
  have hsize := q.pageSize_ge
  have hcast : (q.pageSize.toNat : Int) = q.pageSize := by omega
  have hpages : (q.pageOf rs).totalPages =
      if (rs.length : Int) ≠ 0 then
        ((rs.length : Int) + q.pageSize - 1) / q.pageSize
      else 0 := rfl
  rw [Nat.ceilDiv_eq_add_pred_div, Int.natCast_ediv, hcast, hpages]
  by_cases htotal : (rs.length : Int) = 0
  · rw [if_neg (not_not.mpr htotal), eq_comm]
    apply Int.ediv_eq_zero_of_lt <;> omega
  · rw [if_pos htotal]
    congr 1
    omega

theorem leaveHistory_of_asks {st : RequestStore} {caller : CallerIdentity}
    {rs : List LeaveRequest} {q : HistoryQuery} {wanted : Option LeaveStatus}
    (hrs : st.getRequestsForEmployee caller.userId = some rs)
    (h : q.Asks wanted) :
    leaveHistory st caller q =
      .ok (q.pageOf (rs.filter fun r => ∀ s ∈ wanted, r.status = s)) := by
  rw [leaveHistory, hrs, wantedStatus_of_asks h]
  show Except.ok (q.pageOf _) = _
  congr 2
  apply List.filter_congr
  intro r _
  rw [Bool.eq_iff_iff, Option.all_eq_true]
  simp

/-- **History pages partition the history.** Every page is answered; pages
1, 2, …, `total_pages` hold the employee's requests of the wanted status, in
submission order, `page_size` on each but the last, and the later pages hold
nothing. Every page gives the same two totals. -/
theorem history_pages_partition {st : RequestStore} {caller : CallerIdentity}
    {rs : List LeaveRequest}
    (hrs : st.getRequestsForEmployee caller.userId = some rs) (q : HistoryQuery)
    {wanted : Option LeaveStatus} (hq : q.Asks wanted) :
    ∃ (reply : Nat → LeaveHistoryResponse) (totalPages : Nat),
      (∀ k, leaveHistory st caller (q.atPage k) = .ok (reply k)) ∧
      Paging.Partition q.pageSize.toNat
        (rs.filter fun r => ∀ s ∈ wanted, r.status = s)
        (fun k => (reply k).items) totalPages ∧
      (∀ k, (reply k).total =
          ((List.range totalPages).flatMap fun k => (reply k).items).length ∧
        (reply k).totalPages = totalPages) ∧
      (st.WF → rs = st.requestsOf caller.userId) := by
  set found := rs.filter fun r => ∀ s ∈ wanted, r.status = s with hfound
  have hsize : 0 < q.pageSize.toNat := by
    have := q.pageSize_ge
    omega
  have hpart : Paging.Partition q.pageSize.toNat found
      (fun k => ((q.atPage k).pageOf found).items)
      (found.length ⌈/⌉ q.pageSize.toNat) := by
    simp only [items_atPage]
    exact Paging.partition_page hsize found
  refine ⟨fun k => (q.atPage k).pageOf found, found.length ⌈/⌉ q.pageSize.toNat,
    ?_, hpart, ?_, ?_⟩
  · intro k
    exact leaveHistory_of_asks hrs (show (q.atPage k).Asks wanted from hq)
  · intro k
    constructor
    · rw [hpart.concat]
      rfl
    · exact totalPages_pageOf (q.atPage k) found
  · intro hwf
    rw [RequestStore.getRequestsForEmployee_eq hwf] at hrs
    exact (Option.some.inj hrs).symm

/-- The first employee's pending requests, one a page. -/
theorem history_pages_partition_pendingByOne :
    ∃ q : HistoryQuery, q.statusFilter = some "Pending" ∧ q.pageSize = 1 ∧
    ∃ s, Transition.run (RequestService.step SEED_USERS) RequestService.empty
        HistoryWalk.twoRequests = some s ∧
      (s.store.requestsOf EMP1_ID).length = 2 ∧
      ∃ (reply : Nat → LeaveHistoryResponse) (totalPages : Nat),
        (∀ k, leaveHistory s.store emp1 (q.atPage k) = .ok (reply k)) ∧
        (∀ k, k + 1 < totalPages → (reply k).items.length = 1) ∧
        ((List.range totalPages).flatMap fun k => (reply k).items) =
          (s.store.requestsOf EMP1_ID).filter
            fun r => ∀ s ∈ some LeaveStatus.PENDING, r.status = s := by
  have hrun : ∃ s, Transition.run (RequestService.step SEED_USERS)
        RequestService.empty HistoryWalk.twoRequests = some s ∧
      (s.store.requestsOf EMP1_ID).length = 2 := by
    decide +kernel
  obtain ⟨s, hs, htwo⟩ := hrun
  have hreach : RequestService.Reachable SEED_USERS s := ⟨_, hs⟩
  have hrs : s.store.getRequestsForEmployee emp1.userId =
      some (s.store.requestsOf EMP1_ID) :=
    RequestStore.getRequestsForEmployee_eq hreach.inv.wf EMP1_ID
  let q : HistoryQuery := { statusFilter := some "Pending", pageSize := 1 }
  have hasks : q.Asks (some .PENDING) := by decide +kernel
  obtain ⟨reply, totalPages, hreply, hpart, -, -⟩ :=
    history_pages_partition hrs q hasks
  exact ⟨q, rfl, rfl, s, hs, htwo, reply, totalPages, hreply, hpart.full,
    hpart.concat⟩

end Elms
