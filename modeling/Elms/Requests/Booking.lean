import Elms.Requests.Service

/-!
# Double booking

`check_overlap` keeps an employee's active requests apart, but `apply_leave`
runs it before it awaits the balance and inserts the request after. Two
applications of one employee that are both in flight therefore pass the check
against a store that holds neither (`double_booking`). The days stay disjoint
exactly as long as each insertion would still pass the check when it happens
(`no_double_booking_iff`).
-/

namespace Elms

open Calendar Transition

/-! ## §1  The property over one store -/

/-- No two distinct requests of one employee, both PENDING or APPROVED, share
a calendar day. -/
def RequestStore.NoDoubleBooking (st : RequestStore) : Prop :=
  ∀ id id' r r', st.getRequest id = some r → st.getRequest id' = some r' →
    id ≠ id' → r.employeeId = r'.employeeId →
    r.status.isActive = true → r'.status.isActive = true →
    ¬ SharesDay r.startDate r.endDate r'.startDate r'.endDate

theorem RequestStore.noDoubleBooking_empty :
    RequestStore.empty.NoDoubleBooking := by
  intro id id' r r' h
  cases h

/-- Deciding or cancelling a PENDING request makes no day shared. -/
theorem RequestStore.noDoubleBooking_setStatus {st : RequestStore} {id : String}
    {r : LeaveRequest} (h : st.NoDoubleBooking) (hr : st.getRequest id = some r)
    (hp : r.status = .PENDING) (status : LeaveStatus) (reason : Option String)
    (now : Timestamp) :
    (st.setStatus id r status reason now).NoDoubleBooking := by
  -- each record goes back to one with the same leave that was active before
  have back : ∀ k q, (st.setStatus id r status reason now).getRequest k = some q →
      ∃ q₀, st.getRequest k = some q₀ ∧ q₀.SameLeave q ∧
        (q.status.isActive = true → q₀.status.isActive = true) := by
    intro k q hq
    rw [RequestStore.getRequest_setStatus] at hq
    split at hq
    · rename_i hk
      cases hq
      exact ⟨r, hk ▸ hr, r.sameLeave_setStatus _ _ _, fun _ => by rw [hp]; rfl⟩
    · exact ⟨q, hq, LeaveRequest.SameLeave.refl q, fun ha => ha⟩
  intro k k' q q' hq hq' hne he ha ha'
  obtain ⟨q₀, h₀, ⟨-, he₀, -, hs₀, hd₀, -⟩, ha₀⟩ := back k q hq
  obtain ⟨q₁, h₁, ⟨-, he₁, -, hs₁, hd₁, -⟩, ha₁⟩ := back k' q' hq'
  rw [hs₀, hd₀, hs₁, hd₁]
  exact h k k' q₀ q₁ h₀ h₁ hne (he₀.symm.trans (he.trans he₁)) (ha₀ ha) (ha₁ ha')

/-- Inserting a PENDING request keeps the days apart exactly if it passes
`check_overlap` on the store it is inserted into. -/
theorem RequestStore.noDoubleBooking_addRequest {st : RequestStore}
    (hwf : st.WF) (hord : ∀ id r, st.getRequest id = some r →
      r.startDate ≤ r.endDate) {r : LeaveRequest}
    (hfresh : r.requestId ∉ st.requestsStore.keys)
    (hr : r.startDate ≤ r.endDate) (hp : r.status = .PENDING)
    (h : st.NoDoubleBooking) :
    (st.addRequest r).NoDoubleBooking ↔
      checkOverlap st r.employeeId r.startDate r.endDate = .ok () := by
  have hact : r.status.isActive = true := by rw [hp]; rfl
  have hold : ∀ {k q}, st.getRequest k = some q → k ≠ r.requestId := by
    rintro k q hq rfl
    exact hfresh (Dict.mem_keys_of_get? hq)
  rw [checkOverlap_eq_ok_iff hwf]
  constructor
  · intro hnew k q hq he ha hov
    refine hnew k r.requestId q r ?_ ?_ (hold hq) he ha hact ?_
    · rw [getRequest_addRequest, if_neg (hold hq)]
      exact hq
    · rw [getRequest_addRequest, if_pos rfl]
    · exact (sharesDay_iff (hord k q hq) hr).mpr hov
  · intro hfree
    have apart : ∀ k q, st.getRequest k = some q →
        q.employeeId = r.employeeId → q.status.isActive = true →
        ¬ SharesDay q.startDate q.endDate r.startDate r.endDate := by
      intro k q hq he ha hshare
      exact hfree k q hq he ha ((sharesDay_iff (hord k q hq) hr).mp hshare)
    intro k k' q q' hq hq' hne he ha ha'
    rw [getRequest_addRequest] at hq hq'
    split at hq <;> split at hq'
    · rename_i hk hk'
      exact absurd (hk.trans hk'.symm) hne
    · cases hq
      intro hshare
      refine apart k' q' hq' he.symm ha' ?_
      rw [SharesDay, Set.inter_comm]
      exact hshare
    · cases hq'
      exact apart k q hq he ha
    · exact h k k' q q' hq hq' hne he ha ha'

namespace RequestService

/-! ## §2  The condition on a step -/

/-- The application that a resumption is about to insert. -/
def inserting (s : RequestService) :
    RequestLabel → Option (CallerIdentity × ApplyLeaveRequest)
  | .resumeApply i _ _ _ =>
      match s.applies[i]? with
      | some ⟨caller, .awaitingBalance payload _ (some (.ok remaining))⟩ =>
          if payload.numberOfDays ≤ remaining then some (caller, payload)
          else none
      | _ => none
  | _ => none

/-- What is about to be inserted passes `check_overlap` on the store as it is
now, not only as it was when the application came in. -/
def OverlapRechecked (s : RequestService) (l : RequestLabel) : Prop :=
  ∀ x ∈ s.inserting l,
    checkOverlap s.store x.1.userId x.2.startDate x.2.endDate = .ok ()

instance (s : RequestService) (l : RequestLabel) :
    Decidable (s.OverlapRechecked l) :=
  inferInstanceAs (Decidable (∀ x ∈ s.inserting l,
    checkOverlap s.store x.1.userId x.2.startDate x.2.endDate = .ok ()))

variable {chart : OrgChart}

/-- What is being inserted is an admitted application. -/
theorem inserting_eq_some_iff {s : RequestService} {i : Nat} {uuid : String}
    {c u : Timestamp} {caller : CallerIdentity} {payload : ApplyLeaveRequest}
    (hfresh : uuid ∉ s.store.requestsStore.keys) :
    s.inserting (.resumeApply i uuid c u) = some (caller, payload) ↔
      ∃ m, s.Admitted i uuid caller payload m := by
  simp only [inserting]
  constructor
  · intro h
    split at h
    · rename_i caller' payload' m remaining hi
      split at h
      · rename_i hle
        cases h
        exact ⟨m, ⟨remaining, hi, hle⟩, hfresh⟩
      · cases h
    · cases h
  · rintro ⟨m, ⟨remaining, hi, hle⟩, -⟩
    simp only [hi]
    exact if_pos hle

/-- An admitted application is inserted by the step that resumes it. -/
theorem Admitted.store_step {s s' : RequestService} {i : Nat} {uuid : String}
    {c u : Timestamp} {caller : CallerIdentity} {payload : ApplyLeaveRequest}
    {m : String} (h : s.Admitted i uuid caller payload m)
    (hl : step chart s (.resumeApply i uuid c u) = some s') :
    s'.store = s.store.addRequest (payload.toRequest caller m uuid c u) := by
  obtain ⟨⟨remaining, hi, hle⟩, hfresh⟩ := h
  have hok : applyLeaveResumed caller payload m uuid c u (.ok remaining) =
      .ok (payload.toRequest caller m uuid c u) :=
    applyLeaveResumed_eq_ok_iff.mpr ⟨⟨remaining, rfl, hle⟩, rfl⟩
  simp only [step, exec, hi, if_neg hfresh, hok, Option.map_some] at hl
  cases hl
  rfl

theorem fresh_of_step {s s' : RequestService} {i : Nat} {uuid : String}
    {c u : Timestamp} (hl : step chart s (.resumeApply i uuid c u) = some s') :
    uuid ∉ s.store.requestsStore.keys := by
  intro hmem
  simp only [step, exec, if_pos hmem] at hl
  split at hl <;> cases hl

/-- A step that inserts nothing decides or cancels at most one PENDING
request; one that inserts adds an admitted application. -/
theorem inserting_cases {s s' : RequestService} {l : RequestLabel}
    (hl : step chart s l = some s') :
    s.inserting l = none ∧ (s'.store = s.store ∨ ∃ id r status reason now,
      s.store.getRequest id = some r ∧ r.status = .PENDING ∧
      s'.store = s.store.setStatus id r status reason now) ∨
    ∃ i uuid c u caller payload m, s.inserting l = some (caller, payload) ∧
      s.Admitted i uuid caller payload m ∧
      s'.store = s.store.addRequest (payload.toRequest caller m uuid c u) := by
  cases hins : s.inserting l with
  | none =>
      refine Or.inl ⟨rfl, ?_⟩
      obtain ⟨out, he⟩ := step_eq_some_iff.mp hl
      rcases exec_cases he with ⟨hs, -⟩ |
        ⟨i, uuid, c, u, caller, payload, m, rfl, hadm, -⟩ |
        ⟨caller, id, now, r, -, hacc, hs, -⟩ | ⟨id, body, now, r, -, hacc, hs, -⟩
      · exact Or.inl hs
      · rw [(inserting_eq_some_iff hadm.fresh).mpr ⟨m, hadm⟩] at hins
        cases hins
      · exact Or.inr ⟨id, r, _, _, _, hacc.stored, hacc.pending, hs⟩
      · exact Or.inr ⟨id, r, _, _, _, hacc.stored, hacc.pending, hs⟩
  | some x =>
      right
      obtain ⟨caller, payload⟩ := x
      cases l with
      | resumeApply i uuid c u =>
          obtain ⟨m, hadm⟩ :=
            (inserting_eq_some_iff (fresh_of_step hl)).mp hins
          exact ⟨i, uuid, c, u, caller, payload, m, rfl, hadm,
            hadm.store_step hl⟩
      | _ => cases hins

/-! ## §3  Runs -/

/-- **Step lemma**: from disjoint days, a step leads to disjoint days exactly
if what it inserts passes the overlap check once more. -/
theorem noDoubleBooking_step {s s' : RequestService} {l : RequestLabel}
    (hI : Inv chart s) (h : s.store.NoDoubleBooking)
    (hl : step chart s l = some s') :
    s'.store.NoDoubleBooking ↔ s.OverlapRechecked l := by
  rcases inserting_cases hl with ⟨hins, hs⟩ |
    ⟨i, uuid, c, u, caller, payload, m, hins, hadm, hs⟩
  · have hc : s.OverlapRechecked l := by
      intro x hx
      rw [hins] at hx
      cases hx
    refine iff_of_true ?_ hc
    rcases hs with hs | ⟨id, r, status, reason, now, hr, hp, hs⟩
    · rw [hs]
      exact h
    · rw [hs]
      exact RequestStore.noDoubleBooking_setStatus h hr hp _ _ _
  · have hord : ∀ id r, s.store.getRequest id = some r →
        r.startDate ≤ r.endDate := fun id r hr => (hI.sound id r hr).ordered
    have hsound := hadm.sound hI.checked c u
    rw [hs, RequestStore.noDoubleBooking_addRequest hI.wf hord hadm.fresh
      hsound.ordered rfl h]
    unfold OverlapRechecked
    rw [hins]
    simp only [Option.mem_some_iff, forall_eq']
    rfl

/-- **No double booking, exactly.** A run of the service passes through
disjoint days only, exactly if each application it inserts passes the overlap
check on the store it is inserted into. -/
theorem no_double_booking_iff {ls : List RequestLabel} {s : RequestService}
    (h : run (step chart) empty ls = some s) :
    Always (step chart) (fun s => s.store.NoDoubleBooking) empty ls ↔
      Along (step chart) OverlapRechecked empty ls :=
  always_iff_along (I := Inv chart) (fun _ _ _ => inv_step)
    (fun _ _ _ hI hP hl => noDoubleBooking_step hI hP hl) (inv_empty chart)
    RequestStore.noDoubleBooking_empty h

/-- One employee applies twice for the same days, the second time after the
first request is cancelled. -/
def sequentialRun : List RequestLabel :=
  [.applyLeave emp1 familyTrip ⟨738990⟩,
   .answerBalance 0 (.ok 12),
   .resumeApply 0 "request-1" 100 101,
   .cancelLeave emp1 "request-1" 102,
   .applyLeave emp1 familyTrip ⟨738990⟩,
   .answerBalance 1 (.ok 12),
   .resumeApply 1 "request-2" 103 104]

theorem no_double_booking_sequentialRun :
    Always (step SEED_USERS) (fun s => s.store.NoDoubleBooking) empty
      sequentialRun := by
  have hrun : (run (step SEED_USERS) empty sequentialRun).isSome = true := by
    decide +kernel
  obtain ⟨s, hs⟩ := Option.isSome_iff_exists.mp hrun
  exact (no_double_booking_iff hs).mpr (by decide +kernel)

/-- The same two applications, both in flight before either is inserted. -/
def concurrentRun : List RequestLabel :=
  [.applyLeave emp1 familyTrip ⟨738990⟩,
   .applyLeave emp1 familyTrip ⟨738990⟩,
   .answerBalance 0 (.ok 12),
   .answerBalance 1 (.ok 12),
   .resumeApply 0 "request-1" 100 101,
   .resumeApply 1 "request-2" 102 103]

/-- Both are stored, PENDING, for the same three days. -/
theorem double_booking :
    ¬ ∀ (chart : OrgChart) (ls : List RequestLabel) (s : RequestService),
      run (step chart) empty ls = some s → s.store.NoDoubleBooking := by
  intro hall
  have hrun : ∃ s, run (step SEED_USERS) empty concurrentRun = some s ∧
      ∃ r, s.store.getRequest "request-1" = some r ∧
      ∃ r', s.store.getRequest "request-2" = some r' ∧
        r.employeeId = r'.employeeId ∧ r.status = .PENDING ∧
        r'.status = .PENDING ∧ r.startDate = ⟨739000⟩ ∧ r.endDate = ⟨739002⟩ ∧
        r'.startDate = ⟨739000⟩ ∧ r'.endDate = ⟨739002⟩ := by
    decide +kernel
  obtain ⟨s, hs, r, hr, r', hr', he, hp, hp', hsd, hed, hsd', hed'⟩ := hrun
  refine hall SEED_USERS concurrentRun s hs _ _ r r' hr hr' (by decide) he
    (by rw [hp]; rfl) (by rw [hp']; rfl) ?_
  rw [hsd, hed, hsd', hed', sharesDay_iff (by decide) (by decide)]
  decide

end RequestService

end Elms
