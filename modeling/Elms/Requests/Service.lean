import Elms.Lib.Transition
import Elms.Requests.Main

/-!
# The Leave Request Service as a transition system

One label is one atomic segment of a handler, or an event outside the service
(the balance lookup of an application is answered, its handler is abandoned).
Clock readings, fresh ids and answers are in the labels. `exec` returns the
response too, when the segment ends its call.

`exec_cases` says once what a step can do to the store; every invariant of
the service below is a case analysis on it.
-/

namespace Elms

open Calendar

/-! ## §1  States and steps -/

/-- Where an `apply_leave` call is: awaiting the balance (with the answer once
it is there), ended, or given up. -/
inductive ApplyPoint where
  | awaitingBalance (payload : ApplyLeaveRequest) (managerId : String)
      (reply : Option (Reply Int))
  | done (result : Response LeaveRequestResponse)
  | abandoned
deriving DecidableEq

structure ApplyHandler where
  caller : CallerIdentity
  point : ApplyPoint
deriving DecidableEq

structure RequestService where
  store : RequestStore
  applies : List ApplyHandler
  published : List Event
deriving DecidableEq

inductive RequestLabel where
  | applyLeave (caller : CallerIdentity) (body : ApplyLeaveBody) (today : Date)
  | answerBalance (i : Nat) (reply : Reply Int)
  | resumeApply (i : Nat) (uuid : String) (createdAt updatedAt : Timestamp)
  | abandonApply (i : Nat)
  | cancelLeave (caller : CallerIdentity) (leaveId : String) (now : Timestamp)
  | updateStatus (requestId : String) (body : StatusUpdateBody)
      (now : Timestamp)

namespace RequestService

def empty : RequestService := ⟨RequestStore.empty, [], []⟩

def setApply (s : RequestService) (i : Nat) (h : ApplyHandler) :
    RequestService :=
  { s with applies := s.applies.set i h }

/-- One segment, and the response if it ends a call. `uuid4` never repeats an
id that is in the store. -/
def exec (chart : OrgChart) (s : RequestService) :
    RequestLabel → Option (RequestService × Option (Response LeaveRequestResponse))
  | .applyLeave caller body today =>
      match Elms.applyLeave chart s.store today caller body with
      | .error e =>
          some ({ s with applies := s.applies ++ [⟨caller, .done (.error e)⟩] },
            some (.error e))
      | .ok (payload, managerId) =>
          some ({ s with applies := s.applies ++
            [⟨caller, .awaitingBalance payload managerId none⟩] }, none)
  | .answerBalance i reply =>
      match s.applies[i]? with
      | some ⟨caller, .awaitingBalance payload managerId none⟩ =>
          some (s.setApply i
            ⟨caller, .awaitingBalance payload managerId (some reply)⟩, none)
      | _ => none
  | .resumeApply i uuid createdAt updatedAt =>
      match s.applies[i]? with
      | some ⟨caller, .awaitingBalance payload managerId (some reply)⟩ =>
          if uuid ∈ s.store.requestsStore.keys then none
          else
            match applyLeaveResumed caller payload managerId uuid createdAt
              updatedAt reply with
            | .error e =>
                some (s.setApply i ⟨caller, .done (.error e)⟩, some (.error e))
            | .ok request =>
                some ({ s.setApply i ⟨caller, .done (.ok request)⟩ with
                  store := s.store.addRequest request
                  published := s.published ++
                    [.leaveApplied caller.userId managerId uuid] },
                  some (.ok request))
      | _ => none
  | .abandonApply i =>
      match s.applies[i]? with
      | some ⟨caller, .awaitingBalance _ _ _⟩ =>
          some (s.setApply i ⟨caller, .abandoned⟩, none)
      | _ => none
  | .cancelLeave caller leaveId now =>
      match Elms.cancelLeave s.store caller leaveId now with
      | (response, store) => some ({ s with store := store }, some response)
  | .updateStatus requestId body now =>
      match updateRequestStatus s.store requestId body now with
      | (response, store) => some ({ s with store := store }, some response)

def step (chart : OrgChart) (s : RequestService) (l : RequestLabel) :
    Option RequestService :=
  (exec chart s l).map Prod.fst

/-- The service is reached from the empty store. -/
def Reachable (chart : OrgChart) (s : RequestService) : Prop :=
  Transition.Reaches (step chart) empty s

theorem step_eq_some_iff {chart : OrgChart} {s s' : RequestService}
    {l : RequestLabel} :
    step chart s l = some s' ↔ ∃ out, exec chart s l = some (s', out) := by
  rw [step, Option.map_eq_some_iff]
  constructor
  · rintro ⟨⟨t, out⟩, h, rfl⟩
    exact ⟨out, h⟩
  · rintro ⟨out, h⟩
    exact ⟨(s', out), h, rfl⟩

/-! ## §2  What a step can do -/

/-- The application in slot `i` is admitted: its lookup was answered with
enough days left, and the id it is given is fresh. -/
structure Admitted (s : RequestService) (i : Nat) (uuid : String)
    (caller : CallerIdentity) (payload : ApplyLeaveRequest)
    (managerId : String) : Prop where
  answered : ∃ remaining, s.applies[i]? = some
      ⟨caller, .awaitingBalance payload managerId (some (.ok remaining))⟩ ∧
    payload.numberOfDays ≤ remaining
  fresh : uuid ∉ s.store.requestsStore.keys

/-- **Step inversion.** A step leaves the store alone, or inserts the record
of one admitted application, or cancels one request, or decides one. Only the
first can end in an error response. -/
theorem exec_cases {chart : OrgChart} {s s' : RequestService}
    {l : RequestLabel} {out : Option (Response LeaveRequestResponse)}
    (h : exec chart s l = some (s', out)) :
    s'.store = s.store ∧ s'.published = s.published ∨
    (∃ i uuid c u caller payload m, l = .resumeApply i uuid c u ∧
      s.Admitted i uuid caller payload m ∧
      s'.store = s.store.addRequest (payload.toRequest caller m uuid c u) ∧
      out = some (.ok (payload.toRequest caller m uuid c u)) ∧
      s'.published = s.published ++ [.leaveApplied caller.userId m uuid]) ∨
    (∃ caller id now r, l = .cancelLeave caller id now ∧
      CancelAccepted s.store caller id r ∧
      s'.store = s.store.setStatus id r .CANCELLED none now ∧
      out = some (.ok (r.setStatus .CANCELLED none now)) ∧
      s'.published = s.published) ∨
    (∃ id body now r, l = .updateStatus id body now ∧
      UpdateAccepted s.store id body r ∧
      s'.store = s.store.setStatus id r body.newStatus body.rejectionReason now ∧
      out = some (.ok (r.setStatus body.newStatus body.rejectionReason now)) ∧
      s'.published = s.published) := by
  cases l with
  | applyLeave caller body today =>
      left
      simp only [exec] at h
      split at h <;> cases h <;> exact ⟨rfl, rfl⟩
  | answerBalance i reply =>
      left
      simp only [exec] at h
      split at h
      · cases h
        exact ⟨rfl, rfl⟩
      · cases h
  | abandonApply i =>
      left
      simp only [exec] at h
      split at h
      · cases h
        exact ⟨rfl, rfl⟩
      · cases h
  | resumeApply i uuid c u =>
      simp only [exec] at h
      split at h
      · rename_i caller payload m reply hi
        split at h
        · cases h
        · rename_i hfresh
          split at h
          · cases h
            exact Or.inl ⟨rfl, rfl⟩
          · rename_i r hr
            cases h
            obtain ⟨⟨remaining, rfl, hle⟩, rfl⟩ := applyLeaveResumed_eq_ok_iff.mp hr
            right
            left
            exact ⟨i, uuid, c, u, caller, payload, m, rfl,
              ⟨⟨remaining, hi, hle⟩, hfresh⟩, rfl, rfl, rfl⟩
      · cases h
  | cancelLeave caller id now =>
      simp only [exec] at h
      rcases cancelLeave_cases s.store caller id now with
        ⟨-, e, he⟩ | ⟨r, hr, he⟩
      · rw [he] at h
        cases h
        exact Or.inl ⟨rfl, rfl⟩
      · rw [he] at h
        cases h
        right
        right
        left
        exact ⟨caller, id, now, r, rfl, hr, rfl, rfl, rfl⟩
  | updateStatus id body now =>
      simp only [exec] at h
      rcases updateRequestStatus_cases s.store id body now with
        ⟨-, e, he⟩ | ⟨r, hr, he⟩
      · rw [he] at h
        cases h
        exact Or.inl ⟨rfl, rfl⟩
      · rw [he] at h
        cases h
        right
        right
        right
        exact ⟨id, body, now, r, rfl, hr, rfl, rfl, rfl⟩

/-- **One record across a step**: it was there, or has just been inserted, or
has just been cancelled or decided. -/
theorem getRequest_step {chart : OrgChart} {s s' : RequestService}
    {l : RequestLabel} (hl : step chart s l = some s') {id : String}
    {r' : LeaveRequest} (hr' : s'.store.getRequest id = some r') :
    s.store.getRequest id = some r' ∨
    (s.store.getRequest id = none ∧ r'.status = .PENDING ∧
      r'.rejectionReason = none) ∨
    (∃ caller now r, l = .cancelLeave caller id now ∧
      CancelAccepted s.store caller id r ∧
      r' = r.setStatus .CANCELLED none now) ∨
    (∃ body now r, l = .updateStatus id body now ∧
      UpdateAccepted s.store id body r ∧
      r' = r.setStatus body.newStatus body.rejectionReason now) := by
  obtain ⟨out, he⟩ := step_eq_some_iff.mp hl
  rcases exec_cases he with ⟨hs, -⟩ |
    ⟨i, uuid, c, u, caller, payload, m, -, hadm, hs, -⟩ |
    ⟨caller, k, now, r, rfl, hacc, hs, -⟩ | ⟨k, body, now, r, rfl, hacc, hs, -⟩
  · exact Or.inl (hs ▸ hr')
  · rw [hs, RequestStore.getRequest_addRequest] at hr'
    split at hr'
    · rename_i hid
      cases hr'
      refine Or.inr (Or.inl ⟨?_, rfl, rfl⟩)
      rw [hid]
      exact Dict.get?_eq_none_iff.mpr hadm.fresh
    · exact Or.inl hr'
  · rw [hs, RequestStore.getRequest_setStatus] at hr'
    split at hr'
    · rename_i hid
      subst hid
      cases hr'
      exact Or.inr (Or.inr (Or.inl ⟨caller, now, r, rfl, hacc, rfl⟩))
    · exact Or.inl hr'
  · rw [hs, RequestStore.getRequest_setStatus] at hr'
    split at hr'
    · rename_i hid
      subst hid
      cases hr'
      exact Or.inr (Or.inr (Or.inr ⟨body, now, r, rfl, hacc, rfl⟩))
    · exact Or.inl hr'

/-- An in-flight application has passed its checks when it started. -/
def Checked (chart : OrgChart) (h : ApplyHandler) : Prop :=
  ∀ payload m reply, h.point = .awaitingBalance payload m reply →
    payload.startDate ≤ payload.endDate ∧
    payload.numberOfDays = payload.endDate.sub payload.startDate + 1 ∧
    chart.getManagerId h.caller.userId = some m

/-- Every handler in flight after a step is one that was checked before. -/
theorem checked_step {chart : OrgChart} {s s' : RequestService}
    {l : RequestLabel} (hI : ∀ h ∈ s.applies, Checked chart h)
    (hl : step chart s l = some s') : ∀ h ∈ s'.applies, Checked chart h := by
  obtain ⟨out, he⟩ := step_eq_some_iff.mp hl
  have hdone : ∀ caller result, Checked chart ⟨caller, .done result⟩ := by
    intro caller result payload m reply h
    cases h
  cases l with
  | applyLeave caller body today =>
      simp only [exec] at he
      split at he
      · cases he
        intro h hmem
        rcases List.mem_append.mp hmem with h' | h'
        · exact hI h h'
        · rw [List.mem_singleton.mp h']
          exact hdone _ _
      · rename_i payload m ha
        cases he
        intro h hmem
        rcases List.mem_append.mp hmem with h' | h'
        · exact hI h h'
        · rw [List.mem_singleton.mp h']
          intro payload' m' reply' heq
          cases heq
          obtain ⟨hse, -, hn, hm, -⟩ := applyLeave_eq_ok ha
          exact ⟨hse, hn, hm⟩
  | answerBalance i reply =>
      simp only [exec] at he
      split at he
      · rename_i caller payload m hi
        cases he
        intro h hmem
        rcases List.mem_or_eq_of_mem_set hmem with h' | rfl
        · exact hI h h'
        · intro payload' m' reply' heq
          cases heq
          exact hI _ (List.mem_of_getElem? hi) payload m none rfl
      · cases he
  | resumeApply i uuid c u =>
      simp only [exec] at he
      split at he
      · rename_i caller payload m reply hi
        split at he
        · cases he
        · split at he <;> cases he <;> intro h hmem <;>
            rcases List.mem_or_eq_of_mem_set hmem with h' | rfl
          · exact hI h h'
          · exact hdone _ _
          · exact hI h h'
          · exact hdone _ _
      · cases he
  | abandonApply i =>
      simp only [exec] at he
      split at he
      · cases he
        intro h hmem
        rcases List.mem_or_eq_of_mem_set hmem with h' | rfl
        · exact hI h h'
        · intro payload' m' reply' heq
          cases heq
      · cases he
  | cancelLeave caller id now =>
      simp only [exec] at he
      cases he
      exact hI
  | updateStatus id body now =>
      simp only [exec] at he
      cases he
      exact hI

/-! ## §3  The representation invariant over runs -/

/-- Each stored request spans a nonempty range, counted right, and is routed
to the manager the org chart gives its employee. -/
structure Sound (chart : OrgChart) (r : LeaveRequest) : Prop where
  ordered : r.startDate ≤ r.endDate
  counted : r.numberOfDays = r.endDate.sub r.startDate + 1
  routed : chart.getManagerId r.employeeId = some r.reportingManagerId

theorem Sound.of_sameLeave {chart : OrgChart} (r r' : LeaveRequest)
    (hs : r.SameLeave r') (h : Sound chart r) : Sound chart r' := by
  obtain ⟨-, he, -, hsd, hed, hn, -, hm, -⟩ := hs
  constructor
  · rw [hsd, hed]
    exact h.ordered
  · rw [hn, hsd, hed]
    exact h.counted
  · rw [he, hm]
    exact h.routed

/-- The invariant of the service. -/
structure Inv (chart : OrgChart) (s : RequestService) : Prop where
  wf : s.store.WF
  sound : ∀ id r, s.store.getRequest id = some r → Sound chart r
  checked : ∀ h ∈ s.applies, Checked chart h

theorem Inv.sound_of_mem {chart : OrgChart} {s : RequestService}
    (hI : Inv chart s) {r : LeaveRequest} (hr : r ∈ s.store.requests) :
    Sound chart r := by
  obtain ⟨id, hid⟩ := RequestStore.mem_requests_iff.mp hr
  exact hI.sound id r hid

theorem inv_empty (chart : OrgChart) : Inv chart empty where
  wf := RequestStore.empty_wf
  sound := fun id r h => by cases h
  checked := fun h hmem => by cases hmem

theorem Admitted.sound {chart : OrgChart} {s : RequestService} {i : Nat}
    {uuid : String} {caller : CallerIdentity} {payload : ApplyLeaveRequest}
    {m : String} (h : s.Admitted i uuid caller payload m)
    (hI : ∀ h ∈ s.applies, Checked chart h) (c u : Timestamp) :
    Sound chart (payload.toRequest caller m uuid c u) := by
  obtain ⟨⟨remaining, hi, -⟩, -⟩ := h
  obtain ⟨hse, hn, hm⟩ := hI _ (List.mem_of_getElem? hi) _ _ _ rfl
  exact ⟨hse, hn, hm⟩

theorem inv_step {chart : OrgChart} {s s' : RequestService} {l : RequestLabel}
    (hI : Inv chart s) (hl : step chart s l = some s') : Inv chart s' := by
  have hchk := checked_step hI.checked hl
  obtain ⟨out, he⟩ := step_eq_some_iff.mp hl
  rcases exec_cases he with ⟨hs, -⟩ |
    ⟨i, uuid, c, u, caller, payload, m, -, hadm, hs, -⟩ |
    ⟨caller, id, now, r, -, hacc, hs, -⟩ | ⟨id, body, now, r, -, hacc, hs, -⟩
  · exact ⟨hs ▸ hI.wf, hs ▸ hI.sound, hchk⟩
  · refine ⟨hs ▸ RequestStore.addRequest_wf hI.wf hadm.fresh, ?_, hchk⟩
    rw [hs]
    exact RequestStore.forall_addRequest hI.sound
      (hadm.sound hI.checked c u)
  · refine ⟨hs ▸ RequestStore.setStatus_wf hI.wf hacc.stored _ _ _, ?_, hchk⟩
    rw [hs]
    exact RequestStore.forall_setStatus (fun _ => Sound.of_sameLeave)
      hI.sound hacc.stored _ _ _
  · refine ⟨hs ▸ RequestStore.setStatus_wf hI.wf hacc.stored _ _ _, ?_, hchk⟩
    rw [hs]
    exact RequestStore.forall_setStatus (fun _ => Sound.of_sameLeave)
      hI.sound hacc.stored _ _ _

theorem Reachable.inv {chart : OrgChart} {s : RequestService}
    (h : Reachable chart s) : Inv chart s :=
  Transition.invariant (fun _ _ _ => inv_step) (inv_empty chart) h

/-- A stored request belongs to an employee that could make calls. -/
theorem Reachable.employeeId_ne {chart : OrgChart} {s : RequestService}
    (h : Reachable chart s) :
    ∀ id r, s.store.getRequest id = some r → r.employeeId ≠ "" := by
  have hsame : ∀ q q' : LeaveRequest, q.SameLeave q' → q.employeeId ≠ "" →
      q'.employeeId ≠ "" := fun q q' hs hq => hs.2.1 ▸ hq
  refine Transition.invariant (I := fun s : RequestService =>
    ∀ id r, s.store.getRequest id = some r → r.employeeId ≠ "") ?_
    (fun id r h => by cases h) h
  intro u l u' hu hl
  obtain ⟨out, he⟩ := step_eq_some_iff.mp hl
  rcases exec_cases he with ⟨hs, -⟩ |
    ⟨i, uuid, c, t, caller, payload, m, -, hadm, hs, -⟩ |
    ⟨caller, id, now, r, -, hacc, hs, -⟩ | ⟨id, body, now, r, -, hacc, hs, -⟩
  · rw [hs]
    exact hu
  · rw [hs]
    exact RequestStore.forall_addRequest hu caller.nonempty
  · rw [hs]
    exact RequestStore.forall_setStatus (fun _ => hsame) hu hacc.stored
      _ _ _
  · rw [hs]
    exact RequestStore.forall_setStatus (fun _ => hsame) hu hacc.stored
      _ _ _

end RequestService

end Elms
