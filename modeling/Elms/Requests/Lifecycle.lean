import Elms.Requests.Service

/-!
# The life of a request

A request is created PENDING, leaves PENDING at most once, keeps everything
but its status, reason and `updated_at`, and is never removed. Two entry
points write the status through one setter that checks nothing; the guards
that make this true are those of `cancel_leave` and `update_request_status`.
-/

namespace Elms

open Calendar Transition

namespace RequestService

/-! ## §1  How a record may change -/

/-- Nothing happened to the record, or it left PENDING once. -/
def Evolves (r r' : LeaveRequest) : Prop :=
  r' = r ∨ (r.SameLeave r' ∧ r.status = .PENDING ∧ r'.status ≠ .PENDING)

theorem Evolves.refl (r : LeaveRequest) : Evolves r r := Or.inl rfl

/-- Leaving PENDING is final, so two changes never follow each other. -/
theorem Evolves.trans {r r' r'' : LeaveRequest} (h : Evolves r r')
    (h' : Evolves r' r'') : Evolves r r'' := by
  rcases h with rfl | ⟨hs, hp, hn⟩
  · exact h'
  · rcases h' with rfl | ⟨-, hp', -⟩
    · exact Or.inr ⟨hs, hp, hn⟩
    · exact absurd hp' hn

/-- Every record is still there, with nothing but a single decision on it. -/
def StoreEvolves (st st' : RequestStore) : Prop :=
  ∀ id r, st.getRequest id = some r →
    ∃ r', st'.getRequest id = some r' ∧ Evolves r r'

theorem StoreEvolves.refl (st : RequestStore) : StoreEvolves st st :=
  fun _ r h => ⟨r, h, Evolves.refl r⟩

theorem StoreEvolves.trans {st st' st'' : RequestStore}
    (h : StoreEvolves st st') (h' : StoreEvolves st' st'') :
    StoreEvolves st st'' := by
  intro id r hr
  obtain ⟨r', hr', he⟩ := h id r hr
  obtain ⟨r'', hr'', he'⟩ := h' id r' hr'
  exact ⟨r'', hr'', he.trans he'⟩

theorem storeEvolves_setStatus {st : RequestStore} {id : String}
    {r : LeaveRequest} (hr : st.getRequest id = some r)
    (hp : r.status = .PENDING) {s : LeaveStatus} (hs : s ≠ .PENDING)
    (reason : Option String) (now : Timestamp) :
    StoreEvolves st (st.setStatus id r s reason now) := by
  intro id' r' hr'
  rw [RequestStore.getRequest_setStatus]
  by_cases hid : id' = id
  · rw [hid, hr] at hr'
    cases hr'
    rw [if_pos hid]
    exact ⟨_, rfl, Or.inr ⟨r.sameLeave_setStatus _ _ _, hp, hs⟩⟩
  · rw [if_neg hid]
    exact ⟨r', hr', Evolves.refl r'⟩

theorem UpdateAccepted.target_ne_pending {st : RequestStore} {id : String}
    {body : StatusUpdateBody} {r : LeaveRequest}
    (h : UpdateAccepted st id body r) : body.newStatus ≠ .PENDING := by
  rcases h.target with h' | ⟨h', -⟩ <;> rw [h'] <;> decide

variable {chart : OrgChart}

/-- **Step lemma**: one segment changes each stored record by at most one
decision, and removes none. -/
theorem storeEvolves_step {s s' : RequestService} {l : RequestLabel}
    (hl : step chart s l = some s') : StoreEvolves s.store s'.store := by
  obtain ⟨out, he⟩ := step_eq_some_iff.mp hl
  rcases exec_cases he with ⟨hs, -⟩ |
    ⟨i, uuid, c, u, caller, payload, m, -, hadm, hs, -⟩ |
    ⟨caller, id, now, r, -, hacc, hs, -⟩ | ⟨id, body, now, r, -, hacc, hs, -⟩
  · rw [hs]
    exact StoreEvolves.refl _
  · rw [hs]
    intro id r hr
    rw [RequestStore.getRequest_addRequest]
    have hne : id ≠ uuid := by
      rintro rfl
      exact hadm.fresh (Dict.mem_keys_of_get? hr)
    exact ⟨r, (if_neg hne).trans hr, Evolves.refl r⟩
  · rw [hs]
    exact storeEvolves_setStatus hacc.stored hacc.pending (by decide) _ _
  · rw [hs]
    exact storeEvolves_setStatus hacc.stored hacc.pending
      (UpdateAccepted.target_ne_pending hacc) _ _

/-- **Run lemma**: the same over any number of segments. -/
theorem storeEvolves_reaches {s t : RequestService}
    (h : Reaches (step chart) s t) : StoreEvolves s.store t.store :=
  related (I := fun _ => True) (R := fun u v => StoreEvolves u.store v.store)
    (fun _ _ _ _ _ => trivial) (fun u => StoreEvolves.refl u.store)
    (fun _ _ _ => StoreEvolves.trans) (fun _ _ _ _ => storeEvolves_step)
    trivial h

/-! ## §2  Creation, refusal and the rejection reason -/

/-- What enters the store enters it PENDING. -/
theorem created_pending {s s' : RequestService} {l : RequestLabel}
    (hl : step chart s l = some s') {id : String} {r : LeaveRequest}
    (hr : s'.store.getRequest id = some r)
    (hnew : s.store.getRequest id = none) : r.status = .PENDING := by
  rcases getRequest_step hl hr with h | ⟨-, hp, -⟩ |
    ⟨caller, now, r', -, hacc, -⟩ | ⟨body, now, r', -, hacc, -⟩
  · rw [hnew] at h
    cases h
  · exact hp
  · exact absurd (hnew.symm.trans hacc.stored) (by simp)
  · exact absurd (hnew.symm.trans hacc.stored) (by simp)

/-- A segment that does not end its call with success leaves the store as it
was: one that refuses the call, and one after which the call goes on. -/
theorem store_eq_of_not_ok {s s' : RequestService} {l : RequestLabel}
    {out : Option (Response LeaveRequestResponse)}
    (he : exec chart s l = some (s', out)) (hout : ∀ r, out ≠ some (.ok r)) :
    s'.store = s.store := by
  rcases exec_cases he with ⟨hs, -⟩ |
    ⟨i, uuid, c, u, caller, payload, m, -, -, -, hok, -⟩ |
    ⟨caller, id, now, r, -, -, -, hok, -⟩ | ⟨id, body, now, r, -, -, -, hok, -⟩
  · exact hs
  · exact absurd hok (hout _)
  · exact absurd hok (hout _)
  · exact absurd hok (hout _)

/-- A reason is present exactly on a rejected request, and is then not blank. -/
def ReasonMatchesStatus (r : LeaveRequest) : Prop :=
  (r.rejectionReason.isSome = true ↔ r.status = .REJECTED) ∧
  ∀ reason, r.rejectionReason = some reason →
    ∃ c ∈ reason.toList, PyStr.isSpace c = false

theorem reasonMatchesStatus_cancelled (r : LeaveRequest) (now : Timestamp) :
    ReasonMatchesStatus (r.setStatus .CANCELLED none now) := by
  refine ⟨?_, ?_⟩
  · simp [LeaveRequest.setStatus]
  · intro reason h
    cases h

theorem reasonMatchesStatus_decided {st : RequestStore} {id : String}
    {body : StatusUpdateBody} {r : LeaveRequest}
    (h : UpdateAccepted st id body r) (now : Timestamp) :
    ReasonMatchesStatus
      (r.setStatus body.newStatus body.rejectionReason now) := by
  rcases h.target with ha | ⟨hj, hreason⟩
  · refine ⟨?_, ?_⟩
    · simp [LeaveRequest.setStatus, ha]
    · intro reason hr
      simp [LeaveRequest.setStatus, ha] at hr
  · obtain ⟨text, htext, hnonblank⟩ := hasReason_eq_true_iff.mp hreason
    refine ⟨?_, ?_⟩
    · simp [LeaveRequest.setStatus, hj, htext]
    · intro reason hr
      simp only [LeaveRequest.setStatus, hj, if_true, htext] at hr
      cases hr
      exact hnonblank

def ReasonsMatch (s : RequestService) : Prop :=
  ∀ id r, s.store.getRequest id = some r → ReasonMatchesStatus r

theorem reasonsMatch_step {s s' : RequestService} {l : RequestLabel}
    (hI : ReasonsMatch s) (hl : step chart s l = some s') : ReasonsMatch s' := by
  intro id r hr
  rcases getRequest_step hl hr with h | ⟨-, hp, hn⟩ |
    ⟨caller, now, r', -, hacc, rfl⟩ | ⟨body, now, r', -, hacc, rfl⟩
  · exact hI id r h
  · refine ⟨by simp [hp, hn], ?_⟩
    intro reason h
    rw [hn] at h
    cases h
  · exact reasonMatchesStatus_cancelled r' now
  · exact reasonMatchesStatus_decided hacc now

theorem Reachable.reasonsMatch {s : RequestService} (h : Reachable chart s) :
    ReasonsMatch s :=
  invariant (fun _ _ _ => reasonsMatch_step) (fun _ _ h => by cases h) h

/-! ## §3  Counting status changes -/

def statusOf (s : RequestService) (id : String) : Option LeaveStatus :=
  (s.store.getRequest id).map LeaveRequest.status

/-- How many steps of a run change the status of the stored request `id`. -/
def statusChanges (chart : OrgChart) (id : String) :
    RequestService → List RequestLabel → Nat
  | _, [] => 0
  | s, l :: ls =>
      match step chart s l with
      | none => 0
      | some s' =>
          (if s.statusOf id ≠ none ∧ s'.statusOf id ≠ s.statusOf id then 1
           else 0) + statusChanges chart id s' ls

theorem statusOf_eq_of_getRequest {s : RequestService} {id : String}
    {r : LeaveRequest} (h : s.store.getRequest id = some r) :
    s.statusOf id = some r.status := by
  unfold statusOf
  rw [h, Option.map_some]

theorem statusOf_setStatus (s : RequestService) {id : String} (r : LeaveRequest)
    (st : LeaveStatus) (reason : Option String) (now : Timestamp)
    (id' : String) :
    statusOf { s with store := s.store.setStatus id r st reason now } id' =
      if id' = id then some st else s.statusOf id' := by
  simp only [statusOf, RequestStore.getRequest_setStatus]
  split <;> rfl

/-- A step that changes the status takes it from PENDING to something else. -/
theorem statusOf_step {s s' : RequestService} {l : RequestLabel} {id : String}
    (hl : step chart s l = some s') (hstored : s.statusOf id ≠ none) :
    s'.statusOf id = s.statusOf id ∨
    (s.statusOf id = some .PENDING ∧ ∃ st, s'.statusOf id = some st ∧
      st ≠ .PENDING) := by
  unfold statusOf at *
  cases hr : s.store.getRequest id with
  | none => simp [hr] at hstored
  | some r =>
      obtain ⟨r', hr', he⟩ := storeEvolves_step hl id r hr
      rcases he with rfl | ⟨-, hp, hn⟩
      · exact Or.inl (by rw [hr'])
      · refine Or.inr ⟨by rw [Option.map_some, hp], r'.status, ?_, hn⟩
        rw [hr', Option.map_some]

/-- Once a request is out of PENDING, its status never changes again. -/
theorem statusChanges_eq_zero {id : String} : ∀ {ls : List RequestLabel}
    {s : RequestService} {st : LeaveStatus}, s.statusOf id = some st →
      st ≠ .PENDING → statusChanges chart id s ls = 0 := by
  intro ls
  induction ls with
  | nil =>
      intro s st _ _
      rfl
  | cons l ls ih =>
      intro s st hst hne
      rw [statusChanges]
      cases hl : step chart s l with
      | none => rfl
      | some s' =>
          have hstored : s.statusOf id ≠ none := by simp [hst]
          have hkeep : s'.statusOf id = s.statusOf id := by
            rcases statusOf_step hl hstored with h | ⟨h, -⟩
            · exact h
            · rw [hst] at h
              exact absurd (Option.some.inj h) hne
          simp only
          rw [if_neg fun h => h.2 hkeep, Nat.zero_add]
          exact ih (hkeep.trans hst) hne

/-- Over any run, a request's status changes at most once. -/
theorem statusChanges_le_one (id : String) : ∀ (ls : List RequestLabel)
    (s : RequestService), statusChanges chart id s ls ≤ 1 := by
  intro ls
  induction ls with
  | nil =>
      intro s
      exact Nat.zero_le 1
  | cons l ls ih =>
      intro s
      rw [statusChanges]
      cases hl : step chart s l with
      | none => exact Nat.zero_le 1
      | some s' =>
          simp only
          split
          · rename_i h
            -- this step is the one change: nothing can follow it
            rcases statusOf_step hl h.1 with h' | ⟨-, st, hst, hne⟩
            · exact absurd h' h.2
            · rw [statusChanges_eq_zero hst hne]
          · rw [Nat.zero_add]
            exact ih s'

/-! ## §4  The lifecycle -/

/-- **Request lifecycle.** In every state of the service: reasons go with
rejections; a step inserts only PENDING requests, and changes nothing if it
refuses a call or leaves it waiting, so that a refused call has changed nothing
in any of its segments; and from there on every request stays, keeps its leave,
and changes its status at most once, out of PENDING. -/
theorem request_lifecycle {ls : List RequestLabel} {s : RequestService}
    (h : run (step chart) empty ls = some s) :
    (∀ id r, s.store.getRequest id = some r → ReasonMatchesStatus r) ∧
    (∀ l s' out, exec chart s l = some (s', out) →
      (∀ id r, s'.store.getRequest id = some r →
        s.store.getRequest id = none → r.status = .PENDING) ∧
      (∀ e, out = some (.error e) → s'.store = s.store) ∧
      (out = none → s'.store = s.store)) ∧
    (∀ ms t, run (step chart) s ms = some t →
      ∀ id r, s.store.getRequest id = some r →
        ∃ r', t.store.getRequest id = some r' ∧ Evolves r r') ∧
    ∀ id, statusChanges chart id empty ls ≤ 1 := by
  refine ⟨Reachable.reasonsMatch ⟨ls, h⟩, ?_, ?_, ?_⟩
  · intro l s' out he
    refine ⟨fun id r hr hnew => created_pending
      (step_eq_some_iff.mpr ⟨out, he⟩) hr hnew, ?_, ?_⟩
    · rintro e rfl
      exact store_eq_of_not_ok he fun r h => by cases h
    · rintro rfl
      exact store_eq_of_not_ok he fun r h => by cases h
  · intro ms t hms
    exact storeEvolves_reaches ⟨ms, hms⟩
  · intro id
    exact statusChanges_le_one id ls empty

/-- A seeded employee applies for three days; the request is stored. -/
def appliedRun : List RequestLabel :=
  [.applyLeave emp1 familyTrip ⟨738990⟩,
   .answerBalance 0 (.ok 12),
   .resumeApply 0 "request-1" 100 101]

/-- It is then rejected by the manager. -/
def rejectedRun : List RequestLabel :=
  appliedRun ++
    [.updateStatus "request-1" ⟨.REJECTED, MANAGER1_ID, some "No cover"⟩ 102]

/-- The rejection was the one change of the status; cancelling is refused. -/
theorem request_lifecycle_rejectedRun :
    ∃ s, run (step SEED_USERS) empty rejectedRun = some s ∧
      (∃ r, s.store.getRequest "request-1" = some r ∧
        r.rejectionReason = some "No cover" ∧ ReasonMatchesStatus r) ∧
      statusChanges SEED_USERS "request-1" empty rejectedRun = 1 ∧
      (∃ s', exec SEED_USERS s (.cancelLeave emp1 "request-1" 103) =
          some (s', some (.error (conflict
            "Only a PENDING request can be cancelled (current status: REJECTED)"))) ∧
        s'.store = s.store) ∧
      ∀ ms t, run (step SEED_USERS) s ms = some t →
        ∀ id r, s.store.getRequest id = some r →
          ∃ r', t.store.getRequest id = some r' ∧ Evolves r r' := by
  have hrun : ∃ s, run (step SEED_USERS) empty rejectedRun = some s ∧
      (∃ r, s.store.getRequest "request-1" = some r ∧
        r.rejectionReason = some "No cover") ∧
      ∃ p, exec SEED_USERS s (.cancelLeave emp1 "request-1" 103) = some p ∧
        p.2 = some (.error (conflict
          "Only a PENDING request can be cancelled (current status: REJECTED)")) := by
    decide +kernel
  obtain ⟨s, hs, ⟨r, hr, hreason⟩, ⟨s', out⟩, he, rfl⟩ := hrun
  obtain ⟨hmatches, hexec, hevolves, hchanges⟩ := request_lifecycle hs
  have hchanged : 1 ≤ statusChanges SEED_USERS "request-1" empty rejectedRun := by
    decide +kernel
  exact ⟨s, hs, ⟨r, hr, hreason, hmatches _ r hr⟩,
    Nat.le_antisymm (hchanges _) hchanged,
    ⟨s', he, (hexec _ _ _ he).2.1 _ rfl⟩, hevolves⟩

end RequestService

end Elms
