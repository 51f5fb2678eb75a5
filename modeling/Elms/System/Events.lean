import Elms.System.Authority
import Elms.System.Conservation

/-!
# Events and decisions

`publish_event` is called by the handler, the decision is taken by the Leave
Request Service, and between the two an answer may be lost. What makes at most
one event per decision is that an update is accepted only while its request
is PENDING: of all handlers on one request, at most one is ever answered that
it decided (`DecidedOnce`), and only that one publishes.
-/

namespace Elms

open Calendar Transition

/-! ## §1  Counting events -/

/-- The request that an event is about. -/
def Event.requestId : Event → String
  | .leaveApplied _ _ id => id
  | .leaveApproved _ id => id
  | .leaveRejected _ id _ => id

def Event.isDecision : Event → Bool
  | .leaveApplied _ _ _ => false
  | .leaveApproved _ _ => true
  | .leaveRejected _ _ _ => true

namespace World

/-- Every `publish_event` call made so far, by the two services. -/
def events (w : World) : List Event := w.requests.published ++ w.published

/-- The LEAVE_APPLIED calls for one request. -/
def appliedEvents (w : World) (id : String) : List Event :=
  w.events.filter fun ev => !ev.isDecision && ev.requestId = id

/-- The LEAVE_APPROVED and LEAVE_REJECTED calls for one request. -/
def decisionEvents (w : World) (id : String) : List Event :=
  w.events.filter fun ev => ev.isDecision && ev.requestId = id

end World

/-- Replacing one element of a list, counted. -/
theorem countP_set_add {α : Type*} {p : α → Bool} {l : List α} {j : Nat}
    {a b : α} (hj : l[j]? = some a) :
    (l.set j b).countP p + (p a).toNat = l.countP p + (p b).toNat := by
  obtain ⟨hlt, rfl⟩ := List.getElem?_eq_some_iff.mp hj
  rw [List.countP_set hlt]
  cases hp : p l[j] with
  | false => cases hp' : p b <;> simp
  | true =>
      have hpos : 0 < l.countP p :=
        List.countP_pos_iff.mpr ⟨_, List.getElem_mem hlt, hp⟩
      cases hp' : p b <;> simp <;> omega

/-! ## §2  Applications -/

namespace RequestService

variable {chart : OrgChart} {s s' : RequestService} {l : RequestLabel}

/-- One LEAVE_APPLIED for each stored request, and nothing else. -/
structure AppliedOnce (s : RequestService) : Prop where
  kind : ∀ ev ∈ s.published, ev.isDecision = false
  once : ∀ id, s.published.countP (fun ev => ev.requestId = id) =
    if (s.store.getRequest id).isSome = true then 1 else 0

theorem appliedOnce_empty : AppliedOnce empty where
  kind := fun ev hev => by cases hev
  once := fun id => rfl

theorem appliedOnce_setStatus (hs : AppliedOnce s) {id : String}
    {r : LeaveRequest} (hr : s.store.getRequest id = some r)
    {status : LeaveStatus} {reason : Option String} {now : Timestamp}
    (hstore : s'.store = s.store.setStatus id r status reason now)
    (hpub : s'.published = s.published) : AppliedOnce s' := by
  refine ⟨hpub ▸ hs.kind, fun k => ?_⟩
  rw [hpub, hs.once, hstore, RequestStore.getRequest_setStatus]
  by_cases hk : k = id
  · rw [if_pos hk, hk, hr]
    rfl
  · rw [if_neg hk]

theorem appliedOnce_step (hs : AppliedOnce s)
    (hl : step chart s l = some s') : AppliedOnce s' := by
  obtain ⟨out, he⟩ := step_eq_some_iff.mp hl
  rcases exec_cases he with ⟨hstore, hpub⟩ |
    ⟨i, uuid, c, u, caller, payload, m, -, hadm, hstore, -, hpub⟩ |
    ⟨caller, id, now, r, -, hacc, hstore, -, hpub⟩ |
    ⟨id, body, now, r, -, hacc, hstore, -, hpub⟩
  · exact ⟨hpub ▸ hs.kind, fun id => by rw [hpub, hstore, hs.once]⟩
  · have hnew : s.store.getRequest uuid = none :=
      Dict.get?_eq_none_iff.mpr hadm.fresh
    refine ⟨?_, fun id => ?_⟩
    · rw [hpub]
      intro ev hev
      rcases List.mem_append.mp hev with hev | hev
      · exact hs.kind ev hev
      · rw [List.mem_singleton.mp hev]
        rfl
    · rw [hpub, List.countP_append, hs.once, hstore,
        RequestStore.getRequest_addRequest, List.countP_singleton]
      by_cases hid : id = uuid
      · rw [hid, hnew]
        simp [ApplyLeaveRequest.toRequest, Event.requestId]
      · have hne : ¬ uuid = id := fun h => hid h.symm
        simp [ApplyLeaveRequest.toRequest, Event.requestId, hid, hne]
  · exact appliedOnce_setStatus hs hacc.stored hstore hpub
  · exact appliedOnce_setStatus hs hacc.stored hstore hpub

/-- A call that is refused publishes nothing. -/
theorem refused_silent {e : HTTPException}
    (he : exec chart s l = some (s', some (.error e))) :
    s'.published = s.published := by
  rcases exec_cases he with ⟨-, hpub⟩ |
    ⟨i, uuid, c, u, caller, payload, m, -, -, -, hout, -⟩ |
    ⟨caller, id, now, r, -, -, -, -, hpub⟩ | ⟨id, body, now, r, -, -, -, -, hpub⟩
  · exact hpub
  · cases hout
  · exact hpub
  · exact hpub

end RequestService

/-! ## §3  Handlers -/

namespace ManagerHandler

/-- The handler has been answered that its status update went through. -/
def decided (h : ManagerHandler) : Bool :=
  match h.point with
  | .updating _ (some (.ok (.ok _))) => true
  | .done (.ok _) => true
  | _ => false

/-- The handler has ended with success; it has published its event. -/
def announced (h : ManagerHandler) : Bool :=
  match h.point with
  | .done (.ok _) => true
  | _ => false

theorem done_of_announced {h : ManagerHandler} (ha : h.announced = true) :
    ∃ result, h.point = .done result := by
  unfold announced at ha
  split at ha
  · rename_i result hdone
    exact ⟨.ok result, hdone⟩
  · cases ha

/-- A handler on the request `id` that has been answered that it decided, or
that has published. -/
def decidedOn (id : String) (h : ManagerHandler) : Bool :=
  h.decided && h.requestId = id

def announcedOn (id : String) (h : ManagerHandler) : Bool :=
  h.announced && h.requestId = id

/-- Replacing a handler by one on the same request only counts there. -/
theorem countP_on_set (flag : ManagerHandler → Bool) {l : List ManagerHandler}
    {j : Nat} {h h' : ManagerHandler} (hj : l[j]? = some h)
    (hid : h'.requestId = h.requestId) (id : String) :
    (l.set j h').countP (fun x => flag x && x.requestId = id) +
        (if h.requestId = id then (flag h).toNat else 0) =
      l.countP (fun x => flag x && x.requestId = id) +
        (if h.requestId = id then (flag h').toNat else 0) := by
  have hcount := countP_set_add
    (p := fun x : ManagerHandler => flag x && x.requestId = id) (b := h') hj
  by_cases hk : h.requestId = id
  · simpa [hid, hk] using hcount
  · simpa [hid, hk] using hcount

variable {chart : OrgChart} {h h' : ManagerHandler} {m : HandlerMove}
  {events : List Event}

theorem decided_of_announced (ha : h.announced = true) : h.decided = true := by
  unfold announced at ha
  unfold decided
  split at ha
  · rename_i hp
    rw [hp]
  · cases ha

/-- **Moves.** A handler that moves had not published. It goes on deciding the
same request, is not answered anything by itself, and publishes exactly when
it resumes with the answer that it decided. -/
theorem move_events (hm : h.move chart m = some (h', events)) :
    h'.requestId = h.requestId ∧ h'.decision = h.decision ∧
    h.announced = false ∧ (h'.decided = true → h.decided = true) ∧
    (h'.announced = false ∧ events = [] ∨
     h'.announced = true ∧ ∃ r reply, h.point = .updating r reply ∧
      events = [h.decision.event r h.requestId]) := by
  cases m with
  | resume =>
      simp only [move, resume] at hm
      split at hm
      · rename_i reply hp
        split at hm
        · cases hm
          simp [announced, decided, hp]
        · split at hm <;> cases hm <;> simp [announced, decided, hp]
      · rename_i r reply hp
        split at hm <;> cases hm <;> simp [announced, decided, hp]
      · rename_i r reply hp
        split at hm
        · cases hm
          simp [announced, decided, hp]
        · rename_i view hok
          obtain ⟨r', rfl, -⟩ := statusUpdated_eq_ok_iff.mp hok
          cases hm
          simp [announced, decided, hp]
      · cases hm
  | loseAnswer =>
      simp only [move] at hm
      cases hp : h.point with
      | loading reply =>
          rw [hp] at hm
          cases hm
          simp [announced, decided, hp]
      | deducting r reply =>
          rw [hp] at hm
          cases hm
          simp [announced, decided, hp]
      | updating r reply =>
          rw [hp] at hm
          cases hm
          simp [announced, decided, hp]
      | done result => rw [hp] at hm; cases hm
      | abandoned => rw [hp] at hm; cases hm
  | block =>
      simp only [move] at hm
      split at hm
      · rename_i r hp
        cases hm
        simp [announced, decided, hp]
      · rename_i r hp
        cases hm
        simp [announced, decided, hp]
      · cases hm
  | breakerError =>
      simp only [move] at hm
      split at hm
      · rename_i r reply hp
        cases hm
        simp [announced, decided, hp]
      · rename_i r reply hp
        cases hm
        simp [announced, decided, hp]
      · cases hm
  | abandon =>
      simp only [move] at hm
      split at hm
      · rename_i reply hp
        cases hm
        simp [announced, decided, hp]
      · rename_i r reply hp
        cases hm
        simp [announced, decided, hp]
      · rename_i r reply hp
        cases hm
        simp [announced, decided, hp]
      · cases hm

/-- Resuming with the answer that it decided, a handler publishes. -/
theorem resume_decided (hd : h.decided = true)
    (hm : h.resume chart = some (h', events)) : h'.decided = true := by
  unfold decided at hd
  split at hd
  · rename_i r v hp
    simp only [resume, hp] at hm
    have hok : statusUpdated chart (.ok (.ok v)) =
        .ok (.fromPayload chart v) := statusUpdated_eq_ok_iff.mpr ⟨v, rfl, rfl⟩
    rw [hok] at hm
    cases hm
    rfl
  · rename_i v hp
    simp only [resume, hp] at hm
    cases hm
  · cases hd

/-- An answer to a load or to a deduction decides nothing. -/
theorem receiveLoad_events (h : ManagerHandler)
    (response : Response (List LeaveRequestResponse)) :
    (h.receiveLoad response).requestId = h.requestId ∧
    (h.receiveLoad response).decision = h.decision ∧
    (h.receiveLoad response).announced = h.announced ∧
    (h.receiveLoad response).decided = h.decided := by
  unfold receiveLoad
  split
  · rename_i hp
    simp [announced, decided, hp]
  · exact ⟨rfl, rfl, rfl, rfl⟩

theorem receiveDeduct_events (h : ManagerHandler)
    (response : Response DeductResponse) :
    (h.receiveDeduct response).requestId = h.requestId ∧
    (h.receiveDeduct response).decision = h.decision ∧
    (h.receiveDeduct response).announced = h.announced ∧
    (h.receiveDeduct response).decided = h.decided := by
  unfold receiveDeduct
  split
  · rename_i r hp
    simp [announced, decided, hp]
  · exact ⟨rfl, rfl, rfl, rfl⟩

/-- Only the answer to its update can tell a handler that it decided. -/
theorem receiveUpdate_events (h : ManagerHandler)
    (response : Response LeaveRequestResponse) :
    (h.receiveUpdate response).requestId = h.requestId ∧
    (h.receiveUpdate response).decision = h.decision ∧
    (h.receiveUpdate response).announced = h.announced ∧
    (h.decided = true → (h.receiveUpdate response).decided = true) ∧
    ((h.receiveUpdate response).decided = true →
      h.decided = true ∨ response.isOk = true) := by
  unfold receiveUpdate
  split
  · rename_i r hp
    cases response <;> simp [announced, decided, hp, Except.isOk, Except.toBool]
  · exact ⟨rfl, rfl, rfl, fun hd => hd, Or.inl⟩

end ManagerHandler

theorem Decision.event_isDecision (d : Decision) (r : LeaveRequestResponse)
    (id : String) : (d.event r id).isDecision = true := by
  cases d <;> rfl

theorem Decision.event_requestId (d : Decision) (r : LeaveRequestResponse)
    (id : String) : (d.event r id).requestId = id := by
  cases d <;> rfl

theorem Decision.newStatus_ne_pending (d : Decision) :
    d.newStatus ≠ .PENDING := by
  cases d <;> simp [Decision.newStatus]

/-- The stored reason is the one that the handler sent and publishes. -/
theorem Decision.setStatus_rejectionReason (d : Decision) (r : LeaveRequest)
    (now : Timestamp) :
    (r.setStatus d.newStatus d.rejectionReason now).rejectionReason =
      d.rejectionReason := by
  cases d <;> rfl

/-! ## §4  At most one decision event -/

namespace World

variable {chart : OrgChart} {w w' : World} {l : WorldLabel}

/-- The decision of the handler is the one that is stored. -/
def Stands (st : RequestStore) (h : ManagerHandler) : Prop :=
  ∃ r, st.getRequest h.requestId = some r ∧
    r.status = h.decision.newStatus ∧
    r.rejectionReason = h.decision.rejectionReason

/-- **The event invariant.** A handler that was answered that it decided did;
there is at most one on each request; and the decision events published are
those of the handlers that ended with success, one each. -/
structure DecidedOnce (w : World) : Prop where
  decided : ∀ h ∈ w.manager, h.decided = true → Stands w.requests.store h
  once : ∀ id, w.manager.countP (ManagerHandler.decidedOn id) ≤ 1
  published : ∀ ev ∈ w.published, ∃ h ∈ w.manager, h.announced = true ∧
    ∃ r, Holds w.requests.store h.requestId r ∧
      ev = h.decision.event r h.requestId
  count : ∀ id, w.published.countP (fun ev => ev.requestId = id) =
    w.manager.countP (ManagerHandler.announcedOn id)

theorem fresh_decidedOnce (balances : BalanceStore) :
    DecidedOnce (fresh balances) where
  decided := fun h hh => by cases hh
  once := fun id => Nat.zero_le 1
  published := fun ev hev => by cases hev
  count := fun id => rfl

/-- A decision that stands stays: its request is not PENDING any more. -/
theorem Stands.mono {st st' : RequestStore} {h : ManagerHandler}
    (hs : Stands st h) (hst : RequestService.StoreEvolves st st') :
    Stands st' h := by
  obtain ⟨r, hr, hstatus, hreason⟩ := hs
  obtain ⟨r', hr', he⟩ := hst _ r hr
  rcases he with rfl | ⟨-, hp, -⟩
  · exact ⟨r', hr', hstatus, hreason⟩
  · rw [hstatus] at hp
    exact absurd hp h.decision.newStatus_ne_pending

/-- While a request is PENDING, no handler has decided on it. -/
theorem DecidedOnce.none_decided (hD : DecidedOnce w) {id : String}
    {r : LeaveRequest} (hr : w.requests.store.getRequest id = some r)
    (hp : r.status = .PENDING) :
    w.manager.countP (ManagerHandler.decidedOn id) = 0 := by
  apply List.countP_eq_zero.mpr
  intro h hh hon
  simp only [ManagerHandler.decidedOn, Bool.and_eq_true,
    decide_eq_true_eq] at hon
  obtain ⟨r', hr', hstatus, -⟩ := hD.decided h hh hon.1
  rw [hon.2, hr] at hr'
  cases hr'
  rw [hp] at hstatus
  exact h.decision.newStatus_ne_pending hstatus.symm

/-- Services that move on, and handlers that do not. -/
theorem DecidedOnce.of_manager_eq (hD : DecidedOnce w)
    (hst : RequestService.StoreEvolves w.requests.store w'.requests.store)
    (hm : w'.manager = w.manager) (hp : w'.published = w.published) :
    DecidedOnce w' where
  decided := fun h hh hd => (hD.decided h (hm ▸ hh) hd).mono hst
  once := fun id => by rw [hm]; exact hD.once id
  published := by
    rw [hm, hp]
    intro ev hev
    obtain ⟨h, hh, ha, r, hr, he⟩ := hD.published ev hev
    exact ⟨h, hh, ha, r, hr.mono hst, he⟩
  count := fun id => by rw [hm, hp]; exact hD.count id

/-- **One handler replaced.** It may be told that it decided if none has on
its request, and may publish if it had not. -/
theorem DecidedOnce.replace (hD : DecidedOnce w)
    (hst : RequestService.StoreEvolves w.requests.store w'.requests.store)
    {j : Nat} {h h' : ManagerHandler} {events : List Event}
    (hj : w.manager[j]? = some h) (hm : w'.manager = w.manager.set j h')
    (hp : w'.published = w.published ++ events)
    (hid : h'.requestId = h.requestId) (hdec : h'.decision = h.decision)
    (hdecided : h'.decided = true → h.decided = true ∨
      Stands w'.requests.store h' ∧
      w.manager.countP (ManagerHandler.decidedOn h.requestId) = 0)
    (hevents : h'.announced = h.announced ∧ events = [] ∨
      h.announced = false ∧ h'.announced = true ∧
      ∃ r, Holds w'.requests.store h.requestId r ∧
        events = [h.decision.event r h.requestId]) :
    DecidedOnce w' := by
  have hmem : h ∈ w.manager := List.mem_of_getElem? hj
  have hmem' : h' ∈ w'.manager := by
    rw [hm]
    exact List.mem_set (List.getElem?_eq_some_iff.mp hj).1 _
  constructor
  · intro x hx hd
    rw [hm] at hx
    rcases List.mem_or_eq_of_mem_set hx with hx | rfl
    · exact (hD.decided x hx hd).mono hst
    · rcases hdecided hd with hold | ⟨hstands, -⟩
      · have hs := (hD.decided h hmem hold).mono hst
        unfold Stands at hs ⊢
        rw [hid, hdec]
        exact hs
      · exact hstands
  · intro id
    have hcount : (w.manager.set j h').countP (ManagerHandler.decidedOn id) + _ =
        w.manager.countP (ManagerHandler.decidedOn id) + _ :=
      ManagerHandler.countP_on_set ManagerHandler.decided hj hid id
    have hle := hD.once id
    rw [hm]
    by_cases hk : h.requestId = id
    · rw [if_pos hk, if_pos hk] at hcount
      cases hd' : h'.decided with
      | false =>
          rw [hd', Bool.toNat_false] at hcount
          omega
      | true =>
          -- either it was counted before, or nobody was
          rw [hd', Bool.toNat_true] at hcount
          rcases hdecided hd' with hold | ⟨-, hzero⟩
          · rw [hold, Bool.toNat_true] at hcount
            omega
          · rw [hk] at hzero
            omega
    · rw [if_neg hk, if_neg hk] at hcount
      omega
  · intro ev hev
    rw [hp] at hev
    rcases List.mem_append.mp hev with hev | hev
    · obtain ⟨x, hx, ha, r, hr, he⟩ := hD.published ev hev
      obtain ⟨i, hi⟩ := List.getElem?_of_mem hx
      by_cases hij : i = j
      · subst hij
        rw [hj] at hi
        cases hi
        refine ⟨h', hmem', ?_, r, ?_, ?_⟩
        · rcases hevents with ⟨hann, -⟩ | ⟨-, hann, -⟩
          · rw [hann, ha]
          · exact hann
        · rw [hid]
          exact hr.mono hst
        · rw [hid, hdec]
          exact he
      · refine ⟨x, ?_, ha, r, hr.mono hst, he⟩
        rw [hm]
        apply List.mem_of_getElem? (i := i)
        rw [List.getElem?_set_ne (Ne.symm hij)]
        exact hi
    · rcases hevents with ⟨-, hnil⟩ | ⟨-, hann, r, hr, hone⟩
      · rw [hnil] at hev
        cases hev
      · rw [hone] at hev
        refine ⟨h', hmem', hann, r, hid ▸ hr, ?_⟩
        rw [List.mem_singleton.mp hev, hid, hdec]
  · intro id
    have hcount : (w.manager.set j h').countP (ManagerHandler.announcedOn id) + _ =
        w.manager.countP (ManagerHandler.announcedOn id) + _ :=
      ManagerHandler.countP_on_set ManagerHandler.announced hj hid id
    have hold := hD.count id
    rw [hm, hp, List.countP_append]
    rcases hevents with ⟨hann, hnil⟩ | ⟨hann, hann', r, -, hone⟩
    · rw [hann] at hcount
      rw [hnil, List.countP_nil]
      omega
    · -- one more handler that announced, one more event
      rw [hann, hann', Bool.toNat_false, Bool.toNat_true, ite_self] at hcount
      rw [hone, List.countP_singleton, h.decision.event_requestId]
      simp only [decide_eq_true_eq]
      omega

/-- **Step lemma** of the event invariant. -/
theorem decidedOnce_step (hI : Inv chart w) (hD : DecidedOnce w)
    (hl : step chart w l = some w') : DecidedOnce w' := by
  have hst := storeEvolves_step hl
  rcases step_cases hl with rfl | ⟨rl, s, -, -, rfl⟩ |
    ⟨d, id, caller, -, rfl⟩ | ⟨j, m, h, h', events, -, hj, hm, rfl⟩ |
    ⟨j, now, h, c, -, hj, hc, rfl⟩
  · exact hD
  · exact hD.of_manager_eq hst rfl rfl
  · refine ⟨fun h hh hd => ?_, fun k => ?_, fun ev hev => ?_, fun k => ?_⟩
    · rcases List.mem_append.mp hh with hh | hh
      · exact hD.decided h hh hd
      · rw [List.mem_singleton.mp hh] at hd
        cases hd
    · rw [List.countP_append]
      exact hD.once k
    · obtain ⟨h, hh, hrest⟩ := hD.published ev hev
      exact ⟨h, List.mem_append_left _ hh, hrest⟩
    · rw [List.countP_append]
      exact hD.count k
  · obtain ⟨hid, hdec, hann, hdecided, hevents⟩ :=
      ManagerHandler.move_events hm
    refine hD.replace hst hj rfl rfl hid hdec (fun hd => Or.inl (hdecided hd)) ?_
    rcases hevents with ⟨hann', hnil⟩ | ⟨hann', r, reply, hp, hone⟩
    · exact Or.inl ⟨hann'.trans hann.symm, hnil⟩
    · have hpoint := (hI.handlers h (List.mem_of_getElem? hj)).point
      rw [hp] at hpoint
      exact Or.inr ⟨hann, hann', r, hpoint.1, hone⟩
  · cases c with
    | getRequest id =>
        obtain ⟨hid, hdec, hann, hd⟩ := h.receiveLoad_events
          (listRequests w.requests.store { requestId := some id })
        exact hD.replace hst hj rfl (List.append_nil _).symm hid hdec
          (fun hd' => Or.inl (hd ▸ hd')) (Or.inl ⟨hann, rfl⟩)
    | deductBalance e t d =>
        rcases serve_deductBalance w j h now e t d with
          ⟨-, err, he⟩ | ⟨-, res, he⟩ <;> rw [he] at hst ⊢
        · obtain ⟨hid, hdec, hann, hd⟩ := h.receiveDeduct_events (.error err)
          exact hD.replace hst hj rfl (List.append_nil _).symm hid hdec
            (fun hd' => Or.inl (hd ▸ hd')) (Or.inl ⟨hann, rfl⟩)
        · obtain ⟨hid, hdec, hann, hd⟩ := h.receiveDeduct_events (.ok res)
          exact hD.replace hst hj rfl (List.append_nil _).symm hid hdec
            (fun hd' => Or.inl (hd ▸ hd')) (Or.inl ⟨hann, rfl⟩)
    | setRequestStatus id body =>
        have hsent := (hI.handlers h (List.mem_of_getElem? hj)).sent
        rw [hc] at hsent
        obtain ⟨rfl, rfl, -⟩ := hsent
        rcases serve_setRequestStatus w j h now h.requestId
            (h.decision.body h.caller) with ⟨-, err, he⟩ | ⟨r, hacc, he⟩ <;>
          rw [he] at hst ⊢
        · obtain ⟨hid, hdec, hann, -, hd⟩ := h.receiveUpdate_events (.error err)
          refine hD.replace hst hj rfl (List.append_nil _).symm hid hdec ?_
            (Or.inl ⟨hann, rfl⟩)
          intro hd'
          rcases hd hd' with hold | hok
          · exact Or.inl hold
          · cases hok
        · obtain ⟨hid, hdec, hann, -, -⟩ := h.receiveUpdate_events (.ok
            (r.setStatus (h.decision.body h.caller).newStatus
              (h.decision.body h.caller).rejectionReason now))
          refine hD.replace hst hj rfl (List.append_nil _).symm hid hdec ?_
            (Or.inl ⟨hann, rfl⟩)
          intro _
          -- the update was accepted, so the request was PENDING until now
          refine Or.inr ⟨?_, hD.none_decided hacc.stored hacc.pending⟩
          unfold Stands
          rw [hid, hdec]
          refine ⟨r.setStatus h.decision.newStatus h.decision.rejectionReason
            now, ?_, rfl, h.decision.setStatus_rejectionReason r now⟩
          exact (RequestStore.getRequest_setStatus _ _ _ _ _ _ _).trans
            (if_pos rfl)

/-! ## §5  Without faults, exactly one -/

/-- A handler has been answered that it took the decision that is stored. -/
def DecidedBy (w : World) (id : String) (r : LeaveRequest) : Prop :=
  ∃ h ∈ w.manager, h.requestId = id ∧ h.decided = true ∧
    h.decision.newStatus = r.status

/-- A handler that is replaced by one that goes on from it. -/
theorem DecidedBy.set {id : String} {r : LeaveRequest} (hd : w.DecidedBy id r)
    {j : Nat} {h h' : ManagerHandler} (hj : w.manager[j]? = some h)
    (hm : w'.manager = w.manager.set j h') (hid : h'.requestId = h.requestId)
    (hdec : h'.decision = h.decision)
    (hkeep : h.decided = true → h'.decided = true) : w'.DecidedBy id r := by
  obtain ⟨x, hx, rfl, hxd, hstatus⟩ := hd
  obtain ⟨i, hi⟩ := List.getElem?_of_mem hx
  by_cases hij : i = j
  · subst hij
    rw [hj] at hi
    cases hi
    refine ⟨h', ?_, hid, hkeep hxd, hdec ▸ hstatus⟩
    rw [hm]
    exact List.mem_set (List.getElem?_eq_some_iff.mp hj).1 _
  · refine ⟨x, ?_, rfl, hxd, hstatus⟩
    rw [hm]
    apply List.mem_of_getElem? (i := i)
    rw [List.getElem?_set_ne (Ne.symm hij)]
    exact hi

/-- No answer is lost: who was told that it decided goes on knowing it. -/
theorem decidedBy_step {id : String} {r : LeaveRequest}
    (hd : w.DecidedBy id r) (hl : faultFreeStep chart w l = some w') :
    w'.DecidedBy id r := by
  obtain ⟨hf, hs⟩ := faultFreeStep_eq_some_iff.mp hl
  rcases step_cases hs with rfl | ⟨rl, s, -, -, rfl⟩ |
    ⟨d, k, caller, -, rfl⟩ | ⟨j, m, h, h', events, rfl, hj, hm, rfl⟩ |
    ⟨j, now, h, c, -, hj, hc, rfl⟩
  · exact hd
  · exact hd
  · obtain ⟨x, hx, hrest⟩ := hd
    exact ⟨x, List.mem_append_left _ hx, hrest⟩
  · obtain ⟨hid, hdec, -⟩ := ManagerHandler.move_events hm
    cases m with
    | resume =>
        exact hd.set hj rfl hid hdec fun ho =>
          ManagerHandler.resume_decided ho hm
    | _ => cases hf
  · cases c with
    | getRequest k =>
        obtain ⟨hid, hdec, -, hkeep⟩ := h.receiveLoad_events
          (listRequests w.requests.store { requestId := some k })
        exact hd.set hj rfl hid hdec fun ho => hkeep.trans ho
    | deductBalance e t days =>
        rcases serve_deductBalance w j h now e t days with
          ⟨-, err, he⟩ | ⟨-, res, he⟩ <;> rw [he]
        · obtain ⟨hid, hdec, -, hkeep⟩ := h.receiveDeduct_events (.error err)
          exact hd.set hj rfl hid hdec fun ho => hkeep.trans ho
        · obtain ⟨hid, hdec, -, hkeep⟩ := h.receiveDeduct_events (.ok res)
          exact hd.set hj rfl hid hdec fun ho => hkeep.trans ho
    | setRequestStatus k body =>
        rcases serve_setRequestStatus w j h now k body with
          ⟨-, err, he⟩ | ⟨r', -, he⟩ <;> rw [he]
        · obtain ⟨hid, hdec, -, hkeep, -⟩ := h.receiveUpdate_events (.error err)
          exact hd.set hj rfl hid hdec hkeep
        · obtain ⟨hid, hdec, -, hkeep, -⟩ := h.receiveUpdate_events
            (.ok (r'.setStatus body.newStatus body.rejectionReason now))
          exact hd.set hj rfl hid hdec hkeep

def AllDecided (w : World) : Prop :=
  ∀ id r, w.requests.store.getRequest id = some r →
    r.status = .APPROVED ∨ r.status = .REJECTED → w.DecidedBy id r

/-- **Step lemma**: the handler whose update is accepted is answered so. -/
theorem allDecided_step (hJ : FaultFreeInv chart w) (hA : AllDecided w)
    (hl : faultFreeStep chart w l = some w') : AllDecided w' := by
  have hs := (faultFreeStep_eq_some_iff.mp hl).2
  intro id r' hr' hstatus
  rcases getRequest_step hJ.inv hs hr' with hr | ⟨-, hp⟩ |
    ⟨caller, now, r, -, -, rfl⟩ | ⟨j, now, h, r, rfl, hj, rfl, hc, hacc, rfl⟩
  · exact decidedBy_step (hA id r' hr hstatus) hl
  · rw [hp] at hstatus
    rcases hstatus with h | h <;> cases h
  · rcases hstatus with h | h <;> cases h
  · obtain ⟨h₀, c₀, hj₀, hc₀, hw'⟩ := step_deliver_iff.mp hs
    rw [hj] at hj₀
    cases hj₀
    rw [hc] at hc₀
    cases hc₀
    obtain ⟨q, hp⟩ := (hJ.inSync h (List.mem_of_getElem? hj)).2 _ _ hc
    rcases serve_setRequestStatus w j h now h.requestId
        (h.decision.body h.caller) with ⟨hno, -⟩ | ⟨r₁, -, he⟩
    · exact absurd hacc (hno r)
    · rw [hw', he]
      have hset : ∀ response, h.receiveUpdate (.ok response) =
          { h with point := .updating q (some (.ok (.ok response)))
                   sent := none } := by
        intro response
        simp only [ManagerHandler.receiveUpdate, hp]
      refine ⟨_, List.mem_set (List.getElem?_eq_some_iff.mp hj).1 _, ?_⟩
      rw [hset]
      exact ⟨rfl, rfl, rfl⟩

/-! ## §6  The events of a run -/

variable {balances : BalanceStore}

theorem reaches_events (h : Reaches (step chart) (fresh balances) w) :
    Inv chart w ∧ DecidedOnce w ∧ w.requests.AppliedOnce := by
  have hID : Inv chart w ∧ DecidedOnce w :=
    invariant (I := fun u => Inv chart u ∧ DecidedOnce u)
      (fun _ _ _ hu hl => ⟨inv_step hu.1 hl, decidedOnce_step hu.1 hu.2 hl⟩)
      ⟨fresh_inv chart balances, fresh_decidedOnce balances⟩ h
  exact ⟨hID.1, hID.2, invariant
    (fun _ _ _ => RequestService.appliedOnce_step)
    RequestService.appliedOnce_empty (requests_reaches h)⟩

/-- Decision events are published by the Manager Service only. -/
theorem length_decisionEvents (hA : w.requests.AppliedOnce)
    (hD : DecidedOnce w) (id : String) :
    (w.decisionEvents id).length =
      w.manager.countP (ManagerHandler.announcedOn id) := by
  have hkind : ∀ ev ∈ w.published, ev.isDecision = true := by
    intro ev hev
    obtain ⟨h, -, -, r, -, rfl⟩ := hD.published ev hev
    exact h.decision.event_isDecision r _
  unfold decisionEvents events
  rw [← List.countP_eq_length_filter, List.countP_append, ← hD.count id]
  have hnone : w.requests.published.countP (fun ev =>
      ev.isDecision && ev.requestId = id) = 0 := by
    apply List.countP_eq_zero.mpr
    intro ev hev
    simp [hA.kind ev hev]
  rw [hnone, zero_add]
  apply List.countP_congr
  intro ev hev
  simp [hkind ev hev]

theorem length_appliedEvents (hA : w.requests.AppliedOnce)
    (hD : DecidedOnce w) (id : String) :
    (w.appliedEvents id).length =
      if (w.requests.store.getRequest id).isSome = true then 1 else 0 := by
  unfold appliedEvents events
  rw [← List.countP_eq_length_filter, List.countP_append, ← hA.once id]
  have hnone : w.published.countP (fun ev =>
      !ev.isDecision && ev.requestId = id) = 0 := by
    apply List.countP_eq_zero.mpr
    intro ev hev
    obtain ⟨h, -, -, r, -, rfl⟩ := hD.published ev hev
    simp [h.decision.event_isDecision]
  rw [hnone, add_zero]
  apply List.countP_congr
  intro ev hev
  simp [hA.kind ev hev]

/-- At most one handler has been answered that it decided on a request. -/
theorem length_decisionEvents_le_one (hA : w.requests.AppliedOnce)
    (hD : DecidedOnce w) (id : String) : (w.decisionEvents id).length ≤ 1 := by
  rw [length_decisionEvents hA hD]
  refine le_trans (List.countP_mono_left ?_) (hD.once id)
  intro h _ ha
  simp only [ManagerHandler.announcedOn, ManagerHandler.decidedOn,
    Bool.and_eq_true] at ha ⊢
  exact ⟨ManagerHandler.decided_of_announced ha.1, ha.2⟩

/-- **What was published stands.** The decision event of a request tells its
employee, its status and, for a rejection, its reason. -/
theorem decisionEvent_stands (hA : w.requests.AppliedOnce)
    (hD : DecidedOnce w) {ev : Event} (hev : ev ∈ w.events)
    (hkind : ev.isDecision = true) :
    ∃ h r, h ∈ w.manager ∧ h.requestId = ev.requestId ∧
      Stands w.requests.store h ∧ Holds w.requests.store h.requestId r ∧
      ev = h.decision.event r h.requestId := by
  rcases List.mem_append.mp hev with hev | hev
  · rw [hA.kind ev hev] at hkind
    cases hkind
  · obtain ⟨h, hh, ha, r, hr, rfl⟩ := hD.published ev hev
    exact ⟨h, r, hh, (h.decision.event_requestId r _).symm, hD.decided h hh
      (ManagerHandler.decided_of_announced ha), hr, rfl⟩

theorem approved_stands {st : RequestStore} {h : ManagerHandler}
    {r : LeaveRequest} {e id : String} (hs : Stands st h)
    (hr : Holds st h.requestId r)
    (he : .leaveApproved e id = h.decision.event r h.requestId) :
    ∃ r', st.getRequest id = some r' ∧ r'.employeeId = e ∧
      r'.status = .APPROVED := by
  obtain ⟨r', hr', hstatus, -⟩ := hs
  obtain ⟨r'', hr'', -, hemp, -⟩ := hr
  rw [hr'] at hr''
  cases hr''
  unfold Decision.event at he
  split at he
  · rename_i hd
    cases he
    rw [hd] at hstatus
    exact ⟨r', hr', hemp, hstatus⟩
  · cases he

theorem rejected_stands {st : RequestStore} {h : ManagerHandler}
    {r : LeaveRequest} {e id reason : String} (hs : Stands st h)
    (hr : Holds st h.requestId r)
    (he : .leaveRejected e id reason = h.decision.event r h.requestId) :
    ∃ r', st.getRequest id = some r' ∧ r'.employeeId = e ∧
      r'.status = .REJECTED ∧ r'.rejectionReason = some reason := by
  obtain ⟨r', hr', hstatus, hreason⟩ := hs
  obtain ⟨r'', hr'', -, hemp, -⟩ := hr
  rw [hr'] at hr''
  cases hr''
  unfold Decision.event at he
  split at he
  · cases he
  · rename_i payload hd
    cases he
    rw [hd] at hstatus hreason
    exact ⟨r', hr', hemp, hstatus, hreason⟩

/-- **Decision events match decisions.** In every run, with any faults: each
stored request has had exactly one LEAVE_APPLIED and a refused call publishes
none; each request has at most one decision event; from then on the request is
APPROVED after LEAVE_APPROVED, and REJECTED with the published reason after
LEAVE_REJECTED; a CANCELLED request has none. Without faults an APPROVED or
REJECTED request has exactly one, once the handler that decided it is done. -/
theorem decision_events {ls : List WorldLabel}
    (hr : run (step chart) (fresh balances) ls = some w) :
    (∀ id, (w.appliedEvents id).length =
      if (w.requests.store.getRequest id).isSome = true then 1 else 0) ∧
    (∀ rl s e, RequestService.exec chart w.requests rl =
      some (s, some (.error e)) → s.published = w.requests.published) ∧
    (∀ id, (w.decisionEvents id).length ≤ 1) ∧
    (∀ ms w', run (step chart) w ms = some w' →
      (∀ e id, .leaveApproved e id ∈ w.events →
        ∃ r, w'.requests.store.getRequest id = some r ∧ r.employeeId = e ∧
          r.status = .APPROVED) ∧
      (∀ e id reason, .leaveRejected e id reason ∈ w.events →
        ∃ r, w'.requests.store.getRequest id = some r ∧ r.employeeId = e ∧
          r.status = .REJECTED ∧ r.rejectionReason = some reason)) ∧
    (∀ id r, w.requests.store.getRequest id = some r →
      r.status = .CANCELLED → w.decisionEvents id = []) ∧
    (run (faultFreeStep chart) (fresh balances) ls = some w →
      ∀ id r, w.requests.store.getRequest id = some r →
        r.status = .APPROVED ∨ r.status = .REJECTED →
        ∃ h ∈ w.manager, h.requestId = id ∧
          h.decision.newStatus = r.status ∧ h.decided = true ∧
          ((∃ result, h.point = .done result) →
            (w.decisionEvents id).length = 1)) := by
  obtain ⟨hI, hD, hA⟩ := reaches_events ⟨ls, hr⟩
  refine ⟨length_appliedEvents hA hD,
    fun rl s e he => RequestService.refused_silent he,
    length_decisionEvents_le_one hA hD, ?_, ?_, ?_⟩
  · intro ms w' hms
    have hst := RequestService.storeEvolves_reaches (requests_reaches ⟨ms, hms⟩)
    constructor
    · intro e id hev
      obtain ⟨h, r, -, -, hs, hholds, he⟩ := decisionEvent_stands hA hD hev rfl
      exact approved_stands (hs.mono hst) (hholds.mono hst) he
    · intro e id reason hev
      obtain ⟨h, r, -, -, hs, hholds, he⟩ := decisionEvent_stands hA hD hev rfl
      exact rejected_stands (hs.mono hst) (hholds.mono hst) he
  · intro id r hr' hcancelled
    apply List.eq_nil_iff_forall_not_mem.mpr
    intro ev hev
    obtain ⟨hmem, hkind⟩ := List.mem_filter.mp hev
    simp only [Bool.and_eq_true, decide_eq_true_eq] at hkind
    obtain ⟨h, -, -, hid, ⟨r', hstored, hstatus, -⟩, -, -⟩ :=
      decisionEvent_stands hA hD hmem hkind.1
    rw [hid, hkind.2, hr'] at hstored
    cases hstored
    rw [hcancelled] at hstatus
    cases hd : h.decision <;> rw [hd] at hstatus <;> cases hstatus
  · intro hfree id r hr' hstatus
    have hJA : FaultFreeInv chart w ∧ AllDecided w :=
      invariant (I := fun u => FaultFreeInv chart u ∧ AllDecided u)
        (fun _ _ _ hu hl =>
          ⟨faultFreeInv_step hu.1 hl, allDecided_step hu.1 hu.2 hl⟩)
        ⟨⟨fresh_inv chart balances, fun h hh => by cases hh⟩,
          fun id r hr => by cases hr⟩ ⟨ls, hfree⟩
    obtain ⟨h, hh, hid, hdecided, hnew⟩ := hJA.2 id r hr' hstatus
    refine ⟨h, hh, hid, hnew, hdecided, fun ⟨result, hdone⟩ => ?_⟩
    -- a handler that decided and is done has ended with success
    have hann : h.announced = true := by
      unfold ManagerHandler.decided at hdecided
      unfold ManagerHandler.announced
      rw [hdone] at hdecided ⊢
      cases result with
      | error e => cases hdecided
      | ok view => rfl
    have hpos : 0 < w.manager.countP (ManagerHandler.announcedOn id) :=
      List.countP_pos_iff.mpr ⟨h, hh, by
        simp [ManagerHandler.announcedOn, hann, hid]⟩
    have hle := length_decisionEvents_le_one hA hD id
    rw [length_decisionEvents hA hD] at hle ⊢
    omega

/-- One request is applied for and approved, every answer coming back; the
handler is done. -/
def decidedRun : List WorldLabel :=
  [.applyLeave emp1 familyTrip ⟨738990⟩, .fetchRemaining 0,
   .resumeApply 0 "request-1" 100 101,
   .approveRequest manager1 "request-1", .deliver 0 200, .handler 0 .resume,
   .deliver 0 201, .handler 0 .resume, .deliver 0 202, .handler 0 .resume]

theorem decision_events_decidedRun :
    ∃ w, run (step SEED_USERS) (fresh seeded.balances) decidedRun = some w ∧
      (w.appliedEvents "request-1").length = 1 ∧
      (∃ h ∈ w.manager, h.requestId = "request-1" ∧
        ∃ result, h.point = .done result) ∧
      (w.decisionEvents "request-1").length = 1 := by
  have hrun : ∃ w, run (step SEED_USERS) (fresh seeded.balances) decidedRun =
        some w ∧
      run (faultFreeStep SEED_USERS) (fresh seeded.balances) decidedRun =
        some w ∧
      (∀ h ∈ w.manager, h.announced = true) ∧
      ∃ r, w.requests.store.getRequest "request-1" = some r ∧
        r.status = .APPROVED := by decide +kernel
  obtain ⟨w, hw, hfree, hann, r, hr, ha⟩ := hrun
  have happlied := (decision_events hw).1 "request-1"
  rw [hr] at happlied
  obtain ⟨h, hh, hid, -, -, hone⟩ :=
    (decision_events hw).2.2.2.2.2 hfree _ r hr (Or.inl ha)
  have hdone := ManagerHandler.done_of_announced (hann h hh)
  exact ⟨w, hw, happlied, ⟨h, hh, hid, hdone⟩, hone hdone⟩

end World

end Elms
