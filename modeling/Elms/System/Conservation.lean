import Elms.System.Ledger
import Mathlib.Data.Int.ConditionallyCompleteOrder

/-!
# Conservation of leave days

Without faults, `used` should have grown by the days of the APPROVED requests
once no approval is in progress. An approval reads PENDING, deducts and flips
the status in three calls, and nothing keeps another handler out in between:
two approvals of one request both deduct, and a cancellation or a rejection
that comes after the deduction leaves it standing. `conservation_iff` says
exactly which runs conserve the days.

For each request the proof follows what has been deducted beyond what is, or
is about to be, APPROVED (`excess`). A step keeps it if it meets the
condition, and raises it otherwise.
-/

namespace Elms

open Calendar Transition

/-! ## §1  Runs without faults -/

/-- A call is lost or its answer is, a breaker raises, a handler is abandoned. -/
def WorldLabel.isFault : WorldLabel → Bool
  | .failLookup _ _ => true
  | .abandonApply _ => true
  | .handler _ .resume => false
  | .handler _ _ => true
  | _ => false

namespace ManagerHandler

/-- The call on the wire is the one that the handler is awaiting. -/
def InSync (h : ManagerHandler) : Prop :=
  (∀ e t d, h.sent = some (.deductBalance e t d) →
    ∃ r, h.point = .deducting r none) ∧
  (∀ id body, h.sent = some (.setRequestStatus id body) →
    ∃ r, h.point = .updating r none)

/-- An approval whose deduction was accepted, and whose status update has not
been delivered. -/
def owes (h : ManagerHandler) : Bool :=
  h.decision = .approve &&
    match h.point with
    | .deducting _ (some (.ok (.ok _))) => true
    | .updating _ none => true
    | _ => false

/-- The handler is not in progress any more. -/
def ended (h : ManagerHandler) : Bool :=
  match h.point with
  | .done _ => true
  | .abandoned => true
  | _ => false

variable {chart : OrgChart} {h h' : ManagerHandler}

theorem inSync_of_sent_none (hs : h.sent = none) : h.InSync :=
  ⟨fun e t d hc => absurd (hs.symm.trans hc) (by simp),
    fun id body hc => absurd (hs.symm.trans hc) (by simp)⟩

/-- Once its answer is there, a handler in sync has no call on the wire. -/
theorem InSync.of_ended {p : ManagerPoint} (hs : h.InSync)
    (hd : ∀ r, h.point ≠ .deducting r none)
    (hu : ∀ r, h.point ≠ .updating r none) : ({ h with point := p }).InSync := by
  refine ⟨fun e t d hc => ?_, fun id body hc => ?_⟩
  · obtain ⟨r, hr⟩ := hs.1 e t d hc
    exact absurd hr (hd r)
  · obtain ⟨r, hr⟩ := hs.2 id body hc
    exact absurd hr (hu r)

/-- **Resuming** keeps a handler in sync, and what it owes. -/
theorem resume_spec (hs : h.InSync) {events : List Event}
    (hm : h.resume chart = some (h', events)) :
    h'.InSync ∧ h'.owes = h.owes ∧ h'.requestId = h.requestId := by
  unfold resume at hm
  split at hm
  · rename_i reply hp
    have hend : ∀ p, ({ h with point := p } : ManagerHandler).InSync := by
      intro p
      apply hs.of_ended <;> intro r <;> rw [hp] <;> simp
    split at hm
    · cases hm
      exact ⟨hend _, by simp [owes, hp], rfl⟩
    · split at hm
      · cases hm
        refine ⟨⟨fun e t d _ => ⟨_, rfl⟩, fun id body hc => ?_⟩, ?_, rfl⟩
        · simp [deductCall] at hc
        · simp [owes, hp]
      · rename_i payload hd
        cases hm
        refine ⟨⟨fun e t d hc => ?_, fun id body _ => ⟨_, rfl⟩⟩, ?_, rfl⟩
        · simp at hc
        · simp [owes, hd]
  · rename_i r reply hp
    have hend : ∀ p, ({ h with point := p } : ManagerHandler).InSync := by
      intro p
      apply hs.of_ended <;> intro r <;> rw [hp] <;> simp
    split at hm
    · rename_i e he
      cases hm
      refine ⟨hend _, ?_, rfl⟩
      -- a reply that ends the handler is not an accepted deduction
      have hne : ∀ b, reply ≠ .ok (.ok b) := by
        rintro b rfl
        rw [balanceDeducted_eq_ok_iff.mpr ⟨b, rfl⟩] at he
        cases he
      unfold owes
      rw [hp]
      rcases reply with e' | (e' | b)
      · rfl
      · rfl
      · exact absurd rfl (hne b)
    · rename_i hok
      obtain ⟨b, rfl⟩ := balanceDeducted_eq_ok_iff.mp hok
      cases hm
      refine ⟨⟨fun e t d hc => ?_, fun id body _ => ⟨_, rfl⟩⟩, ?_, rfl⟩
      · simp at hc
      · simp [owes, hp]
  · rename_i r reply hp
    have hend : ∀ p, ({ h with point := p } : ManagerHandler).InSync := by
      intro p
      apply hs.of_ended <;> intro r <;> rw [hp] <;> simp
    split at hm <;> cases hm <;> exact ⟨hend _, by simp [owes, hp], rfl⟩
  · cases hm

theorem receiveLoad_spec (h : ManagerHandler)
    (response : Response (List LeaveRequestResponse)) :
    (h.receiveLoad response).InSync ∧ (h.receiveLoad response).owes = h.owes ∧
    (h.receiveLoad response).requestId = h.requestId := by
  unfold receiveLoad
  split
  · rename_i hp
    exact ⟨inSync_of_sent_none rfl, by simp [owes, hp], rfl⟩
  · exact ⟨inSync_of_sent_none rfl, rfl, rfl⟩

theorem receiveDeduct_spec {r : LeaveRequestResponse}
    (hp : h.point = .deducting r none) (response : Response DeductResponse) :
    (h.receiveDeduct response).InSync ∧
    (h.receiveDeduct response).owes =
      (h.decision = .approve && response.isOk) ∧
    (h.receiveDeduct response).requestId = h.requestId := by
  unfold receiveDeduct
  rw [hp]
  refine ⟨inSync_of_sent_none rfl, ?_, rfl⟩
  cases response <;> rfl

theorem receiveUpdate_spec {r : LeaveRequestResponse}
    (hp : h.point = .updating r none)
    (response : Response LeaveRequestResponse) :
    (h.receiveUpdate response).InSync ∧
    (h.receiveUpdate response).owes = false ∧
    (h.receiveUpdate response).requestId = h.requestId := by
  unfold receiveUpdate
  rw [hp]
  exact ⟨inSync_of_sent_none rfl, by simp [owes], rfl⟩

end ManagerHandler

/-! ## §2  What is deducted beyond what is approved -/

/-- An approval of the request `id` has paid, and its update is still to be
delivered. -/
def Owed (hs : List ManagerHandler) (id : String) : Prop :=
  ∃ h ∈ hs, h.owes = true ∧ h.requestId = id

instance (hs : List ManagerHandler) (id : String) : Decidable (Owed hs id) :=
  inferInstanceAs (Decidable (∃ h ∈ hs, _))

/-- Replacing a handler by one that owes the same changes nothing owed; nor
does any replacement, for another request. -/
theorem owed_set {hs : List ManagerHandler} {j : Nat} {h h' : ManagerHandler}
    (hj : hs[j]? = some h) (hid : h'.requestId = h.requestId) {id : String}
    (hsame : id = h.requestId → h'.owes = h.owes) :
    Owed (hs.set j h') id ↔ Owed hs id := by
  constructor
  · rintro ⟨x, hx, ho, rfl⟩
    rcases List.mem_or_eq_of_mem_set hx with hx | rfl
    · exact ⟨x, hx, ho, rfl⟩
    · exact ⟨h, List.mem_of_getElem? hj, (hsame hid) ▸ ho, hid.symm⟩
  · rintro ⟨x, hx, ho, rfl⟩
    obtain ⟨i, hi⟩ := List.getElem?_of_mem hx
    by_cases hij : i = j
    · subst hij
      rw [hj] at hi
      cases hi
      have hlt := (List.getElem?_eq_some_iff.mp hj).1
      exact ⟨h', List.mem_set hlt _, (hsame rfl).trans ho, hid⟩
    · refine ⟨x, List.mem_of_getElem? (i := i) ?_, ho, rfl⟩
      rw [List.getElem?_set_ne (Ne.symm hij)]
      exact hi

namespace World

/-- How much more often the request `id` has been deducted for than it is
APPROVED, or PENDING with an approval of it on its way. -/
def excess (w : World) (id : String) : Int :=
  w.timesPaid id - w.timesApproved id -
    if w.requests.statusOf id = some .PENDING ∧ Owed w.manager id then 1 else 0

/-- The call takes effect without coming between an approval's deduction and
its update: it does not deduct for a request that is not PENDING or that
another approval has already paid for, and does not reject one. -/
def UndisturbedBy (w : World) (h : ManagerHandler) : Call → Prop
  | .getRequest _ => True
  | .deductBalance e t d =>
      w.balances.Deductible e t d →
        w.requests.statusOf h.requestId = some .PENDING ∧
        ¬ Owed w.manager h.requestId
  | .setRequestStatus id body =>
      body.newStatus = .REJECTED →
        (∃ r, UpdateAccepted w.requests.store id body r) → ¬ Owed w.manager id

instance (w : World) (h : ManagerHandler) : ∀ c, Decidable (w.UndisturbedBy h c)
  | .getRequest _ => isTrue trivial
  | .deductBalance e t d =>
      inferInstanceAs (Decidable (w.balances.Deductible e t d → _ ∧ _))
  | .setRequestStatus id body =>
      inferInstanceAs (Decidable (body.newStatus = _ →
        (∃ r, UpdateAccepted w.requests.store id body r) → _))

/-- The step does not come between an approval's deduction and its update,
nor cancels a request that an approval has paid for. -/
def Undisturbed (w : World) : WorldLabel → Prop
  | .deliver j _ => ∀ h ∈ w.manager[j]?, ∀ c ∈ h.sent, w.UndisturbedBy h c
  | .cancelLeave caller id _ =>
      (∃ r, CancelAccepted w.requests.store caller id r) → ¬ Owed w.manager id
  | _ => True

instance (w : World) : ∀ l, Decidable (w.Undisturbed l)
  | .deliver j _ =>
      inferInstanceAs (Decidable (∀ h ∈ w.manager[j]?, ∀ c ∈ h.sent,
        w.UndisturbedBy h c))
  | .cancelLeave caller id _ =>
      inferInstanceAs (Decidable
        ((∃ r, CancelAccepted w.requests.store caller id r) → _))
  | .read _ => isTrue trivial
  | .applyLeave _ _ _ => isTrue trivial
  | .fetchRemaining _ => isTrue trivial
  | .failLookup _ _ => isTrue trivial
  | .resumeApply _ _ _ _ => isTrue trivial
  | .abandonApply _ => isTrue trivial
  | .approveRequest _ _ => isTrue trivial
  | .rejectRequest _ _ _ => isTrue trivial
  | .handler _ _ => isTrue trivial

/-- The platform without faults. -/
def faultFreeStep (chart : OrgChart) (w : World) (l : WorldLabel) :
    Option World :=
  if l.isFault then none else step chart w l

/-- The invariant of runs without faults. -/
structure FaultFreeInv (chart : OrgChart) (w : World) : Prop where
  inv : Inv chart w
  inSync : ∀ h ∈ w.manager, h.InSync

variable {chart : OrgChart} {w₀ w w' : World} {l : WorldLabel}

theorem faultFreeStep_eq_some_iff :
    faultFreeStep chart w l = some w' ↔
      l.isFault = false ∧ step chart w l = some w' := by
  unfold faultFreeStep
  cases l.isFault <;> simp

theorem Initial.faultFreeInv (h : Initial chart w) : FaultFreeInv chart w where
  inv := h.inv
  inSync := by
    rw [h.no_handlers]
    intro x hx
    cases hx

/-- What is owed is owed for a stored request. -/
theorem owed_stored (hI : Inv chart w) {id : String}
    (h : Owed w.manager id) :
    ∃ r, w.requests.store.getRequest id = some r := by
  obtain ⟨x, hx, ho, rfl⟩ := h
  have hpoint := (hI.handlers x hx).point
  unfold ManagerHandler.owes at ho
  cases hp : x.point with
  | deducting r reply =>
      rw [hp] at hpoint
      obtain ⟨-, ⟨r', hr', -⟩, -⟩ := hpoint
      exact ⟨r', hr'⟩
  | updating r reply =>
      rw [hp] at hpoint
      obtain ⟨⟨r', hr', -⟩, -⟩ := hpoint
      exact ⟨r', hr'⟩
  | loading reply => simp [hp] at ho
  | done result => simp [hp] at ho
  | abandoned => simp [hp] at ho

/-- `excess` looks at the ledger, the status and what is owed. -/
theorem excess_congr {id : String} (hl : w'.timesPaid id = w.timesPaid id)
    (hs : w'.requests.statusOf id = w.requests.statusOf id)
    (ho : Owed w'.manager id ↔ Owed w.manager id) :
    w'.excess id = w.excess id := by
  unfold excess timesApproved
  simp only [hl, hs, ho]

/-! ## §3  One step -/

/-- The two ways a step relates to the excess: it meets the condition and
keeps it, or breaks the condition and raises it. -/
def KeptOrRaised (w w' : World) (l : WorldLabel) : Prop :=
  (w.Undisturbed l ∧ w'.excess = w.excess) ∨
  (¬ w.Undisturbed l ∧ w.excess < w'.excess)

/-- A step that only concerns one request: it is judged by that request. -/
theorem keptOrRaised_at (id : String) {C : Prop} [Decidable C]
    (hcond : w.Undisturbed l ↔ C)
    (hat : w'.excess id = w.excess id + if C then 0 else 1)
    (hne : ∀ k, k ≠ id → w'.excess k = w.excess k) : KeptOrRaised w w' l := by
  by_cases hC : C
  · rw [if_pos hC, add_zero] at hat
    refine Or.inl ⟨hcond.mpr hC, ?_⟩
    funext k
    by_cases hk : k = id
    · rw [hk, hat]
    · exact hne k hk
  · rw [if_neg hC] at hat
    refine Or.inr ⟨fun h => hC (hcond.mp h), ?_⟩
    rw [Pi.lt_def]
    constructor
    · intro k
      by_cases hk : k = id
      · rw [hk, hat]
        exact le_add_of_nonneg_right zero_le_one
      · exact (hne k hk).ge
    · exact ⟨id, by omega⟩

/-- Applications, whatever becomes of them, deduct nothing. -/
theorem excess_applied (hI : Inv chart w) {rl : RequestLabel}
    {s : RequestService} (hs : RequestService.step chart w.requests rl = some s)
    (hc : ∀ caller id now, rl ≠ .cancelLeave caller id now)
    (hu : ∀ id body now, rl ≠ .updateStatus id body now) :
    ({ w with requests := s } : World).excess = w.excess := by
  funext id
  cases hr : s.store.getRequest id with
  | none =>
      -- nothing is ever removed, so it was not there before either
      have hold : w.requests.store.getRequest id = none := by
        cases hw : w.requests.store.getRequest id with
        | none => rfl
        | some r =>
            obtain ⟨r', hr', -⟩ := RequestService.storeEvolves_step hs id r hw
            rw [hr] at hr'
            cases hr'
      refine excess_congr rfl ?_ Iff.rfl
      simp only [RequestService.statusOf, hr, hold]
  | some r =>
      rcases RequestService.getRequest_step hs hr with h | ⟨hn, hp, -⟩ |
        ⟨caller, now, r', rfl, -⟩ | ⟨body, now, r', rfl, -⟩
      · refine excess_congr rfl ?_ Iff.rfl
        simp only [RequestService.statusOf, hr, h]
      · have howed : ¬ Owed w.manager id := by
          intro ho
          obtain ⟨r', hr'⟩ := owed_stored hI ho
          rw [hn] at hr'
          cases hr'
        have hst : s.statusOf id = some .PENDING := by
          rw [RequestService.statusOf_eq_of_getRequest hr, hp]
        have hst₀ : w.requests.statusOf id = none := by
          unfold RequestService.statusOf
          rw [hn, Option.map_none]
        unfold excess timesApproved
        simp only [hst, hst₀, howed, and_false, Option.some.injEq,
          reduceCtorEq, if_false]
        rfl
      · exact absurd rfl (hc caller id now)
      · exact absurd rfl (hu id body now)

/-- Starting a decision deducts nothing. -/
theorem excess_begin (w : World) (requestId : String) (caller : CallerIdentity)
    (d : Except HTTPException Decision) :
    (w.begin requestId caller d).excess = w.excess := by
  cases d with
  | error e => rfl
  | ok d =>
      funext id
      refine excess_congr rfl rfl ?_
      constructor
      · rintro ⟨x, hx, ho, hid⟩
        rcases List.mem_append.mp hx with hx | hx
        · exact ⟨x, hx, ho, hid⟩
        · rw [List.mem_singleton.mp hx] at ho
          simp [ManagerHandler.start, ManagerHandler.owes] at ho
      · rintro ⟨x, hx, ho, hid⟩
        exact ⟨x, List.mem_append_left _ hx, ho, hid⟩

/-- **Cancelling** a request that an approval has paid for leaves the
deduction standing. -/
theorem keptOrRaised_cancel {caller : CallerIdentity} {id : String}
    {now : Timestamp}
    (hl : step chart w (.cancelLeave caller id now) = some w') :
    KeptOrRaised w w' (.cancelLeave caller id now) := by
  have hs : w' = { w with requests := { w.requests with
      store := (Elms.cancelLeave w.requests.store caller id now).2 } } := by
    have hrl : w.requestLabel chart (.cancelLeave caller id now) =
        some (.cancelLeave caller id now) := rfl
    rw [step_of_requestLabel hrl] at hl
    exact (Option.some.inj hl).symm
  rcases cancelLeave_cases w.requests.store caller id now with
    ⟨hno, e, he⟩ | ⟨r, hacc, he⟩
  · rw [hs, he]
    refine Or.inl ⟨fun ⟨r, hr⟩ => absurd hr (hno r), ?_⟩
    rfl
  · rw [hs, he]
    have hpend : w.requests.statusOf id = some .PENDING := by
      rw [RequestService.statusOf_eq_of_getRequest hacc.stored, hacc.pending]
    have hcond : w.Undisturbed (.cancelLeave caller id now) ↔
        ¬ Owed w.manager id :=
      ⟨fun h => h ⟨r, hacc⟩, fun h _ => h⟩
    refine keptOrRaised_at id hcond ?_ fun k hk => ?_
    · simp only [excess, timesApproved, timesPaid,
        RequestService.statusOf_setStatus, hpend]
      by_cases ho : Owed w.manager id <;> simp [ho]
    · refine excess_congr rfl ?_ Iff.rfl
      rw [RequestService.statusOf_setStatus, if_neg hk]

theorem count_append_deduction (ledger : List Deduction) (d : Deduction)
    (id : String) :
    ((ledger ++ [d]).map Deduction.requestId).count id =
      (ledger.map Deduction.requestId).count id +
        if id = d.requestId then 1 else 0 := by
  rw [List.map_append, List.count_append, List.map_singleton]
  by_cases hid : id = d.requestId
  · rw [if_pos hid, hid, List.count_singleton_self]
  · rw [if_neg hid, List.count_eq_zero_of_not_mem fun h =>
      hid (List.mem_singleton.mp h)]

/-- **Deducting** raises the excess unless the request is PENDING and nobody
else has paid for it. -/
theorem keptOrRaised_deduct (hJ : FaultFreeInv chart w) {j : Nat}
    {h : ManagerHandler} (hj : w.manager[j]? = some h) {now : Timestamp}
    {e : String} {t : LeaveType} {d : Int}
    (hc : h.sent = some (.deductBalance e t d)) :
    KeptOrRaised w (w.serve j h now (.deductBalance e t d))
      (.deliver j now) := by
  have hmem := List.mem_of_getElem? hj
  have hdec : h.decision = .approve := by
    have hsent := (hJ.inv.handlers h hmem).sent
    rw [hc] at hsent
    exact hsent.1
  obtain ⟨r, hp⟩ := (hJ.inSync h hmem).1 e t d hc
  have hnot : h.owes = false := by simp [ManagerHandler.owes, hp]
  have hcond : w.Undisturbed (.deliver j now) ↔
      (w.balances.Deductible e t d →
        w.requests.statusOf h.requestId = some .PENDING ∧
        ¬ Owed w.manager h.requestId) := by
    simp only [Undisturbed, hj, hc, Option.mem_some_iff, forall_eq',
      UndisturbedBy]
  rcases serve_deductBalance w j h now e t d with
    ⟨hno, err, he⟩ | ⟨hd, res, he⟩
  · -- refused: nobody owes more or less
    obtain ⟨-, hown, hid⟩ :=
      ManagerHandler.receiveDeduct_spec hp (.error err)
    rw [he]
    refine Or.inl ⟨hcond.mpr fun h => absurd h hno, ?_⟩
    funext id
    refine excess_congr rfl rfl (owed_set hj hid fun _ => ?_)
    rw [hown, hnot]
    exact Bool.and_false _
  · obtain ⟨-, hown, hid⟩ := ManagerHandler.receiveDeduct_spec hp (.ok res)
    have howes : (h.receiveDeduct (.ok res)).owes = true := by
      rw [hown, hdec]
      rfl
    have howed : Owed (w.manager.set j (h.receiveDeduct (.ok res)))
        h.requestId := by
      have hlt := (List.getElem?_eq_some_iff.mp hj).1
      exact ⟨_, List.mem_set hlt _, howes, hid⟩
    rw [he]
    refine keptOrRaised_at h.requestId
      (hcond.trans (imp_iff_right hd)) ?_ fun k hk => ?_
    · unfold excess timesApproved timesPaid
      simp only [count_append_deduction, howed, if_true, and_true]
      by_cases hpend : w.requests.statusOf h.requestId = some .PENDING
      · by_cases ho : Owed w.manager h.requestId <;> simp [hpend, ho]
      · simp only [hpend, false_and, if_false]
        omega
    · refine excess_congr ?_ rfl (owed_set hj hid fun h => absurd h hk)
      unfold timesPaid
      rw [count_append_deduction, if_neg hk, Nat.add_zero]

/-- An approval that has paid gets its update accepted exactly if the request
is still PENDING. -/
theorem approval_accepted {st : RequestStore} {ledger : List Deduction}
    {h : ManagerHandler} (hok : h.Ok st ledger) {r : LeaveRequestResponse}
    (hp : h.point = .updating r none) (hd : h.decision = .approve)
    {r' : LeaveRequest} (hr' : st.getRequest h.requestId = some r')
    (hpend : r'.status = .PENDING) :
    UpdateAccepted st h.requestId (h.decision.body h.caller) r' := by
  have hpoint := hok.point
  rw [hp] at hpoint
  obtain ⟨⟨r'', hr'', hsame⟩, hroute, -⟩ := hpoint
  rw [hr'] at hr''
  cases hr''
  obtain ⟨-, -, -, -, -, -, -, hmgr, -⟩ := hsame
  refine ⟨⟨?_, ?_⟩, hr', hmgr.trans hroute, hpend, Or.inl ?_⟩
  · show 1 ≤ h.caller.userId.length
    have hne : h.caller.userId.length ≠ 0 := fun h0 =>
      h.caller.nonempty (String.length_eq_zero_iff.mp h0)
    omega
  · rw [hd]
    intro reason hreason
    cases hreason
  · rw [hd]
    rfl

/-- The update of an approval that has paid: accepted, it settles what the
approval owes; refused, the request had been decided already. -/
theorem excess_approved {j : Nat} {h : ManagerHandler}
    (hj : w.manager[j]? = some h) (hok : h.Ok w.requests.store w.ledger)
    {r : LeaveRequestResponse} (hp : h.point = .updating r none)
    (hd : h.decision = .approve) (now : Timestamp) :
    (w.serve j h now (.setRequestStatus h.requestId
      (h.decision.body h.caller))).excess = w.excess := by
  have howed : Owed w.manager h.requestId := by
    refine ⟨h, List.mem_of_getElem? hj, ?_, rfl⟩
    simp [ManagerHandler.owes, hp, hd]
  funext k
  rcases serve_setRequestStatus w j h now h.requestId
      (h.decision.body h.caller) with ⟨hno, err, he⟩ | ⟨r', hacc, he⟩
  · obtain ⟨-, -, hid⟩ := ManagerHandler.receiveUpdate_spec hp (.error err)
    rw [he]
    by_cases hk : k = h.requestId
    · -- refused: the request is not PENDING, before or after
      have hnp : w.requests.statusOf h.requestId ≠ some .PENDING := by
        intro hst
        obtain ⟨r', hr', hpend⟩ := Option.map_eq_some_iff.mp hst
        exact hno r' (approval_accepted hok hp hd hr' hpend)
      rw [hk]
      unfold excess
      simp only [hnp, false_and, if_false]
      rfl
    · exact excess_congr rfl rfl (owed_set hj hid fun h => absurd h hk)
  · obtain ⟨-, -, hid⟩ := ManagerHandler.receiveUpdate_spec hp
      (.ok (r'.setStatus (h.decision.body h.caller).newStatus
        (h.decision.body h.caller).rejectionReason now))
    rw [he]
    by_cases hk : k = h.requestId
    · -- accepted: no longer owed, and APPROVED in its place
      have hpend : w.requests.statusOf h.requestId = some .PENDING := by
        rw [RequestService.statusOf_eq_of_getRequest hacc.stored, hacc.pending]
      have hnew : (h.decision.body h.caller).newStatus = .APPROVED := by
        rw [hd]
        rfl
      rw [hk]
      unfold excess timesApproved
      simp only [RequestService.statusOf_setStatus, hnew, hpend, howed]
      simp [timesPaid]
    · refine excess_congr rfl ?_ (owed_set hj hid fun h => absurd h hk)
      rw [RequestService.statusOf_setStatus, if_neg hk]

/-- The update of a rejection: accepted while an approval of the same request
owes, it leaves that deduction standing. -/
theorem keptOrRaised_rejected {j : Nat} {h : ManagerHandler}
    (hj : w.manager[j]? = some h) {r : LeaveRequestResponse}
    (hp : h.point = .updating r none) {payload : RejectLeaveRequest}
    (hd : h.decision = .reject payload) {now : Timestamp}
    (hcond : w.Undisturbed (.deliver j now) ↔
      ((∃ r, UpdateAccepted w.requests.store h.requestId
        (h.decision.body h.caller) r) → ¬ Owed w.manager h.requestId)) :
    KeptOrRaised w (w.serve j h now (.setRequestStatus h.requestId
      (h.decision.body h.caller))) (.deliver j now) := by
  have hnot : h.owes = false := by simp [ManagerHandler.owes, hd]
  rcases serve_setRequestStatus w j h now h.requestId
      (h.decision.body h.caller) with ⟨hno, err, he⟩ | ⟨r', hacc, he⟩
  · obtain ⟨-, hown, hid⟩ :=
      ManagerHandler.receiveUpdate_spec hp (.error err)
    rw [he]
    refine Or.inl ⟨hcond.mpr fun ⟨r, hr⟩ => absurd hr (hno r), ?_⟩
    funext k
    exact excess_congr rfl rfl
      (owed_set hj hid fun _ => hown.trans hnot.symm)
  · obtain ⟨-, hown, hid⟩ := ManagerHandler.receiveUpdate_spec hp
      (.ok (r'.setStatus (h.decision.body h.caller).newStatus
        (h.decision.body h.caller).rejectionReason now))
    have hsame : ∀ k, Owed (w.manager.set j (h.receiveUpdate (.ok
        (r'.setStatus (h.decision.body h.caller).newStatus
          (h.decision.body h.caller).rejectionReason now)))) k ↔
        Owed w.manager k :=
      fun k => owed_set hj hid fun _ => hown.trans hnot.symm
    have hpend : w.requests.statusOf h.requestId = some .PENDING := by
      rw [RequestService.statusOf_eq_of_getRequest hacc.stored, hacc.pending]
    have hnew : (h.decision.body h.caller).newStatus = .REJECTED := by
      rw [hd]
      rfl
    have hcond' : w.Undisturbed (.deliver j now) ↔ ¬ Owed w.manager h.requestId :=
      hcond.trans ⟨fun hu => hu ⟨r', hacc⟩, fun ho _ => ho⟩
    rw [he]
    refine keptOrRaised_at h.requestId hcond' ?_ fun k hk => ?_
    · unfold excess timesApproved
      simp only [RequestService.statusOf_setStatus, hnew, hpend]
      by_cases ho : Owed w.manager h.requestId <;> simp [timesPaid, ho]
    · refine excess_congr rfl ?_ (hsame k)
      rw [RequestService.statusOf_setStatus, if_neg hk]

/-- **Deciding** a PENDING request settles what an approval of it owes; a
rejection leaves that deduction standing. -/
theorem keptOrRaised_update (hJ : FaultFreeInv chart w) {j : Nat}
    {h : ManagerHandler} (hj : w.manager[j]? = some h) {now : Timestamp}
    {id : String} {body : StatusUpdateBody}
    (hc : h.sent = some (.setRequestStatus id body)) :
    KeptOrRaised w (w.serve j h now (.setRequestStatus id body))
      (.deliver j now) := by
  have hmem := List.mem_of_getElem? hj
  have hok := hJ.inv.handlers h hmem
  obtain ⟨rfl, rfl, -⟩ : id = h.requestId ∧
      body = h.decision.body h.caller ∧
      (h.decision = .approve → Paid w.ledger h.requestId) := by
    have hsent := hok.sent
    rw [hc] at hsent
    exact hsent
  obtain ⟨r, hp⟩ := (hJ.inSync h hmem).2 _ _ hc
  have hcond : w.Undisturbed (.deliver j now) ↔
      (h.decision.newStatus = .REJECTED →
        (∃ r, UpdateAccepted w.requests.store h.requestId
          (h.decision.body h.caller) r) →
        ¬ Owed w.manager h.requestId) := by
    simp only [Undisturbed, hj, hc, Option.mem_some_iff, forall_eq',
      UndisturbedBy]
    exact Iff.rfl
  cases hd : h.decision with
  | approve =>
      have hundist : w.Undisturbed (.deliver j now) := by
        rw [hcond, hd]
        intro hn
        cases hn
      rw [← hd]
      exact Or.inl ⟨hundist, excess_approved hj hok hp hd now⟩
  | reject payload =>
      have hrejected : h.decision.newStatus = .REJECTED := by
        rw [hd]
        rfl
      rw [← hd]
      exact keptOrRaised_rejected hj hp hd
        (hcond.trans ⟨fun hu => hu hrejected, fun hu _ => hu⟩)

/-- A delivery that changes only what a handler has been answered. -/
theorem keptOrRaised_load {j : Nat} {h : ManagerHandler}
    (hj : w.manager[j]? = some h) {now : Timestamp} {id : String}
    (hc : h.sent = some (.getRequest id)) :
    KeptOrRaised w (w.serve j h now (.getRequest id)) (.deliver j now) := by
  obtain ⟨-, hown, hid⟩ := h.receiveLoad_spec
    (listRequests w.requests.store { requestId := some id })
  refine Or.inl ⟨?_, ?_⟩
  · simp only [Undisturbed, hj, hc, Option.mem_some_iff, forall_eq',
      UndisturbedBy]
  · funext k
    exact excess_congr rfl rfl (owed_set hj hid fun _ => hown)

/-- **Step lemma**: without faults, a step keeps the excess of every request
if it meets the condition, and raises that of one if it does not. -/
theorem keptOrRaised_step (hJ : FaultFreeInv chart w)
    (hl : faultFreeStep chart w l = some w') : KeptOrRaised w w' l := by
  obtain ⟨hf, hs⟩ := faultFreeStep_eq_some_iff.mp hl
  have applied : ∀ {rl}, w.requestLabel chart l = some rl →
      (∀ caller id now, rl ≠ .cancelLeave caller id now) →
      w'.excess = w.excess := by
    intro rl hrl hc
    rw [step_of_requestLabel hrl] at hs
    obtain ⟨s, hs', rfl⟩ := Option.map_eq_some_iff.mp hs
    exact excess_applied hJ.inv hs' hc (requestLabel_ne_updateStatus hrl)
  cases l with
  | read op =>
      cases hs
      exact Or.inl ⟨trivial, rfl⟩
  | approveRequest caller id =>
      cases hs
      exact Or.inl ⟨trivial, excess_begin w id caller _⟩
  | rejectRequest caller id body =>
      cases hs
      exact Or.inl ⟨trivial, excess_begin w id caller _⟩
  | applyLeave caller body today =>
      exact Or.inl ⟨trivial, applied rfl fun _ _ _ h => by cases h⟩
  | resumeApply i uuid c u =>
      exact Or.inl ⟨trivial, applied rfl fun _ _ _ h => by cases h⟩
  | fetchRemaining i =>
      cases hrl : w.requestLabel chart (.fetchRemaining i) with
      | none => simp only [step, hrl] at hs; cases hs
      | some rl =>
          refine Or.inl ⟨trivial, applied hrl fun caller id now h => ?_⟩
          have hlab := requestLabel_eq_cancelLeave (h ▸ hrl)
          cases hlab
  | cancelLeave caller id now => exact keptOrRaised_cancel hs
  | deliver j now =>
      obtain ⟨h, c, hj, hc, rfl⟩ := step_deliver_iff.mp hs
      cases c with
      | getRequest id => exact keptOrRaised_load hj hc
      | deductBalance e t d => exact keptOrRaised_deduct hJ hj hc
      | setRequestStatus id body => exact keptOrRaised_update hJ hj hc
  | handler j m =>
      obtain ⟨h, h', events, hj, hm, rfl⟩ := step_handler_iff.mp hs
      cases m with
      | resume =>
          obtain ⟨-, hown, hid⟩ := ManagerHandler.resume_spec
            (hJ.inSync h (List.mem_of_getElem? hj)) hm
          refine Or.inl ⟨trivial, ?_⟩
          funext k
          exact excess_congr rfl rfl (owed_set hj hid fun _ => hown)
      | _ => cases hf
  | failLookup i e => cases hf
  | abandonApply i => cases hf

theorem faultFreeInv_step (hJ : FaultFreeInv chart w)
    (hl : faultFreeStep chart w l = some w') : FaultFreeInv chart w' := by
  obtain ⟨hf, hs⟩ := faultFreeStep_eq_some_iff.mp hl
  have replaced : ∀ {j : Nat} {h' : ManagerHandler}, h'.InSync →
      ∀ h ∈ w.manager.set j h', h.InSync := by
    intro j h' hnew h hmem
    rcases List.mem_or_eq_of_mem_set hmem with hmem | rfl
    · exact hJ.inSync h hmem
    · exact hnew
  refine ⟨inv_step hJ.inv hs, ?_⟩
  rcases step_cases hs with rfl | ⟨rl, s, -, -, rfl⟩ | ⟨d, id, caller, -, rfl⟩ |
    ⟨j, m, h, h', events, rfl, hj, hm, rfl⟩ | ⟨j, now, h, c, -, hj, hc, rfl⟩
  · exact hJ.inSync
  · exact hJ.inSync
  · intro h hmem
    rcases List.mem_append.mp hmem with hmem | hmem
    · exact hJ.inSync h hmem
    · rw [List.mem_singleton.mp hmem]
      constructor
      · intro e t d hc
        cases hc
      · intro id body hc
        cases hc
  · have hsync := hJ.inSync h (List.mem_of_getElem? hj)
    cases m with
    | resume => exact replaced (ManagerHandler.resume_spec hsync hm).1
    | _ => cases hf
  · have hsync := hJ.inSync h (List.mem_of_getElem? hj)
    cases c with
    | getRequest id => exact replaced (h.receiveLoad_spec _).1
    | deductBalance e t d =>
        obtain ⟨r, hp⟩ := hsync.1 e t d hc
        rcases serve_deductBalance w j h now e t d with
          ⟨-, err, he⟩ | ⟨-, res, he⟩ <;> rw [he] <;>
          exact replaced (ManagerHandler.receiveDeduct_spec hp _).1
    | setRequestStatus id body =>
        obtain ⟨r, hp⟩ := hsync.2 id body hc
        rcases serve_setRequestStatus w j h now id body with
          ⟨-, err, he⟩ | ⟨r', -, he⟩ <;> rw [he] <;>
          exact replaced (ManagerHandler.receiveUpdate_spec hp _).1

/-! ## §4  Conservation -/

/-- `used` has grown by exactly the days of the APPROVED requests. -/
def Conserved (w₀ w : World) : Prop :=
  ∀ e t, w.balances.usedOf e t = w₀.balances.usedOf e t + w.approvedDays e t

/-- No `approve_request` handler is still in progress. -/
def Quiescent (w : World) : Prop :=
  ∀ h ∈ w.manager, h.decision = .approve → h.ended = true

theorem Quiescent.not_owed (hq : Quiescent w) (id : String) :
    ¬ Owed w.manager id := by
  rintro ⟨h, hmem, ho, -⟩
  unfold ManagerHandler.owes at ho
  rw [Bool.and_eq_true, decide_eq_true_eq] at ho
  have hended := hq h hmem ho.1
  unfold ManagerHandler.ended at hended
  cases hp : h.point with
  | done result => simp [hp] at ho
  | abandoned => simp [hp] at ho
  | _ => simp [hp] at hended

/-- With nothing owed, the excess is what was deducted more often than
approved. -/
theorem excess_eq_zero_iff (hq : Quiescent w) :
    w.excess = 0 ↔ ∀ id, w.timesPaid id = w.timesApproved id := by
  rw [funext_iff]
  refine forall_congr' fun id => ?_
  simp only [excess, hq.not_owed id, and_false, if_false, Pi.zero_apply]
  omega

/-- **Days and counts.** The days are conserved exactly if every request has
been deducted for as often as it is APPROVED. -/
theorem conserved_iff (hI : Inv chart w) (ha : Accounts w₀ w) :
    Conserved w₀ w ↔ ∀ id, w.timesPaid id = w.timesApproved id := by
  have hsums : Conserved w₀ w ↔
      ∀ e t, w.approvedDays e t = ledgerDays w.ledger e t := by
    refine forall_congr' fun e => forall_congr' fun t => ?_
    rw [ha.used e t, add_right_inj]
    exact eq_comm
  rw [hsums]
  constructor
  · intro h id
    have hle := timesApproved_le_timesPaid hI id
    rcases Nat.eq_zero_or_pos (w.timesPaid id) with hz | hpos
    · omega
    · -- compare the two sums where this request counts
      obtain ⟨r, hr, hdays⟩ := days_pos_of_timesPaid hI hpos
      have hsum := h r.employeeId r.leaveType
      rw [approvedDays_eq_sum, ledgerDays_eq_sum hI,
        Finset.sum_eq_sum_iff_of_le fun k _ => approved_smul_le hI _ _ k] at hsum
      have hid : id ∈ w.ids := List.mem_toFinset.mpr (Dict.mem_keys_of_get? hr)
      have heq := hsum id hid
      have hd : w.daysOf r.employeeId r.leaveType id = r.numberOfDays := by
        simp only [daysOf, hr, and_self, if_true]
      rw [hd, nsmul_eq_mul, nsmul_eq_mul] at heq
      have hcast := mul_right_cancel₀ hdays.ne' heq
      exact (Nat.cast_injective hcast).symm
  · intro h e t
    rw [approvedDays_eq_sum, ledgerDays_eq_sum hI]
    apply Finset.sum_congr rfl
    intro id _
    rw [h id]

theorem Initial.excess_eq_zero (h : Initial chart w) : w.excess = 0 := by
  have hq : Quiescent w := by
    unfold Quiescent
    rw [h.no_handlers]
    intro x hx
    cases hx
  rw [excess_eq_zero_iff hq]
  intro id
  have hpaid : w.timesPaid id = 0 := by
    unfold timesPaid
    rw [h.no_deductions]
    rfl
  have hle := timesApproved_le_timesPaid h.inv id
  omega

/-- **Conservation of leave days, exactly.** In a run without faults that has
come to a state with no approval in progress, `used` has grown by the days of
the APPROVED requests exactly if every step met the condition: each accepted
deduction was for a PENDING request that no approval in progress had paid for,
and no request was cancelled or rejected that one had paid for. -/
theorem conservation_iff {ls : List WorldLabel} (h₀ : Initial chart w₀)
    (hr : run (faultFreeStep chart) w₀ ls = some w) (hq : Quiescent w) :
    Conserved w₀ w ↔ Along (faultFreeStep chart) Undisturbed w₀ ls := by
  have hJ : FaultFreeInv chart w :=
    invariant (fun _ _ _ => faultFreeInv_step) h₀.faultFreeInv ⟨ls, hr⟩
  have ha : Accounts w₀ w :=
    invariant (I := Accounts w₀)
      (fun _ _ _ hI hl => accounts_step hI (faultFreeStep_eq_some_iff.mp hl).2)
      h₀.accounts ⟨ls, hr⟩
  have hmeasure := measure_eq_iff_along (I := FaultFreeInv chart) (μ := excess)
    (C := Undisturbed) (fun _ _ _ => faultFreeInv_step)
    (fun u l u' hu hl hc => by
      rcases keptOrRaised_step hu hl with ⟨-, he⟩ | ⟨hn, -⟩
      · exact he
      · exact absurd hc hn)
    (fun u l u' hu hl hc => by
      rcases keptOrRaised_step hu hl with ⟨hy, -⟩ | ⟨-, hlt⟩
      · exact absurd hy hc
      · exact hlt)
    h₀.faultFreeInv hr
  rw [conserved_iff hJ.inv ha, ← excess_eq_zero_iff hq, ← hmeasure.2,
    h₀.excess_eq_zero]

/-- One employee applies for two trips; the two approvals interleave step by
step. -/
def interleavedRun : List WorldLabel :=
  [.applyLeave emp1 familyTrip ⟨738990⟩, .fetchRemaining 0,
   .resumeApply 0 "request-1" 100 101,
   .applyLeave emp1 { familyTrip with startDate := ⟨739010⟩, endDate := ⟨739012⟩ }
     ⟨738990⟩,
   .fetchRemaining 1, .resumeApply 1 "request-2" 102 103,
   .approveRequest manager1 "request-1", .approveRequest manager1 "request-2",
   .deliver 0 200, .deliver 1 201, .handler 0 .resume, .handler 1 .resume,
   .deliver 1 202, .deliver 0 203, .handler 0 .resume, .handler 1 .resume,
   .deliver 0 204, .deliver 1 205, .handler 1 .resume, .handler 0 .resume]

theorem conservation_iff_interleavedRun :
    ∃ w, run (faultFreeStep SEED_USERS) seeded interleavedRun = some w ∧
      w.approvedDays EMP1_ID .CASUAL = 6 ∧ Conserved seeded w := by
  have hrun : ∃ w, run (faultFreeStep SEED_USERS) seeded interleavedRun =
        some w ∧ w.approvedDays EMP1_ID .CASUAL = 6 ∧
      ∀ h ∈ w.manager, h.decision = .approve → h.ended = true := by
    decide +kernel
  obtain ⟨w, hw, hdays, hq⟩ := hrun
  exact ⟨w, hw, hdays,
    (conservation_iff seeded_initial hw hq).mpr (by decide +kernel)⟩

/-- Two approvals of one request both read it PENDING before either deducts. -/
def racedRun : List WorldLabel :=
  [.applyLeave emp1 familyTrip ⟨738990⟩, .fetchRemaining 0,
   .resumeApply 0 "request-1" 100 101,
   .approveRequest manager1 "request-1", .approveRequest manager1 "request-1",
   .deliver 0 200, .deliver 1 201, .handler 0 .resume, .handler 1 .resume,
   .deliver 0 202, .deliver 1 203, .handler 0 .resume, .handler 1 .resume,
   .deliver 0 204, .deliver 1 205, .handler 0 .resume, .handler 1 .resume]

/-- Six days are deducted for the three that are approved. -/
theorem not_conserved :
    ¬ ∀ (chart : OrgChart) (w₀ w : World) (ls : List WorldLabel),
      Initial chart w₀ → run (faultFreeStep chart) w₀ ls = some w →
      Quiescent w → Conserved w₀ w := by
  intro hall
  have hrun : ∃ w, run (faultFreeStep SEED_USERS) seeded racedRun = some w ∧
      w.balances.usedOf EMP1_ID .CASUAL = 6 ∧
      w.approvedDays EMP1_ID .CASUAL = 3 ∧
      ∀ h ∈ w.manager, h.decision = .approve → h.ended = true := by
    decide +kernel
  obtain ⟨w, hw, hused, hdays, hq⟩ := hrun
  have h := hall SEED_USERS seeded w racedRun seeded_initial hw hq EMP1_ID
    .CASUAL
  rw [hused, hdays, (seeded_balances.2 EMP1_ID .CASUAL).1] at h
  exact absurd h (by decide)

end World

end Elms
