import Elms.Manager.Main
import Elms.Shared.CircuitBreakers

/-!
# One approval at a time

`approve_request` run alone, with every way its three calls can end: answered,
refused by the service, lost on the way, or blocked by an open breaker. The
deduction comes before the flip and is never taken back, so an attempt that
fails between the two leaves it behind (`failed_approval_leaves_trace`); every
other failed attempt leaves both services as they were, and a success after
any number of those deducts once (`failed_approval_iff`).
-/

namespace Elms

open Calendar Transition

/-! ## §1  The calls of one handler -/

/-- The two services, and the breakers the Manager Service keeps for them. -/
structure Services (pb : Pybreaker) where
  requests : RequestStore
  balances : BalanceStore
  leaveBalanceCb : pb.Breaker
  leaveRequestCb : pb.Breaker

/-- What becomes of a call that is sent. A refusal and a loss take no effect. -/
inductive Fate where
  | delivered
  | refused (e : HTTPException)
  | lost
deriving DecidableEq

variable {α σ : Type} {pb : Pybreaker}

/-- The call `serve`, sent and awaited. -/
def sendCall (fate : Fate) (serve : σ → Response α × σ) (s : σ) :
    Outcome (Response α) CallError × σ :=
  match fate with
  | .delivered => (.value (serve s).1, (serve s).2)
  | .refused e => (.value (.error e), s)
  | .lost => (.exception .httpxError, s)

/-- What awaiting an unwrapped call gives the handler. -/
def Outcome.reply : Outcome (Response α) CallError → Reply (Response α)
  | .value response => .ok response
  | .exception e => .error e
  | .baseException e => .error e

/-- What awaiting `invoke_with_breaker` gives the handler. -/
def Invoked.reply : Invoked (Response α) CallError → Reply (Response α)
  | .returned response => .ok response
  | .raised e => .error e
  | .circuitBreakerError => .error .circuitBreakerError

/-- The call `serve` through a breaker. -/
def invokeCall (pb : Pybreaker) (cfg : BreakerConfig) (breaker : pb.Breaker)
    (now : Timestamp) (fate : Fate) (serve : σ → Response α × σ) (s : σ) :
    Reply (Response α) × σ × pb.Breaker :=
  match invokeWithBreaker pb breaker with
  | some result => (result.reply, s, breaker)
  | none =>
      match sendCall fate serve s with
      | (outcome, s') =>
          match invokeWithBreakerResumed pb cfg breaker now outcome with
          | (result, breaker') => (result.reply, s', breaker')

/-- **A wrapped call** is blocked without effect, or answered by the service,
or ends in an error without effect. -/
theorem invokeCall_cases (cfg : BreakerConfig) (breaker : pb.Breaker)
    (now : Timestamp) (fate : Fate) (serve : σ → Response α × σ) (s : σ) :
    ((pb.currentState breaker = .STATE_OPEN ∨ fate ≠ .delivered) ∧
      ∃ reply b', invokeCall pb cfg breaker now fate serve s = (reply, s, b') ∧
        ∀ a, reply ≠ .ok (.ok a)) ∨
    (pb.currentState breaker ≠ .STATE_OPEN ∧ fate = .delivered ∧
      ∃ b', invokeCall pb cfg breaker now fate serve s =
        (.ok (serve s).1, (serve s).2, b')) := by
  by_cases hopen : pb.currentState breaker = .STATE_OPEN
  · refine Or.inl ⟨Or.inl hopen, .error .circuitBreakerError, breaker, ?_,
      fun a h => by cases h⟩
    simp only [invokeCall, invokeWithBreaker, if_pos hopen]
    rfl
  · -- alone, nothing has opened the breaker since it was checked
    have hpass : ¬ pb.Refuses cfg breaker now := fun h => hopen h.1
    have value : ∀ v : Response α, ∃ b',
        invokeWithBreakerResumed (E := CallError) pb cfg breaker now
          (.value v) = (.returned v, b') := by
      intro v
      rcases invokeWithBreakerResumed_value (E := CallError) cfg breaker now v
        with ⟨hr, -⟩ | ⟨-, b', -, -, he⟩
      · exact absurd hr hpass
      · exact ⟨b', he⟩
    cases fate with
    | delivered =>
        obtain ⟨b', he⟩ := value (serve s).1
        refine Or.inr ⟨hopen, rfl, b', ?_⟩
        simp only [invokeCall, invokeWithBreaker, if_neg hopen, sendCall, he]
        rfl
    | refused e =>
        obtain ⟨b', he⟩ := value (.error e)
        refine Or.inl ⟨Or.inr (by simp), .ok (.error e), b', ?_,
          fun a h => by cases h⟩
        simp only [invokeCall, invokeWithBreaker, if_neg hopen, sendCall, he]
        rfl
    | lost =>
        refine Or.inl ⟨Or.inr (by simp), .error .httpxError,
          (pb.call cfg breaker now false).2, ?_, fun a h => by cases h⟩
        simp only [invokeCall, invokeWithBreaker, if_neg hopen, sendCall,
          invokeWithBreakerResumed]
        rfl

/-! ## §2  `approve_request`, alone -/

/-- One `approve_request`: its caller and request, what becomes of its calls,
and the clock at the two calls that go through a breaker. -/
structure Attempt where
  caller : CallerIdentity
  requestId : String
  getFate : Fate
  deductFate : Fate
  updateFate : Fate
  deductedAt : Timestamp
  updatedAt : Timestamp

/-- The segments of `approve_request`, with nothing in between. -/
def approveAlone (chart : OrgChart) (s : Services pb) (a : Attempt) :
    Response ManagerRequestView × Services pb :=
  match approveRequest a.caller with
  | .error e => (.error e, s)
  | .ok d =>
      match requestLoaded d a.caller (sendCall a.getFate
        (fun st => (listRequests st { requestId := some a.requestId }, st))
        s.requests).1.reply with
      | .error e => (.error e, s)
      | .ok leaveRequest =>
          match invokeCall pb leaveBalanceCb s.leaveBalanceCb a.deductedAt
            a.deductFate (fun b => b.deductBalance leaveRequest.employeeId
              leaveRequest.leaveType leaveRequest.numberOfDays) s.balances with
          | (reply, balances, cb) =>
              let s := { s with balances := balances, leaveBalanceCb := cb }
              match balanceDeducted reply with
              | .error e => (.error e, s)
              | .ok () =>
                  match invokeCall pb leaveRequestCb s.leaveRequestCb
                    a.updatedAt a.updateFate
                    (fun st => updateRequestStatus st a.requestId
                      (d.body a.caller) a.updatedAt) s.requests with
                  | (reply, requests, cb) =>
                      let s := { s with requests := requests
                                        leaveRequestCb := cb }
                      match statusUpdated chart reply with
                      | .error e => (.error e, s)
                      | .ok view => (.ok view, s)

/-- The deduction of the attempt is going to take effect, for the request `r`:
a MANAGER acts on the PENDING request routed to them, the days are left, and
the first two calls get through. -/
structure Commits (s : Services pb) (a : Attempt) (r : LeaveRequest) :
    Prop where
  manager : a.caller.role = .MANAGER
  loaded : a.getFate = .delivered
  stored : s.requests.getRequest a.requestId = some r
  routed : r.reportingManagerId = a.caller.userId
  pending : r.status = .PENDING
  deductible : s.balances.Deductible r.employeeId r.leaveType r.numberOfDays
  balanceClosed : pb.currentState s.leaveBalanceCb ≠ .STATE_OPEN
  deducted : a.deductFate = .delivered

instance (s : Services pb) (a : Attempt) : Decidable (∃ r, Commits s a r) :=
  decidable_of_iff
    (a.caller.role = .MANAGER ∧ a.getFate = .delivered ∧
      (∃ r, s.requests.getRequest a.requestId = some r ∧
        r.reportingManagerId = a.caller.userId ∧ r.status = .PENDING ∧
        s.balances.Deductible r.employeeId r.leaveType r.numberOfDays) ∧
      pb.currentState s.leaveBalanceCb ≠ .STATE_OPEN ∧
      a.deductFate = .delivered)
    ⟨fun ⟨hm, hl, ⟨r, hs, hr, hp, hd⟩, hc, hf⟩ =>
        ⟨r, hm, hl, hs, hr, hp, hd, hc, hf⟩,
      fun ⟨r, h⟩ => ⟨h.manager, h.loaded,
        ⟨r, h.stored, h.routed, h.pending, h.deductible⟩, h.balanceClosed,
        h.deducted⟩⟩

/-- The status update of the attempt is not going to get through. -/
def FlipFails (s : Services pb) (a : Attempt) : Prop :=
  pb.currentState s.leaveRequestCb = .STATE_OPEN ∨ a.updateFate ≠ .delivered

instance (s : Services pb) (a : Attempt) : Decidable (FlipFails s a) :=
  inferInstanceAs (Decidable (_ ∨ _))

/-- The attempt stops between its deduction and its status update. -/
def StopsHalfway (s : Services pb) (a : Attempt) : Prop :=
  (∃ r, Commits s a r) ∧ FlipFails s a

instance (s : Services pb) (a : Attempt) : Decidable (StopsHalfway s a) :=
  inferInstanceAs (Decidable (_ ∧ _))

/-- The request that the first call gets through to the handler. -/
theorem requestLoaded_sendCall_iff {d : Decision} {caller : CallerIdentity}
    {fate : Fate} {st : RequestStore} {id : String} {r : LeaveRequest} :
    requestLoaded d caller (sendCall fate
        (fun st => (listRequests st { requestId := some id }, st)) st).1.reply =
      .ok r ↔
      fate = .delivered ∧ st.getRequest id = some r ∧
      r.reportingManagerId = caller.userId ∧ r.status = .PENDING := by
  have hanswer : (∃ rest, (sendCall fate
      (fun st => (listRequests st { requestId := some id }, st)) st).1.reply =
        .ok (.ok (r :: rest))) ↔
      fate = .delivered ∧ st.getRequest id = some r := by
    cases fate with
    | delivered =>
        simp only [sendCall, Outcome.reply, listRequests_requestId, true_and]
        cases st.getRequest id with
        | none => simp
        | some r' => simp
    | refused e => simp [sendCall, Outcome.reply]
    | lost => simp [sendCall, Outcome.reply]
  rw [requestLoaded_eq_ok_iff, hanswer, and_assoc]

/-- A request that an attempt commits to is updated when the update arrives. -/
theorem Commits.updateAccepted {s : Services pb} {a : Attempt}
    {r : LeaveRequest} (h : Commits s a r) :
    UpdateAccepted s.requests a.requestId (Decision.approve.body a.caller) r := by
  refine ⟨⟨?_, ?_⟩, h.stored, h.routed, h.pending, Or.inl rfl⟩
  · show 1 ≤ a.caller.userId.length
    have hne : a.caller.userId.length ≠ 0 := fun h0 =>
      a.caller.nonempty (String.length_eq_zero_iff.mp h0)
    omega
  · intro reason hreason
    cases hreason

/-- The services after the deduction for `r`. -/
def Services.Deducted (s s' : Services pb) (r : LeaveRequest) : Prop :=
  s'.balances = (s.balances.deductBalance r.employeeId r.leaveType
    r.numberOfDays).2

/-- **`approve_request`, inverted.** Without a deduction it fails and nothing
changes; with one it succeeds exactly if the status update gets through. -/
theorem approveAlone_cases (chart : OrgChart) (s : Services pb) (a : Attempt) :
    ((¬ ∃ r, Commits s a r) ∧ ∃ e s', approveAlone chart s a = (.error e, s') ∧
      s'.balances = s.balances ∧ s'.requests = s.requests) ∨
    (∃ r, Commits s a r ∧ FlipFails s a ∧ ∃ e s',
      approveAlone chart s a = (.error e, s') ∧
      s.Deducted s' r ∧ s'.requests = s.requests) ∨
    (∃ r, Commits s a r ∧ ¬ FlipFails s a ∧ ∃ view s',
      approveAlone chart s a = (.ok view, s') ∧ s.Deducted s' r ∧
      s'.requests = s.requests.setStatus a.requestId r .APPROVED none
        a.updatedAt) := by
  simp only [approveAlone]
  cases happrove : approveRequest a.caller with
  | error e =>
      refine Or.inl ⟨?_, e, s, rfl, rfl, rfl⟩
      rintro ⟨r, h⟩
      rw [approveRequest_eq_ok_iff.mpr ⟨h.manager, rfl⟩] at happrove
      cases happrove
  | ok d =>
  obtain ⟨hmanager, rfl⟩ := approveRequest_eq_ok_iff.mp happrove
  simp only
  cases hload : requestLoaded .approve a.caller (sendCall a.getFate
      (fun st => (listRequests st { requestId := some a.requestId }, st))
      s.requests).1.reply with
  | error e =>
      refine Or.inl ⟨?_, e, s, rfl, rfl, rfl⟩
      rintro ⟨r, h⟩
      rw [requestLoaded_sendCall_iff.mpr
        ⟨h.loaded, h.stored, h.routed, h.pending⟩] at hload
      cases hload
  | ok r =>
  obtain ⟨hloaded, hstored, hrouted, hpending⟩ :=
    requestLoaded_sendCall_iff.mp hload
  have hrequest : ∀ r', Commits s a r' → r' = r := fun r' h =>
    Option.some.inj (h.stored.symm.trans hstored)
  simp only
  rcases invokeCall_cases leaveBalanceCb s.leaveBalanceCb a.deductedAt
      a.deductFate (fun b => b.deductBalance r.employeeId r.leaveType
        r.numberOfDays) s.balances with
    ⟨hfate, reply, cb, hcall, hreply⟩ | ⟨hclosed, hdeducted, cb, hcall⟩
  · -- the deduction is not delivered
    rw [hcall]
    cases hb : balanceDeducted reply with
    | ok u =>
        obtain ⟨b, hb'⟩ := balanceDeducted_eq_ok_iff.mp hb
        exact absurd hb' (hreply b)
    | error e =>
        refine Or.inl ⟨?_, e, _, rfl, rfl, rfl⟩
        rintro ⟨r', h⟩
        rcases hfate with hopen | hlost
        · exact h.balanceClosed hopen
        · exact hlost h.deducted
  rw [hcall]
  rcases s.balances.deductBalance_cases r.employeeId r.leaveType
      r.numberOfDays with ⟨hn, err, he⟩ | ⟨hd, b, response, -, he⟩
  · -- the Balance Service refuses it
    rw [he]
    refine Or.inl ⟨?_, _, _, rfl, rfl, rfl⟩
    rintro ⟨r', h⟩
    rw [hrequest r' h] at h
    exact hn h.deductible
  have hcommits : Commits s a r := ⟨hmanager, hloaded, hstored, hrouted,
    hpending, hd, hclosed, hdeducted⟩
  have hok : balanceDeducted (.ok (s.balances.deductBalance r.employeeId
      r.leaveType r.numberOfDays).1) = .ok () := by
    rw [he]
    exact balanceDeducted_eq_ok_iff.mpr ⟨response, rfl⟩
  simp only [hok]
  rcases invokeCall_cases leaveRequestCb s.leaveRequestCb a.updatedAt
      a.updateFate (fun st => updateRequestStatus st a.requestId
        (Decision.approve.body a.caller) a.updatedAt) s.requests with
    ⟨hfate, reply, cb', hcall', hreply⟩ | ⟨hclosed', hupdated, cb', hcall'⟩
  · -- the deduction stands, and the update is not delivered
    rw [hcall']
    cases hu : statusUpdated chart reply with
    | ok view =>
        obtain ⟨r', hr', -⟩ := statusUpdated_eq_ok_iff.mp hu
        exact absurd hr' (hreply r')
    | error e => exact Or.inr (Or.inl ⟨r, hcommits, hfate, e, _, rfl, rfl, rfl⟩)
  · rw [hcall']
    rcases updateRequestStatus_cases s.requests a.requestId
        (Decision.approve.body a.caller) a.updatedAt with
      ⟨hn, -⟩ | ⟨r', hr', hupdate⟩
    · exact absurd hcommits.updateAccepted (hn r)
    · have hrr : r' = r := Option.some.inj (hr'.stored.symm.trans hstored)
      rw [hupdate, hrr]
      refine Or.inr (Or.inr ⟨r, hcommits, ?_, _, _, rfl, rfl, rfl⟩)
      rintro (hopen | hlost)
      · exact hclosed' hopen
      · exact hlost hupdated

/-! ## §3  Failed attempts -/

/-- An accepted deduction is seen in the balance it is made on. -/
theorem BalanceStore.Deductible.usedOf_self {st : BalanceStore} {e : String}
    {t : LeaveType} {days : Int} (h : st.Deductible e t days) :
    (st.deductBalance e t days).2.usedOf e t = st.usedOf e t + days := by
  rcases st.deductBalance_cases e t days with ⟨hn, -⟩ | ⟨-, b, r, hb, he⟩
  · exact absurd h hn
  · have hput : (st.putBalance e t
        { b with used := b.used + days }).getBalance e t =
          some { b with used := b.used + days } := by
      unfold BalanceStore.getBalance at hb
      cases hi : st.employeeLeavetypeIndex.get? (e, t) with
      | none => rw [hi] at hb; cases hb
      | some id =>
          simp only [BalanceStore.putBalance, BalanceStore.getBalance, hi]
          exact Dict.get?_set_self _ _ _
    rw [he]
    simp only [BalanceStore.usedOf, hput, hb]

/-- If the handler ends with an error, the two services are as they were. -/
def NoTrace (chart : OrgChart) (s : Services pb) (a : Attempt) : Prop :=
  ∀ e, (approveAlone chart s a).1 = .error e →
    (approveAlone chart s a).2.balances = s.balances ∧
    (approveAlone chart s a).2.requests = s.requests

/-- **One attempt** leaves a trace of its failure exactly if it stops between
the deduction and the status update. -/
theorem noTrace_iff (chart : OrgChart) (s : Services pb) (a : Attempt) :
    NoTrace chart s a ↔ ¬ StopsHalfway s a := by
  unfold NoTrace
  rcases approveAlone_cases chart s a with
    ⟨hn, e, s', hrun, hb, hr⟩ | ⟨r, hc, hf, e, s', hrun, hb, hr⟩ |
    ⟨r, hc, hf, view, s', hrun, -, -⟩
  · rw [hrun]
    exact iff_of_true (fun _ _ => ⟨hb, hr⟩) (fun h => hn h.1)
  · rw [hrun]
    refine iff_of_false (fun h => ?_) (fun h => h ⟨⟨r, hc⟩, hf⟩)
    have hsame : s'.balances = s.balances := (h e rfl).1
    have hused := hc.deductible.usedOf_self
    have hdays := hc.deductible.1.2
    rw [← show s'.balances = _ from hb, hsame] at hused
    omega
  · rw [hrun]
    exact iff_of_true (fun e h => by cases h) (fun h => hf h.2)

/-- A failed attempt to approve the request `id`, as a step. -/
def failedAttempt (chart : OrgChart) (id : String) (s : Services pb)
    (a : Attempt) : Option (Services pb) :=
  if a.requestId = id then
    match approveAlone chart s a with
    | (.error _, s') => some s'
    | (.ok _, _) => none
  else none

/-- **A failed attempt, inverted**: nothing has changed, or the days of the
request are deducted and nothing else has changed. -/
theorem failedAttempt_cases {chart : OrgChart} {id : String}
    {s s' : Services pb} {a : Attempt}
    (h : failedAttempt chart id s a = some s') :
    s'.requests = s.requests ∧
    ((¬ StopsHalfway s a ∧ s'.balances = s.balances) ∨
     (StopsHalfway s a ∧ ∃ r, s.requests.getRequest id = some r ∧
       s.Deducted s' r ∧
       s.balances.Deductible r.employeeId r.leaveType r.numberOfDays)) := by
  simp only [failedAttempt] at h
  by_cases hid : a.requestId = id
  · rw [if_pos hid] at h
    rcases approveAlone_cases chart s a with
      ⟨hn, e, t, hrun, hb, hr⟩ | ⟨r, hc, hf, e, t, hrun, hb, hr⟩ |
      ⟨r, hc, hf, view, t, hrun, -, -⟩
    · rw [hrun] at h
      cases h
      exact ⟨hr, Or.inl ⟨fun hs => hn hs.1, hb⟩⟩
    · rw [hrun] at h
      cases h
      exact ⟨hr, Or.inr ⟨⟨⟨r, hc⟩, hf⟩, r, hid ▸ hc.stored, hb,
        hc.deductible⟩⟩
    · rw [hrun] at h
      cases h
  · rw [if_neg hid] at h
    cases h

/-- **Failed attempts** at one request add nothing to the balance of its
employee exactly if none of them stops halfway. -/
theorem failedAttempts_used {chart : OrgChart} {id : String}
    {r : LeaveRequest} {as : List Attempt} {s s' : Services pb}
    (hr : s.requests.getRequest id = some r)
    (h : run (failedAttempt chart id) s as = some s') :
    s'.requests.getRequest id = some r ∧
    (s'.balances.usedOf r.employeeId r.leaveType =
        s.balances.usedOf r.employeeId r.leaveType ↔
      Along (failedAttempt chart id) (fun s a => ¬ StopsHalfway s a) s as) := by
  have hkept : ∀ (u : Services pb) (a : Attempt) (u' : Services pb),
      u.requests.getRequest id = some r →
      failedAttempt chart id u a = some u' →
      u'.requests.getRequest id = some r := by
    intro u a u' hu hstep
    rw [(failedAttempt_cases hstep).1]
    exact hu
  refine ⟨invariant
    (I := fun u : Services pb => u.requests.getRequest id = some r) hkept hr
    ⟨as, h⟩, ?_⟩
  refine (measure_eq_iff_along
    (μ := fun u : Services pb => u.balances.usedOf r.employeeId r.leaveType)
    hkept ?_ ?_ hr h).2
  · intro u a u' _ hstep hno
    rcases (failedAttempt_cases hstep).2 with ⟨-, hb⟩ | ⟨hstop, -⟩
    · show u'.balances.usedOf _ _ = u.balances.usedOf _ _
      rw [hb]
    · exact absurd hstop hno
  · intro u a u' hu hstep hyes
    rcases (failedAttempt_cases hstep).2 with
      ⟨hno, -⟩ | ⟨-, r', hr', hb, hd⟩
    · exact absurd hno hyes
    · have hrr : r' = r := Option.some.inj (hr'.symm.trans hu)
      rw [hrr] at hb hd
      show u.balances.usedOf _ _ < u'.balances.usedOf _ _
      have hused := hd.usedOf_self
      have hdays := hd.1.2
      rw [← show u'.balances = _ from hb] at hused
      omega

/-- **Failed approvals.** A failed attempt leaves everything as it was exactly
if it does not stop between the deduction and the status update; and when an
attempt succeeds after any number of failed ones at the same request, its days
have been deducted once in all exactly if none of these did. -/
theorem failed_approval_iff (pb : Pybreaker) (chart : OrgChart) :
    (∀ (s : Services pb) (a : Attempt), NoTrace chart s a ↔ ¬ StopsHalfway s a) ∧
    ∀ (s s' : Services pb) (as : List Attempt) (a : Attempt)
      (view : ManagerRequestView),
      run (failedAttempt chart a.requestId) s as = some s' →
      (approveAlone chart s' a).1 = .ok view →
      ∃ r, s.requests.getRequest a.requestId = some r ∧
        ((approveAlone chart s' a).2.balances.usedOf r.employeeId r.leaveType =
            s.balances.usedOf r.employeeId r.leaveType + r.numberOfDays ↔
          Along (failedAttempt chart a.requestId)
            (fun s a => ¬ StopsHalfway s a) s as) := by
  refine ⟨noTrace_iff chart, fun s s' as a view has hok => ?_⟩
  rcases approveAlone_cases chart s' a with
    ⟨-, e, t, hrun, -⟩ | ⟨r, -, -, e, t, hrun, -⟩ |
    ⟨r, hc, -, v, t, hrun, hb, -⟩
  · rw [hrun] at hok
    cases hok
  · rw [hrun] at hok
    cases hok
  · have hkept : s'.requests = s.requests :=
      invariant (I := fun u : Services pb => u.requests = s.requests)
        (fun u b u' hu hstep => (failedAttempt_cases hstep).1.trans hu) rfl
        ⟨as, has⟩
    have hr : s.requests.getRequest a.requestId = some r := by
      rw [← hkept]
      exact hc.stored
    refine ⟨r, hr, ?_⟩
    have hused := hc.deductible.usedOf_self
    rw [← show t.balances = _ from hb] at hused
    rw [hrun, ← (failedAttempts_used hr has).2, hused]
    constructor
    · intro h
      omega
    · intro h
      omega

/-- Three casual days of the first employee, waiting for the manager. -/
def familyTripRequest : LeaveRequest :=
  { requestId := "request-1", employeeId := EMP1_ID, leaveType := .CASUAL
    startDate := familyTrip.startDate, endDate := familyTrip.endDate
    numberOfDays := 3, reason := familyTrip.reason
    reportingManagerId := MANAGER1_ID, createdAt := 100, updatedAt := 101 }

/-- The services that hold this request and the employee's balance, with both
breakers closed. -/
def oneRequest : Services Pybreaker.memory :=
  { requests := RequestStore.empty.addRequest familyTripRequest
    balances :=
      match seedBalances (fun e t => e ++ "-" ++ t.value) SEED_USERS with
      | .ok st => st
      | .error _ => BalanceStore.empty
    leaveBalanceCb := ({} : CircuitMemoryStorage)
    leaveRequestCb := ({} : CircuitMemoryStorage) }

/-- The manager approves it, the second and the third call ending as given. -/
def approval (deductFate updateFate : Fate) : Attempt :=
  { caller := manager1, requestId := "request-1", getFate := .delivered
    deductFate := deductFate, updateFate := updateFate
    deductedAt := 200, updatedAt := 201 }

/-- A deduction lost twice, then an approval that goes through. -/
theorem failed_approval_iff_retried :
    ∃ s' r view,
      run (failedAttempt SEED_USERS "request-1") oneRequest
        [approval .lost .delivered, approval .lost .delivered] = some s' ∧
      (approveAlone SEED_USERS s' (approval .delivered .delivered)).1 =
        .ok view ∧
      oneRequest.requests.getRequest "request-1" = some r ∧
      (approveAlone SEED_USERS s'
          (approval .delivered .delivered)).2.balances.usedOf r.employeeId
          r.leaveType =
        oneRequest.balances.usedOf r.employeeId r.leaveType +
          r.numberOfDays := by
  have hruns : ∃ s', run (failedAttempt SEED_USERS "request-1") oneRequest
      [approval .lost .delivered, approval .lost .delivered] = some s' ∧
      (approveAlone SEED_USERS s'
        (approval .delivered .delivered)).1.isOk = true := by
    decide +kernel
  obtain ⟨s', hfailed, hok⟩ := hruns
  cases hview : (approveAlone SEED_USERS s'
      (approval .delivered .delivered)).1 with
  | error e =>
      rw [hview] at hok
      cases hok
  | ok view =>
      obtain ⟨r, hr, hiff⟩ := (failed_approval_iff _ SEED_USERS).2 oneRequest s'
        _ (approval .delivered .delivered) view hfailed hview
      exact ⟨s', r, view, hfailed, hview, hr, hiff.mpr (by decide +kernel)⟩

/-- The deduction arrives and the status update is lost: a 503, with the days
gone from the balance and the request still PENDING. -/
theorem failed_approval_leaves_trace :
    ¬ ∀ (pb : Pybreaker) (chart : OrgChart) (s : Services pb) (a : Attempt),
      NoTrace chart s a := by
  intro hall
  have hstop : StopsHalfway oneRequest (approval .delivered .lost) := by
    decide +kernel
  exact (noTrace_iff SEED_USERS oneRequest _).mp (hall _ _ _ _) hstop

end Elms
