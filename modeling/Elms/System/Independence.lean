import Elms.Manager.TeamView
import Elms.Requests.Apply
import Elms.Requests.History
import Elms.System.Serial

/-!
# Employees do not affect each other

All records live in shared dictionaries, and a manager's index is shared by
the whole team. Two runs are compared: one, and the same without the
operations that concern employees outside a set `S`. The stores of the two
agree on the part that belongs to `S` (`Agree`), every guard, scan and filter
of an operation that concerns only `S` reads only that part, and any other
operation leaves it alone; so the employees in `S` cannot tell the runs apart
(`employees_independent`).
-/

namespace Elms

open Calendar Transition

/-! ## §1  Serial operations -/

/-- A call that comes in alone, with the ids and clock readings it gets. -/
inductive SerialOp where
  | applyLeave (caller : CallerIdentity) (body : ApplyLeaveBody) (today : Date)
      (uuid : String) (createdAt updatedAt : Timestamp)
  | cancelLeave (caller : CallerIdentity) (leaveId : String) (now : Timestamp)
  | leaveHistory (caller : CallerIdentity) (q : HistoryQuery)
  | myBalances (caller : CallerIdentity)
  | employeeBalances (caller : CallerIdentity) (employeeId : String)
  | listRequests (caller : CallerIdentity) (f : TeamFilters)
  | approveRequest (caller : CallerIdentity) (requestId : String)
      (now : Timestamp)
  | rejectRequest (caller : CallerIdentity) (requestId : String)
      (body : RejectLeaveBody) (now : Timestamp)
deriving DecidableEq

inductive SerialAnswer where
  | leave (response : Response LeaveRequestResponse)
  | history (response : Response LeaveHistoryResponse)
  | balances (response : Response EmployeeBalancesResponse)
  | team (response : Response (List ManagerRequestView))
  | decision (response : Response ManagerRequestView)
deriving DecidableEq

section Runs

variable (parseDate : String → Option Date) (chart : OrgChart)

/-- The operation, alone and without a failure of a downstream call. `uuid4`
never repeats an id that is in the store. -/
def SerialOp.exec (p : Stores) : SerialOp → Option (SerialAnswer × Stores)
  | .applyLeave caller body today uuid createdAt updatedAt =>
      if uuid ∈ p.requests.requestsStore.keys then none
      else
        match applyLeaveAlone chart p.balances p.requests today caller body
          uuid createdAt updatedAt with
        | (response, requests) =>
            some (.leave response, { p with requests := requests })
  | .cancelLeave caller leaveId now =>
      match Elms.cancelLeave p.requests caller leaveId now with
      | (response, requests) =>
          some (.leave response, { p with requests := requests })
  | .leaveHistory caller q =>
      some (.history (Elms.leaveHistory p.requests caller q), p)
  | .myBalances caller =>
      some (.balances (p.balances.myBalances caller), p)
  | .employeeBalances caller employeeId =>
      some (.balances (p.balances.employeeBalances chart caller employeeId), p)
  | .listRequests caller f =>
      some (.team (teamView parseDate chart p.requests caller f), p)
  | .approveRequest caller requestId now =>
      match p.approveRequest chart caller requestId now with
      | (response, p') => some (.decision response, p')
  | .rejectRequest caller requestId body now =>
      match p.rejectRequest chart caller requestId body now with
      | (response, p') => some (.decision response, p')

/-- The answers of a run, and the stores it leads to. -/
def serialRun : Stores → List SerialOp → Option (List SerialAnswer × Stores)
  | p, [] => some ([], p)
  | p, op :: ops =>
      match op.exec parseDate chart p with
      | none => none
      | some (answer, p') =>
          (serialRun p' ops).map fun (answers, q) => (answer :: answers, q)

/-! ## §2  Whom an operation concerns -/

variable (S : Set String)

/-- The request `id`, if there is one, belongs to an employee in `S`. -/
def Stores.TargetIn (p : Stores) (requestId : String) : Prop :=
  ∀ r, p.requests.getRequest requestId = some r → r.employeeId ∈ S

/-- An employee that acts is in `S`. -/
def CallerIdentity.ActsIn (caller : CallerIdentity) : Prop :=
  caller.role = .EMPLOYEE → caller.userId ∈ S

/-- The operation concerns no employee outside `S`: neither the one that acts,
nor the owner of the request or of the balances it is about, nor one of those
that a listing shows. -/
def SerialOp.ConcernsOnly (p : Stores) : SerialOp → Prop
  | .applyLeave caller _ _ _ _ _ => caller.userId ∈ S
  | .cancelLeave caller leaveId _ => caller.userId ∈ S ∧ p.TargetIn S leaveId
  | .leaveHistory caller _ => caller.userId ∈ S
  | .myBalances caller => caller.userId ∈ S
  | .employeeBalances caller employeeId =>
      caller.ActsIn S ∧ (caller.role = .MANAGER → employeeId ∈ S)
  | .listRequests caller f =>
      caller.ActsIn S ∧
        ((∃ e, supplied f.employeeId = some e ∧ e ∈ S) ∨
          ∀ e, chart.getManagerId e = some caller.userId → e ∈ S)
  | .approveRequest caller requestId _ =>
      caller.ActsIn S ∧ p.TargetIn S requestId
  | .rejectRequest caller requestId _ _ =>
      caller.ActsIn S ∧ p.TargetIn S requestId

open Classical in
/-- The operations of the run that concern only `S`, with the answers that
they get in it. -/
noncomputable def keptRun : Stores → List SerialOp →
    List (SerialOp × SerialAnswer)
  | _, [] => []
  | p, op :: ops =>
      match op.exec parseDate chart p with
      | none => []
      | some (answer, p') =>
          if op.ConcernsOnly chart S p then (op, answer) :: keptRun p' ops
          else keptRun p' ops

end Runs

/-! ## §3  Stores that agree on `S` -/

section Agreement

open Classical

variable {S : Set String}

/-- The two stores hold the same requests of employees in `S`, in the same
order, and the second holds no request that the first does not hold. -/
structure RequestStore.Agree (S : Set String) (st st' : RequestStore) :
    Prop where
  same : st.requestsStore.part (fun r => r.employeeId ∈ S) =
    st'.requestsStore.part (fun r => r.employeeId ∈ S)
  fewer : ∀ id, st.getRequest id = none → st'.getRequest id = none

/-- The two stores hold the same balances of employees in `S`, and the same
index. -/
structure BalanceStore.Agree (S : Set String) (b c : BalanceStore) : Prop where
  same : b.balancesStore.part (fun r => r.employeeId ∈ S) =
    c.balancesStore.part (fun r => r.employeeId ∈ S)
  index : b.employeeLeavetypeIndex = c.employeeLeavetypeIndex

namespace RequestStore.Agree

variable {st st' : RequestStore}

theorem refl (st : RequestStore) : Agree S st st := ⟨rfl, fun _ h => h⟩

/-- A request of `S`, or one that does not exist, is looked up alike. -/
theorem getRequest_eq (h : Agree S st st') {id : String}
    (ht : ∀ r, st.getRequest id = some r → r.employeeId ∈ S) :
    st'.getRequest id = st.getRequest id := by
  cases hr : st.getRequest id with
  | none => exact h.fewer id hr
  | some r => exact Dict.get?_of_part_eq h.same hr (ht r hr)

/-- A scan that only lets `S` through gives the same requests. -/
theorem filter_eq (h : Agree S st st') {P : LeaveRequest → Bool}
    (hP : ∀ r, P r = true → r.employeeId ∈ S) :
    st'.requests.filter P = st.requests.filter P := by
  have hpart : ∀ st : RequestStore, st.requests.filter P =
      ((st.requestsStore.part fun r => r.employeeId ∈ S).map Prod.snd).filter
        P := by
    intro st
    rw [Dict.map_snd_part, List.filter_filter]
    apply List.filter_congr
    intro r _
    by_cases hr : P r = true
    · simp [hr, hP r hr]
    · simp [hr]
  rw [hpart st, hpart st', h.same]

theorem requestsForEmployee_eq (h : Agree S st st') (hwf : st.WF)
    (hwf' : st'.WF) {e : String} (he : e ∈ S) :
    st'.getRequestsForEmployee e = st.getRequestsForEmployee e := by
  rw [getRequestsForEmployee_eq hwf, getRequestsForEmployee_eq hwf',
    h.filter_eq]
  intro r hr
  rw [decide_eq_true_eq] at hr
  exact hr ▸ he

/-- Both take the same new request of `S`. -/
theorem addRequest (h : Agree S st st') {r : LeaveRequest}
    (hid : r.requestId ∉ st.requestsStore.keys) :
    Agree S (st.addRequest r) (st'.addRequest r) := by
  have hid' : r.requestId ∉ st'.requestsStore.keys :=
    Dict.get?_eq_none_iff.mp
      (h.fewer r.requestId (Dict.get?_eq_none_iff.mpr hid))
  constructor
  · show (st.requestsStore.set r.requestId r).part _ =
      (st'.requestsStore.set r.requestId r).part _
    rw [Dict.part_set_of_not_mem r hid, Dict.part_set_of_not_mem r hid',
      h.same]
  · intro id hn
    rw [getRequest_addRequest] at hn ⊢
    split at hn
    · cases hn
    · rw [if_neg ‹_›]
      exact h.fewer id hn

/-- A new request of another employee goes unnoticed. -/
theorem addRequest_other (h : Agree S st st') {r : LeaveRequest}
    (hid : r.requestId ∉ st.requestsStore.keys) (hr : r.employeeId ∉ S) :
    Agree S (st.addRequest r) st' := by
  constructor
  · show (st.requestsStore.set r.requestId r).part _ = _
    rw [Dict.part_set_of_not_mem r hid, if_neg hr, List.append_nil, h.same]
  · intro id hn
    rw [getRequest_addRequest] at hn
    split at hn
    · cases hn
    · exact h.fewer id hn

/-- Both change the status of a request of `S`. -/
theorem setStatus (h : Agree S st st') {id : String} {r : LeaveRequest}
    (hr : st.getRequest id = some r) (hS : r.employeeId ∈ S) (s : LeaveStatus)
    (reason : Option String) (now : Timestamp) :
    Agree S (st.setStatus id r s reason now)
      (st'.setStatus id r s reason now) := by
  constructor
  · exact Dict.part_set_congr h.same hr hS hS
  · intro id' hn
    rw [getRequest_setStatus] at hn ⊢
    split at hn
    · cases hn
    · rw [if_neg ‹_›]
      exact h.fewer id' hn

/-- The status of another employee's request goes unnoticed. -/
theorem setStatus_other (h : Agree S st st') {id : String} {r : LeaveRequest}
    (hr : st.getRequest id = some r) (hS : r.employeeId ∉ S) (s : LeaveStatus)
    (reason : Option String) (now : Timestamp) :
    Agree S (st.setStatus id r s reason now) st' := by
  constructor
  · exact (Dict.part_set_of_not hr hS hS).trans h.same
  · intro id' hn
    rw [getRequest_setStatus] at hn
    split at hn
    · cases hn
    · exact h.fewer id' hn

end RequestStore.Agree

namespace BalanceStore.Agree

variable {b c : BalanceStore}

theorem refl (b : BalanceStore) : Agree S b b := ⟨rfl, rfl⟩

theorem getBalance_eq (h : Agree S b c) (hb : b.WF) {e : String} (he : e ∈ S)
    (t : LeaveType) : c.getBalance e t = b.getBalance e t := by
  unfold getBalance
  rw [← h.index]
  cases hi : b.employeeLeavetypeIndex.get? (e, t) with
  | none => rfl
  | some id =>
      obtain ⟨x, hx, hkey⟩ := hb.indexed (e, t) id hi
      have hmem : x.employeeId ∈ S := by
        rw [(Prod.mk.inj hkey).1]
        exact he
      show c.balancesStore.get? id = b.balancesStore.get? id
      rw [hx]
      exact Dict.get?_of_part_eq h.same hx hmem

theorem balancesForEmployee_eq (h : Agree S b c) {e : String} (he : e ∈ S) :
    c.getBalancesForEmployee e = b.getBalancesForEmployee e := by
  have hpart : ∀ b : BalanceStore, b.getBalancesForEmployee e =
      ((b.balancesStore.part fun r => r.employeeId ∈ S).map Prod.snd).filter
        fun r => r.employeeId = e := by
    intro b
    rw [Dict.map_snd_part, List.filter_filter]
    apply List.filter_congr
    intro r _
    by_cases hr : r.employeeId = e
    · simp [hr, he]
    · simp [hr]
  rw [hpart b, hpart c, h.same]

/-- Both write back a balance of `S`. -/
theorem putBalance (h : Agree S b c) {e : String} {t : LeaveType}
    {x y : LeaveBalance} (hx : b.getBalance e t = some x)
    (hxS : x.employeeId ∈ S) (hyS : y.employeeId ∈ S) :
    Agree S (b.putBalance e t y) (c.putBalance e t y) := by
  unfold getBalance at hx
  unfold BalanceStore.putBalance
  rw [← h.index]
  cases hi : b.employeeLeavetypeIndex.get? (e, t) with
  | none => exact h
  | some id =>
      rw [hi] at hx
      exact ⟨Dict.part_set_congr h.same hx hxS hyS, rfl⟩

/-- The balance of another employee goes unnoticed. -/
theorem putBalance_other (h : Agree S b c) {e : String} {t : LeaveType}
    {x y : LeaveBalance} (hx : b.getBalance e t = some x)
    (hxS : x.employeeId ∉ S) (hyS : y.employeeId ∉ S) :
    Agree S (b.putBalance e t y) c := by
  unfold getBalance at hx
  unfold BalanceStore.putBalance
  cases hi : b.employeeLeavetypeIndex.get? (e, t) with
  | none => exact h
  | some id =>
      rw [hi] at hx
      exact ⟨(Dict.part_set_of_not hx hxS hyS).trans h.same, h.index⟩

/-- A deduction for an employee in `S` has the same answer and effect. -/
theorem deductBalance (h : Agree S b c) (hb : b.WF) {e : String} (he : e ∈ S)
    (t : LeaveType) (days : Int) :
    (c.deductBalance e t days).1 = (b.deductBalance e t days).1 ∧
    Agree S (b.deductBalance e t days).2 (c.deductBalance e t days).2 := by
  unfold BalanceStore.deductBalance BalanceStore.applyDeduction
  cases hp : DeductRequest.parse e t days with
  | error err => exact ⟨rfl, h⟩
  | ok payload =>
      have hpayload : payload.employeeId = e ∧ payload.leaveType = t := by
        unfold DeductRequest.parse at hp
        split at hp
        · cases hp
          exact ⟨rfl, rfl⟩
        · cases hp
      simp only [hpayload.1, hpayload.2, h.getBalance_eq hb he]
      cases hx : b.getBalance e t with
      | none => exact ⟨rfl, h⟩
      | some x =>
          have hxS : x.employeeId ∈ S := by
            rw [(record_of_getBalance hb hx).1]
            exact he
          by_cases hpos : payload.days ≤ 0
          · simp only [if_pos hpos]
            exact ⟨trivial, h⟩
          · by_cases hover : payload.days > x.remaining
            · simp only [if_neg hpos, if_pos hover]
              exact ⟨trivial, h⟩
            · simp only [if_neg hpos, if_neg hover]
              exact ⟨trivial, h.putBalance hx hxS hxS⟩

/-- A deduction for another employee goes unnoticed. -/
theorem deductBalance_other (h : Agree S b c) (hb : b.WF) {e : String}
    (he : e ∉ S) (t : LeaveType) (days : Int) :
    Agree S (b.deductBalance e t days).2 c := by
  rcases b.deductBalance_cases e t days with ⟨-, err, hd⟩ | ⟨-, x, r, hx, hd⟩
  · rw [hd]
    exact h
  · have hxS : x.employeeId ∉ S := by
      rw [(record_of_getBalance hb hx).1]
      exact he
    rw [hd]
    exact h.putBalance_other hx hxS hxS

end BalanceStore.Agree

/-- The stores of both services agree. -/
structure Stores.Agree (S : Set String) (p q : Stores) : Prop where
  requests : RequestStore.Agree S p.requests q.requests
  balances : BalanceStore.Agree S p.balances q.balances

/-- The invariant of each service. -/
structure Stores.Inv (chart : OrgChart) (p : Stores) : Prop where
  requests : RequestService.Inv chart ⟨p.requests, [], []⟩
  balances : p.balances.WF

/-! ## §4  What each operation reads and writes -/

variable {chart : OrgChart} {p q : Stores} {st st' : RequestStore}
  {caller : CallerIdentity} {id : String}

namespace RequestStore.Agree

/-- A status update of a request of `S` has the same answer and effect. -/
theorem updateRequestStatus (h : Agree S st st')
    (ht : ∀ r, st.getRequest id = some r → r.employeeId ∈ S)
    (body : StatusUpdateBody) (now : Timestamp) :
    (Elms.updateRequestStatus st' id body now).1 =
        (Elms.updateRequestStatus st id body now).1 ∧
      Agree S (Elms.updateRequestStatus st id body now).2
        (Elms.updateRequestStatus st' id body now).2 := by
  unfold Elms.updateRequestStatus
  rw [h.getRequest_eq ht]
  cases StatusUpdateRequest.parse body with
  | error e => exact ⟨rfl, h⟩
  | ok payload =>
      simp only
      cases hr : st.getRequest id with
      | none => exact ⟨rfl, h⟩
      | some r =>
          simp only
          split_ifs
          · exact ⟨rfl, h⟩
          · exact ⟨rfl, h⟩
          · exact ⟨rfl, h⟩
          · exact ⟨rfl, h⟩
          · exact ⟨rfl, h.setStatus hr (ht r hr) _ _ _⟩

theorem updateRequestStatus_other (h : Agree S st st') {r : LeaveRequest}
    (hr : st.getRequest id = some r) (hS : r.employeeId ∉ S)
    (body : StatusUpdateBody) (now : Timestamp) :
    Agree S (Elms.updateRequestStatus st id body now).2 st' := by
  rcases updateRequestStatus_cases st id body now with
    ⟨-, e, he⟩ | ⟨r', hacc, he⟩
  · rw [he]
    exact h
  · have hrr : r' = r := Option.some.inj (hacc.stored.symm.trans hr)
    rw [he, hrr]
    exact h.setStatus_other hr hS _ _ _

/-- So has a cancellation. -/
theorem cancelLeave (h : Agree S st st')
    (ht : ∀ r, st.getRequest id = some r → r.employeeId ∈ S)
    (caller : CallerIdentity) (now : Timestamp) :
    (Elms.cancelLeave st' caller id now).1 =
        (Elms.cancelLeave st caller id now).1 ∧
      Agree S (Elms.cancelLeave st caller id now).2
        (Elms.cancelLeave st' caller id now).2 := by
  unfold Elms.cancelLeave
  rw [h.getRequest_eq ht]
  cases hr : st.getRequest id with
  | none => exact ⟨rfl, h⟩
  | some r =>
      simp only
      split_ifs
      · exact ⟨rfl, h⟩
      · exact ⟨rfl, h⟩
      · exact ⟨rfl, h.setStatus hr (ht r hr) _ _ _⟩

theorem cancelLeave_other (h : Agree S st st')
    (hother : caller.userId ∉ S ∨
      ¬ ∀ r, st.getRequest id = some r → r.employeeId ∈ S)
    (now : Timestamp) :
    Agree S (Elms.cancelLeave st caller id now).2 st' := by
  rcases cancelLeave_cases st caller id now with ⟨-, e, he⟩ | ⟨r, hacc, he⟩
  · rw [he]
    exact h
  · -- the owner is the caller, so neither is in `S`
    have hS : r.employeeId ∉ S := by
      rcases hother with hcaller | htarget
      · rw [hacc.own]
        exact hcaller
      · intro hr
        refine htarget fun r' hr' => ?_
        rw [Option.some.inj (hr'.symm.trans hacc.stored)]
        exact hr
    rw [he]
    exact h.setStatus_other hacc.stored hS _ _ _

/-- A history of an employee in `S` reads the same. -/
theorem leaveHistory (h : Agree S st st') (hwf : st.WF) (hwf' : st'.WF)
    (hS : caller.userId ∈ S) (q : HistoryQuery) :
    Elms.leaveHistory st' caller q = Elms.leaveHistory st caller q := by
  unfold Elms.leaveHistory
  rw [h.requestsForEmployee_eq hwf hwf' hS]

/-- The first segment of an application of an employee in `S` reads the
same. -/
theorem applyLeave (h : Agree S st st') (hwf : st.WF) (hwf' : st'.WF)
    (hS : caller.userId ∈ S) (chart : OrgChart) (today : Date)
    (body : ApplyLeaveBody) :
    Elms.applyLeave chart st' today caller body =
      Elms.applyLeave chart st today caller body := by
  unfold Elms.applyLeave checkOverlap
  rw [h.requestsForEmployee_eq hwf hwf' hS]

/-- What a listing shows of employees in `S` is the same. -/
theorem teamView (h : Agree S st st') {parseDate : String → Option Date}
    (hI : RequestService.Inv chart ⟨st, [], []⟩)
    (hI' : RequestService.Inv chart ⟨st', [], []⟩) {f : TeamFilters}
    (hS : (∃ e, supplied f.employeeId = some e ∧ e ∈ S) ∨
      ∀ e, chart.getManagerId e = some caller.userId → e ∈ S) :
    Elms.teamView parseDate chart st' caller f =
      Elms.teamView parseDate chart st caller f := by
  obtain ⟨hbad, hgood⟩ :
      (¬ f.WellFormed parseDate → _) ∧ (f.WellFormed parseDate → _) :=
    parse_listTeamRequests caller.userId f
  unfold Elms.teamView internalRequests
  congr 2
  by_cases hf : f.WellFormed parseDate
  swap
  · obtain ⟨locs, hlocs⟩ := hbad hf
    rw [hlocs]
    rfl
  rw [hgood hf]
  show Elms.listRequests st' _ = Elms.listRequests st _
  simp only [Elms.listRequests, listStart,
    getRequestsForManager_team (s := ⟨st, [], []⟩) hI,
    getRequestsForManager_team (s := ⟨st', [], []⟩) hI', List.filter_filter]
  rw [h.filter_eq]
  -- every row is one of the team, and of the employee that is asked for
  intro r hr
  simp only [Bool.and_eq_true, decide_eq_true_eq] at hr
  obtain ⟨⟨⟨⟨he, -⟩, -⟩, -⟩, hteam⟩ := hr
  rcases hS with ⟨e, hsupplied, heS⟩ | hreports
  · rw [hsupplied] at he
    have hre : r.employeeId = e := by simpa using he
    rw [hre]
    exact heS
  · exact hreports r.employeeId hteam

end RequestStore.Agree

namespace Stores.Agree

theorem refl (p : Stores) : p.Agree S p :=
  ⟨RequestStore.Agree.refl _, BalanceStore.Agree.refl _⟩

/-- An application of an employee in `S` has the same answer and effect. -/
theorem applyLeaveAlone (h : p.Agree S q) (hp : p.Inv chart)
    (hq : q.Inv chart) (hS : caller.userId ∈ S) (today : Date)
    (body : ApplyLeaveBody) {uuid : String} (c u : Timestamp)
    (hfresh : uuid ∉ p.requests.requestsStore.keys) :
    (Elms.applyLeaveAlone chart q.balances q.requests today caller body uuid
        c u).1 =
      (Elms.applyLeaveAlone chart p.balances p.requests today caller body uuid
        c u).1 ∧
    RequestStore.Agree S
      (Elms.applyLeaveAlone chart p.balances p.requests today caller body uuid
        c u).2
      (Elms.applyLeaveAlone chart q.balances q.requests today caller body uuid
        c u).2 := by
  unfold Elms.applyLeaveAlone
  rw [h.requests.applyLeave hp.requests.wf hq.requests.wf hS]
  cases Elms.applyLeave chart p.requests today caller body with
  | error e => exact ⟨rfl, h.requests⟩
  | ok pm =>
      obtain ⟨payload, m⟩ := pm
      have hremaining : q.balances.remainingOf caller.userId payload.leaveType =
          p.balances.remainingOf caller.userId payload.leaveType := by
        unfold BalanceStore.remainingOf
        rw [h.balances.getBalance_eq hp.balances hS]
      simp only [BalanceStore.fetchRemaining_eq hp.balances,
        BalanceStore.fetchRemaining_eq hq.balances, hremaining]
      cases hr : applyLeaveResumed caller payload m uuid c u
          (.ok (p.balances.remainingOf caller.userId payload.leaveType)) with
      | error e => exact ⟨rfl, h.requests⟩
      | ok request =>
          have huuid : request.requestId = uuid := by
            rw [(applyLeaveResumed_eq_ok_iff.mp hr).2]
            rfl
          exact ⟨rfl, h.requests.addRequest (huuid ▸ hfresh)⟩

theorem applyLeaveAlone_other (h : p.Agree S q) (hS : caller.userId ∉ S)
    (today : Date) (body : ApplyLeaveBody) {uuid : String} (c u : Timestamp)
    (hfresh : uuid ∉ p.requests.requestsStore.keys) :
    RequestStore.Agree S
      (Elms.applyLeaveAlone chart p.balances p.requests today caller body uuid
        c u).2 q.requests := by
  unfold Elms.applyLeaveAlone
  cases Elms.applyLeave chart p.requests today caller body with
  | error e => exact h.requests
  | ok pm =>
      obtain ⟨payload, m⟩ := pm
      simp only
      cases hr : applyLeaveResumed caller payload m uuid c u
          (fetchRemaining p.balances chart caller.userId payload.leaveType) with
      | error e => exact h.requests
      | ok request =>
          have hreq := (applyLeaveResumed_eq_ok_iff.mp hr).2
          have huuid : request.requestId = uuid := by
            rw [hreq]
            rfl
          have howner : request.employeeId ∉ S := by
            rw [hreq]
            exact hS
          exact h.requests.addRequest_other (huuid ▸ hfresh) howner

/-- The request that a decision is about has been looked up. -/
theorem stored_of_requestLoaded {d : Decision} {st : RequestStore}
    {r : LeaveRequest}
    (h : requestLoaded d caller
      (.ok (Elms.listRequests st { requestId := some id })) = .ok r) :
    st.getRequest id = some r := by
  obtain ⟨⟨rest, hrest⟩, -⟩ := requestLoaded_eq_ok_iff.mp h
  rw [listRequests_requestId] at hrest
  cases hg : st.getRequest id with
  | none =>
      rw [hg] at hrest
      cases hrest
  | some r' =>
      rw [hg] at hrest
      cases hrest
      rfl

/-- A decision on a request of `S`, or on none, has the same answer and
effect. -/
theorem decide (h : p.Agree S q) (hp : p.Inv chart) (ht : p.TargetIn S id)
    (d : Except HTTPException Decision) (now : Timestamp) :
    (q.decide chart caller id now d).1 = (p.decide chart caller id now d).1 ∧
    Agree S (p.decide chart caller id now d).2
      (q.decide chart caller id now d).2 := by
  cases d with
  | error e => exact ⟨rfl, h⟩
  | ok d =>
  unfold Stores.decide
  have hload : Elms.listRequests q.requests { requestId := some id } =
      Elms.listRequests p.requests { requestId := some id } := by
    rw [listRequests_requestId, listRequests_requestId,
      h.requests.getRequest_eq ht]
  simp only [hload]
  cases hr : requestLoaded d caller
      (.ok (Elms.listRequests p.requests { requestId := some id })) with
  | error e => exact ⟨rfl, h⟩
  | ok r =>
      have hS : r.employeeId ∈ S := ht r (stored_of_requestLoaded hr)
      obtain ⟨hanswer, hbalances⟩ : (q.deduct d r).1 = (p.deduct d r).1 ∧
          BalanceStore.Agree S (p.deduct d r).2 (q.deduct d r).2 := by
        cases d with
        | reject payload => exact ⟨rfl, h.balances⟩
        | approve =>
            obtain ⟨h₁, h₂⟩ := h.balances.deductBalance hp.balances hS
              r.leaveType r.numberOfDays
            refine ⟨?_, h₂⟩
            simp only [Stores.deduct, h₁]
      obtain ⟨hupdate, hrequests⟩ :=
        h.requests.updateRequestStatus ht (d.body caller) now
      cases hdq : q.deduct d r with
      | mk answer balances' =>
      cases hdp : p.deduct d r with
      | mk answer' balances =>
      rw [hdq, hdp] at hanswer hbalances
      cases hanswer
      simp only [hdq, hdp]
      cases answer with
      | error e => exact ⟨rfl, h.requests, hbalances⟩
      | ok u =>
          simp only [hupdate]
          exact ⟨trivial, hrequests, hbalances⟩

/-- A decision on another employee's request goes unnoticed. -/
theorem decide_other (h : p.Agree S q) (hp : p.Inv chart) {r : LeaveRequest}
    (hr : p.requests.getRequest id = some r) (hS : r.employeeId ∉ S)
    (d : Except HTTPException Decision) (now : Timestamp) :
    Agree S (p.decide chart caller id now d).2 q := by
  cases d with
  | error e => exact h
  | ok d =>
  unfold Stores.decide
  simp only
  cases hl : requestLoaded d caller
      (.ok (Elms.listRequests p.requests { requestId := some id })) with
  | error e => exact h
  | ok r' =>
      have hrr : r' = r :=
        Option.some.inj ((stored_of_requestLoaded hl).symm.trans hr)
      subst hrr
      have hbalances : BalanceStore.Agree S (p.deduct d r').2 q.balances := by
        cases d with
        | reject payload => exact h.balances
        | approve =>
            exact h.balances.deductBalance_other hp.balances hS _ _
      have hrequests := h.requests.updateRequestStatus_other hr hS
        (d.body caller) now
      simp only
      cases hd : p.deduct d r' with
      | mk answer balances =>
      rw [hd] at hbalances
      cases answer with
      | error e => exact ⟨h.requests, hbalances⟩
      | ok u => exact ⟨hrequests, hbalances⟩

end Stores.Agree

/-! ## §5  Runs -/

/-- What the invariant of the service says of its store, it says of the store
alone. -/
theorem RequestService.Inv.ofStore {s : RequestService} (h : s.Inv chart) :
    RequestService.Inv chart ⟨s.store, [], []⟩ :=
  ⟨h.wf, h.sound, fun _ hmem => by cases hmem⟩

theorem Stores.Reachable.inv (h : p.Reachable chart) : p.Inv chart := by
  obtain ⟨s, hs, hstore⟩ := h.requests
  refine ⟨?_, h.balances.wf⟩
  rw [← hstore]
  exact hs.inv.ofStore

theorem Stores.Inv.decide (h : p.Inv chart) (d : Except HTTPException Decision)
    (now : Timestamp) : (p.decide chart caller id now d).2.Inv chart := by
  cases d with
  | error e => exact h
  | ok d =>
  unfold Stores.decide
  simp only
  cases requestLoaded d caller
      (.ok (Elms.listRequests p.requests { requestId := some id })) with
  | error e => exact h
  | ok r =>
      have hbalances : (p.deduct d r).2.WF := by
        cases d with
        | reject payload => exact h.balances
        | approve => exact BalanceStore.deductBalance_wf h.balances _ _ _
      have hrequests : RequestService.Inv chart
          ⟨(Elms.updateRequestStatus p.requests id (d.body caller) now).2, [],
            []⟩ := by
        have hl : RequestService.step chart ⟨p.requests, [], []⟩
            (.updateStatus id (d.body caller) now) = some
            ⟨(Elms.updateRequestStatus p.requests id (d.body caller) now).2, [],
              []⟩ := rfl
        exact RequestService.inv_step h.requests hl
      simp only
      cases hd : p.deduct d r with
      | mk answer balances =>
      rw [hd] at hbalances
      cases answer with
      | error e => exact ⟨h.requests, hbalances⟩
      | ok u => exact ⟨hrequests, hbalances⟩

variable {parseDate : String → Option Date} {op : SerialOp} {p' : Stores}
  {answer : SerialAnswer}

theorem Stores.Inv.exec (h : p.Inv chart)
    (he : op.exec parseDate chart p = some (answer, p')) : p'.Inv chart := by
  cases op with
  | applyLeave caller body today uuid c u =>
      simp only [SerialOp.exec] at he
      split at he
      · cases he
      · rename_i hfresh
        cases he
        let s : RequestService := ⟨p.requests, [], []⟩
        obtain ⟨s₁, s', hrun, hexec, hstore⟩ :
            ∃ s₁ s', run (RequestService.step chart) s _ = some s₁ ∧ _ :=
          s.run_applySegments p.balances today caller body c u hfresh
        have hinv₁ : s₁.Inv chart :=
          invariant (fun _ _ _ => RequestService.inv_step) h.requests ⟨_, hrun⟩
        have hinv : s'.Inv chart := RequestService.inv_step hinv₁
          (RequestService.step_eq_some_iff.mpr ⟨_, hexec⟩)
        refine ⟨?_, h.balances⟩
        rw [← hstore]
        exact hinv.ofStore
  | cancelLeave caller leaveId now =>
      cases he
      have hl : RequestService.step chart ⟨p.requests, [], []⟩
          (.cancelLeave caller leaveId now) =
          some ⟨(Elms.cancelLeave p.requests caller leaveId now).2, [], []⟩ :=
        rfl
      exact ⟨RequestService.inv_step h.requests hl, h.balances⟩
  | leaveHistory caller q => cases he; exact h
  | myBalances caller => cases he; exact h
  | employeeBalances caller e => cases he; exact h
  | listRequests caller f => cases he; exact h
  | approveRequest caller id now => cases he; exact h.decide _ _
  | rejectRequest caller id body now => cases he; exact h.decide _ _

/-- **Step lemma, kept**: an operation that concerns only `S` has the same
answer on stores that agree on `S`, which agree afterwards. -/
theorem exec_concernsOnly (h : p.Agree S q) (hp : p.Inv chart)
    (hq : q.Inv chart) (hc : op.ConcernsOnly chart S p)
    (he : op.exec parseDate chart p = some (answer, p')) :
    ∃ q', op.exec parseDate chart q = some (answer, q') ∧ p'.Agree S q' := by
  cases op with
  | applyLeave caller body today uuid c u =>
      simp only [SerialOp.exec] at he ⊢
      split at he
      · cases he
      · rename_i hfresh
        have hfresh' : uuid ∉ q.requests.requestsStore.keys :=
          Dict.get?_eq_none_iff.mp
            (h.requests.fewer uuid (Dict.get?_eq_none_iff.mpr hfresh))
        obtain ⟨hanswer, hagree⟩ :=
          h.applyLeaveAlone hp hq hc today body c u hfresh
        cases he
        rw [if_neg hfresh', hanswer]
        exact ⟨_, rfl, hagree, h.balances⟩
  | cancelLeave caller leaveId now =>
      obtain ⟨hanswer, hagree⟩ := h.requests.cancelLeave hc.2 caller now
      cases he
      simp only [SerialOp.exec, hanswer]
      exact ⟨_, rfl, hagree, h.balances⟩
  | leaveHistory caller query =>
      cases he
      simp only [SerialOp.exec,
        h.requests.leaveHistory hp.requests.wf hq.requests.wf hc]
      exact ⟨q, rfl, h⟩
  | myBalances caller =>
      cases he
      simp only [SerialOp.exec, BalanceStore.myBalances,
        BalanceStore.balancesResponse, h.balances.balancesForEmployee_eq hc]
      exact ⟨q, rfl, h⟩
  | employeeBalances caller e =>
      cases he
      refine ⟨q, ?_, h⟩
      simp only [SerialOp.exec, BalanceStore.employeeBalances,
        BalanceStore.balancesResponse]
      split
      · rfl
      · rename_i hallowed
        -- whoever is let through reads the balances of an employee in `S`
        have heS : e ∈ S := by
          cases hrole : caller.role with
          | MANAGER => exact hc.2 hrole
          | EMPLOYEE =>
              by_cases hself : caller.userId = e
              · rw [← hself]
                exact hc.1 hrole
              · refine absurd ⟨hself, fun hm => ?_⟩ hallowed
                rw [hrole] at hm
                cases hm.1
        rw [h.balances.balancesForEmployee_eq heS]
  | listRequests caller f =>
      cases he
      simp only [SerialOp.exec,
        h.requests.teamView hp.requests hq.requests hc.2]
      exact ⟨q, rfl, h⟩
  | approveRequest caller id now =>
      obtain ⟨hanswer, hagree⟩ :=
        h.decide hp hc.2 (Elms.approveRequest caller) now
      simp only [SerialOp.exec, Stores.approveRequest, Option.some.injEq,
        Prod.mk.injEq] at he
      obtain ⟨rfl, rfl⟩ := he
      refine ⟨_, ?_, hagree⟩
      simp only [SerialOp.exec, Stores.approveRequest, hanswer]
  | rejectRequest caller id body now =>
      obtain ⟨hanswer, hagree⟩ :=
        h.decide hp hc.2 (Elms.rejectRequest caller body) now
      simp only [SerialOp.exec, Stores.rejectRequest, Option.some.injEq,
        Prod.mk.injEq] at he
      obtain ⟨rfl, rfl⟩ := he
      refine ⟨_, ?_, hagree⟩
      simp only [SerialOp.exec, Stores.rejectRequest, hanswer]

/-- An EMPLOYEE that decides is refused before anything is done. -/
theorem decide_of_employee (hrole : caller.role = .EMPLOYEE) (now : Timestamp)
    (body : RejectLeaveBody) :
    (p.approveRequest chart caller id now).2 = p ∧
    (p.rejectRequest chart caller id body now).2 = p := by
  have hne : caller.role ≠ .MANAGER := by
    rw [hrole]
    decide
  unfold Stores.approveRequest Stores.rejectRequest Elms.approveRequest
    Elms.rejectRequest
  rw [requireManager_eq_error hne]
  exact ⟨rfl, rfl⟩

/-- **Step lemma, deleted**: any other operation leaves the part of `S`
alone. -/
theorem exec_other (h : p.Agree S q) (hp : p.Inv chart)
    (hc : ¬ op.ConcernsOnly chart S p)
    (he : op.exec parseDate chart p = some (answer, p')) : p'.Agree S q := by
  -- a decision: by an employee outside `S`, or about one
  have hdecide : ∀ (caller : CallerIdentity) (id : String) (now : Timestamp)
      (d : Except HTTPException Decision),
      ¬ (caller.ActsIn S ∧ p.TargetIn S id) →
      (caller.role = .EMPLOYEE → (p.decide chart caller id now d).2 = p) →
      Stores.Agree S (p.decide chart caller id now d).2 q := by
    intro caller id now d hno hemployee
    by_cases hacts : caller.ActsIn S
    · obtain ⟨r, hr, hS⟩ : ∃ r, p.requests.getRequest id = some r ∧
          r.employeeId ∉ S := by
        by_contra hall
        refine hno ⟨hacts, fun r hr => ?_⟩
        by_contra hS
        exact hall ⟨r, hr, hS⟩
      exact h.decide_other hp hr hS d now
    · unfold CallerIdentity.ActsIn at hacts
      rw [Classical.not_imp] at hacts
      rw [hemployee hacts.1]
      exact h
  cases op with
  | applyLeave caller body today uuid c u =>
      simp only [SerialOp.exec] at he
      split at he
      · cases he
      · rename_i hfresh
        cases he
        exact ⟨h.applyLeaveAlone_other hc today body c u hfresh, h.balances⟩
  | cancelLeave caller leaveId now =>
      cases he
      refine ⟨h.requests.cancelLeave_other ?_ now, h.balances⟩
      exact not_and_or.mp hc
  | leaveHistory caller query => cases he; exact h
  | myBalances caller => cases he; exact h
  | employeeBalances caller e => cases he; exact h
  | listRequests caller f => cases he; exact h
  | approveRequest caller id now =>
      cases he
      exact hdecide caller id now _ hc fun hrole =>
        (decide_of_employee hrole now ⟨""⟩).1
  | rejectRequest caller id body now =>
      cases he
      exact hdecide caller id now _ hc fun hrole =>
        (decide_of_employee hrole now body).2

theorem run_inv : ∀ {ops : List SerialOp} {p p' : Stores}
    {answers : List SerialAnswer}, p.Inv chart →
    serialRun parseDate chart p ops = some (answers, p') → p'.Inv chart := by
  intro ops
  induction ops with
  | nil =>
      intro p p' answers hp hrun
      cases hrun
      exact hp
  | cons op ops ih =>
      intro p p' answers hp hrun
      simp only [serialRun] at hrun
      split at hrun
      · cases hrun
      · rename_i answer p₁ he
        obtain ⟨⟨rest, p₂⟩, hrest, heq⟩ := Option.map_eq_some_iff.mp hrun
        cases heq
        exact ih (hp.exec he) hrest

/-- **Run lemma**: from stores that agree on `S`, the kept operations of a run
get their answers without the others, and the stores still agree. -/
theorem serialRun_keptRun : ∀ {ops : List SerialOp} {p q p' : Stores}
    {answers : List SerialAnswer}, p.Agree S q → p.Inv chart → q.Inv chart →
    serialRun parseDate chart p ops = some (answers, p') →
    ∃ q', serialRun parseDate chart q
        ((keptRun parseDate chart S p ops).map Prod.fst) =
          some ((keptRun parseDate chart S p ops).map Prod.snd, q') ∧
      p'.Agree S q' := by
  intro ops
  induction ops with
  | nil =>
      intro p q p' answers h _ _ hrun
      cases hrun
      exact ⟨q, rfl, h⟩
  | cons op ops ih =>
      intro p q p' answers h hp hq hrun
      simp only [serialRun] at hrun
      cases he : op.exec parseDate chart p with
      | none =>
          rw [he] at hrun
          cases hrun
      | some out =>
          obtain ⟨answer, p₁⟩ := out
          rw [he] at hrun
          obtain ⟨⟨rest, p₂⟩, hrest, heq⟩ := Option.map_eq_some_iff.mp hrun
          cases heq
          simp only [keptRun, he]
          by_cases hc : op.ConcernsOnly chart S p
          · rw [if_pos hc]
            obtain ⟨q₁, heq, hagree⟩ := exec_concernsOnly h hp hq hc he
            obtain ⟨q', hq', hend⟩ :=
              ih hagree (hp.exec he) (hq.exec heq) hrest
            refine ⟨q', ?_, hend⟩
            simp only [List.map_cons, serialRun, heq, hq', Option.map_some]
          · rw [if_neg hc]
            exact ih (exec_other h hp hc he) (hp.exec he) hq hrest

/-- **Employees do not affect each other.** Delete from a serial run every
operation that concerns an employee outside `S`: what remains is a run, in
which every operation has the answer that it had, and which ends with the same
requests of the employees in `S`, in the same order, and the same balances. -/
theorem employees_independent (S : Set String) (hp : p.Reachable chart)
    {ops : List SerialOp} {answers : List SerialAnswer}
    (hrun : serialRun parseDate chart p ops = some (answers, p')) :
    ∃ q', serialRun parseDate chart p
        ((keptRun parseDate chart S p ops).map Prod.fst) =
          some ((keptRun parseDate chart S p ops).map Prod.snd, q') ∧
      (q'.requests.requests.filter fun r => r.employeeId ∈ S) =
        (p'.requests.requests.filter fun r => r.employeeId ∈ S) ∧
      ∀ e ∈ S,
        q'.balances.getBalancesForEmployee e =
          p'.balances.getBalancesForEmployee e ∧
        ∀ t, q'.balances.getBalance e t = p'.balances.getBalance e t := by
  have hI := hp.inv
  obtain ⟨q', hq', hagree⟩ := serialRun_keptRun (Stores.Agree.refl p) hI hI hrun
  refine ⟨q', hq', ?_, ?_⟩
  · apply hagree.requests.filter_eq
    intro r hr
    simpa using hr
  · intro e he
    refine ⟨hagree.balances.balancesForEmployee_eq he, fun t => ?_⟩
    exact hagree.balances.getBalance_eq (run_inv hI hrun).balances he t

/-- Both employees have casual leave. -/
def twoBalances : List BalanceStore.StoreCall :=
  [.addBalance ⟨"balance-1", EMP1_ID, .CASUAL, 12, 0⟩,
   .addBalance ⟨"balance-2", EMP2_ID, .CASUAL, 12, 0⟩]

/-- Both apply for the same days, the second one's request is approved, and
the manager and the first one look at what there is. -/
def twoEmployees : List SerialOp :=
  [.applyLeave emp1 familyTrip ⟨738990⟩ "request-1" 100 101,
   .applyLeave emp2 familyTrip ⟨738990⟩ "request-2" 102 103,
   .approveRequest manager1 "request-2" 104,
   .listRequests manager1 { employeeId := some EMP1_ID },
   .listRequests manager1 {},
   .employeeBalances manager1 EMP2_ID,
   .approveRequest manager1 "request-1" 105,
   .leaveHistory emp1 {}]

theorem employees_independent_twoEmployees :
    ∃ b, run BalanceStore.step BalanceStore.empty twoBalances = some b ∧
      ∃ answers p', serialRun springDay SEED_USERS ⟨RequestStore.empty, b⟩
          twoEmployees = some (answers, p') ∧
        ∃ q', serialRun springDay SEED_USERS ⟨RequestStore.empty, b⟩
            ((keptRun springDay SEED_USERS {EMP1_ID} ⟨RequestStore.empty, b⟩
              twoEmployees).map Prod.fst) =
          some ((keptRun springDay SEED_USERS {EMP1_ID}
            ⟨RequestStore.empty, b⟩ twoEmployees).map Prod.snd, q') ∧
          q'.balances.getBalance EMP1_ID .CASUAL =
            p'.balances.getBalance EMP1_ID .CASUAL := by
  have hruns : ∃ b, run BalanceStore.step BalanceStore.empty twoBalances =
      some b ∧ (serialRun springDay SEED_USERS ⟨RequestStore.empty, b⟩
        twoEmployees).isSome = true := by
    decide +kernel
  obtain ⟨b, hb, hsome⟩ := hruns
  obtain ⟨⟨answers, p'⟩, hrun⟩ := Option.isSome_iff_exists.mp hsome
  have hreach : (Stores.mk RequestStore.empty b).Reachable SEED_USERS :=
    ⟨⟨RequestService.empty, Reaches.refl _, rfl⟩, ⟨_, hb⟩⟩
  obtain ⟨q', hq', -, hbalances⟩ :=
    employees_independent {EMP1_ID} hreach hrun
  refine ⟨b, hb, answers, p', hrun, q', hq', ?_⟩
  exact (hbalances EMP1_ID rfl).2 .CASUAL

end Agreement

end Elms
