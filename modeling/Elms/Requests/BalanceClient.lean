import Elms.Balance.Calls
import Elms.Requests.Main
import Elms.Shared.ServiceClient

/-!
# The balance check and the deduction

An application is checked against `fetch_remaining`, which scans the list that
the balance route answers; the approval deducts through the composite index.
On every store that the Balance Service can build the two read the same record
(`fetchRemaining_eq`), so what is admitted is exactly what can be deducted
(`balance_check_agrees`).

`fetch_remaining` itself reads JSON out of an HTTP answer. When the answer is
the one that the balance route gives, it comes to the same
(`BalanceClient.fetchRemaining_eq`).
-/

namespace Elms

/-- The days left to an employee; without a record there are none. -/
def BalanceStore.remainingOf (st : BalanceStore) (employeeId : String)
    (leaveType : LeaveType) : Int :=
  match st.getBalance employeeId leaveType with
  | none => 0
  | some b => b.remaining

/-! ## §1  The scan -/

theorem remainingIn_cons (t : LeaveType) (b : LeaveBalance)
    (bs : List LeaveBalance) :
    remainingIn t ((b :: bs).map BalanceItem.fromModel) =
      if b.leaveType = t then b.remaining
      else remainingIn t (bs.map BalanceItem.fromModel) := rfl

theorem remainingIn_eq_zero {t : LeaveType} : ∀ {bs : List LeaveBalance},
    (∀ b ∈ bs, b.leaveType ≠ t) →
      remainingIn t (bs.map BalanceItem.fromModel) = 0
  | [], _ => rfl
  | b :: bs, h => by
      rw [remainingIn_cons, if_neg (h b List.mem_cons_self)]
      exact remainingIn_eq_zero fun b' hb' => h b' (List.mem_cons_of_mem _ hb')

/-- When only one record has the type, the scan stops at it. -/
theorem remainingIn_eq_of_unique {t : LeaveType} {b : LeaveBalance}
    (ht : b.leaveType = t) : ∀ {bs : List LeaveBalance}, b ∈ bs →
      (∀ b' ∈ bs, b'.leaveType = t → b' = b) →
      remainingIn t (bs.map BalanceItem.fromModel) = b.remaining
  | [], hmem, _ => by cases hmem
  | b' :: bs, hmem, huniq => by
      rw [remainingIn_cons]
      by_cases ht' : b'.leaveType = t
      · rw [if_pos ht', huniq b' List.mem_cons_self ht']
      · have hne : b ≠ b' := by
          rintro rfl
          exact ht' ht
        rw [if_neg ht']
        apply remainingIn_eq_of_unique ht
        · exact List.mem_of_ne_of_mem hne hmem
        · exact fun c hc => huniq c (List.mem_cons_of_mem _ hc)

namespace BalanceStore

variable {st : BalanceStore}

theorem mem_getBalancesForEmployee_iff {e : String} {b : LeaveBalance} :
    b ∈ st.getBalancesForEmployee e ↔
      (∃ id, st.balancesStore.get? id = some b) ∧ b.employeeId = e := by
  unfold getBalancesForEmployee
  rw [List.mem_filter, Dict.mem_values_iff, decide_eq_true_eq]

/-- **Scan and index agree** on a well-formed store. -/
theorem remainingIn_balancesResponse (hwf : st.WF) (e : String)
    (t : LeaveType) :
    remainingIn t (st.balancesResponse e).balances = st.remainingOf e t := by
  unfold balancesResponse remainingOf
  have found : ∀ b ∈ st.getBalancesForEmployee e, b.leaveType = t →
      st.getBalance e t = some b := by
    intro b hb ht
    obtain ⟨⟨id, hid⟩, he⟩ := mem_getBalancesForEmployee_iff.mp hb
    rw [← he, ← ht]
    exact getBalance_of_record hwf hid
  cases hg : st.getBalance e t with
  | none =>
      apply remainingIn_eq_zero
      intro b hb ht
      rw [found b hb ht] at hg
      cases hg
  | some b =>
      obtain ⟨he, ht, id, hid, -⟩ := record_of_getBalance hwf hg
      apply remainingIn_eq_of_unique ht
      · exact mem_getBalancesForEmployee_iff.mpr ⟨⟨id, hid⟩, he⟩
      · intro b' hb' ht'
        exact Option.some.inj ((found b' hb' ht').symm.trans hg)

/-! ## §2  The self-read -/

/-- The lookup made for an employee is a read of their own balances. -/
theorem fetchRemaining_eq (hwf : st.WF) (chart : OrgChart)
    (employee : CallerIdentity) (t : LeaveType) :
    fetchRemaining st chart employee.userId t =
      .ok (st.remainingOf employee.userId t) := by
  have hcaller : getCaller (some employee.userId) (some Role.EMPLOYEE.value) =
      .ok { employee with role := .EMPLOYEE } :=
    getCaller_eq_ok_iff.mpr ⟨rfl, rfl⟩
  unfold fetchRemaining
  rw [hcaller]
  simp only [employeeBalances, ne_eq, not_true_eq_false, false_and, if_false]
  rw [remainingIn_balancesResponse hwf]

/-! ## §3  The deduction -/

/-- A deduction of at least one day is accepted exactly when the days are
left; it then leaves that many fewer, and nothing else changes. -/
theorem applyDeduction_eq_ok_iff {e : String} {t : LeaveType} {days : Int}
    (hdays : 1 ≤ days) :
    (∃ b st', st.applyDeduction e t days = .ok (b, st')) ↔
      days ≤ st.remainingOf e t := by
  unfold applyDeduction remainingOf
  cases hg : st.getBalance e t with
  | none =>
      simp only [reduceCtorEq, exists_false, false_iff]
      omega
  | some b =>
      simp only [if_neg (show ¬ days ≤ 0 by omega)]
      split
      · rename_i hover
        simp only [reduceCtorEq, exists_false, false_iff]
        omega
      · rename_i hover
        simp only [Except.ok.injEq, Prod.mk.injEq, exists_eq_right',
          exists_eq', true_iff]
        omega

theorem remainingOf_applyDeduction (hwf : st.WF) {e : String} {t : LeaveType}
    {days : Int} {b : LeaveBalance} {st' : BalanceStore}
    (h : st.applyDeduction e t days = .ok (b, st')) (e' : String)
    (t' : LeaveType) :
    st'.WF ∧ st'.remainingOf e' t' =
      st.remainingOf e' t' - if (e', t') = (e, t) then days else 0 := by
  unfold applyDeduction at h
  cases hg : st.getBalance e t with
  | none =>
      rw [hg] at h
      cases h
  | some b₀ =>
      simp only [hg] at h
      split at h
      · cases h
      · split at h
        · cases h
        · cases h
          refine ⟨putBalance_wf hwf hg _, ?_⟩
          unfold remainingOf
          rw [getBalance_putBalance hwf hg]
          by_cases hk : (e', t') = (e, t)
          · obtain ⟨rfl, rfl⟩ := Prod.mk.inj hk
            rw [if_pos rfl, if_pos rfl, hg]
            simp only [LeaveBalance.remaining]
            omega
          · rw [if_neg hk, if_neg hk, sub_zero]

/-! ## §4  Agreement -/

/-- **Check and deduction agree.** On every store that `add_balance` and
`apply_deduction` calls lead to, `fetch_remaining` admits at least one day of
leave exactly when the deduction of these days would succeed; it then answers
that many days less, and for anyone else or another type what it did. -/
theorem balance_check_agrees (h : st.Reachable) (chart : OrgChart)
    (employee : CallerIdentity) (t : LeaveType) {days : Int}
    (hdays : 1 ≤ days) :
    ∃ remaining,
      fetchRemaining st chart employee.userId t = .ok remaining ∧
      (days ≤ remaining ↔ ∃ b st',
        st.applyDeduction employee.userId t days = .ok (b, st')) ∧
      ∀ b st', st.applyDeduction employee.userId t days = .ok (b, st') →
        fetchRemaining st' chart employee.userId t = .ok (remaining - days) ∧
        ∀ (other : CallerIdentity) t',
          (other.userId, t') ≠ (employee.userId, t) →
          fetchRemaining st' chart other.userId t' =
            fetchRemaining st chart other.userId t' := by
  have hwf := h.wf
  refine ⟨st.remainingOf employee.userId t, fetchRemaining_eq hwf _ _ _,
    (applyDeduction_eq_ok_iff hdays).symm, fun b st' hok => ?_⟩
  have hafter := remainingOf_applyDeduction hwf hok
  have hwf' : st'.WF := (hafter employee.userId t).1
  constructor
  · rw [fetchRemaining_eq hwf', (hafter _ _).2, if_pos rfl]
  · intro other t' hne
    rw [fetchRemaining_eq hwf', fetchRemaining_eq hwf, (hafter _ _).2,
      if_neg hne, sub_zero]

/-- The first employee has five of twelve casual days left. -/
theorem balance_check_agrees_someCalls :
    ∃ st, Transition.run step empty
        [.addBalance ⟨"balance-1", EMP1_ID, .CASUAL, 12, 0⟩,
         .applyDeduction EMP1_ID .CASUAL 7] = some st ∧
      ∃ remaining, fetchRemaining st SEED_USERS EMP1_ID .CASUAL =
          .ok remaining ∧
        (5 ≤ remaining ↔ ∃ b st',
          st.applyDeduction EMP1_ID .CASUAL 5 = .ok (b, st')) ∧
        remaining = 5 := by
  have hrun : ∃ st, Transition.run step empty
        [.addBalance ⟨"balance-1", EMP1_ID, .CASUAL, 12, 0⟩,
         .applyDeduction EMP1_ID .CASUAL 7] = some st ∧
      st.remainingOf EMP1_ID .CASUAL = 5 := by decide +kernel
  obtain ⟨st, hst, hleft⟩ := hrun
  obtain ⟨remaining, hfetch, hiff, -⟩ := balance_check_agrees ⟨_, hst⟩
    SEED_USERS emp1 .CASUAL (show (1 : Int) ≤ 5 by decide)
  have hwf : st.WF := Reachable.wf ⟨_, hst⟩
  have hfive := fetchRemaining_eq hwf SEED_USERS emp1 .CASUAL
  refine ⟨st, hst, remaining, hfetch, hiff, ?_⟩
  rw [hfetch] at hfive
  exact (Except.ok.inj hfive).trans hleft

end BalanceStore

/-! ## §5  The lookup over HTTP -/

section Http

open Json

namespace BalanceClient

/-- The loop of `fetch_remaining` over the items of the payload. -/
def remainingLoop (read : IntReader) (leaveType : LeaveType) :
    List Json → Except OpError Int
  | [] => .ok 0
  | item :: items => do
      let itemType ← item.dictGet "leave_type"
      if itemType.isText (text leaveType.value) then
        (← item.dictGet "remaining" (.int 0)).toInt read
      else remainingLoop read leaveType items

/-- `fetch_remaining`, on what its request came to. -/
def fetchRemaining (decode : ByteArray → Except LoadError Json) (read : IntReader)
    (leaveType : LeaveType) (answer : HttpAnswer) : Except ClientError Int := do
  let payload ← responseJson decode answer
  let balances ← (payload.dictGet "balances" (.array [])).mapError .opError
  let items ← balances.iterate.mapError .opError
  (remainingLoop read leaveType items).mapError .opError

end BalanceClient

def BalanceItem.toJson (item : BalanceItem) : Json :=
  .object
    [(text "leave_type", .str (text item.leaveType.value)),
     (text "total_allocated", .int item.totalAllocated),
     (text "used", .int item.used),
     (text "remaining", .int item.remaining)]

def EmployeeBalancesResponse.toJson (r : EmployeeBalancesResponse) : Json :=
  .object
    [(text "employee_id", .str (text r.employeeId)),
     (text "balances", .array (r.balances.map BalanceItem.toJson))]

/-- The balance route, under the headers that `fetch_remaining` sends. -/
def BalanceStore.selfRead (st : BalanceStore) (chart : OrgChart)
    (employeeId : String) : Response EmployeeBalancesResponse := do
  let caller ← getCaller (some employeeId) (some Role.EMPLOYEE.value)
  st.employeeBalances chart caller employeeId

/-- The answer carries the response: its JSON, or the status of the error. -/
def HttpAnswer.Carries (decode : ByteArray → Except LoadError Json)
    (response : Response EmployeeBalancesResponse) : HttpAnswer → Prop
  | .transportError => False
  | .response statusCode content =>
      match response with
      | .ok r => statusCode = 200 ∧ decode content = .ok r.toJson
      | .error e => statusCode = e.statusCode

theorem isText_value (t t' : LeaveType) :
    (Json.str (text t.value)).isText (text t'.value) = decide (t = t') := by
  cases t <;> cases t' <;> decide +kernel

/-- The loop over the JSON of the items is the scan of the items. -/
theorem BalanceClient.remainingLoop_eq (read : IntReader) (t : LeaveType)
    (items : List BalanceItem) :
    remainingLoop read t (items.map BalanceItem.toJson) =
      .ok (remainingIn t items) := by
  induction items with
  | nil => rfl
  | cons item items ih =>
      have htype : item.toJson.dictGet "leave_type" =
          .ok (.str (text item.leaveType.value)) := by
        simp [BalanceItem.toJson, dictGet, get?]
      have hremaining : item.toJson.dictGet "remaining" (.int 0) =
          .ok (.int item.remaining) := by
        have hne : text "leave_type" ≠ text "remaining" ∧
            text "total_allocated" ≠ text "remaining" ∧
            text "used" ≠ text "remaining" := by decide +kernel
        simp [BalanceItem.toJson, dictGet, get?, hne]
      rw [List.map_cons, remainingLoop, htype, hremaining, remainingIn]
      dsimp only [bind, Except.bind]
      rw [isText_value]
      by_cases ht : item.leaveType = t
      · rw [if_pos (decide_eq_true ht), if_pos ht]
        rfl
      · rw [if_neg (by simpa using ht), if_neg ht]
        exact ih

/-- A self-read fails only for want of an id. -/
theorem BalanceStore.selfRead_error {st : BalanceStore} {chart : OrgChart}
    {employeeId : String} {e : HTTPException}
    (h : st.selfRead chart employeeId = .error e) : e.statusCode = 401 := by
  by_cases hid : employeeId = ""
  · subst hid
    cases h
    rfl
  · have hcaller : getCaller (some employeeId) (some Role.EMPLOYEE.value) =
        .ok ⟨employeeId, .EMPLOYEE, hid⟩ := getCaller_eq_ok_iff.mpr ⟨rfl, rfl⟩
    rw [selfRead, hcaller] at h
    simp [bind, Except.bind, employeeBalances] at h

theorem fetchRemaining_eq_selfRead (st : BalanceStore) (chart : OrgChart)
    (employeeId : String) (t : LeaveType) :
    fetchRemaining st chart employeeId t =
      ((st.selfRead chart employeeId).map fun r =>
        remainingIn t r.balances).mapError fun _ => .httpxError := by
  unfold fetchRemaining BalanceStore.selfRead
  cases getCaller (some employeeId) (some Role.EMPLOYEE.value) with
  | error e => rfl
  | ok caller =>
      dsimp only [bind, Except.bind]
      cases st.employeeBalances chart caller employeeId with
      | error e => rfl
      | ok r => rfl

/-- **One lookup, read twice.** On an answer that carries what the balance route
responds, the client returns the days that the store has, and raises for every
error response. -/
theorem BalanceClient.fetchRemaining_eq {st : BalanceStore} {chart : OrgChart}
    {employeeId : String} {decode : ByteArray → Except LoadError Json}
    {answer : HttpAnswer} (h : answer.Carries decode (st.selfRead chart employeeId))
    (read : IntReader) (t : LeaveType) :
    BalanceClient.fetchRemaining decode read t answer =
      (Elms.fetchRemaining st chart employeeId t).mapError fun _ => .httpError := by
  cases answer with
  | transportError => cases h
  | response statusCode content =>
      rw [fetchRemaining_eq_selfRead, fetchRemaining, responseJson_response]
      cases hread : st.selfRead chart employeeId with
      | error e =>
          rw [hread] at h
          have hstatus : statusCode = 401 :=
            Eq.trans h (BalanceStore.selfRead_error hread)
          rw [hstatus]
          rfl
      | ok r =>
          rw [hread] at h
          obtain ⟨rfl, hdecode⟩ := h
          have hbalances : r.toJson.dictGet "balances" (.array []) =
              .ok (.array (r.balances.map BalanceItem.toJson)) := by
            have hne : text "employee_id" ≠ text "balances" := by decide +kernel
            simp [EmployeeBalancesResponse.toJson, dictGet, get?, hne]
          rw [if_pos (by decide), hdecode]
          dsimp only [bind, Except.bind, Except.mapError]
          rw [hbalances]
          dsimp only [iterate]
          rw [remainingLoop_eq]
          rfl

end Http

end Elms
