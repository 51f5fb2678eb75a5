import Elms.Shared.Basic

/-!
# The Leave Balance Service

`leave_balance_service/models.py`, `store.py`, `schemas.py` and `main.py`:
balance records by id, the composite index `(employee_id, leave_type) → id`,
and the routes over them. The only route that writes is the internal
deduction, so what a deduction does to `used` is all the other services can
ever do to a balance (`usedOf_deductBalance`).
-/

namespace Elms

/-! ## §1  Records and store -/

structure LeaveBalance where
  balanceId : String
  employeeId : String
  leaveType : LeaveType
  totalAllocated : Int
  used : Int
deriving DecidableEq, Repr

def LeaveBalance.remaining (b : LeaveBalance) : Int := b.totalAllocated - b.used

/-- The two module-level dictionaries of the service. -/
structure BalanceStore where
  balancesStore : Dict String LeaveBalance
  employeeLeavetypeIndex : Dict (String × LeaveType) String
deriving DecidableEq

/-- What the store functions raise. -/
inductive StoreError where
  | lookupError (msg : String)
  | valueError (msg : String)
deriving DecidableEq, Repr

namespace BalanceStore

def empty : BalanceStore := ⟨Dict.empty, Dict.empty⟩

/-- `add_balance` -/
def addBalance (st : BalanceStore) (balance : LeaveBalance) :
    Except StoreError BalanceStore :=
  let key := (balance.employeeId, balance.leaveType)
  if key ∈ st.employeeLeavetypeIndex.keys then
    .error (.valueError (s!"Balance for employee {balance.employeeId} and " ++
      s!"leave type {balance.leaveType.value} already exists"))
  else
    .ok { balancesStore := st.balancesStore.set balance.balanceId balance
          employeeLeavetypeIndex :=
            st.employeeLeavetypeIndex.set key balance.balanceId }

/-- `get_balance` -/
def getBalance (st : BalanceStore) (employeeId : String)
    (leaveType : LeaveType) : Option LeaveBalance :=
  match st.employeeLeavetypeIndex.get? (employeeId, leaveType) with
  | none => none
  | some balanceId => st.balancesStore.get? balanceId

/-- `get_balances_for_employee` -/
def getBalancesForEmployee (st : BalanceStore) (employeeId : String) :
    List LeaveBalance :=
  st.balancesStore.values.filter fun b => b.employeeId = employeeId

/-- Write back the record that `get_balance` returned: it is the object held
in the store, under the id the index gives. -/
def putBalance (st : BalanceStore) (employeeId : String)
    (leaveType : LeaveType) (balance : LeaveBalance) : BalanceStore :=
  match st.employeeLeavetypeIndex.get? (employeeId, leaveType) with
  | none => st
  | some balanceId =>
      { st with balancesStore := st.balancesStore.set balanceId balance }

/-- `apply_deduction` -/
def applyDeduction (st : BalanceStore) (employeeId : String)
    (leaveType : LeaveType) (days : Int) :
    Except StoreError (LeaveBalance × BalanceStore) :=
  match st.getBalance employeeId leaveType with
  | none =>
      .error (.lookupError
        s!"No {leaveType.value} balance for employee {employeeId}")
  | some balance =>
      if days ≤ 0 then
        .error (.valueError "Deduction must be a positive number of days")
      else if days > balance.remaining then
        .error (.valueError (s!"Insufficient {leaveType.value} balance: " ++
          s!"requested {days}, remaining {balance.remaining}"))
      else
        let balance' := { balance with used := balance.used + days }
        .ok (balance', st.putBalance employeeId leaveType balance')

/-- `used(e, t)`; an employee without a record has used nothing. -/
def usedOf (st : BalanceStore) (employeeId : String) (leaveType : LeaveType) :
    Int :=
  match st.getBalance employeeId leaveType with
  | none => 0
  | some b => b.used

/-- `total_allocated(e, t)` -/
def totalOf (st : BalanceStore) (employeeId : String) (leaveType : LeaveType) :
    Int :=
  match st.getBalance employeeId leaveType with
  | none => 0
  | some b => b.totalAllocated

end BalanceStore

/-! ## §2  Routes -/

/-- Body of the internal deduction: the bounds of the schema are fields, so
an unchecked body cannot reach the store. -/
structure DeductRequest where
  employeeId : String
  leaveType : LeaveType
  days : Int
  employeeId_minLength : 1 ≤ employeeId.length
  days_gt : 0 < days
deriving DecidableEq

def DeductRequest.parse (employeeId : String) (leaveType : LeaveType)
    (days : Int) : Except HTTPException DeductRequest :=
  if h : 1 ≤ employeeId.length ∧ 0 < days then
    .ok ⟨employeeId, leaveType, days, h.1, h.2⟩
  else
    .error (unprocessable
      ((if 1 ≤ employeeId.length then [] else [["body", "employee_id"]]) ++
       (if 0 < days then [] else [["body", "days"]])))

structure DeductResponse where
  employeeId : String
  leaveType : LeaveType
  totalAllocated : Int
  used : Int
  remaining : Int
deriving DecidableEq, Repr

/-- `deduct_balance`: a missing record is a 404, an overdraw a 409. -/
def BalanceStore.deductBalance (st : BalanceStore) (employeeId : String)
    (leaveType : LeaveType) (days : Int) :
    Response DeductResponse × BalanceStore :=
  match DeductRequest.parse employeeId leaveType days with
  | .error e => (.error e, st)
  | .ok payload =>
      match st.applyDeduction payload.employeeId payload.leaveType
        payload.days with
      | .error (.lookupError msg) =>
          (.error (notFound msg), st)
      | .error (.valueError msg) =>
          (.error (conflict msg), st)
      | .ok (balance, st') =>
          (.ok { employeeId := balance.employeeId
                 leaveType := balance.leaveType
                 totalAllocated := balance.totalAllocated
                 used := balance.used
                 remaining := balance.remaining }, st')

structure BalanceItem where
  leaveType : LeaveType
  totalAllocated : Int
  used : Int
  remaining : Int
deriving DecidableEq, Repr

def BalanceItem.fromModel (b : LeaveBalance) : BalanceItem :=
  ⟨b.leaveType, b.totalAllocated, b.used, b.remaining⟩

structure EmployeeBalancesResponse where
  employeeId : String
  balances : List BalanceItem
deriving DecidableEq, Repr

namespace BalanceStore

/-- `_balances_response` -/
def balancesResponse (st : BalanceStore) (employeeId : String) :
    EmployeeBalancesResponse :=
  { employeeId := employeeId
    balances :=
      (st.getBalancesForEmployee employeeId).map BalanceItem.fromModel }

/-- `my_balances` -/
def myBalances (st : BalanceStore) (caller : CallerIdentity) :
    Response EmployeeBalancesResponse :=
  .ok (st.balancesResponse caller.userId)

/-- `employee_balances`: self, or a manager reading a direct report. -/
def employeeBalances (st : BalanceStore) (chart : OrgChart)
    (caller : CallerIdentity) (employeeId : String) :
    Response EmployeeBalancesResponse :=
  if caller.userId ≠ employeeId ∧
      ¬ (caller.role = .MANAGER ∧
        chart.isTeamMember caller.userId employeeId = true) then
    .error (forbidden "Not authorized to view this employee's balances")
  else .ok (st.balancesResponse employeeId)

/-! ## §3  Well-formed stores

Each record is indexed under its own employee and type, and the index names
nothing else. Stores are only ever built by `add_balance` with a fresh id
(`seed_balances`), which is where the invariant comes from. -/

structure WF (st : BalanceStore) : Prop where
  indexed : ∀ k id, st.employeeLeavetypeIndex.get? k = some id →
    ∃ b, st.balancesStore.get? id = some b ∧ (b.employeeId, b.leaveType) = k
  recorded : ∀ id b, st.balancesStore.get? id = some b →
    st.employeeLeavetypeIndex.get? (b.employeeId, b.leaveType) = some id

/-- The stores that `add_balance` calls with fresh ids build. -/
inductive Built : BalanceStore → Prop where
  | empty : Built BalanceStore.empty
  | add {st st' : BalanceStore} {b : LeaveBalance} :
      Built st → b.balanceId ∉ st.balancesStore.keys →
      st.addBalance b = .ok st' → Built st'

theorem addBalance_eq_ok {st st' : BalanceStore} {b : LeaveBalance}
    (h : st.addBalance b = .ok st') :
    (b.employeeId, b.leaveType) ∉ st.employeeLeavetypeIndex.keys ∧
    st'.balancesStore = st.balancesStore.set b.balanceId b ∧
    st'.employeeLeavetypeIndex =
      st.employeeLeavetypeIndex.set (b.employeeId, b.leaveType) b.balanceId := by
  simp only [addBalance] at h
  split at h
  · cases h
  · rename_i hk
    cases h
    exact ⟨hk, rfl, rfl⟩

theorem addBalance_wf {st st' : BalanceStore} {b : LeaveBalance} (hwf : st.WF)
    (hid : b.balanceId ∉ st.balancesStore.keys)
    (h : st.addBalance b = .ok st') : st'.WF := by
  obtain ⟨hk, hs, hi⟩ := addBalance_eq_ok h
  constructor
  · intro k id hget
    rw [hi, Dict.get?_set] at hget
    rw [hs]
    by_cases hkk : k = (b.employeeId, b.leaveType)
    · rw [if_pos hkk] at hget
      cases hget
      exact ⟨b, Dict.get?_set_self _ _ _, hkk.symm⟩
    · rw [if_neg hkk] at hget
      obtain ⟨b', hb', hkey⟩ := hwf.indexed k id hget
      have hne : id ≠ b.balanceId := by
        rintro rfl
        exact hid (Dict.mem_keys_of_get? hb')
      exact ⟨b', by rw [Dict.get?_set_ne _ _ hne]; exact hb', hkey⟩
  · intro id b' hget
    rw [hs, Dict.get?_set] at hget
    rw [hi]
    by_cases hidd : id = b.balanceId
    · rw [if_pos hidd] at hget
      cases hget
      rw [hidd]
      exact Dict.get?_set_self _ _ _
    · rw [if_neg hidd] at hget
      have hr := hwf.recorded id b' hget
      have hne : (b'.employeeId, b'.leaveType) ≠ (b.employeeId, b.leaveType) := by
        intro he
        rw [he] at hr
        exact hk (Dict.mem_keys_of_get? hr)
      rw [Dict.get?_set_ne _ _ hne]
      exact hr

theorem Built.wf {st : BalanceStore} (h : Built st) : st.WF := by
  induction h with
  | empty =>
      constructor
      · intro _ _ h
        cases h
      · intro _ _ h
        cases h
  | add _ hid hadd ih => exact addBalance_wf ih hid hadd

/-! ## §4  What a deduction does -/

/-- The deduction is accepted: the body passes its schema, the record exists
and has enough days left. -/
def Deductible (st : BalanceStore) (employeeId : String)
    (leaveType : LeaveType) (days : Int) : Prop :=
  (1 ≤ employeeId.length ∧ 0 < days) ∧
    ∃ b, st.getBalance employeeId leaveType = some b ∧ days ≤ b.remaining

instance (st : BalanceStore) (e : String) (t : LeaveType) (days : Int) :
    Decidable (st.Deductible e t days) :=
  inferInstanceAs (Decidable (_ ∧ ∃ b, st.getBalance e t = some b ∧ _))

/-- **Deduction, inverted**: refused with the store as it was, or accepted
with `days` more used on the one addressed record. -/
theorem deductBalance_cases (st : BalanceStore) (e : String) (t : LeaveType)
    (days : Int) :
    (¬ st.Deductible e t days ∧ ∃ err, st.deductBalance e t days = (.error err, st)) ∨
    (st.Deductible e t days ∧ ∃ b r, st.getBalance e t = some b ∧
      st.deductBalance e t days =
        (.ok r, st.putBalance e t { b with used := b.used + days })) := by
  by_cases hbody : 1 ≤ e.length ∧ 0 < days
  · have hparse : DeductRequest.parse e t days =
        .ok ⟨e, t, days, hbody.1, hbody.2⟩ := by
      rw [DeductRequest.parse, dif_pos hbody]
    have hpos : ¬ days ≤ 0 := by omega
    simp only [deductBalance, hparse, applyDeduction, Deductible, hbody]
    cases hg : st.getBalance e t with
    | none => exact Or.inl ⟨by simp, _, rfl⟩
    | some b =>
        simp only [if_neg hpos]
        by_cases hover : days > b.remaining
        · rw [if_pos hover]
          refine Or.inl ⟨?_, _, rfl⟩
          rintro ⟨-, b', hb', hle⟩
          cases hb'
          omega
        · rw [if_neg hover]
          exact Or.inr ⟨⟨⟨trivial, trivial⟩, b, rfl, by omega⟩, b, _, rfl, rfl⟩
  · refine Or.inl ⟨fun h => hbody h.1, ?_⟩
    simp only [deductBalance, DeductRequest.parse, dif_neg hbody]
    exact ⟨_, rfl⟩

/-- In a well-formed store, writing back one record is seen under its own key
and under no other. -/
theorem getBalance_putBalance {st : BalanceStore} (hwf : st.WF) {e e' : String}
    {t t' : LeaveType} {b b' : LeaveBalance} (h : st.getBalance e t = some b) :
    (st.putBalance e t b').getBalance e' t' =
      if (e', t') = (e, t) then some b' else st.getBalance e' t' := by
  simp only [getBalance] at h
  cases hi : st.employeeLeavetypeIndex.get? (e, t) with
  | none => rw [hi] at h; cases h
  | some id =>
      simp only [putBalance, getBalance, hi]
      cases hi' : st.employeeLeavetypeIndex.get? (e', t') with
      | none =>
          rw [if_neg]
          intro he
          rw [he, hi] at hi'
          cases hi'
      | some id' =>
          simp only [Dict.get?_set]
          by_cases he : (e', t') = (e, t)
          · rw [he, hi] at hi'
            cases hi'
            rw [if_pos rfl, if_pos he]
          · rw [if_neg he, if_neg]
            rintro rfl
            obtain ⟨c, hc, hk⟩ := hwf.indexed _ _ hi
            obtain ⟨c', hc', hk'⟩ := hwf.indexed _ _ hi'
            rw [hc] at hc'
            cases hc'
            exact he (hk'.symm.trans hk)

theorem putBalance_wf {st : BalanceStore} (hwf : st.WF) {e : String}
    {t : LeaveType} {b : LeaveBalance} (h : st.getBalance e t = some b)
    (n : Int) : (st.putBalance e t { b with used := n }).WF := by
  simp only [getBalance] at h
  cases hi : st.employeeLeavetypeIndex.get? (e, t) with
  | none => rw [hi] at h; cases h
  | some id =>
      rw [hi] at h
      simp only [putBalance, hi]
      constructor
      · intro k id' hk
        obtain ⟨c, hc, hkey⟩ := hwf.indexed k id' hk
        simp only [Dict.get?_set]
        by_cases hid : id' = id
        · subst hid
          have hcb : c = b := Option.some.inj (hc.symm.trans h)
          subst hcb
          exact ⟨_, if_pos rfl, hkey⟩
        · exact ⟨c, by rw [if_neg hid]; exact hc, hkey⟩
      · intro id' c hc
        simp only [Dict.get?_set] at hc
        by_cases hid : id' = id
        · rw [if_pos hid] at hc
          cases hc
          rw [hid]
          exact hwf.recorded id b h
        · rw [if_neg hid] at hc
          exact hwf.recorded id' c hc

/-- The deduction route keeps the store well-formed. -/
theorem deductBalance_wf {st : BalanceStore} (hwf : st.WF) (e : String)
    (t : LeaveType) (days : Int) : (st.deductBalance e t days).2.WF := by
  rcases deductBalance_cases st e t days with ⟨-, err, h⟩ | ⟨-, b, r, hb, h⟩
  · rw [h]
    exact hwf
  · rw [h]
    exact putBalance_wf hwf hb _

/-- **The effect of a deduction on `used`**: the days, if it is accepted, on
the addressed key; nothing anywhere else. -/
theorem usedOf_deductBalance {st : BalanceStore} (hwf : st.WF) (e e' : String)
    (t t' : LeaveType) (days : Int) :
    (st.deductBalance e t days).2.usedOf e' t' =
      st.usedOf e' t' +
        if st.Deductible e t days ∧ (e', t') = (e, t) then days else 0 := by
  rcases deductBalance_cases st e t days with ⟨hn, err, h⟩ | ⟨hd, b, r, hb, h⟩
  · simp [h, hn]
  · simp only [h, usedOf, getBalance_putBalance hwf hb, hd, true_and]
    by_cases hk : (e', t') = (e, t)
    · obtain ⟨rfl, rfl⟩ := Prod.mk.inj hk
      simp [hb]
    · simp [hk]

theorem totalOf_deductBalance {st : BalanceStore} (hwf : st.WF) (e e' : String)
    (t t' : LeaveType) (days : Int) :
    (st.deductBalance e t days).2.totalOf e' t' = st.totalOf e' t' := by
  rcases deductBalance_cases st e t days with ⟨-, err, h⟩ | ⟨-, b, r, hb, h⟩
  · rw [h]
  · simp only [h, totalOf, getBalance_putBalance hwf hb]
    by_cases hk : (e', t') = (e, t)
    · obtain ⟨rfl, rfl⟩ := Prod.mk.inj hk
      simp [hb]
    · rw [if_neg hk]

/-- An accepted deduction stays within the allocation. -/
theorem usedOf_le_totalOf_deductBalance {st : BalanceStore} (hwf : st.WF)
    (h : ∀ e t, st.usedOf e t ≤ st.totalOf e t) (e e' : String)
    (t t' : LeaveType) (days : Int) :
    (st.deductBalance e t days).2.usedOf e' t' ≤
      (st.deductBalance e t days).2.totalOf e' t' := by
  rw [usedOf_deductBalance hwf, totalOf_deductBalance hwf]
  have hle := h e' t'
  split
  · rename_i hd
    obtain ⟨⟨-, b, hb, hrem⟩, hk⟩ := hd
    obtain ⟨rfl, rfl⟩ := Prod.mk.inj hk
    simp only [usedOf, totalOf, hb] at hle ⊢
    simp only [LeaveBalance.remaining] at hrem
    omega
  · omega

end BalanceStore

/-! ## §5  Seeding (`seed.py`) -/

def DEFAULT_LEAVE_ALLOCATIONS : List (LeaveType × Int) :=
  [(.CASUAL, 12), (.SICK, 10), (.PRIVILEGE, 15)]

/-- `init_balances_for_employee`, with the ids that `uuid4` gives. -/
def initBalancesForEmployee (uuid : String → LeaveType → String)
    (employeeId : String) : List LeaveBalance :=
  DEFAULT_LEAVE_ALLOCATIONS.map fun (leaveType, allocation) =>
    { balanceId := uuid employeeId leaveType
      employeeId := employeeId
      leaveType := leaveType
      totalAllocated := allocation
      used := 0 }

/-- The records `seed_balances` adds, one employee after the other. -/
def seedRecords (uuid : String → LeaveType → String) (chart : OrgChart) :
    List LeaveBalance :=
  (chart.filter fun user => user.role = .EMPLOYEE).flatMap fun employee =>
    initBalancesForEmployee uuid employee.userId

/-- `seed_balances`, on the empty store. -/
def seedBalances (uuid : String → LeaveType → String) (chart : OrgChart) :
    Except StoreError BalanceStore :=
  (seedRecords uuid chart).foldlM BalanceStore.addBalance BalanceStore.empty

namespace BalanceStore

/-- Adding records with distinct fresh ids builds a store of these records. -/
theorem foldlM_addBalance : ∀ {bs : List LeaveBalance} {st st' : BalanceStore},
    Built st → (bs.map LeaveBalance.balanceId).Nodup →
    (∀ b ∈ bs, b.balanceId ∉ st.balancesStore.keys) →
    bs.foldlM addBalance st = .ok st' →
    Built st' ∧ ∀ id b, st'.balancesStore.get? id = some b →
      b ∈ bs ∨ st.balancesStore.get? id = some b := by
  intro bs
  induction bs with
  | nil =>
      intro st st' hb _ _ h
      cases h
      exact ⟨hb, fun id b hget => Or.inr hget⟩
  | cons b bs ih =>
      intro st st' hb hnd hfresh h
      obtain ⟨hhead, hnd'⟩ := List.nodup_cons.mp hnd
      rw [List.foldlM_cons] at h
      cases hadd : st.addBalance b with
      | error e =>
          rw [hadd] at h
          cases h
      | ok st₁ =>
          rw [hadd] at h
          have hid := hfresh b List.mem_cons_self
          obtain ⟨-, hstore, -⟩ := addBalance_eq_ok hadd
          have hfresh' : ∀ c ∈ bs, c.balanceId ∉ st₁.balancesStore.keys := by
            intro c hc
            rw [hstore, Dict.mem_keys_set]
            rintro (he | hmem)
            · exact hhead (he ▸ List.mem_map_of_mem hc)
            · exact hfresh c (List.mem_cons_of_mem _ hc) hmem
          obtain ⟨hb', hrec⟩ := ih (Built.add hb hid hadd) hnd' hfresh' h
          refine ⟨hb', fun id c hget => ?_⟩
          rcases hrec id c hget with hmem | hold
          · exact Or.inl (List.mem_cons_of_mem _ hmem)
          · rw [hstore, Dict.get?_set] at hold
            split at hold
            · cases hold
              exact Or.inl List.mem_cons_self
            · exact Or.inr hold

/-- **The seeded store** is well-formed, and nothing of it is used yet. -/
theorem seedBalances_spec {uuid : String → LeaveType → String}
    {chart : OrgChart} {st : BalanceStore}
    (hnd : ((seedRecords uuid chart).map LeaveBalance.balanceId).Nodup)
    (h : seedBalances uuid chart = .ok st) :
    st.WF ∧ ∀ e t, st.usedOf e t = 0 ∧ 0 ≤ st.totalOf e t := by
  obtain ⟨hb, hrec⟩ := foldlM_addBalance Built.empty hnd
    (fun b _ hmem => by cases hmem) h
  refine ⟨hb.wf, fun e t => ?_⟩
  cases hg : st.getBalance e t with
  | none => simp [usedOf, totalOf, hg]
  | some b =>
      have hmem : b ∈ seedRecords uuid chart := by
        unfold getBalance at hg
        split at hg
        · cases hg
        · rcases hrec _ b hg with hmem | hold
          · exact hmem
          · cases hold
      obtain ⟨user, -, hinit⟩ := List.mem_flatMap.mp hmem
      obtain ⟨⟨t', a⟩, ha, rfl⟩ := List.mem_map.mp hinit
      have hpos : 0 ≤ a := by
        have hall : ∀ p ∈ DEFAULT_LEAVE_ALLOCATIONS, 0 ≤ p.2 := by decide
        exact hall _ ha
      simp [usedOf, totalOf, hg, hpos]

end BalanceStore

end Elms
