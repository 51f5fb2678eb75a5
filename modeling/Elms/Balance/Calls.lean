import Elms.Balance.Store
import Elms.Lib.Transition
import Mathlib.Algebra.Ring.Int.Defs

/-!
# The balance ledger

The two functions of `leave_balance_service/store.py` that write, statement by
statement: each raises before it touches a dictionary or not at all
(`addBalanceM_run`, `applyDeductionM_run`). Over any sequence of calls the
composite index and the records stay tied together, and `used` is the running
sum of the accepted deductions (`balance_ledger`).
-/

namespace Elms

open Transition

/-! ## §1  The writers, statement by statement -/

/-- A store function: it may raise, and keeps what it wrote before it did. -/
abbrev StoreM := ExceptT StoreError (StateM BalanceStore)

namespace BalanceStore

/-- `add_balance` -/
def addBalanceM (balance : LeaveBalance) : StoreM Unit := do
  let key := (balance.employeeId, balance.leaveType)
  if key ∈ (← get).employeeLeavetypeIndex.keys then
    throw (.valueError (s!"Balance for employee {balance.employeeId} and " ++
      s!"leave type {balance.leaveType.value} already exists"))
  modify fun st =>
    { st with balancesStore := st.balancesStore.set balance.balanceId balance }
  modify fun st =>
    { st with employeeLeavetypeIndex :=
        st.employeeLeavetypeIndex.set key balance.balanceId }

/-- `apply_deduction` -/
def applyDeductionM (employeeId : String) (leaveType : LeaveType)
    (days : Int) : StoreM LeaveBalance := do
  let some balance := (← get).getBalance employeeId leaveType
    | throw (.lookupError
        s!"No {leaveType.value} balance for employee {employeeId}")
  if days ≤ 0 then
    throw (.valueError "Deduction must be a positive number of days")
  if days > balance.remaining then
    throw (.valueError (s!"Insufficient {leaveType.value} balance: " ++
      s!"requested {days}, remaining {balance.remaining}"))
  let balance := { balance with used := balance.used + days }
  modify fun st => st.putBalance employeeId leaveType balance
  return balance

/-! What running one statement does, for the proofs below. -/

variable {α : Type} (st : BalanceStore)

theorem run_get_bind (f : BalanceStore → StoreM α) :
    (get >>= f : StoreM α).run.run st = (f st).run.run st := rfl

theorem run_modify_bind (g : BalanceStore → BalanceStore)
    (f : PUnit → StoreM α) :
    (modify g >>= f : StoreM α).run.run st = (f ⟨⟩).run.run (g st) := rfl

theorem run_modify (g : BalanceStore → BalanceStore) :
    (modify g : StoreM PUnit).run.run st = (.ok ⟨⟩, g st) := rfl

theorem run_throw (err : StoreError) :
    (throw err : StoreM α).run.run st = (.error err, st) := rfl

theorem run_throw_bind {β : Type} (err : StoreError) (f : β → StoreM α) :
    (throw err >>= f : StoreM α).run.run st = (.error err, st) := rfl

theorem run_pure (a : α) :
    (pure a : StoreM α).run.run st = (.ok a, st) := rfl

theorem addBalanceM_run (b : LeaveBalance) :
    (addBalanceM b).run.run st =
      match st.addBalance b with
      | .error err => (.error err, st)
      | .ok st' => (.ok (), st') := by
  simp only [addBalanceM, addBalance, run_get_bind]
  by_cases h : (b.employeeId, b.leaveType) ∈ st.employeeLeavetypeIndex.keys
  · simp only [if_pos h, run_throw_bind]
  · simp only [if_neg h, run_modify_bind, run_modify]

theorem applyDeductionM_run (e : String) (t : LeaveType)
    (days : Int) :
    (applyDeductionM e t days).run.run st =
      match st.applyDeduction e t days with
      | .error err => (.error err, st)
      | .ok (b, st') => (.ok b, st') := by
  simp only [applyDeductionM, applyDeduction, run_get_bind]
  cases hg : st.getBalance e t with
  | none => simp only [run_throw]
  | some b =>
      by_cases hpos : days ≤ 0
      · simp only [if_pos hpos, run_throw_bind]
      · by_cases hover : days > b.remaining
        · simp only [if_neg hpos, if_pos hover, run_throw_bind]
        · simp only [if_neg hpos, if_neg hover, run_modify_bind, run_pure]

/-! ## §2  Sequences of calls -/

inductive StoreCall where
  | addBalance (balance : LeaveBalance)
  | applyDeduction (employeeId : String) (leaveType : LeaveType) (days : Int)
deriving DecidableEq

/-- One call: what it returns or raises, and the store it leaves. -/
def exec (st : BalanceStore) :
    StoreCall → Except StoreError (Option LeaveBalance) × BalanceStore
  | .addBalance balance => ((addBalanceM balance).run.run st).map
      (Except.map fun _ => none) id
  | .applyDeduction employeeId leaveType days =>
      ((applyDeductionM employeeId leaveType days).run.run st).map
        (Except.map some) id

/-- A record comes with an id of its own, from `uuid4`. -/
def FreshId (st : BalanceStore) : StoreCall → Prop
  | .addBalance balance => balance.balanceId ∉ st.balancesStore.keys
  | .applyDeduction _ _ _ => True

instance (st : BalanceStore) : ∀ c, Decidable (st.FreshId c)
  | .addBalance balance =>
      inferInstanceAs (Decidable (balance.balanceId ∉ st.balancesStore.keys))
  | .applyDeduction _ _ _ => inferInstanceAs (Decidable True)

def step (st : BalanceStore) (c : StoreCall) : Option BalanceStore :=
  if st.FreshId c then some (st.exec c).2 else none

variable {st st' : BalanceStore} {c : StoreCall}

/-- **Call inversion.** A call raises and changes nothing, or inserts a record
under a new key, or deducts from one record that has the days. -/
theorem exec_cases (st : BalanceStore) (c : StoreCall) :
    (∃ err, st.exec c = (.error err, st)) ∨
    (∃ b st', c = .addBalance b ∧ st.addBalance b = .ok st' ∧
      st.exec c = (.ok none, st')) ∨
    (∃ e t days b, c = .applyDeduction e t days ∧
      st.getBalance e t = some b ∧ 1 ≤ days ∧ days ≤ b.remaining ∧
      st.exec c = (.ok (some { b with used := b.used + days }),
        st.putBalance e t { b with used := b.used + days })) := by
  cases c with
  | addBalance b =>
      simp only [exec, addBalanceM_run]
      cases h : st.addBalance b with
      | error err => exact Or.inl ⟨err, rfl⟩
      | ok st' => exact Or.inr (Or.inl ⟨b, st', rfl, h, rfl⟩)
  | applyDeduction e t days =>
      simp only [exec, applyDeductionM_run, applyDeduction]
      cases hg : st.getBalance e t with
      | none => exact Or.inl ⟨_, rfl⟩
      | some b =>
          by_cases hpos : days ≤ 0
          · simp only [if_pos hpos]
            exact Or.inl ⟨_, rfl⟩
          · by_cases hover : days > b.remaining
            · simp only [if_neg hpos, if_pos hover]
              exact Or.inl ⟨_, rfl⟩
            · simp only [if_neg hpos, if_neg hover]
              exact Or.inr (Or.inr ⟨e, t, days, b, rfl, hg, by omega,
                by omega, rfl⟩)

theorem step_eq_some_iff :
    st.step c = some st' ↔ st.FreshId c ∧ (st.exec c).2 = st' := by
  rw [step]
  split
  · rename_i h
    rw [Option.some.injEq]
    exact ⟨fun he => ⟨h, he⟩, fun he => he.2⟩
  · rename_i h
    constructor
    · intro he
      cases he
    · exact fun he => absurd he.1 h

theorem wf_step (hwf : st.WF) (h : st.step c = some st') : st'.WF := by
  obtain ⟨hfresh, rfl⟩ := step_eq_some_iff.mp h
  rcases exec_cases st c with ⟨err, he⟩ | ⟨b, st', rfl, hadd, he⟩ |
    ⟨e, t, days, b, rfl, hb, -, -, he⟩
  · rw [he]
    exact hwf
  · rw [he]
    exact addBalance_wf hwf hfresh hadd
  · rw [he]
    exact putBalance_wf hwf hb _

theorem empty_wf : empty.WF := Built.empty.wf

/-- The stores that calls to the two writers lead to. -/
def Reachable (st : BalanceStore) : Prop := Reaches step empty st

theorem Reachable.wf (h : Reachable st) : st.WF :=
  invariant (fun _ _ _ => wf_step) empty_wf h

/-! ## §3  Records and lookups -/

/-- In a well-formed store the index finds every record under its own key. -/
theorem getBalance_of_record (hwf : st.WF) {id : String} {b : LeaveBalance}
    (h : st.balancesStore.get? id = some b) :
    st.getBalance b.employeeId b.leaveType = some b := by
  unfold getBalance
  rw [hwf.recorded id b h]
  exact h

/-- What the index finds is a record of that employee and type, and writing it
back changes the entry it was found in. -/
theorem record_of_getBalance (hwf : st.WF) {e : String} {t : LeaveType}
    {b : LeaveBalance} (h : st.getBalance e t = some b) :
    b.employeeId = e ∧ b.leaveType = t ∧ ∃ id,
      st.balancesStore.get? id = some b ∧ ∀ b', st.putBalance e t b' =
        { st with balancesStore := st.balancesStore.set id b' } := by
  unfold getBalance at h
  cases hi : st.employeeLeavetypeIndex.get? (e, t) with
  | none =>
      rw [hi] at h
      cases h
  | some id =>
      rw [hi] at h
      obtain ⟨c, hc, hkey⟩ := hwf.indexed _ _ hi
      have hcb : c = b := Option.some.inj (hc.symm.trans h)
      rw [hcb, Prod.mk.injEq] at hkey
      refine ⟨hkey.1, hkey.2, id, h, fun b' => ?_⟩
      simp only [putBalance, hi]

/-- An employee has at most one record of each type. -/
theorem record_unique (hwf : st.WF) {id id' : String} {b b' : LeaveBalance}
    (h : st.balancesStore.get? id = some b)
    (h' : st.balancesStore.get? id' = some b')
    (he : b.employeeId = b'.employeeId) (ht : b.leaveType = b'.leaveType) :
    id = id' ∧ b = b' := by
  have hid : id = id' := by
    have hi := hwf.recorded id b h
    rw [he, ht, hwf.recorded id' b' h'] at hi
    exact (Option.some.inj hi).symm
  rw [hid, h'] at h
  exact ⟨hid, (Option.some.inj h).symm⟩

theorem getBalance_addBalance (hwf : st.WF) {b : LeaveBalance}
    (hid : b.balanceId ∉ st.balancesStore.keys)
    (h : st.addBalance b = .ok st') (e : String) (t : LeaveType) :
    st'.getBalance e t =
      if (e, t) = (b.employeeId, b.leaveType) then some b
      else st.getBalance e t := by
  obtain ⟨-, hs, hi⟩ := addBalance_eq_ok h
  simp only [getBalance, hs, hi, Dict.get?_set]
  by_cases hk : (e, t) = (b.employeeId, b.leaveType)
  · rw [if_pos hk]
    simp only [if_true, if_pos hk]
  · rw [if_neg hk, if_neg hk]
    cases hg : st.employeeLeavetypeIndex.get? (e, t) with
    | none => rfl
    | some id =>
        have hne : id ≠ b.balanceId := by
          rintro rfl
          obtain ⟨c, hc, -⟩ := hwf.indexed _ _ hg
          exact hid (Dict.mem_keys_of_get? hc)
        simp only [if_neg hne]

/-- A key that is refused is one that the lookup already finds. -/
theorem getBalance_of_addBalance_error (hwf : st.WF) {b : LeaveBalance}
    {err : StoreError} (h : st.addBalance b = .error err) :
    (st.getBalance b.employeeId b.leaveType).isSome = true := by
  simp only [addBalance] at h
  split at h
  · rename_i hk
    obtain ⟨id, hget⟩ := Dict.exists_get?_of_mem_keys hk
    obtain ⟨b', hb', -⟩ := hwf.indexed _ _ hget
    simp only [getBalance, hget, hb', Option.isSome_some]
  · cases h

/-- A key that is accepted is one that the lookup did not find before. -/
theorem getBalance_of_addBalance_ok {b : LeaveBalance}
    (h : st.addBalance b = .ok st') :
    st.getBalance b.employeeId b.leaveType = none := by
  unfold getBalance
  rw [Dict.get?_eq_none_iff.mpr (addBalance_eq_ok h).1]

/-- A key that the lookup finds cannot be added a second time. -/
theorem exec_addBalance_of_getBalance {b : LeaveBalance}
    (h : (st.getBalance b.employeeId b.leaveType).isSome = true) :
    ∃ msg, st.exec (.addBalance b) = (.error (.valueError msg), st) := by
  simp only [exec, addBalanceM_run, addBalance]
  by_cases hk : (b.employeeId, b.leaveType) ∈ st.employeeLeavetypeIndex.keys
  · rw [if_pos hk]
    exact ⟨_, rfl⟩
  · unfold getBalance at h
    rw [Dict.get?_eq_none_iff.mpr hk] at h
    cases h

/-- A lookup finds a record after a call if it did before, or if the call
added one under that key. -/
theorem getBalance_isSome_step (hwf : st.WF) (h : st.step c = some st')
    (e : String) (t : LeaveType) :
    (st'.getBalance e t).isSome = true ↔
      (st.getBalance e t).isSome = true ∨ ∃ b, c = .addBalance b ∧
        b.employeeId = e ∧ b.leaveType = t := by
  obtain ⟨hfresh, rfl⟩ := step_eq_some_iff.mp h
  cases c with
  | addBalance b =>
      simp only [StoreCall.addBalance.injEq, exists_eq_left']
      simp only [exec, addBalanceM_run]
      cases hadd : st.addBalance b with
      | error err =>
          show (st.getBalance e t).isSome = true ↔ _
          refine ⟨Or.inl, ?_⟩
          rintro (h' | ⟨rfl, rfl⟩)
          · exact h'
          · exact getBalance_of_addBalance_error hwf hadd
      | ok st₁ =>
          show (st₁.getBalance e t).isSome = true ↔ _
          rw [getBalance_addBalance hwf hfresh hadd]
          by_cases hk : (e, t) = (b.employeeId, b.leaveType)
          · rw [if_pos hk]
            obtain ⟨rfl, rfl⟩ := Prod.mk.inj hk
            simp
          · rw [if_neg hk]
            refine ⟨Or.inl, ?_⟩
            rintro (h' | ⟨rfl, rfl⟩)
            · exact h'
            · exact absurd rfl hk
  | applyDeduction e' t' days =>
      simp only [reduceCtorEq, false_and, exists_false, or_false]
      rcases exec_cases st (.applyDeduction e' t' days) with ⟨err, he⟩ |
        ⟨b, st₁, hc, -⟩ | ⟨e₁, t₁, d₁, b, hc, hb, -, -, he⟩
      · rw [he]
      · cases hc
      · rw [he]
        show ((st.putBalance _ _ _).getBalance e t).isSome = true ↔ _
        rw [getBalance_putBalance hwf hb]
        split
        · rename_i hk
          obtain ⟨rfl, rfl⟩ := Prod.mk.inj hk
          simp [hb]
        · rfl

/-! ## §4  The running sum -/

/-- The days that a call deducts from the record of `e` and `t`, if it is an
accepted deduction on that key. -/
def acceptedBy (e : String) (t : LeaveType) (st : BalanceStore)
    (c : StoreCall) : List Int :=
  match c, (st.exec c).1 with
  | .applyDeduction e' t' days, .ok _ => if (e', t') = (e, t) then [days] else []
  | _, _ => []

/-- The days of the accepted deductions on one key, call by call. -/
def acceptedDays (e : String) (t : LeaveType) :
    BalanceStore → List StoreCall → List Int
  | _, [] => []
  | st, c :: cs => acceptedBy e t st c ++ acceptedDays e t (st.exec c).2 cs

/-- An added record starts unused, with an allocation that is not negative. -/
def StoreCall.StartsUnused : StoreCall → Prop
  | .addBalance b => b.used = 0 ∧ 0 ≤ b.totalAllocated
  | .applyDeduction _ _ _ => True

/-- Every record is within its allocation. -/
def Within (st : BalanceStore) : Prop :=
  ∀ e t b, st.getBalance e t = some b → 0 ≤ b.used ∧ b.used ≤ b.totalAllocated

/-- Adding an unused record leaves every `used` as it was. -/
theorem usedOf_addBalance (hwf : st.WF) {b : LeaveBalance}
    (hfresh : b.balanceId ∉ st.balancesStore.keys)
    (hadd : st.addBalance b = .ok st') (hunused : b.used = 0) (e : String)
    (t : LeaveType) : st'.usedOf e t = st.usedOf e t := by
  unfold usedOf
  rw [getBalance_addBalance hwf hfresh hadd]
  by_cases hk : (e, t) = (b.employeeId, b.leaveType)
  · -- the key is new, so there was no `used` before
    rw [if_pos hk]
    obtain ⟨rfl, rfl⟩ := Prod.mk.inj hk
    rw [getBalance_of_addBalance_ok hadd]
    exact hunused
  · rw [if_neg hk]

/-- A deduction adds its days to the one record it is on. -/
theorem usedOf_putBalance_add (hwf : st.WF) {b : LeaveBalance} {e₁ : String}
    {t₁ : LeaveType} (hb : st.getBalance e₁ t₁ = some b) (days : Int) (e : String)
    (t : LeaveType) :
    (st.putBalance e₁ t₁ { b with used := b.used + days }).usedOf e t =
      st.usedOf e t + if (e₁, t₁) = (e, t) then days else 0 := by
  unfold usedOf
  rw [getBalance_putBalance hwf hb]
  by_cases hk : (e₁, t₁) = (e, t)
  · obtain ⟨rfl, rfl⟩ := Prod.mk.inj hk
    rw [if_pos rfl, if_pos rfl, hb]
  · rw [if_neg hk, if_neg (Ne.symm hk), add_zero]

/-- **Step lemma**: `used` grows by the days of an accepted deduction, by at
least one day, and stays within the allocation. -/
theorem ledger_step (hwf : st.WF) (hin : st.Within) (hc : c.StartsUnused)
    (h : st.step c = some st') :
    st'.Within ∧ ∀ e t, (∀ d ∈ acceptedBy e t st c, 1 ≤ d) ∧
      st'.usedOf e t = st.usedOf e t + (acceptedBy e t st c).sum := by
  obtain ⟨hfresh, rfl⟩ := step_eq_some_iff.mp h
  rcases exec_cases st c with ⟨err, he⟩ | ⟨b, st₁, rfl, hadd, he⟩ |
    ⟨e₁, t₁, days, b, rfl, hb, hpos, hle, he⟩
  · -- a call that raised deducted nothing
    have hnone : ∀ e t, acceptedBy e t st c = [] := by
      intro e t
      cases c <;> simp only [acceptedBy, he]
    rw [he]
    refine ⟨hin, fun e t => ?_⟩
    rw [hnone]
    simp
  · rw [he]
    refine ⟨?_, fun e t => ⟨?_, ?_⟩⟩
    · intro e t b' hb'
      rw [getBalance_addBalance hwf hfresh hadd] at hb'
      split at hb'
      · cases hb'
        rw [hc.1]
        exact ⟨le_rfl, hc.2⟩
      · exact hin e t b' hb'
    · intro d hd
      cases hd
    · show st₁.usedOf e t = st.usedOf e t + 0
      rw [add_zero, usedOf_addBalance hwf hfresh hadd hc.1]
  · have haccepted : ∀ e t, acceptedBy e t st (.applyDeduction e₁ t₁ days) =
        if (e₁, t₁) = (e, t) then [days] else [] := by
      intro e t
      unfold acceptedBy
      rw [he]
    rw [he]
    refine ⟨?_, fun e t => ⟨?_, ?_⟩⟩
    · intro e t b' hb'
      rw [getBalance_putBalance hwf hb] at hb'
      split at hb'
      · -- the check before the deduction is what keeps it within
        cases hb'
        have hwithin := hin _ _ b hb
        simp only [LeaveBalance.remaining] at hle
        show 0 ≤ b.used + days ∧ b.used + days ≤ b.totalAllocated
        omega
      · exact hin e t b' hb'
    · intro d hd
      rw [haccepted] at hd
      split at hd
      · rw [List.mem_singleton.mp hd]
        exact hpos
      · cases hd
    · rw [haccepted, usedOf_putBalance_add hwf hb]
      split <;> simp

/-- **Run lemma**: the same over any sequence of calls. -/
theorem ledger_run : ∀ {calls : List StoreCall} {st st' : BalanceStore},
    st.WF → st.Within → (∀ c ∈ calls, c.StartsUnused) →
    run step st calls = some st' →
    st'.Within ∧ ∀ e t, (∀ d ∈ acceptedDays e t st calls, 1 ≤ d) ∧
      st'.usedOf e t = st.usedOf e t + (acceptedDays e t st calls).sum := by
  intro calls
  induction calls with
  | nil =>
      intro st st' _ hin _ h
      cases h
      simp [acceptedDays, hin]
  | cons c calls ih =>
      intro st st' hwf hin hnew h
      obtain ⟨st₁, hc, h'⟩ := run_cons_iff.mp h
      have hunused := hnew c List.mem_cons_self
      obtain ⟨hin₁, hstep⟩ := ledger_step hwf hin hunused hc
      obtain ⟨hin', hrun⟩ := ih (wf_step hwf hc) hin₁
        (fun c' hc' => hnew c' (List.mem_cons_of_mem _ hc')) h'
      rw [← (step_eq_some_iff.mp hc).2] at hrun hstep
      refine ⟨hin', fun e t => ⟨?_, ?_⟩⟩
      · intro d hd
        rcases List.mem_append.mp hd with hd | hd
        · exact (hstep e t).1 d hd
        · exact (hrun e t).1 d hd
      · rw [(hrun e t).2, (hstep e t).2, acceptedDays, List.sum_append, add_assoc]

/-- A lookup finds a record exactly if a call of the sequence added one. -/
theorem getBalance_isSome_run {e : String} {t : LeaveType} :
    ∀ {calls : List StoreCall} {st st' : BalanceStore}, st.WF →
    run step st calls = some st' →
    ((st'.getBalance e t).isSome = true ↔ (st.getBalance e t).isSome = true ∨
      ∃ b, .addBalance b ∈ calls ∧ b.employeeId = e ∧ b.leaveType = t) := by
  intro calls
  induction calls with
  | nil =>
      intro st st' _ h
      cases h
      simp
  | cons c calls ih =>
      intro st st' hwf h
      obtain ⟨st₁, hc, h'⟩ := run_cons_iff.mp h
      rw [ih (wf_step hwf hc) h', getBalance_isSome_step hwf hc, or_assoc]
      refine or_congr Iff.rfl ?_
      constructor
      · rintro (⟨b, rfl, hk⟩ | ⟨b, hb, hk⟩)
        · exact ⟨b, List.mem_cons_self, hk⟩
        · exact ⟨b, List.mem_cons_of_mem _ hb, hk⟩
      · rintro ⟨b, hb, hk⟩
        rcases List.mem_cons.mp hb with rfl | hb
        · exact Or.inl ⟨b, rfl, hk⟩
        · exact Or.inr ⟨b, hb, hk⟩

/-! ## §5  The ledger -/

/-- The store after an accepted deduction: `used` of one record has grown. -/
def DeductedFrom (st st' : BalanceStore) (e : String) (t : LeaveType)
    (days : Int) : Prop :=
  ∃ id b, st.balancesStore.get? id = some b ∧ b.employeeId = e ∧
    b.leaveType = t ∧
    st' = { st with balancesStore :=
              st.balancesStore.set id { b with used := b.used + days } }

theorem deductedFrom_exec (hwf : st.WF) {e : String} {t : LeaveType}
    {days : Int} {out : Option LeaveBalance}
    (h : st.exec (.applyDeduction e t days) = (.ok out, st')) :
    st.DeductedFrom st' e t days := by
  rcases exec_cases st (.applyDeduction e t days) with ⟨err, he⟩ |
    ⟨b, st₁, hc, -⟩ | ⟨e₁, t₁, d₁, b, hc, hb, -, -, he⟩
  · rw [he] at h
    cases h
  · cases hc
  · cases hc
    rw [he] at h
    cases h
    obtain ⟨hemp, htype, id, hid, hput⟩ := record_of_getBalance hwf hb
    exact ⟨id, b, hid, hemp, htype, hput _⟩

/-- No record is lost, and its `used` has not decreased. -/
def UsedGrows (st st' : BalanceStore) : Prop :=
  ∀ id b, st.balancesStore.get? id = some b →
    ∃ b', st'.balancesStore.get? id = some b' ∧ b.used ≤ b'.used

theorem usedGrows_step (hwf : st.WF) (h : st.step c = some st') :
    st.UsedGrows st' := by
  obtain ⟨hfresh, rfl⟩ := step_eq_some_iff.mp h
  rcases exec_cases st c with ⟨err, he⟩ | ⟨b, st₁, rfl, hadd, he⟩ |
    ⟨e₁, t₁, days, b, rfl, hb, hpos, -, he⟩
  · rw [he]
    exact fun id b hid => ⟨b, hid, le_rfl⟩
  · rw [he]
    intro id b' hid
    have hne : id ≠ b.balanceId := by
      rintro rfl
      exact hfresh (Dict.mem_keys_of_get? hid)
    obtain ⟨-, hs, -⟩ := addBalance_eq_ok hadd
    refine ⟨b', ?_, le_rfl⟩
    rw [hs, Dict.get?_set_ne _ _ hne]
    exact hid
  · obtain ⟨id₁, b₁, hid₁, -, -, hst⟩ := deductedFrom_exec hwf he
    rw [he, hst]
    intro id b' hid
    simp only [Dict.get?_set]
    by_cases hidd : id = id₁
    · rw [if_pos hidd]
      rw [hidd, hid₁] at hid
      cases hid
      refine ⟨_, rfl, ?_⟩
      show b₁.used ≤ b₁.used + days
      omega
    · rw [if_neg hidd]
      exact ⟨b', hid, le_rfl⟩

theorem usedGrows_reaches (hwf : st.WF) (h : Reaches step st st') :
    st.UsedGrows st' := by
  refine related (I := WF) (fun _ _ _ => wf_step)
    (fun s id b hid => ⟨b, hid, le_rfl⟩) ?_ (fun _ _ _ => usedGrows_step) hwf h
  intro s t u hst htu id b hid
  obtain ⟨b', hid', hle⟩ := hst id b hid
  obtain ⟨b'', hid'', hle'⟩ := htu id b' hid'
  exact ⟨b'', hid'', hle.trans hle'⟩

/-- **The balance ledger.** After any sequence of calls that adds unused
records with fresh ids and deducts whatever it likes: no two records have the
same employee and type, and the lookup finds one exactly if it was added; its
`used` is the sum of the accepted deductions on it, each of at least one day,
within the allocation, and never decreases afterwards; adding under a key that
was added before raises; a call that raises changes nothing, and an accepted
deduction changes `used` of one record. -/
theorem balance_ledger {calls : List StoreCall} {st : BalanceStore}
    (hnew : ∀ c ∈ calls, c.StartsUnused)
    (h : run step empty calls = some st) :
    (∀ id id' b b', st.balancesStore.get? id = some b →
      st.balancesStore.get? id' = some b' → b.employeeId = b'.employeeId →
      b.leaveType = b'.leaveType → id = id' ∧ b = b') ∧
    (∀ e t, ((∃ b, st.getBalance e t = some b) ↔
      ∃ b, .addBalance b ∈ calls ∧ b.employeeId = e ∧ b.leaveType = t)) ∧
    (∀ e t b, st.getBalance e t = some b ↔
      b.employeeId = e ∧ b.leaveType = t ∧
        ∃ id, st.balancesStore.get? id = some b) ∧
    (∀ e t b, st.getBalance e t = some b →
      0 ≤ b.used ∧ b.used ≤ b.totalAllocated ∧
      b.used = (acceptedDays e t empty calls).sum) ∧
    (∀ e t, ∀ d ∈ acceptedDays e t empty calls, 1 ≤ d) ∧
    (∀ calls' st', run step st calls' = some st' → st.UsedGrows st') ∧
    (∀ b b', .addBalance b ∈ calls → b'.employeeId = b.employeeId →
      b'.leaveType = b.leaveType →
      ∃ msg, st.exec (.addBalance b') = (.error (.valueError msg), st)) ∧
    (∀ c err st', st.exec c = (.error err, st') → st' = st) ∧
    ∀ e t days out st', st.exec (.applyDeduction e t days) = (.ok out, st') →
      st.DeductedFrom st' e t days := by
  have hwf : st.WF := Reachable.wf ⟨calls, h⟩
  have hempty : empty.Within := by
    intro e t b hb
    cases hb
  obtain ⟨hin, hsum⟩ := ledger_run empty_wf hempty hnew h
  have hfound : ∀ e t, (st.getBalance e t).isSome = true ↔
      ∃ b, .addBalance b ∈ calls ∧ b.employeeId = e ∧ b.leaveType = t := by
    intro e t
    rw [getBalance_isSome_run empty_wf h]
    exact or_iff_right fun hn => by cases hn
  refine ⟨fun _ _ _ _ => record_unique hwf, ?_, ?_, ?_, fun e t => (hsum e t).1,
    fun _ _ hr => usedGrows_reaches hwf ⟨_, hr⟩, ?_, ?_,
    fun _ _ _ _ _ => deductedFrom_exec hwf⟩
  · intro e t
    rw [← Option.isSome_iff_exists]
    exact hfound e t
  · intro e t b
    constructor
    · intro hb
      obtain ⟨hemp, htype, id, hid, -⟩ := record_of_getBalance hwf hb
      exact ⟨hemp, htype, id, hid⟩
    · rintro ⟨rfl, rfl, id, hid⟩
      exact getBalance_of_record hwf hid
  · intro e t b hb
    obtain ⟨hpos, hle⟩ := hin e t b hb
    have hused : b.used = st.usedOf e t := by
      unfold usedOf
      rw [hb]
    have hzero : empty.usedOf e t = 0 := rfl
    refine ⟨hpos, hle, ?_⟩
    rw [hused, (hsum e t).2, hzero, zero_add]
  · intro b b' hb he ht
    apply exec_addBalance_of_getBalance
    exact (hfound _ _).mpr ⟨b, hb, he.symm, ht.symm⟩
  · intro c err st' he
    rcases exec_cases st c with ⟨err', he'⟩ | ⟨b, st₁, -, -, he'⟩ |
      ⟨e, t, days, b, -, -, -, -, he'⟩
    · rw [he'] at he
      cases he
      rfl
    · rw [he'] at he
      cases he
    · rw [he'] at he
      cases he

/-- Two records, a key added twice, and deductions of either sign. -/
def someCalls : List StoreCall :=
  [.addBalance ⟨"balance-1", EMP1_ID, .CASUAL, 12, 0⟩,
   .addBalance ⟨"balance-2", EMP2_ID, .SICK, 10, 0⟩,
   .addBalance ⟨"balance-3", EMP1_ID, .CASUAL, 20, 0⟩,
   .applyDeduction EMP1_ID .CASUAL 5,
   .applyDeduction EMP1_ID .CASUAL (-2),
   .applyDeduction EMP1_ID .CASUAL 8,
   .applyDeduction EMP1_ID .SICK 1,
   .applyDeduction EMP1_ID .CASUAL 7]

theorem balance_ledger_someCalls :
    ∃ st, run step empty someCalls = some st ∧
      ∃ b, st.getBalance EMP1_ID .CASUAL = some b ∧ b.totalAllocated = 12 ∧
        b.used = (acceptedDays EMP1_ID .CASUAL empty someCalls).sum ∧
        acceptedDays EMP1_ID .CASUAL empty someCalls = [5, 7] ∧
        ∃ msg, st.exec (.addBalance ⟨"balance-4", EMP1_ID, .CASUAL, 30, 0⟩) =
          (.error (.valueError msg), st) := by
  have hrun : ∃ st, run step empty someCalls = some st ∧
      ∃ b, st.getBalance EMP1_ID .CASUAL = some b ∧
        b.totalAllocated = 12 := by decide +kernel
  obtain ⟨st, hst, b, hb, htotal⟩ := hrun
  have hnew : ∀ c ∈ someCalls, c.StartsUnused := by
    simp [someCalls, StoreCall.StartsUnused]
  obtain ⟨-, -, -, hrecord, -, -, hagain, -⟩ := balance_ledger hnew hst
  exact ⟨st, hst, b, hb, htotal, (hrecord _ _ b hb).2.2, by decide +kernel,
    hagain _ _ List.mem_cons_self rfl rfl⟩

end BalanceStore

end Elms
