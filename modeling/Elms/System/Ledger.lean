import Elms.System.Invariant
import Mathlib.Algebra.Order.BigOperators.Group.Finset

/-!
# The ledger and the balances

`used` is the initial amount plus what the ledger accounts for, and the ledger
accounts for every APPROVED request at least once. So no interleaving and no
fault approves a request without deducting its days (`approved_within_used`);
that a request may be deducted for more than once, or without being approved,
is another matter.
-/

namespace Elms

open Calendar Transition

/-! ## §1  Accounts -/

/-- The days the ledger holds against `used(e, t)`. -/
def ledgerDays (ledger : List Deduction) (e : String) (t : LeaveType) : Int :=
  (ledger.map fun d =>
    if d.employeeId = e ∧ d.leaveType = t then d.days else 0).sum

theorem ledgerDays_append (ledger ledger' : List Deduction) (e : String)
    (t : LeaveType) :
    ledgerDays (ledger ++ ledger') e t =
      ledgerDays ledger e t + ledgerDays ledger' e t := by
  unfold ledgerDays
  rw [List.map_append, List.sum_append]

namespace World

/-- The days of `e`'s APPROVED requests of type `t`. -/
def approvedDays (w : World) (e : String) (t : LeaveType) : Int :=
  (w.requests.store.requests.map fun r =>
    if r.status = .APPROVED ∧ r.employeeId = e ∧ r.leaveType = t then
      r.numberOfDays
    else 0).sum

/-- The balances of `w` are those of `w₀` and what the ledger adds to them;
allocations do not change, and are not exceeded if they were not. -/
structure Accounts (w₀ w : World) : Prop where
  wf : w.balances.WF
  used : ∀ e t, w.balances.usedOf e t =
    w₀.balances.usedOf e t + ledgerDays w.ledger e t
  total : ∀ e t, w.balances.totalOf e t = w₀.balances.totalOf e t
  within : (∀ e t, w₀.balances.usedOf e t ≤ w₀.balances.totalOf e t) →
    ∀ e t, w.balances.usedOf e t ≤ w.balances.totalOf e t

variable {chart : OrgChart} {w₀ w w' : World} {l : WorldLabel}

theorem Initial.accounts (h : Initial chart w₀) : Accounts w₀ w₀ where
  wf := h.balances
  used := by
    intro e t
    rw [h.no_deductions]
    show _ = _ + (0 : Int)
    rw [add_zero]
  total := fun _ _ => rfl
  within := fun hle => hle

/-- **Step lemma**: an accepted deduction is on the balance and in the ledger
by the same number of days; nothing else touches either. -/
theorem accounts_step (ha : Accounts w₀ w) (hl : step chart w l = some w') :
    Accounts w₀ w' := by
  have same : w'.balances = w.balances → w'.ledger = w.ledger →
      Accounts w₀ w' := by
    intro hb hled
    obtain ⟨hwf, hused, htotal, hwithin⟩ := ha
    rw [← hb] at hwf hused htotal hwithin
    rw [← hled] at hused
    exact ⟨hwf, hused, htotal, hwithin⟩
  rcases step_cases hl with rfl | ⟨rl, s, -, hs, rfl⟩ | ⟨d, id, caller, -, rfl⟩ |
    ⟨j, m, h, h', events, -, -, -, rfl⟩ | ⟨j, now, h, c, -, -, -, rfl⟩
  · exact ha
  · exact same rfl rfl
  · exact same rfl rfl
  · exact same rfl rfl
  · cases c with
    | getRequest id => exact same rfl rfl
    | setRequestStatus id body => exact same rfl rfl
    | deductBalance e t d =>
        rcases serve_deductBalance w j h now e t d with
          ⟨-, err, he⟩ | ⟨hd, r, he⟩
        · rw [he]
          exact ⟨ha.wf, ha.used, ha.total, ha.within⟩
        · rw [he]
          refine ⟨BalanceStore.deductBalance_wf ha.wf e t d, fun e' t' => ?_,
            fun e' t' => ?_, fun hle e' t' => ?_⟩
          · show (w.balances.deductBalance e t d).2.usedOf e' t' = _
            rw [BalanceStore.usedOf_deductBalance ha.wf, ha.used,
              ledgerDays_append, add_assoc]
            congr 2
            simp only [ledgerDays, List.map_cons, List.map_nil, List.sum_cons,
              List.sum_nil, add_zero, hd, true_and, Prod.mk.injEq]
            simp only [eq_comm]
          · show (w.balances.deductBalance e t d).2.totalOf e' t' = _
            rw [BalanceStore.totalOf_deductBalance ha.wf]
            exact ha.total e' t'
          · exact BalanceStore.usedOf_le_totalOf_deductBalance ha.wf
              (ha.within hle) e e' t t' d

theorem Initial.reaches_accounts (h : Initial chart w₀)
    (hr : Reaches (step chart) w₀ w) : Accounts w₀ w :=
  invariant (fun _ _ _ => accounts_step) h.accounts hr

/-! ## §2  Both sums, by request -/

/-- How often the ledger holds a deduction for the request `id`. -/
def timesPaid (w : World) (id : String) : Nat :=
  (w.ledger.map Deduction.requestId).count id

/-- Whether the request `id` is APPROVED, as a number. -/
def timesApproved (w : World) (id : String) : Nat :=
  if w.requests.statusOf id = some .APPROVED then 1 else 0

/-- The days of the request `id`, if it is one of `e` and of type `t`. -/
def daysOf (w : World) (e : String) (t : LeaveType) (id : String) : Int :=
  match w.requests.store.getRequest id with
  | some r =>
      if r.employeeId = e ∧ r.leaveType = t then r.numberOfDays else 0
  | none => 0

/-- The ids of the stored requests. -/
def ids (w : World) : Finset String :=
  w.requests.store.requestsStore.keys.toFinset

theorem approvedDays_eq_sum (w : World) (e : String) (t : LeaveType) :
    w.approvedDays e t =
      ∑ id ∈ w.ids, w.timesApproved id • w.daysOf e t id := by
  unfold approvedDays RequestStore.requests
  rw [Dict.sum_map_values]
  apply Finset.sum_congr rfl
  intro id _
  unfold timesApproved daysOf RequestService.statusOf RequestStore.getRequest
  cases w.requests.store.requestsStore.get? id with
  | none => rfl
  | some r =>
      simp only [Option.elim_some, Option.map_some, Option.some.injEq]
      by_cases ha : r.status = .APPROVED <;> simp [ha]

theorem ledgerDays_eq_sum (hI : Inv chart w) (e : String) (t : LeaveType) :
    ledgerDays w.ledger e t =
      ∑ id ∈ w.ids, w.timesPaid id • w.daysOf e t id := by
  have hsub : (w.ledger.map Deduction.requestId).toFinset ⊆ w.ids := by
    intro id hid
    obtain ⟨d, hd, rfl⟩ := List.mem_map.mp (List.mem_toFinset.mp hid)
    obtain ⟨-, r, hr, -⟩ := hI.ledger d hd
    exact List.mem_toFinset.mpr (Dict.mem_keys_of_get? hr)
  unfold timesPaid
  rw [← Dict.sum_map_eq_sum_count _ hsub, List.map_map]
  unfold ledgerDays
  congr 1
  apply List.map_congr_left
  intro d hd
  obtain ⟨-, r, hr, hemp, htype, hdays⟩ := hI.ledger d hd
  simp only [Function.comp_apply, daysOf, hr, hemp, htype, hdays]

/-- A request that is paid for has a positive number of days. -/
theorem days_pos_of_timesPaid (hI : Inv chart w) {id : String}
    (h : 0 < w.timesPaid id) :
    ∃ r, w.requests.store.getRequest id = some r ∧ 0 < r.numberOfDays := by
  obtain ⟨d, hd, rfl⟩ := List.mem_map.mp (List.count_pos_iff.mp h)
  obtain ⟨hpos, r, hr, -, -, hdays⟩ := hI.ledger d hd
  exact ⟨r, hr, hdays ▸ hpos⟩

theorem daysOf_nonneg (hI : Inv chart w) (e : String) (t : LeaveType)
    {id : String} (h : 0 < w.timesPaid id) : 0 ≤ w.daysOf e t id := by
  obtain ⟨r, hr, hpos⟩ := days_pos_of_timesPaid hI h
  simp only [daysOf, hr]
  split
  · exact hpos.le
  · exact le_rfl

theorem timesApproved_le_timesPaid (hI : Inv chart w) (id : String) :
    w.timesApproved id ≤ w.timesPaid id := by
  unfold timesApproved
  split
  · rename_i h
    obtain ⟨r, hr, ha⟩ := Option.map_eq_some_iff.mp h
    obtain ⟨d, hd, hid⟩ := hI.approved id r hr ha
    exact List.count_pos_iff.mpr (List.mem_map.mpr ⟨d, hd, hid⟩)
  · exact Nat.zero_le _

/-- Request by request, what is approved is at most what is paid. -/
theorem approved_smul_le (hI : Inv chart w) (e : String) (t : LeaveType)
    (id : String) :
    w.timesApproved id • w.daysOf e t id ≤ w.timesPaid id • w.daysOf e t id := by
  have hle := timesApproved_le_timesPaid hI id
  rcases Nat.eq_zero_or_pos (w.timesPaid id) with hz | hpos
  · have hza : w.timesApproved id = 0 := by omega
    rw [hz, hza]
  · exact nsmul_le_nsmul_left (daysOf_nonneg hI e t hpos) hle

theorem approvedDays_le_ledgerDays (hI : Inv chart w) (e : String)
    (t : LeaveType) : w.approvedDays e t ≤ ledgerDays w.ledger e t := by
  rw [approvedDays_eq_sum, ledgerDays_eq_sum hI]
  apply Finset.sum_le_sum
  intro id _
  exact approved_smul_le hI e t id

/-! ## §3  No approval without a deduction -/

/-- **Approvals are within the balance.** Over any run, with any faults, from
a state without APPROVED requests in which no allocation is exceeded: what
`used` has grown by covers the days of all APPROVED requests, and no
allocation is exceeded. -/
theorem approved_within_used {ls : List WorldLabel}
    (h₀ : Initial chart w₀)
    (hle : ∀ e t, 0 ≤ w₀.balances.usedOf e t ∧
      w₀.balances.usedOf e t ≤ w₀.balances.totalOf e t)
    (hr : run (step chart) w₀ ls = some w) (e : String) (t : LeaveType) :
    w₀.balances.usedOf e t + w.approvedDays e t ≤ w.balances.usedOf e t ∧
    w.balances.usedOf e t ≤ w.balances.totalOf e t := by
  have hI := h₀.reaches_inv ⟨ls, hr⟩
  have ha := h₀.reaches_accounts ⟨ls, hr⟩
  refine ⟨?_, ha.within (fun e t => (hle e t).2) e t⟩
  rw [ha.used]
  exact add_le_add_right (approvedDays_le_ledgerDays hI e t) _

/-- A first approval deducts and loses its answer; a second one goes through. -/
def retriedRun : List WorldLabel :=
  [.applyLeave emp1 familyTrip ⟨738990⟩, .fetchRemaining 0,
   .resumeApply 0 "request-1" 100 101,
   .approveRequest manager1 "request-1", .deliver 0 200, .handler 0 .resume,
   .deliver 0 201, .handler 0 .loseAnswer, .handler 0 .resume,
   .approveRequest manager1 "request-1", .deliver 1 300, .handler 1 .resume,
   .deliver 1 301, .handler 1 .resume, .deliver 1 302, .handler 1 .resume]

theorem approved_within_used_retriedRun :
    ∃ w, run (step SEED_USERS) seeded retriedRun = some w ∧
      w.approvedDays EMP1_ID .CASUAL = 3 ∧
      ∀ e t, w.approvedDays e t ≤ w.balances.usedOf e t ∧
        w.balances.usedOf e t ≤ w.balances.totalOf e t := by
  have hrun : ∃ w, run (step SEED_USERS) seeded retriedRun = some w ∧
      w.approvedDays EMP1_ID .CASUAL = 3 := by decide +kernel
  obtain ⟨w, hw, hdays⟩ := hrun
  refine ⟨w, hw, hdays, fun e t => ?_⟩
  have hused : ∀ e t, seeded.balances.usedOf e t = 0 :=
    fun e t => (seeded_balances.2 e t).1
  have hle : ∀ e t, 0 ≤ seeded.balances.usedOf e t ∧
      seeded.balances.usedOf e t ≤ seeded.balances.totalOf e t := by
    intro e t
    rw [hused]
    exact ⟨le_rfl, (seeded_balances.2 e t).2⟩
  have h := approved_within_used seeded_initial hle hw e t
  rw [hused, zero_add] at h
  exact h

end World

end Elms
