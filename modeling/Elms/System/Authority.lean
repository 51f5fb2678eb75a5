import Elms.System.Invariant

/-!
# Who decides a leave

Authorization is spread over the role guard, the ownership check of the
Manager Service on a copy it fetched earlier, the ownership check of the Leave
Request Service, and the org chart that the request was routed by when it was
applied for. What ties them together is an invariant of the request store: a
stored request is routed to the manager of its employee.
-/

namespace Elms

open Calendar Transition

namespace World

variable {chart : OrgChart} {w w' : World} {l : WorldLabel}

/-- The platform before anyone has applied for leave. -/
def fresh (balances : BalanceStore) : World :=
  { requests := RequestService.empty, balances := balances }

theorem fresh_inv (chart : OrgChart) (balances : BalanceStore) :
    Inv chart (fresh balances) where
  requests := RequestService.inv_empty chart
  handlers := fun h hh => by cases hh
  ledger := fun d hd => by cases hd
  approved := fun id r h => by cases h

/-- The step was a `cancel_leave` of the request, by the employee it is for. -/
def CancelledByOwner (l : WorldLabel) (id : String) (r : LeaveRequest) : Prop :=
  ∃ caller now, l = .cancelLeave caller id now ∧ caller.userId = r.employeeId

/-- The step was taken for a decision handler on the request, started by a
MANAGER whom the org chart names as manager of the employee. -/
def DecidedByManager (chart : OrgChart) (w : World) (l : WorldLabel)
    (id : String) (r : LeaveRequest) : Prop :=
  ∃ j now h, l = .deliver j now ∧ w.manager[j]? = some h ∧ h.requestId = id ∧
    h.decision.newStatus = r.status ∧ h.caller.role = .MANAGER ∧
    chart.getManagerId r.employeeId = some h.caller.userId

/-- **Step lemma**: a status that is new in the store was written by the right
person. -/
theorem status_written_by (hI : Inv chart w) (hl : step chart w l = some w')
    {id : String} {r' : LeaveRequest}
    (hr' : w'.requests.store.getRequest id = some r')
    (hnew : w.requests.statusOf id ≠ some r'.status) :
    r'.status = .PENDING ∨
    (r'.status = .CANCELLED ∧ CancelledByOwner l id r') ∨
    ((r'.status = .APPROVED ∨ r'.status = .REJECTED) ∧
      DecidedByManager chart w l id r') := by
  rcases getRequest_step hI hl hr' with h | ⟨-, hp⟩ |
    ⟨caller, now, r, hlab, hacc, rfl⟩ |
    ⟨j, now, h, r, hlab, hj, hid, -, hacc, rfl⟩
  · have hsame : w.requests.statusOf id = some r'.status := by
      unfold RequestService.statusOf
      rw [h, Option.map_some]
    exact absurd hsame hnew
  · exact Or.inl hp
  · exact Or.inr (Or.inl ⟨rfl, caller, now, hlab, hacc.own.symm⟩)
  · have hsound := hI.requests.sound id r hacc.stored
    have hroute : r.reportingManagerId = h.caller.userId := hacc.routed
    have hmgr : chart.getManagerId r.employeeId = some h.caller.userId := by
      rw [← hroute]
      exact hsound.routed
    have hrole := (hI.handlers h (List.mem_of_getElem? hj)).manager
    refine Or.inr (Or.inr ⟨?_, j, now, h, hlab, hj, hid, rfl, hrole, hmgr⟩)
    rcases hacc.target with ht | ⟨ht, -⟩
    · exact Or.inl ht
    · exact Or.inr ht

/-- **Only the right person decides.** In every run from the empty request
store: a status becomes CANCELLED only by a `cancel_leave` of the request's
own employee; it becomes APPROVED or REJECTED only for a handler whose caller
is a MANAGER and the employee's manager, so never the employee if nobody
reports to themselves; and every stored request is routed to the manager that
the org chart gives, whatever the client supplied. -/
theorem right_person_decides {balances : BalanceStore} {ls : List WorldLabel}
    (hr : run (step chart) (fresh balances) ls = some w) :
    (∀ l w', step chart w l = some w' →
      ∀ id r', w'.requests.store.getRequest id = some r' →
        w.requests.statusOf id ≠ some r'.status →
        (r'.status = .CANCELLED → CancelledByOwner l id r') ∧
        (r'.status = .APPROVED ∨ r'.status = .REJECTED →
          DecidedByManager chart w l id r' ∧
          ((∀ u, chart.getManagerId u ≠ some u) →
            ∀ j now h, l = .deliver j now → w.manager[j]? = some h →
              h.caller.userId ≠ r'.employeeId))) ∧
    ∀ id r, w.requests.store.getRequest id = some r →
      chart.getManagerId r.employeeId = some r.reportingManagerId := by
  have hI : Inv chart w :=
    invariant (fun _ _ _ => inv_step) (fresh_inv chart balances) ⟨ls, hr⟩
  refine ⟨?_, fun id r h => (hI.requests.sound id r h).routed⟩
  intro l w' hl id r' hr' hnew
  have hby := status_written_by hI hl hr' hnew
  constructor
  · intro hcancelled
    rcases hby with hp | ⟨-, hown⟩ | ⟨ha | ha, -⟩
    · rw [hp] at hcancelled
      cases hcancelled
    · exact hown
    · rw [ha] at hcancelled
      cases hcancelled
    · rw [ha] at hcancelled
      cases hcancelled
  · intro hdecided
    have hmgr : DecidedByManager chart w l id r' := by
      rcases hby with hp | ⟨hc, -⟩ | ⟨-, hmgr⟩
      · rw [hp] at hdecided
        rcases hdecided with h | h <;> cases h
      · rw [hc] at hdecided
        rcases hdecided with h | h <;> cases h
      · exact hmgr
    refine ⟨hmgr, fun hself j now h hlab hj he => ?_⟩
    obtain ⟨j', now', h', hlab', hj', -, -, -, hget⟩ := hmgr
    rw [hlab] at hlab'
    cases hlab'
    rw [hj] at hj'
    cases hj'
    rw [he] at hget
    exact hself r'.employeeId hget

/-- An employee applies and the manager approves, up to the last delivery. -/
def decidingRun : List WorldLabel :=
  [.applyLeave emp1 familyTrip ⟨738990⟩, .fetchRemaining 0,
   .resumeApply 0 "request-1" 100 101,
   .approveRequest manager1 "request-1", .deliver 0 200, .handler 0 .resume,
   .deliver 0 201, .handler 0 .resume]

theorem right_person_decides_decidingRun :
    ∃ w, run (step SEED_USERS) (fresh seeded.balances) decidingRun = some w ∧
      ∃ w', step SEED_USERS w (.deliver 0 202) = some w' ∧
        ∃ r', w'.requests.store.getRequest "request-1" = some r' ∧
          DecidedByManager SEED_USERS w (.deliver 0 202) "request-1" r' := by
  have hrun : ∃ w, run (step SEED_USERS) (fresh seeded.balances) decidingRun =
        some w ∧
      ∃ w', step SEED_USERS w (.deliver 0 202) = some w' ∧
        ∃ r', w'.requests.store.getRequest "request-1" = some r' ∧
          r'.status = .APPROVED ∧
          w.requests.statusOf "request-1" ≠ some r'.status := by
    decide +kernel
  obtain ⟨w, hw, w', hl, r', hr', ha, hnew⟩ := hrun
  exact ⟨w, hw, w', hl, r', hr',
    (((right_person_decides hw).1 _ w' hl _ r' hr' hnew).2 (Or.inl ha)).1⟩

end World

end Elms
