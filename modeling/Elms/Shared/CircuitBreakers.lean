import Elms.Lib.Calendar
import Elms.Lib.Transition

/-!
# The circuit breakers

`shared/circuit_breakers.py`. `pybreaker` is not part of the repository: it is
the parameter `Pybreaker`, with the documented behaviour of
`CircuitBreaker.call` as its fields. `invoke_with_breaker` is written as the
two segments around its await: the check of `current_state` before it, and the
recording of the outcome through `breaker.call` after it.

Any number of calls share one breaker; `Breaker.step` interleaves their
segments.
-/

namespace Elms

open Calendar Transition

/-! ## §1  `pybreaker` -/

inductive CircuitState where
  | STATE_CLOSED
  | STATE_OPEN
  | STATE_HALF_OPEN
deriving DecidableEq, Repr

/-- The settings of one breaker. Times count microseconds, the resolution of
the clock that `pybreaker` reads. -/
structure BreakerConfig where
  failMax : Nat
  resetTimeout : Nat
deriving DecidableEq, Repr

def seconds (n : Nat) : Nat := n * 1000000

def leaveBalanceCb : BreakerConfig := { failMax := 3, resetTimeout := seconds 30 }

def leaveRequestCb : BreakerConfig := { failMax := 3, resetTimeout := seconds 30 }

/-- What `CircuitBreaker.call(func)` came to: the return of `func`, an
exception of `func`, or a `CircuitBreakerError` of its own. -/
inductive Called where
  | returned
  | raised
  | circuitBreakerError
deriving DecidableEq, Repr

/-- The library. `call cfg b now ok` is `breaker.call(func)` at time `now`,
for a `func` that returns (`ok`) or raises. -/
structure Pybreaker where
  Breaker : Type
  currentState : Breaker → CircuitState
  openedAt : Breaker → Timestamp
  failCounter : Breaker → Nat
  call : BreakerConfig → Breaker → Timestamp → Bool → Called × Breaker
  /-- Open and before the timeout, `func` is not run. -/
  call_early : ∀ cfg b now ok, currentState b = .STATE_OPEN →
    now < openedAt b + cfg.resetTimeout →
    call cfg b now ok = (.circuitBreakerError, b)
  /-- Open after the timeout, or half-open, a success closes the breaker. -/
  call_trial_ok : ∀ cfg b now,
    (currentState b = .STATE_OPEN ∧ openedAt b + cfg.resetTimeout ≤ now) ∨
      currentState b = .STATE_HALF_OPEN →
    (call cfg b now true).1 = .returned ∧
    currentState (call cfg b now true).2 = .STATE_CLOSED ∧
    failCounter (call cfg b now true).2 = 0
  /-- There, a failure opens it again. -/
  call_trial_fail : ∀ cfg b now,
    (currentState b = .STATE_OPEN ∧ openedAt b + cfg.resetTimeout ≤ now) ∨
      currentState b = .STATE_HALF_OPEN →
    (call cfg b now false).1 = .circuitBreakerError ∧
    currentState (call cfg b now false).2 = .STATE_OPEN ∧
    openedAt (call cfg b now false).2 = now
  /-- Closed, a success resets the counter. -/
  call_closed_ok : ∀ cfg b now, currentState b = .STATE_CLOSED →
    (call cfg b now true).1 = .returned ∧
    currentState (call cfg b now true).2 = .STATE_CLOSED ∧
    failCounter (call cfg b now true).2 = 0
  /-- Closed, a failure is counted, and reaching `fail_max` opens. -/
  call_closed_fail : ∀ cfg b now, currentState b = .STATE_CLOSED →
    if failCounter b + 1 < cfg.failMax then
      (call cfg b now false).1 = .raised ∧
      currentState (call cfg b now false).2 = .STATE_CLOSED ∧
      failCounter (call cfg b now false).2 = failCounter b + 1
    else
      (call cfg b now false).1 = .circuitBreakerError ∧
      currentState (call cfg b now false).2 = .STATE_OPEN ∧
      openedAt (call cfg b now false).2 = now

/-- The storage of the library's default breaker. -/
structure CircuitMemoryStorage where
  state : CircuitState := .STATE_CLOSED
  failCounter : Nat := 0
  openedAt : Timestamp := 0
deriving DecidableEq, Repr

namespace CircuitMemoryStorage

/-- A call in the half-open state. -/
def trial (s : CircuitMemoryStorage) (now : Timestamp) :
    Bool → Called × CircuitMemoryStorage
  | true => (.returned, { s with state := .STATE_CLOSED, failCounter := 0 })
  | false => (.circuitBreakerError,
      { s with state := .STATE_OPEN, failCounter := s.failCounter + 1,
               openedAt := now })

def call (cfg : BreakerConfig) (s : CircuitMemoryStorage) (now : Timestamp)
    (ok : Bool) : Called × CircuitMemoryStorage :=
  match s.state with
  | .STATE_OPEN =>
      if now < s.openedAt + cfg.resetTimeout then (.circuitBreakerError, s)
      else s.trial now ok
  | .STATE_HALF_OPEN => s.trial now ok
  | .STATE_CLOSED =>
      if ok then (.returned, { s with failCounter := 0 })
      else if s.failCounter + 1 < cfg.failMax then
        (.raised, { s with failCounter := s.failCounter + 1 })
      else s.trial now false

end CircuitMemoryStorage

/-- The library with its in-memory storage. -/
def Pybreaker.memory : Pybreaker where
  Breaker := CircuitMemoryStorage
  currentState := CircuitMemoryStorage.state
  openedAt := CircuitMemoryStorage.openedAt
  failCounter := CircuitMemoryStorage.failCounter
  call := CircuitMemoryStorage.call
  call_early := by
    intro cfg b now ok hopen hearly
    simp only [CircuitMemoryStorage.call, hopen]
    exact if_pos hearly
  call_trial_ok := by
    rintro cfg b now (⟨hopen, hlate⟩ | hhalf)
    · simp only [CircuitMemoryStorage.call, hopen, if_neg (not_lt.mpr hlate)]
      exact ⟨rfl, rfl, rfl⟩
    · simp only [CircuitMemoryStorage.call, hhalf]
      exact ⟨rfl, rfl, rfl⟩
  call_trial_fail := by
    rintro cfg b now (⟨hopen, hlate⟩ | hhalf)
    · simp only [CircuitMemoryStorage.call, hopen, if_neg (not_lt.mpr hlate)]
      exact ⟨rfl, rfl, rfl⟩
    · simp only [CircuitMemoryStorage.call, hhalf]
      exact ⟨rfl, rfl, rfl⟩
  call_closed_ok := by
    intro cfg b now hclosed
    have he : CircuitMemoryStorage.call cfg b now true =
        (.returned, { b with failCounter := 0 }) := by
      unfold CircuitMemoryStorage.call
      rw [hclosed]
      rfl
    rw [he]
    exact ⟨rfl, hclosed, rfl⟩
  call_closed_fail := by
    intro cfg b now hclosed
    have he : CircuitMemoryStorage.call cfg b now false =
        if b.failCounter + 1 < cfg.failMax then
          (.raised, { b with failCounter := b.failCounter + 1 })
        else b.trial now false := by
      unfold CircuitMemoryStorage.call
      rw [hclosed]
      rfl
    rw [he]
    split
    · exact ⟨rfl, hclosed, rfl⟩
    · exact ⟨rfl, rfl, rfl⟩

/-! ## §2  `invoke_with_breaker` -/

/-- What awaiting `coro_factory()` came to. A `baseException` (a cancelled
task) is not an `Exception`. -/
inductive Outcome (V E : Type) where
  | value (v : V)
  | exception (e : E)
  | baseException (e : E)
deriving DecidableEq, Repr

/-- What `invoke_with_breaker` came to. -/
inductive Invoked (V E : Type) where
  | returned (v : V)
  | raised (e : E)
  | circuitBreakerError
deriving DecidableEq, Repr

variable {V E : Type} {pb : Pybreaker}

/-- `invoke_with_breaker` up to its await: what it raises at once, if it does
not go on to await `coro_factory()`. -/
def invokeWithBreaker (pb : Pybreaker) (breaker : pb.Breaker) :
    Option (Invoked V E) :=
  if pb.currentState breaker = .STATE_OPEN then some .circuitBreakerError
  else none

/-- `invoke_with_breaker` from the outcome of the coroutine on. -/
def invokeWithBreakerResumed (pb : Pybreaker) (cfg : BreakerConfig)
    (breaker : pb.Breaker) (now : Timestamp) :
    Outcome V E → Invoked V E × pb.Breaker
  | .exception exc =>
      -- whatever `call` raises is caught, and `exc` is raised
      (.raised exc, (pb.call cfg breaker now false).2)
  | .baseException exc => (.raised exc, breaker)
  | .value result =>
      match pb.call cfg breaker now true with
      | (.circuitBreakerError, breaker') => (.circuitBreakerError, breaker')
      | (_, breaker') => (.returned result, breaker')

/-- The breaker is open and will not let a call through yet. -/
def Pybreaker.Refuses (pb : Pybreaker) (cfg : BreakerConfig)
    (breaker : pb.Breaker) (now : Timestamp) : Prop :=
  pb.currentState breaker = .STATE_OPEN ∧
    now < pb.openedAt breaker + cfg.resetTimeout

instance (cfg : BreakerConfig) (breaker : pb.Breaker) (now : Timestamp) :
    Decidable (pb.Refuses cfg breaker now) :=
  inferInstanceAs (Decidable (_ ∧ _))

/-- Recording a success returns the value and closes the breaker, unless the
breaker refuses the recording. -/
theorem invokeWithBreakerResumed_value (cfg : BreakerConfig)
    (b : pb.Breaker) (now : Timestamp) (v : V) :
    (pb.Refuses cfg b now ∧
      invokeWithBreakerResumed (E := E) pb cfg b now (.value v) =
        (.circuitBreakerError, b)) ∨
    (¬ pb.Refuses cfg b now ∧ ∃ b', pb.currentState b' = .STATE_CLOSED ∧
      pb.failCounter b' = 0 ∧
      invokeWithBreakerResumed (E := E) pb cfg b now (.value v) =
        (.returned v, b')) := by
  have passes : (pb.call cfg b now true).1 = .returned →
      invokeWithBreakerResumed (E := E) pb cfg b now (.value v) =
        (.returned v, (pb.call cfg b now true).2) := by
    intro h
    simp only [invokeWithBreakerResumed]
    split
    · rename_i heq
      rw [heq] at h
      cases h
    · rename_i heq
      rw [heq]
  by_cases hr : pb.Refuses cfg b now
  · refine Or.inl ⟨hr, ?_⟩
    simp only [invokeWithBreakerResumed, pb.call_early cfg b now true hr.1 hr.2]
  · refine Or.inr ⟨hr, (pb.call cfg b now true).2, ?_⟩
    have hlaw : (pb.call cfg b now true).1 = .returned ∧
        pb.currentState (pb.call cfg b now true).2 = .STATE_CLOSED ∧
        pb.failCounter (pb.call cfg b now true).2 = 0 := by
      cases hs : pb.currentState b with
      | STATE_CLOSED => exact pb.call_closed_ok cfg b now hs
      | STATE_HALF_OPEN => exact pb.call_trial_ok cfg b now (Or.inr hs)
      | STATE_OPEN =>
          have hlate : pb.openedAt b + cfg.resetTimeout ≤ now :=
            not_lt.mp fun h => hr ⟨hs, h⟩
          exact pb.call_trial_ok cfg b now (Or.inl ⟨hs, hlate⟩)
    exact ⟨hlaw.2.1, hlaw.2.2, passes hlaw.1⟩

/-! ## §3  Calls sharing a breaker -/

/-- One call of `invoke_with_breaker`: whether its coroutine was awaited, what
that came to, and what the call itself came to. -/
structure BreakerCall (V E : Type) where
  awaited : Bool
  outcome : Option (Outcome V E) := none
  result : Option (Invoked V E) := none
deriving DecidableEq, Repr

structure BreakerSystem (pb : Pybreaker) (V E : Type) where
  breaker : pb.Breaker
  calls : List (BreakerCall V E) := []

inductive BreakerLabel (V E : Type) where
  | arrive (now : Timestamp)
  | complete (i : Nat) (outcome : Outcome V E) (now : Timestamp)

namespace BreakerSystem

def step (cfg : BreakerConfig) (s : BreakerSystem pb V E) :
    BreakerLabel V E → Option (BreakerSystem pb V E)
  | .arrive _ =>
      match invokeWithBreaker pb s.breaker with
      | some result =>
          some { s with calls := s.calls ++
            [{ awaited := false, result := some result }] }
      | none => some { s with calls := s.calls ++ [{ awaited := true }] }
  | .complete i outcome now =>
      match s.calls[i]? with
      | some ⟨true, none, none⟩ =>
          match invokeWithBreakerResumed pb cfg s.breaker now outcome with
          | (result, breaker) =>
              some { breaker := breaker
                     calls := s.calls.set i ⟨true, some outcome, some result⟩ }
      | _ => none

/-- What an arriving call finds decides whether its coroutine is awaited. -/
theorem step_arrive (cfg : BreakerConfig) (s : BreakerSystem pb V E)
    (now : Timestamp) :
    s.step cfg (.arrive now) = some { s with calls := s.calls ++
      [if pb.currentState s.breaker = .STATE_OPEN then
        { awaited := false, result := some .circuitBreakerError }
       else { awaited := true }] } := by
  unfold step invokeWithBreaker
  by_cases hopen : pb.currentState s.breaker = .STATE_OPEN
  · simp only [if_pos hopen]
  · simp only [if_neg hopen]

theorem step_complete_iff {cfg : BreakerConfig} {s s' : BreakerSystem pb V E}
    {i : Nat} {o : Outcome V E} {now : Timestamp} :
    s.step cfg (.complete i o now) = some s' ↔
      s.calls[i]? = some { awaited := true } ∧
      s' = { breaker := (invokeWithBreakerResumed pb cfg s.breaker now o).2
             calls := s.calls.set i ⟨true, some o,
               some (invokeWithBreakerResumed pb cfg s.breaker now o).1⟩ } := by
  simp only [step]
  constructor
  · intro h
    split at h
    · rename_i hi
      cases h
      exact ⟨hi, rfl⟩
    · cases h
  · rintro ⟨hi, rfl⟩
    simp only [hi]

/-! ## §4  Outcomes -/

/-- The call came to what its coroutine came to, and a `CircuitBreakerError`
of the breaker means that the coroutine was never awaited. -/
structure Kept (c : BreakerCall V E) : Prop where
  value : ∀ v, c.outcome = some (.value v) → c.result = some (.returned v)
  raised : ∀ e, c.outcome = some (.exception e) ∨
    c.outcome = some (.baseException e) → c.result = some (.raised e)
  refused : c.result = some .circuitBreakerError → c.awaited = false

def OutcomesKept (s : BreakerSystem pb V E) : Prop := ∀ c ∈ s.calls, Kept c

/-- A success is not recorded on a breaker that refuses it. -/
def ValueRecorded (cfg : BreakerConfig) (s : BreakerSystem pb V E) :
    BreakerLabel V E → Prop
  | .complete _ (.value _) now => ¬ pb.Refuses cfg s.breaker now
  | _ => True

instance (cfg : BreakerConfig) (s : BreakerSystem pb V E) :
    ∀ l, Decidable (s.ValueRecorded cfg l)
  | .complete _ (.value _) now =>
      inferInstanceAs (Decidable (¬ pb.Refuses cfg s.breaker now))
  | .complete _ (.exception _) _ => isTrue trivial
  | .complete _ (.baseException _) _ => isTrue trivial
  | .arrive _ => isTrue trivial

theorem kept_arrived (s : BreakerSystem pb V E) :
    Kept (if pb.currentState s.breaker = .STATE_OPEN then
        ({ awaited := false, result := some .circuitBreakerError } :
          BreakerCall V E)
      else { awaited := true }) := by
  split
  · exact ⟨fun v h => (by cases h), fun e h => (by rcases h with h | h <;> cases h),
      fun _ => rfl⟩
  · exact ⟨fun v h => (by cases h), fun e h => (by rcases h with h | h <;> cases h),
      fun h => (by cases h)⟩

/-- **The outcome of one call** survives its recording exactly if the success
it may be is not refused. -/
theorem kept_completed_iff (cfg : BreakerConfig) (s : BreakerSystem pb V E)
    (i : Nat) (o : Outcome V E) (now : Timestamp) :
    Kept ⟨true, some o,
        some (invokeWithBreakerResumed pb cfg s.breaker now o).1⟩ ↔
      s.ValueRecorded cfg (.complete i o now) := by
  cases o with
  | value v =>
      rcases invokeWithBreakerResumed_value (E := E) cfg s.breaker now v with
        ⟨hr, he⟩ | ⟨hr, b', -, -, he⟩
      · refine iff_of_false (fun h => ?_) (fun h => h hr)
        have hval := h.value v rfl
        rw [he] at hval
        cases hval
      · refine iff_of_true ?_ hr
        rw [he]
        refine ⟨fun v' h => ?_, fun e h => ?_, fun h => ?_⟩
        · cases h
          rfl
        · rcases h with h | h <;> cases h
        · cases h
  | exception e =>
      refine iff_of_true ⟨fun v h => ?_, fun e' h => ?_, fun h => ?_⟩ trivial
      · cases h
      · rcases h with h | h <;> cases h
        rfl
      · cases h
  | baseException e =>
      refine iff_of_true ⟨fun v h => ?_, fun e' h => ?_, fun h => ?_⟩ trivial
      · cases h
      · rcases h with h | h <;> cases h
        rfl
      · cases h

/-- **Step lemma**: completing a call touches that call's outcome only. -/
theorem outcomesKept_step {cfg : BreakerConfig} {s s' : BreakerSystem pb V E}
    {l : BreakerLabel V E} (h : OutcomesKept s)
    (hl : s.step cfg l = some s') :
    OutcomesKept s' ↔ s.ValueRecorded cfg l := by
  cases l with
  | arrive now =>
      rw [step_arrive] at hl
      cases hl
      refine iff_of_true (fun c hc => ?_) trivial
      rcases List.mem_append.mp hc with hc | hc
      · exact h c hc
      · rw [List.mem_singleton.mp hc]
        exact kept_arrived s
  | complete i o now =>
      obtain ⟨hi, rfl⟩ := step_complete_iff.mp hl
      rw [← kept_completed_iff cfg s i o now]
      have hlt : i < s.calls.length := (List.getElem?_eq_some_iff.mp hi).1
      constructor
      · intro hk
        exact hk _ (List.mem_set hlt _)
      · intro hk c hc
        rcases List.mem_or_eq_of_mem_set hc with hc | rfl
        · exact h c hc
        · exact hk

/-- **The breaker and the outcome of a call that ran.** Over any interleaving
of calls, from any breaker state: every call comes to what its coroutine came
to, exactly if no call completes with a value while the breaker is open and
its timeout has not elapsed. -/
theorem outcomes_kept_iff {cfg : BreakerConfig} {b : pb.Breaker}
    {ls : List (BreakerLabel V E)} {s : BreakerSystem pb V E}
    (h : run (step cfg) ⟨b, []⟩ ls = some s) :
    Always (step cfg) OutcomesKept (⟨b, []⟩ : BreakerSystem pb V E) ls ↔
      Along (step cfg) (ValueRecorded cfg) ⟨b, []⟩ ls :=
  always_iff_along (I := fun _ => True) (fun _ _ _ _ _ => trivial)
    (fun _ _ _ _ hP hl => outcomesKept_step hP hl) trivial
    (fun c hc => by cases hc) h

/-- Two calls in flight together, one failing and one succeeding. -/
def mixedRun : List (BreakerLabel String String) :=
  [.arrive 0, .arrive 5, .complete 0 (.exception "ReadTimeout") 10,
   .complete 1 (.value "200 OK") 20]

theorem outcomes_kept_mixedRun :
    Always (step leaveBalanceCb) OutcomesKept
      (⟨({} : CircuitMemoryStorage), []⟩ :
        BreakerSystem Pybreaker.memory String String) mixedRun := by
  have hrun : (run (step leaveBalanceCb)
      (⟨({} : CircuitMemoryStorage), []⟩ :
        BreakerSystem Pybreaker.memory String String) mixedRun).isSome = true := by
    decide +kernel
  obtain ⟨s, hs⟩ := Option.isSome_iff_exists.mp hrun
  exact (outcomes_kept_iff hs).mpr (by decide +kernel)

/-- Four calls in flight together; three fail and open the breaker, then the
fourth, a deduction that took effect, succeeds. -/
def trippedRun : List (BreakerLabel String String) :=
  [.arrive 0, .arrive 0, .arrive 0, .arrive 0,
   .complete 0 (.exception "ReadTimeout") 10,
   .complete 1 (.exception "ReadTimeout") 10,
   .complete 2 (.exception "ReadTimeout") 10,
   .complete 3 (.value "200 OK") 20]

/-- The fourth call ran, and is reported as one that was never made. -/
theorem value_lost :
    ¬ ∀ (pb : Pybreaker) (V E : Type) (b : pb.Breaker)
      (ls : List (BreakerLabel V E)) (s : BreakerSystem pb V E),
      run (step leaveBalanceCb) ⟨b, []⟩ ls = some s → OutcomesKept s := by
  intro hall
  have hrun : ∃ s, run (step leaveBalanceCb)
      (⟨({} : CircuitMemoryStorage), []⟩ :
        BreakerSystem Pybreaker.memory String String) trippedRun = some s ∧
      s.calls[3]? = some ⟨true, some (.value "200 OK"),
        some .circuitBreakerError⟩ := by decide +kernel
  obtain ⟨s, hs, hcall⟩ := hrun
  have hkept := hall _ _ _ _ _ s hs _ (List.mem_of_getElem? hcall)
  have hval := hkept.value "200 OK" rfl
  cases hval

end BreakerSystem

end Elms
