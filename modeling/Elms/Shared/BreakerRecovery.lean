import Elms.Shared.CircuitBreakers

/-!
# Recovery of an open breaker

`pybreaker` leaves the open state only inside `CircuitBreaker.call`, once the
reset timeout has elapsed. `invoke_with_breaker` reads `current_state` first
and raises while it is `open`, at any time: with no call in flight nobody
reaches `CircuitBreaker.call` any more, and an open breaker stays open for
good (`stays_open`).
-/

namespace Elms

open Calendar Transition

namespace BreakerSystem

variable {V E : Type} {pb : Pybreaker}

/-! ## §1  An arrival at an open breaker -/

/-- No call is in flight. -/
def Idle (s : BreakerSystem pb V E) : Prop :=
  ∀ c ∈ s.calls, c.result ≠ none

/-- An arrival finds the breaker open and nothing in flight. -/
def ArrivesAtOpen (s : BreakerSystem pb V E) (l : BreakerLabel V E)
    (t : Timestamp) : Prop :=
  l = .arrive t ∧ pb.currentState s.breaker = .STATE_OPEN ∧ s.Idle

/-- What is expected of such an arrival: before the timeout it is turned away
without awaiting its coroutine; after the timeout the coroutine is awaited,
and if it succeeds the breaker is closed. -/
def Recovers (cfg : BreakerConfig) (s : BreakerSystem pb V E)
    (l : BreakerLabel V E) : Prop :=
  ∀ t s', s.ArrivesAtOpen l t → s.step cfg l = some s' →
    (t < pb.openedAt s.breaker + cfg.resetTimeout →
      s'.calls = s.calls ++
        [{ awaited := false, result := some .circuitBreakerError }]) ∧
    (pb.openedAt s.breaker + cfg.resetTimeout ≤ t →
      s'.calls = s.calls ++ [{ awaited := true }] ∧
      ∀ v t' s'', t ≤ t' →
        s'.step cfg (.complete s.calls.length (.value v) t') = some s'' →
        pb.currentState s''.breaker = .STATE_CLOSED)

/-- Such an arrival comes before the timeout has elapsed. -/
def BeforeTimeout (cfg : BreakerConfig) (s : BreakerSystem pb V E)
    (l : BreakerLabel V E) : Prop :=
  ∀ t, s.ArrivesAtOpen l t → t < pb.openedAt s.breaker + cfg.resetTimeout

/-- Whenever it comes, an arrival at an open breaker is turned away. -/
theorem step_arrivesAtOpen {cfg : BreakerConfig} {s : BreakerSystem pb V E}
    {l : BreakerLabel V E} {t : Timestamp} (h : s.ArrivesAtOpen l t) :
    s.step cfg l = some { s with calls := s.calls ++
      [{ awaited := false, result := some .circuitBreakerError }] } := by
  obtain ⟨rfl, hopen, -⟩ := h
  rw [step_arrive, if_pos hopen]

/-- **One arrival** behaves as expected exactly if it comes early. -/
theorem recovers_iff_beforeTimeout (cfg : BreakerConfig)
    (s : BreakerSystem pb V E) (l : BreakerLabel V E) :
    s.Recovers cfg l ↔ s.BeforeTimeout cfg l := by
  constructor
  · intro h t ha
    by_contra hlate
    obtain ⟨hcalls, -⟩ :=
      (h t _ ha (step_arrivesAtOpen ha)).2 (not_lt.mp hlate)
    -- the call was turned away, not awaited
    have hlast := List.append_cancel_left hcalls
    cases hlast
  · intro h t s' ha hs
    rw [step_arrivesAtOpen ha] at hs
    cases hs
    exact ⟨fun _ => rfl, fun hlate => absurd (h t ha) (not_lt.mpr hlate)⟩

/-! ## §2  Histories -/

/-- **Recovery, exactly.** Over any history of one breaker, the arrivals at an
open breaker with nothing in flight behave as expected exactly if all of them
come before the reset timeout has elapsed. -/
theorem breaker_recovers_iff (cfg : BreakerConfig) (b : pb.Breaker)
    (ls : List (BreakerLabel V E)) :
    Along (step cfg) (Recovers cfg) (⟨b, []⟩ : BreakerSystem pb V E) ls ↔
      Along (step cfg) (BeforeTimeout cfg) ⟨b, []⟩ ls :=
  along_congr (recovers_iff_beforeTimeout cfg)

/-- Open with nothing in flight: the breaker, and that, never change again. -/
theorem stays_open {cfg : BreakerConfig} {s s' : BreakerSystem pb V E}
    (hopen : pb.currentState s.breaker = .STATE_OPEN) (hidle : s.Idle)
    (h : Reaches (step cfg) s s') : s'.breaker = s.breaker ∧ s'.Idle := by
  refine invariant (I := fun u => u.breaker = s.breaker ∧ u.Idle) ?_
    ⟨rfl, hidle⟩ h
  rintro u l u' ⟨hb, hu⟩ hl
  cases l with
  | arrive t =>
      have ha : u.ArrivesAtOpen (.arrive t) t := ⟨rfl, hb ▸ hopen, hu⟩
      rw [step_arrivesAtOpen ha] at hl
      cases hl
      refine ⟨hb, fun c hc => ?_⟩
      rcases List.mem_append.mp hc with hc | hc
      · exact hu c hc
      · rw [List.mem_singleton.mp hc]
        exact fun h => by cases h
  | complete i o now =>
      -- a completion needs a call in flight
      obtain ⟨hi, -⟩ := step_complete_iff.mp hl
      exact absurd rfl (hu _ (List.mem_of_getElem? hi))

/-- Three failures in a row. -/
def outageRun : List (BreakerLabel String String) :=
  [.arrive 0, .complete 0 (.exception "ConnectError") 1,
   .arrive 2, .complete 1 (.exception "ConnectError") 3,
   .arrive 4, .complete 2 (.exception "ConnectError") 5]

/-- A call that comes a minute after the outage is still turned away. -/
theorem not_recovers :
    ¬ ∀ (pb : Pybreaker) (V E : Type) (b : pb.Breaker)
      (ls : List (BreakerLabel V E)) (s : BreakerSystem pb V E),
      run (step leaveBalanceCb) ⟨b, []⟩ ls = some s →
      ∀ l, s.Recovers leaveBalanceCb l := by
  intro hall
  have hrun : ∃ s, run (step leaveBalanceCb)
      (⟨({} : CircuitMemoryStorage), []⟩ :
        BreakerSystem Pybreaker.memory String String) outageRun = some s ∧
      Pybreaker.memory.currentState s.breaker = .STATE_OPEN ∧
      Pybreaker.memory.openedAt s.breaker = 5 ∧
      ∀ c ∈ s.calls, c.result ≠ none := by decide +kernel
  obtain ⟨s, hs, hopen, hopened, hidle⟩ := hrun
  have harrives : s.ArrivesAtOpen (.arrive (seconds 60)) (seconds 60) :=
    ⟨rfl, hopen, hidle⟩
  have hearly := (recovers_iff_beforeTimeout leaveBalanceCb s _).mp
    (hall _ _ _ _ _ s hs (.arrive (seconds 60))) _ harrives
  rw [hopened] at hearly
  exact absurd hearly (by decide)

end BreakerSystem

end Elms
