import Elms.Lib.Streak
import Elms.Requests.BalanceClient
import Elms.Shared.CircuitBreakers

/-!
# What trips a breaker

A breaker counts the calls whose coroutine raises. `fetch_remaining` raises on
every answer outside 2xx; `deduct_balance` and `set_request_status` return the
raw answer, and its status is looked at after the breaker has recorded a
success. So the breaker opens on a streak of raising calls, which is another
thing than a streak of unhealthy answers (`breaker_trips_iff`).
-/

namespace Elms

open Calendar Json

/-! ## §1  The wrapped calls -/

/-- What a wrapped coroutine returns. -/
inductive ClientValue where
  | remaining (days : Int)
  | response (statusCode : Nat) (content : ByteArray)

/-- The raw `httpx.Response` of a request; only a transport error is raised. -/
def rawResponse : HttpAnswer → Except ClientError ClientValue
  | .transportError => .error .httpError
  | .response statusCode content => .ok (.response statusCode content)

/-- The calls that are made through a breaker. -/
inductive WrappedCall where
  | fetchRemaining (leaveType : LeaveType)
  | deductBalance
  | setRequestStatus
deriving DecidableEq

section Calls

variable (decode : ByteArray → Except LoadError Json) (read : IntReader)

/-- The coroutine, awaited, on what its request came to. -/
def WrappedCall.await (call : WrappedCall) (answer : HttpAnswer) :
    Except ClientError ClientValue :=
  match call with
  | .fetchRemaining leaveType =>
      (BalanceClient.fetchRemaining decode read leaveType answer).map .remaining
  | .deductBalance => rawResponse answer
  | .setRequestStatus => rawResponse answer

/-- What `invoke_with_breaker` sees of it. -/
def WrappedCall.outcome (call : WrappedCall) (answer : HttpAnswer) :
    Outcome ClientValue ClientError :=
  match call.await decode read answer with
  | .ok value => .value value
  | .error exc => .exception exc

/-- One of a sequence of calls. The answer is the one its request comes to if
it is sent; `now` is when the outcome is recorded. -/
structure SequentialCall where
  call : WrappedCall
  answer : HttpAnswer
  now : Timestamp

/-- The breaker after one call of `invoke_with_breaker`, from start to end. -/
def invoke (pb : Pybreaker) (cfg : BreakerConfig) (breaker : pb.Breaker)
    (c : SequentialCall) : pb.Breaker :=
  match invokeWithBreaker (V := ClientValue) (E := ClientError) pb breaker with
  | some _ => breaker
  | none =>
      (invokeWithBreakerResumed pb cfg breaker c.now
        (c.call.outcome decode read c.answer)).2

/-- The breaker after the whole sequence. -/
def invokeAll (pb : Pybreaker) (cfg : BreakerConfig) (breaker : pb.Breaker)
    (cs : List SequentialCall) : pb.Breaker :=
  cs.foldl (invoke decode read pb cfg) breaker

end Calls

/-! ## §2  Unhealthy answers and raising calls -/

/-- A server error or no answer at all. -/
def HttpAnswer.isUnhealthy : HttpAnswer → Bool
  | .transportError => true
  | .response statusCode _ => 500 ≤ statusCode && statusCode ≤ 599

def SequentialCall.isUnhealthy (c : SequentialCall) : Bool := c.answer.isUnhealthy

section Raising

variable (decode : ByteArray → Except LoadError Json) (read : IntReader)

/-- Items up to the first of the type, which has a number if it has any
`remaining`. -/
def readableItems (leaveType : LeaveType) : List Json → Bool
  | [] => true
  | .object members :: items =>
      if ((Json.object members).member "leave_type").isText
          (text leaveType.value) then
        (((Json.object members).member "remaining" (.int 0)).toInt read).isOk
      else readableItems leaveType items
  | _ :: _ => false

/-- A value whose items can be read; there are none in the last two. -/
def readableBalances (leaveType : LeaveType) : Json → Bool
  | .array items => readableItems read leaveType items
  | .object members => members.isEmpty
  | .str s => s.isEmpty
  | _ => false

/-- The body of a 2xx answer holds balances that can be read. -/
def readableBody (leaveType : LeaveType) (content : ByteArray) : Bool :=
  match decode content with
  | .ok (.object members) =>
      readableBalances read leaveType
        ((Json.object members).member "balances" (.array []))
  | _ => false

/-- The call raises: a transport error, and of `fetch_remaining` also every
status outside 2xx and every body that cannot be read. -/
def SequentialCall.raises (c : SequentialCall) : Bool :=
  match c.answer, c.call with
  | .transportError, _ => true
  | .response statusCode content, .fetchRemaining leaveType =>
      !(isSuccess statusCode && readableBody decode read leaveType content)
  | .response _ _, _ => false

/-- The answer is one that the breaker counts for what it is: where the raw
response is returned, anything but a server error; for `fetch_remaining`, a 2xx
that can be read or an unhealthy answer. -/
def SequentialCall.isCountedRight (c : SequentialCall) : Bool :=
  match c.answer, c.call with
  | .transportError, _ => true
  | .response statusCode content, .fetchRemaining leaveType =>
      (isSuccess statusCode && readableBody decode read leaveType content) ||
        c.isUnhealthy
  | .response _ _, _ => !c.isUnhealthy

variable {decode read}

theorem raises_eq_isUnhealthy {c : SequentialCall}
    (h : c.isCountedRight decode read = true) :
    c.raises decode read = c.isUnhealthy := by
  obtain ⟨call, answer, now⟩ := c
  cases answer with
  | transportError => rfl
  | response statusCode content =>
      cases call with
      | fetchRemaining leaveType =>
          simp only [SequentialCall.isCountedRight, SequentialCall.raises,
            SequentialCall.isUnhealthy, HttpAnswer.isUnhealthy, isSuccess,
            Bool.or_eq_true, Bool.and_eq_true, decide_eq_true_eq] at h ⊢
          rcases h with ⟨⟨hlow, hhigh⟩, hread⟩ | ⟨hlow, hhigh⟩
          · have hserver : ¬ 500 ≤ statusCode := by omega
            simp [hlow, hhigh, hread, hserver]
          · have hsuccess : ¬ statusCode ≤ 299 := by omega
            simp [hlow, hhigh, hsuccess]
      | deductBalance => exact (Bool.not_eq_eq_eq_not.mp h).symm
      | setRequestStatus => exact (Bool.not_eq_eq_eq_not.mp h).symm

/-- Keys and characters are no items. -/
theorem isOk_remainingLoop_str {α : Type} (leaveType : LeaveType) (l : List α)
    (f : α → Text) :
    (BalanceClient.remainingLoop read leaveType (l.map fun x => .str (f x))).isOk =
      l.isEmpty := by
  cases l <;> rfl

theorem isOk_remainingLoop (leaveType : LeaveType) (items : List Json) :
    (BalanceClient.remainingLoop read leaveType items).isOk =
      readableItems read leaveType items := by
  induction items with
  | nil => rfl
  | cons item items ih =>
      cases item with
      | object members =>
          rw [BalanceClient.remainingLoop, readableItems,
            dictGet_of_isObject ⟨members, rfl⟩, dictGet_of_isObject ⟨members, rfl⟩]
          dsimp only [bind, Except.bind]
          split
          · rfl
          · exact ih
      | _ => rfl

theorem isOk_mapError {ε ε' α : Type} (x : Except ε α) (f : ε → ε') :
    (x.mapError f).isOk = x.isOk := by
  cases x <;> rfl

/-- The loop over a value that may not be a list of items. -/
theorem isOk_iterate_remainingLoop (leaveType : LeaveType) (balances : Json) :
    (do
      let items ← balances.iterate.mapError ClientError.opError
      (BalanceClient.remainingLoop read leaveType items).mapError
        ClientError.opError).isOk =
      readableBalances read leaveType balances := by
  cases balances with
  | array items =>
      exact (isOk_mapError _ _).trans (isOk_remainingLoop leaveType items)
  | object members =>
      exact (isOk_mapError _ _).trans
        (isOk_remainingLoop_str leaveType members Prod.fst)
  | str s =>
      exact (isOk_mapError _ _).trans
        (isOk_remainingLoop_str leaveType s fun c => [c])
  | _ => rfl

/-- `fetch_remaining` returns exactly on a 2xx answer that it can read. -/
theorem isOk_fetchRemaining (leaveType : LeaveType) (statusCode : Nat)
    (content : ByteArray) :
    (BalanceClient.fetchRemaining decode read leaveType
        (.response statusCode content)).isOk =
      (isSuccess statusCode && readableBody decode read leaveType content) := by
  rw [BalanceClient.fetchRemaining, responseJson_response]
  by_cases hstatus : isSuccess statusCode = true
  · rw [if_pos hstatus, hstatus, Bool.true_and, readableBody]
    cases decode content with
    | error e => rfl
    | ok payload =>
        cases payload with
        | object members => exact isOk_iterate_remainingLoop leaveType _
        | _ => rfl
  · rw [if_neg hstatus, Bool.eq_false_iff.mpr hstatus]
    rfl

variable (decode read) in
/-- **What the breaker sees** of a call is an exception exactly if it raises. -/
theorem outcome_cases (c : SequentialCall) :
    (c.raises decode read = true ∧
      ∃ exc, c.call.outcome decode read c.answer = .exception exc) ∨
    (c.raises decode read = false ∧
      ∃ value, c.call.outcome decode read c.answer = .value value) := by
  obtain ⟨call, answer, now⟩ := c
  cases answer with
  | transportError => cases call <;> exact Or.inl ⟨rfl, .httpError, rfl⟩
  | response statusCode content =>
      cases call with
      | fetchRemaining leaveType =>
          have hok : (BalanceClient.fetchRemaining decode read leaveType
              (.response statusCode content)).isOk = _ :=
            isOk_fetchRemaining leaveType statusCode content
          simp only [SequentialCall.raises, WrappedCall.outcome, WrappedCall.await,
            ← hok]
          cases BalanceClient.fetchRemaining decode read leaveType
            (.response statusCode content) with
          | error exc => exact Or.inl ⟨rfl, exc, rfl⟩
          | ok days => exact Or.inr ⟨rfl, .remaining days, rfl⟩
      | deductBalance => exact Or.inr ⟨rfl, _, rfl⟩
      | setRequestStatus => exact Or.inr ⟨rfl, _, rfl⟩

end Raising

/-! ## §3  The breaker as a counter -/

section Breaker

variable {decode : ByteArray → Except LoadError Json} {read : IntReader}
  {pb : Pybreaker} {cfg : BreakerConfig}

/-- The breaker is closed with this count, or has tripped. -/
def Shows (pb : Pybreaker) (breaker : pb.Breaker) : Option Nat → Prop
  | none => pb.currentState breaker = .STATE_OPEN
  | some count =>
      pb.currentState breaker = .STATE_CLOSED ∧ pb.failCounter breaker = count

/-- **Step lemma**: one call moves the breaker as it moves the counter. -/
theorem shows_invoke {breaker : pb.Breaker} {count : Option Nat}
    (h : Shows pb breaker count) (c : SequentialCall) :
    Shows pb (invoke decode read pb cfg breaker c)
      (Streak.step (SequentialCall.raises decode read) cfg.failMax count c) := by
  cases count with
  | none =>
      have hopen : pb.currentState breaker = .STATE_OPEN := h
      rw [invoke, invokeWithBreaker, if_pos hopen]
      exact hopen
  | some count =>
      obtain ⟨hclosed, hcount⟩ := h
      have hpass : ¬ pb.currentState breaker = .STATE_OPEN := by
        rw [hclosed]
        decide
      rw [invoke, invokeWithBreaker, if_neg hpass]
      rcases outcome_cases decode read c with
        ⟨hraises, exc, hout⟩ | ⟨hraises, value, hout⟩
      · have hlaw := pb.call_closed_fail cfg breaker c.now hclosed
        rw [hout, Streak.step, if_pos hraises]
        dsimp only [invokeWithBreakerResumed]
        rw [hcount] at hlaw
        by_cases hlast : count + 1 < cfg.failMax
        · rw [if_pos hlast] at hlaw ⊢
          exact ⟨hlaw.2.1, hlaw.2.2⟩
        · rw [if_neg hlast] at hlaw ⊢
          exact hlaw.2.1
      · rw [hout, Streak.step, if_neg (by rw [hraises]; decide)]
        rcases invokeWithBreakerResumed_value (E := ClientError) cfg breaker c.now
          value with ⟨hrefuses, -⟩ | ⟨-, b', hstate, hzero, he⟩
        · exact absurd hrefuses.1 hpass
        · dsimp only
          rw [he]
          exact ⟨hstate, hzero⟩

/-- **Run lemma**: so does a whole sequence. -/
theorem shows_invokeAll {breaker : pb.Breaker} {count : Option Nat}
    (h : Shows pb breaker count) (cs : List SequentialCall) :
    Shows pb (invokeAll decode read pb cfg breaker cs)
      (cs.foldl (Streak.step (SequentialCall.raises decode read) cfg.failMax)
        count) := by
  induction cs generalizing breaker count with
  | nil => exact h
  | cons c cs ih => exact ih (shows_invoke h c)

theorem shows_open_iff {breaker : pb.Breaker} {count : Option Nat}
    (h : Shows pb breaker count) :
    pb.currentState breaker = .STATE_OPEN ↔ count = none := by
  cases count with
  | none => exact iff_of_true h rfl
  | some count =>
      refine iff_of_false ?_ (Option.some_ne_none count)
      rw [h.1]
      decide

/-- A breaker that starts afresh is open after a sequence exactly if as many
calls in a row as it tolerates have raised. -/
theorem open_invokeAll_iff {breaker : pb.Breaker}
    (hclosed : pb.currentState breaker = .STATE_CLOSED)
    (hzero : pb.failCounter breaker = 0) (hmax : 0 < cfg.failMax)
    (cs : List SequentialCall) :
    pb.currentState (invokeAll decode read pb cfg breaker cs) = .STATE_OPEN ↔
      Streak.Has (SequentialCall.raises decode read) cfg.failMax cs := by
  have hstart : Shows pb breaker (some 0) := ⟨hclosed, hzero⟩
  rw [shows_open_iff (shows_invokeAll hstart cs)]
  exact Streak.foldl_step_zero_iff _ hmax

/-! ## §4  Three in a row -/

variable (decode read pb cfg) in
/-- After the sequence the breaker is open exactly if three consecutive
answers were unhealthy. -/
def TripsOnUnhealthy (breaker : pb.Breaker) (cs : List SequentialCall) : Prop :=
  pb.currentState (invokeAll decode read pb cfg breaker cs) = .STATE_OPEN ↔
    Streak.Has SequentialCall.isUnhealthy 3 cs

variable (decode read) in
/-- There are three raising calls in a row where there are three unhealthy
answers in a row, and nowhere else. -/
structure StreaksAgree (cs : List SequentialCall) : Prop where
  noticed : Streak.Has SequentialCall.isUnhealthy 3 cs →
    Streak.Has (SequentialCall.raises decode read) 3 cs
  warranted : Streak.Has (SequentialCall.raises decode read) 3 cs →
    Streak.Has SequentialCall.isUnhealthy 3 cs

instance (cs : List SequentialCall) : Decidable (StreaksAgree decode read cs) :=
  decidable_of_iff
    ((Streak.Has SequentialCall.isUnhealthy 3 cs →
        Streak.Has (SequentialCall.raises decode read) 3 cs) ∧
      (Streak.Has (SequentialCall.raises decode read) 3 cs →
        Streak.Has SequentialCall.isUnhealthy 3 cs))
    ⟨fun h => ⟨h.1, h.2⟩, fun h => ⟨h.noticed, h.warranted⟩⟩

/-- They do when every answer is counted right: then each call raises exactly
on an unhealthy answer. -/
theorem StreaksAgree.of_forall {cs : List SequentialCall}
    (h : ∀ c ∈ cs, c.isCountedRight decode read = true) :
    StreaksAgree decode read cs := by
  have hsame := Streak.has_congr (SequentialCall.raises decode read) (k := 3)
    fun c hc => raises_eq_isUnhealthy (h c hc)
  exact ⟨hsame.mpr, hsame.mp⟩

theorem failMax_eq_three (hcfg : cfg = leaveBalanceCb ∨ cfg = leaveRequestCb) :
    cfg.failMax = 3 := by
  rcases hcfg with rfl | rfl <;> rfl

/-- **When a breaker trips on an unhealthy downstream and only on that.** Over
any sequence of the wrapped calls from a fresh breaker on: exactly if the
calls that raise make up three in a row where the unhealthy answers do. -/
theorem breaker_trips_iff (hcfg : cfg = leaveBalanceCb ∨ cfg = leaveRequestCb)
    {breaker : pb.Breaker} (hclosed : pb.currentState breaker = .STATE_CLOSED)
    (hzero : pb.failCounter breaker = 0) (cs : List SequentialCall) :
    TripsOnUnhealthy decode read pb cfg breaker cs ↔ StreaksAgree decode read cs := by
  have hmax := failMax_eq_three hcfg
  have hopen : pb.currentState (invokeAll decode read pb cfg breaker cs) =
      .STATE_OPEN ↔ Streak.Has (SequentialCall.raises decode read) 3 cs := by
    rw [← hmax]
    exact open_invokeAll_iff hclosed hzero (by omega) cs
  unfold TripsOnUnhealthy
  rw [hopen]
  constructor
  · intro h
    exact ⟨h.mpr, h.mp⟩
  · intro h
    exact ⟨h.warranted, h.noticed⟩

end Breaker

/-- The calls of an outage, by three different clients. -/
def outageCalls : List SequentialCall :=
  [⟨.deductBalance, .response 409 ⟨#[]⟩, 1⟩,
   ⟨.fetchRemaining .CASUAL, .transportError, 2⟩,
   ⟨.deductBalance, .transportError, 3⟩,
   ⟨.setRequestStatus, .transportError, 4⟩,
   ⟨.deductBalance, .response 200 ⟨#[]⟩, 5⟩]

/-- No body is read in the sequences below. -/
def noBody : ByteArray → Except LoadError Json := fun _ => .error .jsonDecodeError

def noNumber : IntReader := ⟨fun _ => .error .valueError, fun _ => .error .valueError⟩

theorem breaker_trips_outageCalls :
    Streak.Has SequentialCall.isUnhealthy 3 outageCalls ∧
    TripsOnUnhealthy noBody noNumber Pybreaker.memory leaveBalanceCb
      ({} : CircuitMemoryStorage) outageCalls := by
  refine ⟨by decide, ?_⟩
  exact (breaker_trips_iff (Or.inl rfl) rfl rfl outageCalls).mpr
    (StreaksAgree.of_forall (by decide))

/-- Server errors of the deduction are not noticed, and refusals of the
balance lookup trip the breaker. -/
theorem breaker_misjudges :
    ¬ TripsOnUnhealthy noBody noNumber Pybreaker.memory leaveBalanceCb
        ({} : CircuitMemoryStorage)
        [⟨.deductBalance, .response 500 ⟨#[]⟩, 1⟩,
         ⟨.deductBalance, .response 500 ⟨#[]⟩, 2⟩,
         ⟨.deductBalance, .response 500 ⟨#[]⟩, 3⟩] ∧
    ¬ TripsOnUnhealthy noBody noNumber Pybreaker.memory leaveBalanceCb
        ({} : CircuitMemoryStorage)
        [⟨.fetchRemaining .CASUAL, .response 404 ⟨#[]⟩, 1⟩,
         ⟨.fetchRemaining .CASUAL, .response 404 ⟨#[]⟩, 2⟩,
         ⟨.fetchRemaining .CASUAL, .response 404 ⟨#[]⟩, 3⟩] := by
  constructor
  · intro h
    have hopen := h.mpr (by decide)
    revert hopen
    decide
  · intro h
    have hstreak := h.mp (by decide)
    revert hstreak
    decide

end Elms
