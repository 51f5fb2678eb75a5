import Elms.Lib.Itertools
import Elms.Lib.Transition
import Elms.Shared.ServiceClient

/-!
# The gateway's resolver

`api_gateway/consul_resolver.py`: the healthy instances that Consul reports,
in turn, and the static address when there are none. One rotation per service
is kept between the calls and started anew when the answer has changed. The
answers are never stale and the rotation is fair (`round_robin_fair`).
-/

namespace Elms

open Json

namespace ConsulResolver

def STATIC_SERVICE_MAP : Dict String (String × Nat) :=
  Dict.ofList
    [("auth-service", ("auth-service", 8001)),
     ("leave-balance-service", ("leave-balance-service", 8002)),
     ("leave-request-service", ("leave-request-service", 8003)),
     ("manager-service", ("manager-service", 8004)),
     ("notification-service", ("notification-service", 8005))]

/-! ## §1  `_query_consul` -/

section Query

variable (py : Interpreter) (decode : ByteArray → Except LoadError Json)

/-- The loop collects the URL of every entry that has one. -/
def allBaseUrls (entries : List Json) : Except OpError (List Text) :=
  entries.foldlM (fun baseUrls entry => do
    let url ← entryBaseUrl py entry
    .ok (baseUrls ++ url.toList)) []

/-- `_query_consul`, on what Consul answered for the service. -/
def queryConsul (answer : HttpAnswer) : Except ClientError (List Text) := do
  match ← lookUp decode answer with
  | none => .ok []
  | some value =>
      let entries ← value.iterate.mapError .opError
      (allBaseUrls py entries).mapError .opError

end Query

/-! ## §2  `resolve` -/

/-- An entry of `_round_robin`: the instances that a rotation was built from,
and the rotation. -/
structure Rotation where
  instanceKey : List Text
  cursor : Itertools.Cycle Text
  items_eq : cursor.items = instanceKey

abbrev RoundRobin := Dict String Rotation

/-- `itertools.cycle(instances)`, under its key. -/
def Rotation.start (instances : List Text) (h : instances ≠ []) : Rotation :=
  ⟨instances, Itertools.Cycle.start instances h, rfl⟩

/-- `next(cursor)` -/
def Rotation.next (r : Rotation) : Text × Rotation :=
  (r.cursor.next.1, ⟨r.instanceKey, r.cursor.next.2, r.items_eq⟩)

@[simp] theorem Rotation.taken_next (r : Rotation) :
    r.next.2.cursor.taken = r.cursor.taken + 1 := r.cursor.taken_next

/-- The rotation that a call goes on with: the saved one, unless the instances
have changed. -/
def rotation (roundRobin : RoundRobin) (serviceName : String)
    (instances : List Text) (h : instances ≠ []) : Rotation :=
  match roundRobin.get? serviceName with
  | none => Rotation.start instances h
  | some state =>
      if state.instanceKey ≠ instances then Rotation.start instances h else state

/-- `resolve`, on what `_query_consul` came to. -/
def resolve (roundRobin : RoundRobin) (serviceName : String)
    (queried : Except ClientError (List Text)) :
    Except ClientError Text × RoundRobin :=
  match queried with
  | .error exc => (.error exc, roundRobin)
  | .ok instances =>
      if h : instances = [] then
        (staticBaseUrl STATIC_SERVICE_MAP serviceName, roundRobin)
      else
        let drawn := (rotation roundRobin serviceName instances h).next
        (.ok drawn.1, roundRobin.set serviceName drawn.2)

/-! ## §3  One call -/

/-- A call of `resolve`, with the base URLs that Consul offers for it. -/
structure ResolveCall where
  serviceName : String
  instances : List Text
deriving DecidableEq

/-- What the call returns. -/
def answerTo (roundRobin : RoundRobin) (c : ResolveCall) :
    Except ClientError Text :=
  (resolve roundRobin c.serviceName (.ok c.instances)).1

/-- What it leaves behind. -/
def after (roundRobin : RoundRobin) (c : ResolveCall) : RoundRobin :=
  (resolve roundRobin c.serviceName (.ok c.instances)).2

/-- The position in its instances that the call chooses. -/
def position (roundRobin : RoundRobin) (c : ResolveCall) : Option Nat :=
  if h : c.instances = [] then none
  else some (rotation roundRobin c.serviceName c.instances h).cursor.position

theorem resolve_nil (roundRobin : RoundRobin) (serviceName : String) :
    resolve roundRobin serviceName (.ok []) =
      (staticBaseUrl STATIC_SERVICE_MAP serviceName, roundRobin) := rfl

theorem resolve_of_ne (roundRobin : RoundRobin) (serviceName : String)
    {instances : List Text} (h : instances ≠ []) :
    resolve roundRobin serviceName (.ok instances) =
      (.ok (rotation roundRobin serviceName instances h).next.1,
       roundRobin.set serviceName
         (rotation roundRobin serviceName instances h).next.2) :=
  dif_neg h

/-- A rotation is never stale: it is one of the call's own instances. -/
theorem items_rotation (roundRobin : RoundRobin) (serviceName : String)
    {instances : List Text} (h : instances ≠ []) :
    (rotation roundRobin serviceName instances h).cursor.items = instances := by
  rw [(rotation roundRobin serviceName instances h).items_eq]
  unfold rotation
  cases roundRobin.get? serviceName with
  | none => rfl
  | some state =>
      dsimp only
      split
      · rfl
      · rename_i hkey
        exact not_not.mp hkey

/-- **The URL is where the position says.** -/
theorem answerTo_of_ne (roundRobin : RoundRobin) {c : ResolveCall}
    (h : c.instances ≠ []) : ∃ i url, position roundRobin c = some i ∧
      c.instances[i]? = some url ∧ answerTo roundRobin c = .ok url := by
  have hget :=
    (rotation roundRobin c.serviceName c.instances h).cursor.getElem?_position
  rw [items_rotation] at hget
  refine ⟨_, _, dif_neg h, hget, ?_⟩
  rw [answerTo, resolve_of_ne roundRobin c.serviceName h]
  rfl

/-! ## §4  Stretches of calls -/

/-- The positions that a stretch of calls chooses for one service. -/
def positions (serviceName : String) : RoundRobin → List ResolveCall → List Nat
  | _, [] => []
  | roundRobin, c :: cs =>
      (if c.serviceName = serviceName then (position roundRobin c).toList else []) ++
        positions serviceName (after roundRobin c) cs

/-- Wherever there are instances of the service, they are the given ones. -/
def SameAnswers (serviceName : String) (instances : List Text)
    (stretch : List ResolveCall) : Prop :=
  ∀ c ∈ stretch, c.serviceName = serviceName →
    c.instances = [] ∨ c.instances = instances

instance (serviceName : String) (instances : List Text)
    (stretch : List ResolveCall) :
    Decidable (SameAnswers serviceName instances stretch) :=
  inferInstanceAs (Decidable (∀ c ∈ stretch, _ → _ ∨ _))

/-- **Step lemma**: a call for the service draws once from its rotation. -/
theorem rotation_after_self (roundRobin : RoundRobin) (serviceName : String)
    {instances : List Text} (h : instances ≠ []) :
    rotation (after roundRobin ⟨serviceName, instances⟩) serviceName instances h =
      (rotation roundRobin serviceName instances h).next.2 := by
  have hkey :
      (rotation roundRobin serviceName instances h).next.2.instanceKey = instances :=
    (rotation roundRobin serviceName instances h).items_eq.symm.trans
      (items_rotation roundRobin serviceName h)
  rw [after, resolve_of_ne roundRobin serviceName h, rotation, Dict.get?_set_self]
  exact if_neg (not_not.mpr hkey)

/-- Other services and empty answers leave it alone. -/
theorem rotation_after_other (roundRobin : RoundRobin) (serviceName : String)
    {instances : List Text} (h : instances ≠ []) {c : ResolveCall}
    (hc : c.serviceName ≠ serviceName ∨ c.instances = []) :
    rotation (after roundRobin c) serviceName instances h =
      rotation roundRobin serviceName instances h := by
  have hget : (after roundRobin c).get? serviceName =
      roundRobin.get? serviceName := by
    by_cases hnil : c.instances = []
    · rw [after, hnil, resolve_nil]
    · rw [after, resolve_of_ne roundRobin c.serviceName hnil]
      exact Dict.get?_set_ne _ _ (hc.resolve_right hnil).symm
  rw [rotation, rotation, hget]

/-- **Run lemma**: over a stretch with the same answers, the positions walk on
from where the rotation stands. -/
theorem positions_eq_walk {serviceName : String} {instances : List Text}
    (h : instances ≠ []) {stretch : List ResolveCall}
    (hsame : SameAnswers serviceName instances stretch)
    (roundRobin : RoundRobin) :
    positions serviceName roundRobin stretch =
      Itertools.walk instances.length
        (rotation roundRobin serviceName instances h).cursor.taken
        (positions serviceName roundRobin stretch).length := by
  induction stretch generalizing roundRobin with
  | nil => rfl
  | cons c cs ih =>
      have ih' := ih (fun c' hc' => hsame c' (List.mem_cons_of_mem _ hc'))
        (after roundRobin c)
      by_cases hskip : c.serviceName ≠ serviceName ∨ c.instances = []
      · -- the call chooses no position of this service
        have hnone : (if c.serviceName = serviceName then
            (position roundRobin c).toList else []) = [] := by
          rcases hskip with hname | hnil
          · exact if_neg hname
          · rw [position, dif_pos hnil]
            simp
        rw [rotation_after_other roundRobin serviceName h hskip] at ih'
        rw [positions, hnone, List.nil_append]
        exact ih'
      · obtain ⟨hname, hne⟩ := not_or.mp hskip
        have hname' : c.serviceName = serviceName := not_not.mp hname
        have hinst : c.instances = instances :=
          (hsame c List.mem_cons_self hname').resolve_left hne
        obtain ⟨name, offered⟩ := c
        subst hname' hinst
        rw [rotation_after_self roundRobin name h, Rotation.taken_next] at ih'
        have hhead : (position roundRobin ⟨name, offered⟩).toList =
            [(rotation roundRobin name offered h).cursor.taken % offered.length] := by
          rw [position, dif_neg h, Itertools.Cycle.position, items_rotation]
          rfl
        rw [positions, if_pos rfl, hhead, List.singleton_append, List.length_cons,
          Itertools.walk_succ]
        exact congrArg _ ih'

/-- **Round-robin is fair and never stale.** From any state of the resolver,
the URL is an element of the call's own answer, at the position that it
chooses, or the static one if the answer is empty. Over any stretch in which
the answers for a service are the same list or empty, with calls for other
services in between, no position of the list is chosen twice more often than
another. -/
theorem round_robin_fair (roundRobin : RoundRobin) :
    (∀ c : ResolveCall,
      (c.instances = [] → answerTo roundRobin c =
        staticBaseUrl STATIC_SERVICE_MAP c.serviceName) ∧
      (c.instances ≠ [] → ∃ i url, position roundRobin c = some i ∧
        c.instances[i]? = some url ∧ answerTo roundRobin c = .ok url)) ∧
    ∀ (serviceName : String) (instances : List Text) (stretch : List ResolveCall),
      SameAnswers serviceName instances stretch →
      ∀ i j, i < instances.length → j < instances.length →
        (positions serviceName roundRobin stretch).count i ≤
          (positions serviceName roundRobin stretch).count j + 1 := by
  constructor
  · intro c
    constructor
    · intro hnil
      rw [answerTo, hnil, resolve_nil]
    · exact answerTo_of_ne roundRobin
  · intro serviceName instances stretch hsame i j hi hj
    have hne : instances ≠ [] := List.length_pos_iff.mp (Nat.zero_lt_of_lt hi)
    rw [positions_eq_walk hne hsame roundRobin]
    exact Itertools.count_walk_le hi hj _ _

/-- Two instances of one service, an outage of Consul and another service in
between. -/
def mixedCalls : List ResolveCall :=
  [⟨"auth-service", [text "http://a:1", text "http://b:1"]⟩,
   ⟨"manager-service", [text "http://m:1"]⟩,
   ⟨"auth-service", []⟩,
   ⟨"auth-service", [text "http://a:1", text "http://b:1"]⟩,
   ⟨"auth-service", [text "http://a:1", text "http://b:1"]⟩]

theorem round_robin_fair_mixedCalls :
    positions "auth-service" Dict.empty mixedCalls = [0, 1, 0] ∧
    (positions "auth-service" Dict.empty mixedCalls).count 0 ≤
      (positions "auth-service" Dict.empty mixedCalls).count 1 + 1 := by
  refine ⟨by decide +kernel, ?_⟩
  exact (round_robin_fair Dict.empty).2 "auth-service"
    [text "http://a:1", text "http://b:1"] mixedCalls (by decide +kernel) 0 1
    (by decide) (by decide)

end ConsulResolver

end Elms
