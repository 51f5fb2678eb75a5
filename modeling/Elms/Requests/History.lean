import Elms.Lib.Paging
import Elms.Requests.Service

/-!
# Leave history

`leave_history`, and a client that reads it page by page while the service
goes on: the pages are cut from snapshots of a list that grows at its end, so
the walk is a run of `Paging.Reader`.
-/

namespace Elms

open Transition

/-! ## §1  `leave_history` -/

/-- The query parameters of `GET /leaves/history`, within the bounds that the
handler relies on. -/
structure HistoryQuery where
  statusFilter : Option String := none
  page : Int := 1
  pageSize : Int := 10
  page_ge : 1 ≤ page := by decide
  pageSize_ge : 1 ≤ pageSize := by decide
deriving DecidableEq, Repr

/-- The route's defaults and bounds; it also caps `page_size` at 100. -/
def HistoryQuery.parse (statusFilter : Option String)
    (page pageSize : Option Int) : Except HTTPException HistoryQuery :=
  let p := page.getD 1
  let n := pageSize.getD 10
  if h : 1 ≤ p ∧ 1 ≤ n ∧ n ≤ 100 then
    .ok ⟨statusFilter, p, n, h.1, h.2.1⟩
  else
    .error (unprocessable
      ((if 1 ≤ p then [] else [["query", "page"]]) ++
       (if 1 ≤ n ∧ n ≤ 100 then [] else [["query", "page_size"]])))

structure LeaveHistoryResponse where
  items : List LeaveRequestResponse
  page : Int
  pageSize : Int
  total : Int
  totalPages : Int
deriving DecidableEq, Repr

/-- The status that the filter asks for; `none` keeps every request. -/
def wantedStatus (statusFilter : Option String) :
    Except HTTPException (Option LeaveStatus) :=
  match statusFilter with
  | none => .ok none
  | some text =>
      if text = "" ∨ PyStr.upper text = "ALL" then .ok none
      else
        match LeaveStatus.ofValue? (PyStr.upper text) with
        | some wanted => .ok (some wanted)
        | none => .error (badRequest s!"Invalid status filter '{text}'")

/-- The page of `requests` that the query asks for. -/
def HistoryQuery.pageOf (q : HistoryQuery) (requests : List LeaveRequest) :
    LeaveHistoryResponse :=
  let total : Int := requests.length
  let totalPages := if total ≠ 0 then (total + q.pageSize - 1) / q.pageSize else 0
  let start := (q.page - 1) * q.pageSize
  { items := (requests.drop start.toNat).take q.pageSize.toNat
    page := q.page
    pageSize := q.pageSize
    total := total
    totalPages := totalPages }

/-- `leave_history` -/
def leaveHistory (st : RequestStore) (caller : CallerIdentity)
    (q : HistoryQuery) : Response LeaveHistoryResponse :=
  match st.getRequestsForEmployee caller.userId with
  | none => .error internalServerError
  | some requests =>
      match wantedStatus q.statusFilter with
      | .error e => .error e
      | .ok wanted =>
          .ok (q.pageOf (requests.filter fun r => wanted.all fun s => r.status = s))

/-! ## §2  What a page holds -/

namespace RequestStore

/-- An employee's requests, in submission order. -/
def requestsOf (st : RequestStore) (employeeId : String) : List LeaveRequest :=
  st.requests.filter fun r => r.employeeId = employeeId

/-- Their ids. -/
def idsOf (st : RequestStore) (employeeId : String) : List String :=
  (st.requestsOf employeeId).map LeaveRequest.requestId

theorem nodup_idsOf {st : RequestStore} (hwf : st.WF) (e : String) :
    (st.idsOf e).Nodup :=
  nodup_map_filter hwf _

end RequestStore

/-- The filter is absent, empty, or `ALL` in any case. -/
def HistoryQuery.ReadsAll (q : HistoryQuery) : Prop :=
  ∀ text ∈ q.statusFilter, text = "" ∨ PyStr.upper text = "ALL"

instance (q : HistoryQuery) : Decidable q.ReadsAll :=
  inferInstanceAs (Decidable (∀ text ∈ q.statusFilter, _))

theorem leaveHistory_eq {st : RequestStore} (hwf : st.WF)
    (caller : CallerIdentity) {q : HistoryQuery} (hall : q.ReadsAll) :
    leaveHistory st caller q = .ok (q.pageOf (st.requestsOf caller.userId)) := by
  have hwanted : wantedStatus q.statusFilter = .ok none := by
    cases hf : q.statusFilter with
    | none => rfl
    | some text => exact if_pos (hall text hf)
  unfold leaveHistory
  rw [RequestStore.getRequestsForEmployee_eq hwf, hwanted]
  simp [RequestStore.requestsOf]

/-- The query for page `k`, counted from 0, with the same filter and size. -/
def HistoryQuery.atPage (q : HistoryQuery) (k : Nat) : HistoryQuery :=
  { q with
    page := k + 1
    page_ge := by omega }

theorem items_atPage (q : HistoryQuery) (k : Nat) (rs : List LeaveRequest) :
    ((q.atPage k).pageOf rs).items = Paging.page q.pageSize.toNat k rs := by
  obtain ⟨n, hn⟩ := Int.eq_ofNat_of_zero_le (by have := q.pageSize_ge; omega :
    (0 : Int) ≤ q.pageSize)
  have hstart : ((k : Int) + 1 - 1) * (n : Int) = ((k * n : Nat) : Int) := by
    rw [Int.add_sub_cancel, Nat.cast_mul]
  simp only [HistoryQuery.pageOf, HistoryQuery.atPage, Paging.page, hn, hstart]
  rfl

/-- The client stops at page `k` exactly if it reaches the end. -/
theorem totalPages_atPage_le_iff (q : HistoryQuery) (k : Nat)
    (rs : List LeaveRequest) :
    ((q.atPage k).pageOf rs).totalPages ≤ ((q.atPage k).pageOf rs).page ↔
      rs.length ≤ (k + 1) * q.pageSize.toNat := by
  obtain ⟨n, hn⟩ := Int.eq_ofNat_of_zero_le (by have := q.pageSize_ge; omega :
    (0 : Int) ≤ q.pageSize)
  have hpos : (0 : Int) < n := by
    have := q.pageSize_ge
    omega
  have hcast : (((k + 1) * n : Nat) : Int) = ((k : Int) + 1) * n := by
    rw [Nat.cast_mul, Nat.cast_add, Nat.cast_one]
  have hnext : ((k : Int) + 1 + 1) * n = ((k : Int) + 1) * n + n := by
    rw [Int.add_mul, Int.one_mul]
  simp only [HistoryQuery.pageOf, HistoryQuery.atPage, hn, Int.toNat_natCast]
  by_cases htotal : (rs.length : Int) = 0
  · rw [if_neg (not_not.mpr htotal)]
    omega
  · rw [if_pos htotal, ← Int.lt_add_one_iff, Int.ediv_lt_iff_lt_mul hpos, hnext]
    omega

/-! ## §3  The index only grows -/

namespace RequestService

variable {chart : OrgChart}

/-- **Step lemma**: a segment adds at most one id, at the end. -/
theorem idsOf_step {s s' : RequestService} {l : RequestLabel}
    (hl : step chart s l = some s') (e : String) :
    s.store.idsOf e <+: s'.store.idsOf e := by
  obtain ⟨out, he⟩ := step_eq_some_iff.mp hl
  rcases exec_cases he with ⟨hs, -⟩ |
    ⟨i, uuid, c, u, caller, payload, m, -, hadm, hs, -⟩ |
    ⟨caller, id, now, r, -, hacc, hs, -⟩ | ⟨id, body, now, r, -, hacc, hs, -⟩
  · rw [hs]
  · have hreq : s'.store.requests =
        s.store.requests ++ [payload.toRequest caller m uuid c u] := by
      rw [hs]
      exact RequestStore.requests_addRequest hadm.fresh
    unfold RequestStore.idsOf RequestStore.requestsOf
    rw [hreq, List.filter_append, List.map_append]
    exact List.prefix_append _ _
  · rw [hs]
    unfold RequestStore.idsOf RequestStore.requestsOf
    rw [RequestStore.map_filter_setStatus hacc.stored _ _ _ _ rfl _ rfl]
  · rw [hs]
    unfold RequestStore.idsOf RequestStore.requestsOf
    rw [RequestStore.map_filter_setStatus hacc.stored _ _ _ _ rfl _ rfl]

end RequestService

/-! ## §4  The walk -/

/-- The service, and the answers that one client has had to its calls for
pages 1, 2, 3, … -/
structure HistoryWalk where
  service : RequestService
  replies : List (Response LeaveHistoryResponse)
deriving DecidableEq

inductive WalkLabel where
  | service (l : RequestLabel)
  | readPage

namespace HistoryWalk

/-- The client stops at the first page whose number reaches the page count. -/
def finished (w : HistoryWalk) : Bool :=
  match w.replies.getLast? with
  | some (.ok response) => response.totalPages ≤ response.page
  | _ => false

/-- Whatever the service does, or the client's next call. -/
def step (chart : OrgChart) (caller : CallerIdentity) (q : HistoryQuery)
    (w : HistoryWalk) : WalkLabel → Option HistoryWalk
  | .service l =>
      (RequestService.step chart w.service l).map fun s => { w with service := s }
  | .readPage =>
      if w.finished then none
      else
        some { w with
          replies := w.replies ++
            [leaveHistory w.service.store caller (q.atPage w.replies.length)] }

/-- The concatenation of the returned pages. -/
def items (w : HistoryWalk) : List LeaveRequestResponse :=
  w.replies.flatMap fun
    | .ok response => response.items
    | .error _ => []

/-- The walk is where the page reader `r` is: the log is the employee's ids,
and the reader has read those of the returned items. -/
structure Shows (caller : CallerIdentity) (w : HistoryWalk)
    (r : Paging.Reader String) : Prop where
  log : r.log = w.service.store.idsOf caller.userId
  read : r.read = w.items.map LeaveRequest.requestId
  pages : r.pages = w.replies.length
  finished : r.finished = w.finished
  answered : ∀ reply ∈ w.replies, ∃ response, reply = .ok response
  own : ∀ item ∈ w.items, item.employeeId = caller.userId

variable {chart : OrgChart} {caller : CallerIdentity} {q : HistoryQuery}

theorem shows_start (s : RequestService) :
    Shows caller ⟨s, []⟩ (Paging.Reader.start (s.store.idsOf caller.userId)) where
  log := rfl
  read := rfl
  pages := rfl
  finished := rfl
  answered := fun _ h => by cases h
  own := fun _ h => by cases h

theorem map_page (n k : Nat) (rs : List LeaveRequest) :
    (Paging.page n k rs).map LeaveRequest.requestId =
      Paging.page n k (rs.map LeaveRequest.requestId) := by
  rw [Paging.page, Paging.page, List.map_take, List.map_drop]

/-- **Step lemma**: each step of the walk is one of the page reader. -/
theorem shows_step {w w' : HistoryWalk} {r : Paging.Reader String}
    {l : WalkLabel} (hall : q.ReadsAll) (hwf : w.service.store.WF)
    (h : Shows caller w r) (hl : step chart caller q w l = some w') :
    ∃ lab r', Paging.Reader.step q.pageSize.toNat r lab = some r' ∧
      Shows caller w' r' := by
  cases l with
  | service l =>
      obtain ⟨s, hs, rfl⟩ := Option.map_eq_some_iff.mp hl
      obtain ⟨new, hnew⟩ := RequestService.idsOf_step hs caller.userId
      refine ⟨.append new, _, rfl, ?_⟩
      exact ⟨by rw [← hnew, ← h.log], h.read, h.pages, h.finished, h.answered,
        h.own⟩
  | readPage =>
      rw [step] at hl
      split at hl
      · cases hl
      · rename_i hf
        cases hl
        rw [leaveHistory_eq hwf caller (show (q.atPage _).ReadsAll from hall)]
        set rs := w.service.store.requestsOf caller.userId with hrs
        set reply := (q.atPage w.replies.length).pageOf rs with hreply
        have hitems : reply.items =
            Paging.page q.pageSize.toNat w.replies.length rs := items_atPage q _ rs
        have hf' : r.finished = false := by
          rw [h.finished]
          simpa using hf
        refine ⟨.readPage, _, by rw [Paging.Reader.step, hf']; rfl, ?_⟩
        constructor
        · exact h.log
        · show r.read ++ Paging.page q.pageSize.toNat r.pages r.log = _
          rw [h.read, h.pages, h.log]
          simp only [items, List.flatMap_append, List.flatMap_singleton,
            List.map_append, hitems, map_page]
          rfl
        · simp [h.pages]
        · show decide (r.log.length ≤ (r.pages + 1) * q.pageSize.toNat) = _
          have hlen : r.log.length = rs.length := by
            rw [h.log, RequestStore.idsOf, List.length_map]
          simp only [finished, List.getLast?_append, List.getLast?_singleton,
            Option.some_or]
          rw [decide_eq_decide, hlen, h.pages]
          exact (totalPages_atPage_le_iff q _ rs).symm
        · intro x hx
          rcases List.mem_append.mp hx with hx | hx
          · exact h.answered x hx
          · exact ⟨reply, List.mem_singleton.mp hx⟩
        · intro x hx
          simp only [items, List.flatMap_append, List.flatMap_singleton,
            List.mem_append] at hx
          rcases hx with hx | hx
          · exact h.own x hx
          · rw [hitems, Paging.page] at hx
            have hmem := List.mem_of_mem_drop (List.mem_of_mem_take hx)
            simpa using (List.mem_filter.mp hmem).2

/-- **Run lemma**: a walk from `s` shows a run of the page reader. -/
theorem shows_reaches {s : RequestService} (hs : RequestService.Reachable chart s)
    (hall : q.ReadsAll) {w : HistoryWalk}
    (h : Reaches (step chart caller q) ⟨s, []⟩ w) :
    w.service.store.WF ∧ ∃ r,
      Reaches (Paging.Reader.step q.pageSize.toNat)
        (Paging.Reader.start (s.store.idsOf caller.userId)) r ∧
      Shows caller w r := by
  have key : w.service.Inv chart ∧ ∃ r,
      Reaches (Paging.Reader.step q.pageSize.toNat)
        (Paging.Reader.start (s.store.idsOf caller.userId)) r ∧
      Shows caller w r := by
    refine invariant (I := fun w : HistoryWalk => w.service.Inv chart ∧ ∃ r,
      Reaches (Paging.Reader.step q.pageSize.toNat)
        (Paging.Reader.start (s.store.idsOf caller.userId)) r ∧
      Shows caller w r) ?_ ⟨hs.inv, _, Reaches.refl _, shows_start s⟩ h
    rintro u l u' ⟨hI, r, hr, hsh⟩ hl
    obtain ⟨lab, r', hr', hsh'⟩ := shows_step hall hI.wf hsh hl
    refine ⟨?_, r', hr.trans (Reaches.single hr'), hsh'⟩
    cases l with
    | service l =>
        obtain ⟨s', hs', rfl⟩ := Option.map_eq_some_iff.mp hl
        exact RequestService.inv_step hI hs'
    | readPage =>
        rw [step] at hl
        split at hl
        · cases hl
        · cases hl
          exact hI
  exact ⟨key.1.wf, key.2⟩

/-- **A history walk misses and repeats nothing.** From the state in which
page 1 is read, whatever the service does between the pages: every call is
answered, and when the client stops, the returned items are without
repetition, its own, in submission order, and include all that were there at
page 1. -/
theorem history_walk {s : RequestService}
    (hs : RequestService.Reachable chart s) (hall : q.ReadsAll)
    {ls : List WalkLabel} {w : HistoryWalk}
    (hr : run (step chart caller q) ⟨s, []⟩ (.readPage :: ls) = some w)
    (hend : w.finished = true) :
    (∀ reply ∈ w.replies, ∃ response, reply = .ok response) ∧
    (w.items.map LeaveRequest.requestId).Nodup ∧
    (∀ item ∈ w.items, item.employeeId = caller.userId) ∧
    s.store.idsOf caller.userId <+: w.items.map LeaveRequest.requestId ∧
    w.items.map LeaveRequest.requestId <+:
      w.service.store.idsOf caller.userId := by
  obtain ⟨hwf, r, hreach, hsh⟩ := shows_reaches hs hall ⟨_, hr⟩
  obtain ⟨hold, horder⟩ :=
    Paging.Reader.finished_covers hreach (hsh.finished.trans hend)
  rw [hsh.read] at hold horder
  rw [hsh.log] at horder
  have hnodup := RequestStore.nodup_idsOf hwf caller.userId
  exact ⟨hsh.answered, horder.sublist.nodup hnodup, hsh.own, hold, horder⟩

/-- An employee has applied, withdrawn, and applied again. -/
def twoRequests : List RequestLabel :=
  [.applyLeave emp1 familyTrip ⟨738990⟩,
   .answerBalance 0 (.ok 12),
   .resumeApply 0 "request-1" 100 101,
   .cancelLeave emp1 "request-1" 102,
   .applyLeave emp1 familyTrip ⟨738990⟩,
   .answerBalance 1 (.ok 12),
   .resumeApply 1 "request-2" 103 104]

/-- Pages of one request, with a rejection and an application in between. -/
def interleavedPages : List WalkLabel :=
  [.service (.updateStatus "request-2"
     ⟨.REJECTED, MANAGER1_ID, some "No cover"⟩ 105),
   .service (.applyLeave emp1 familyTrip ⟨738990⟩),
   .service (.answerBalance 2 (.ok 12)),
   .service (.resumeApply 2 "request-3" 106 107),
   .readPage,
   .readPage]

theorem history_walk_interleavedPages :
    ∃ s, run (RequestService.step SEED_USERS) RequestService.empty
        twoRequests = some s ∧
      ∃ w, run (step SEED_USERS emp1 { statusFilter := some "all", pageSize := 1 })
          ⟨s, []⟩ (.readPage :: interleavedPages) = some w ∧
        w.finished = true ∧
        s.store.idsOf EMP1_ID = ["request-1", "request-2"] ∧
        s.store.idsOf EMP1_ID <+: w.items.map LeaveRequest.requestId ∧
        (w.items.map LeaveRequest.requestId).Nodup := by
  have hrun : ∃ s, run (RequestService.step SEED_USERS) RequestService.empty
        twoRequests = some s ∧
      ∃ w, run (step SEED_USERS emp1 { statusFilter := some "all", pageSize := 1 })
          ⟨s, []⟩ (.readPage :: interleavedPages) = some w ∧
        w.finished = true ∧
        s.store.idsOf EMP1_ID = ["request-1", "request-2"] := by
    decide +kernel
  obtain ⟨s, hs, w, hw, hend, hids⟩ := hrun
  obtain ⟨-, hnodup, -, hold, -⟩ :=
    history_walk ⟨_, hs⟩ (by decide +kernel) hw hend
  exact ⟨s, hs, w, hw, hend, hids, hold, hnodup⟩

end HistoryWalk

end Elms
