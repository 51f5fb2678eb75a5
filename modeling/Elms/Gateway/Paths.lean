import Elms.Gateway.Main

/-!
# The path a request is forwarded to

The router matches the decoded path of the target. The path that is forwarded
is cut out of `scheme://host` + path again, so a `?` or `#` in the decoded path
cuts it short, a `/`, `?` or `#` in the `Host` header moves its start, and an
escape left in the decoded path is decoded a second time downstream.

Decoding only shortens, and `/` is never lost, so none of this can come out
right by accident, with one exception: a `Host` header that spells out a whole
path and ends it itself (`forwarded_as_routed_iff`). What it spells out is the
client's choice, an internal path included (`internal_path_reached`).
-/

namespace Elms

open Urllib

/-! ## §1  What the router matches -/

/-- A matched path begins with a `/` and a matched segment. -/
theorem matchPath_cons {seg : Segment} {segs : List Segment} {path : List Char}
    (h : matchPath (seg :: segs) path = true) :
    ∃ s rest, path = '/' :: s ++ rest ∧ seg.Matches s ∧ '/' ∉ s ∧
      matchPath segs rest = true := by
  rcases path with _ | ⟨c, rest⟩
  · simp [matchPath] at h
  by_cases hc : c = '/'
  · subst hc
    simp only [matchPath, Bool.and_eq_true, decide_eq_true_eq] at h
    refine ⟨rest.takeWhile (· ≠ '/'), rest.dropWhile (· ≠ '/'), ?_, h.1, ?_, h.2⟩
    · rw [List.cons_append, List.takeWhile_append_dropWhile]
    · intro hmem
      have hne := List.mem_takeWhile_imp hmem
      simp at hne
  · simp [matchPath, hc] at h

theorem matchPath_nil {path : List Char} (h : matchPath [] path = true) :
    path = [] := by
  cases path with
  | nil => rfl
  | cons c cs => simp [matchPath] at h

/-- The first segments of the routes. None of them is `internal`. -/
theorem root_of_mem_routes {r : Route} (h : r ∈ Router.routes) :
    ∃ l segs, r.segments = .lit l :: segs ∧
      l ∈ ["auth", "employees", "leaves", "manager"] := by
  simp only [Router.routes, List.mem_cons, List.not_mem_nil, or_false] at h
  rcases h with rfl | rfl | rfl | rfl | rfl | rfl | rfl | rfl | rfl
  all_goals exact ⟨_, _, rfl, by decide⟩

/-- `route` is the route of the path. -/
structure Routed (route : Route) (path : List Char) : Prop where
  mem : route ∈ Router.routes
  matched : route.matchesPath path = true

theorem routed_of_matchRoute {method : String} {path : List Char}
    {route : Route} (h : Router.matchRoute method path = some route) :
    Routed route path := by
  unfold Router.matchRoute at h
  have hmatch := List.find?_some h
  simp only [decide_eq_true_eq] at hmatch
  exact ⟨List.mem_of_find?_eq_some h, hmatch.2⟩

def INTERNAL : List Char := "/internal/".toList

namespace Routed

variable {route : Route} {path : List Char}

/-- The segments match the path, or all of it but a final line feed. -/
theorem exists_matchPath (h : Routed route path) :
    ∃ body, (path = body ∨ path = body ++ ['\n']) ∧
      matchPath route.segments body = true := by
  have hmatch := h.matched
  simp only [Route.matchesPath, Bool.or_eq_true, Bool.and_eq_true,
    decide_eq_true_eq] at hmatch
  rcases hmatch with hmatch | ⟨hlast, hmatch⟩
  · exact ⟨path, Or.inl rfl, hmatch⟩
  · exact ⟨path.dropLast, Or.inr (List.dropLast_append_getLast? _ hlast).symm, hmatch⟩

example : Routed Router.applyLeave "/leaves\n".toList :=
  ⟨by decide, by decide +kernel⟩

/-- A routed path begins like one of the four roots. -/
theorem root (h : Routed route path) :
    ∃ c rest, path = '/' :: c :: rest ∧ c ∈ ['a', 'e', 'l', 'm'] := by
  obtain ⟨l, segs, hsegs, hl⟩ := root_of_mem_routes h.mem
  obtain ⟨body, hbody, hmatch⟩ := h.exists_matchPath
  rw [hsegs] at hmatch
  obtain ⟨s, rest, rfl, hs, -, -⟩ := matchPath_cons hmatch
  have hhead : ∀ l ∈ ["auth", "employees", "leaves", "manager"],
      l.toList.head? ∈ [some 'a', some 'e', some 'l', some 'm'] := by
    decide +kernel
  have hl' := hhead l hl
  rw [← show s = l.toList from hs] at hl'
  rcases s with _ | ⟨c, cs⟩
  · simp at hl'
  · have hc : c ∈ ['a', 'e', 'l', 'm'] := by simpa using hl'
    rcases hbody with rfl | rfl
    · exact ⟨c, cs ++ rest, rfl, hc⟩
    · exact ⟨c, cs ++ rest ++ ['\n'], rfl, hc⟩

/-- No routed path is an internal one, or the root. -/
theorem not_internal (h : Routed route path) : ¬ INTERNAL <+: path := by
  obtain ⟨c, rest, rfl, hc⟩ := h.root
  have hint : INTERNAL = '/' :: 'i' :: "nternal/".toList := by decide +kernel
  rw [hint, List.cons_prefix_cons, List.cons_prefix_cons]
  rintro ⟨-, rfl, -⟩
  exact absurd hc (by decide)

theorem ne_root (h : Routed route path) : path ≠ ['/'] := by
  obtain ⟨c, rest, rfl, -⟩ := h.root
  simp

end Routed

/-! ## §2  The path cut out of the URL -/

/-- The text that `request.url.path` is cut out of. -/
theorem urlPath_eq_some {checkNetloc : List Char → Bool}
    {request : HttpRequest} {urlPath : List Char}
    (h : request.urlPath checkNetloc = some urlPath) :
    urlPath = pathAfterAuthority (removeUnsafe request.urlRest) := by
  unfold HttpRequest.urlPath at h
  obtain ⟨r, hr, rfl⟩ := Option.map_eq_some_iff.mp h
  have hscheme : ∃ c cs, request.scheme.value = c :: cs ∧
      c.isAlpha = true ∧ ∀ x ∈ c :: cs, isSchemeChar x = true := by
    cases request.scheme with
    | http =>
        exact ⟨'h', "ttp".toList, rfl, by decide,
          List.all_eq_true.mp (by decide +kernel)⟩
    | https =>
        exact ⟨'h', "ttps".toList, rfl, by decide,
          List.all_eq_true.mp (by decide +kernel)⟩
  obtain ⟨c, cs, hvalue, hc, hcs⟩ := hscheme
  rw [hvalue] at hr
  exact path_urlsplit hc hcs hr

/-- What is left of a query has no part in the path. -/
theorem takeWhile_append_query (s q : List Char) :
    (s ++ removeUnsafe (if q = [] then [] else '?' :: q)).takeWhile
      (¬ endsPath ·) = s.takeWhile (¬ endsPath ·) := by
  have hq : (removeUnsafe (if q = [] then [] else '?' :: q)).takeWhile
      (¬ endsPath ·) = [] := by
    split
    · rfl
    · have hsafe : removeUnsafe ('?' :: q) = '?' :: removeUnsafe q := by
        simp [removeUnsafe, isUnsafe]
      rw [hsafe]
      rfl
  rw [List.takeWhile_append, hq, List.append_nil]
  split
  · rename_i hlen
    exact ((List.takeWhile_prefix _).eq_of_length hlen).symm
  · rfl

theorem removeUnsafe_slash (s : List Char) :
    removeUnsafe ('/' :: s) = '/' :: removeUnsafe s := by
  simp [removeUnsafe, isUnsafe]

theorem count_slash_removeUnsafe (s : List Char) :
    (removeUnsafe s).count '/' = s.count '/' :=
  List.count_filter (by decide)

/-! ## §3  A clean `Host` header -/

/-- Nothing in the decoded path means anything to a URL. -/
def PathClean (path : List Char) : Prop :=
  (path.all fun c => !endsPath c && !isUnsafe c) = true ∧
    hasEscape path = false

instance (path : List Char) : Decidable (PathClean path) :=
  inferInstanceAs (Decidable (_ ∧ _))

/-- **Cutting, cleaning and decoding a path** all shorten it unless they leave
it alone. -/
theorem unquote_takeWhile_removeUnsafe_eq_iff {path : List Char} :
    unquote ((removeUnsafe path).takeWhile (¬ endsPath ·)) = path ↔
      PathClean path := by
  constructor
  · intro h
    have hcut : ((removeUnsafe path).takeWhile (¬ endsPath ·)).length ≤
        (removeUnsafe path).length := (List.takeWhile_prefix _).length_le
    have hsafe : (removeUnsafe path).length ≤ path.length :=
      List.length_filter_le _ _
    have hlen := length_unquote ((removeUnsafe path).takeWhile (¬ endsPath ·))
    rw [h] at hlen
    -- all three lengths are the same, so nothing was cut or removed
    have hsame : removeUnsafe path = path :=
      (List.filter_sublist).eq_of_length (by
        show (removeUnsafe path).length = path.length
        omega)
    have hwhole : path.takeWhile (¬ endsPath ·) = path := by
      apply (List.takeWhile_prefix _).eq_of_length
      rw [hsame] at hcut hlen
      omega
    rw [hsame, hwhole] at h
    refine ⟨List.all_eq_true.mpr fun c hc => ?_, unquote_eq_self_iff.mp h⟩
    have hends := List.takeWhile_eq_self_iff.mp hwhole c hc
    have hun := List.filter_eq_self.mp hsame c hc
    simpa using And.intro hends hun
  · rintro ⟨hall, hescape⟩
    have hall' := List.all_eq_true.mp hall
    have hsame : removeUnsafe path = path := by
      refine List.filter_eq_self.mpr fun c hc => ?_
      have hc' := hall' c hc
      simp only [Bool.and_eq_true] at hc'
      simpa using hc'.2
    have hwhole : path.takeWhile (¬ endsPath ·) = path := by
      refine List.takeWhile_eq_self_iff.mpr fun c hc => ?_
      have hc' := hall' c hc
      simp only [Bool.and_eq_true] at hc'
      simpa using hc'.1
    rw [hsame, hwhole]
    exact unquote_eq_self_iff.mpr hescape

/-! ## §4  A `/` in the `Host` header -/

/-- A character of the fixed segments. -/
def isPlain (c : Char) : Bool :=
  c ≠ '/' && c ≠ '%' && !endsPath c && !isUnsafe c

theorem segment_eq {a b s t : List Char} (ha : '/' ∉ a) (hb : '/' ∉ b)
    (h : a ++ '/' :: s = b ++ '/' :: t) : a = b ∧ s = t := by
  have htake : ∀ {u : List Char} (v : List Char), '/' ∉ u →
      (u ++ '/' :: v).takeWhile (· ≠ '/') = u := by
    intro u v hu
    rw [List.takeWhile_append_of_pos]
    · simp
    · intro c hc
      rw [decide_eq_true_iff]
      rintro rfl
      exact hu hc
  have hab : a = b := by
    rw [← htake s ha, h, htake t hb]
  rw [hab] at h
  exact ⟨hab, by simpa using h⟩

/-- A path of fixed segments has no special character. -/
theorem endsPath_of_lits {lits : List String}
    (hplain : (lits.all fun l => l.toList.all isPlain) = true) :
    ∀ {path : List Char}, matchPath (lits.map Segment.lit) path = true →
      ∀ c ∈ path, endsPath c = false := by
  induction lits with
  | nil =>
      intro path h c hc
      rw [matchPath_nil h] at hc
      cases hc
  | cons l lits ih =>
      intro path h c hc
      rw [List.all_cons, Bool.and_eq_true] at hplain
      obtain ⟨s, rest, rfl, hs, -, hrest⟩ := matchPath_cons h
      rcases List.mem_append.mp hc with hc | hc
      · rcases List.mem_cons.mp hc with rfl | hc
        · rfl
        · rw [show s = l.toList from hs] at hc
          have hpc := List.all_eq_true.mp hplain.1 c hc
          simp only [isPlain, Bool.and_eq_true, Bool.not_eq_true'] at hpc
          exact hpc.1.2
      · exact ih hplain.2 hrest c hc

/-- A path with a `?` or `#`, up to the first of them and from it on. The
segment after the root is not the root again. -/
structure Cut (path : List Char) (root before : List Char) (x : Char)
    (after last : List Char) : Prop where
  eq : path = '/' :: root ++ '/' :: (before ++ x :: after ++ '/' :: last)
  plain : root.all isPlain = true
  ends : endsPath x = true
  before_ends : ∀ c ∈ before, endsPath c = false
  after_slash : '/' ∉ after
  last_slash : '/' ∉ last
  root_once : ∀ t, root ++ '/' :: t ≠ before ++ x :: after ++ '/' :: last

theorem plain_of_mem {s : List Char} (h : s.all isPlain = true) {c : Char}
    (hc : c ∈ s) : c ≠ '/' ∧ c ≠ '%' ∧ endsPath c = false := by
  have hpc := List.all_eq_true.mp h c hc
  simp only [isPlain, Bool.and_eq_true, Bool.not_eq_true', decide_eq_true_eq]
    at hpc
  exact ⟨hpc.1.1.1, hpc.1.1.2, hpc.1.2⟩

/-- The middle of a route, between its root and its parameter: nothing, or one
more fixed segment. -/
def Middle (root middle : List Char) : Prop :=
  middle = [] ∨
    ∃ m, middle = m ++ ['/'] ∧ m.all isPlain = true ∧ root ≠ m

theorem Middle.endsPath_eq {root middle : List Char} (h : Middle root middle) :
    ∀ c ∈ middle, endsPath c = false := by
  intro c hc
  rcases h with rfl | ⟨m, rfl, hm, -⟩
  · cases hc
  · rcases List.mem_append.mp hc with hc | hc
    · exact (plain_of_mem hm hc).2.2
    · rw [List.mem_singleton.mp hc]
      rfl

theorem exists_cut_of_param {root middle s last : List Char}
    (hroot : root.all isPlain = true) (hmiddle : Middle root middle)
    (hlast : last.all isPlain = true) (hs : '/' ∉ s)
    (hends : ∃ c ∈ s, endsPath c = true) :
    ∃ before x after,
      Cut ('/' :: root ++ '/' :: (middle ++ s ++ '/' :: last)) root before x
        after last := by
  have hfind : (s.find? endsPath).isSome = true := by
    rw [List.find?_isSome]
    exact hends
  obtain ⟨x, hx⟩ := Option.isSome_iff_exists.mp hfind
  obtain ⟨hxe, a, after, hsplit, ha⟩ := List.find?_eq_some_iff_append.mp hx
  have hrootslash : '/' ∉ root := fun h => (plain_of_mem hroot h).1 rfl
  rw [hsplit] at hs ⊢
  refine ⟨middle ++ a, x, after, ⟨by simp, hroot, hxe, ?_, ?_, ?_, ?_⟩⟩
  · intro c hc
    rcases List.mem_append.mp hc with hc | hc
    · exact hmiddle.endsPath_eq c hc
    · simpa using ha c hc
  · intro h
    apply hs
    simp [h]
  · exact fun h => (plain_of_mem hlast h).1 rfl
  · intro t h
    rcases hmiddle with rfl | ⟨m, rfl, hm, hne⟩
    · -- the parameter would be the root, which has no special character
      have hparam : root = a ++ x :: after := by
        apply (segment_eq hrootslash hs (s := t) (t := last) ?_).1
        simpa using h
      have hxroot : x ∈ root := by
        rw [hparam]
        simp
      rw [(plain_of_mem hroot hxroot).2.2] at hxe
      cases hxe
    · have hmslash : '/' ∉ m := fun h => (plain_of_mem hm h).1 rfl
      apply hne
      apply (segment_eq hrootslash hmslash (s := t)
        (t := a ++ x :: after ++ '/' :: last) ?_).1
      simpa using h

/-- A route with a parameter. -/
theorem exists_cut_of_matchPath {root last : String} {middle : List String}
    {path : List Char} (hroot : root.toList.all isPlain = true)
    (hlast : last.toList.all isPlain = true)
    (hmiddle : middle = [] ∨ ∃ m : String, middle = [m] ∧
      m.toList.all isPlain = true ∧ root ≠ m)
    (h : matchPath (.lit root :: (middle.map Segment.lit ++
      [.param, .lit last])) path = true)
    (hends : ∃ c ∈ path, endsPath c = true) :
    ∃ before x after, Cut path root.toList before x after last.toList := by
  obtain ⟨r, rest, rfl, hr, -, hrest⟩ := matchPath_cons h
  obtain rfl : r = root.toList := hr
  -- the parameter and the last segment, behind a middle
  have hparam : ∀ {rest : List Char},
      matchPath [.param, .lit last] rest = true →
      ∃ s, rest = '/' :: s ++ '/' :: last.toList ∧ '/' ∉ s := by
    intro rest h
    obtain ⟨s, rest', rfl, -, hs, h'⟩ := matchPath_cons h
    obtain ⟨e, rest'', rfl, he, -, h''⟩ := matchPath_cons h'
    rw [matchPath_nil h'', show e = last.toList from he]
    exact ⟨s, by simp, hs⟩
  obtain ⟨mid, s, hrest', hmid, hs⟩ : ∃ mid s,
      rest = '/' :: (mid ++ s ++ '/' :: last.toList) ∧
      Middle root.toList mid ∧ '/' ∉ s := by
    rcases hmiddle with rfl | ⟨m, rfl, hm, hne⟩
    · obtain ⟨s, rfl, hs⟩ := hparam hrest
      exact ⟨[], s, by simp, Or.inl rfl, hs⟩
    · obtain ⟨m', rest', rfl, hm', -, h'⟩ := matchPath_cons hrest
      obtain rfl : m' = m.toList := hm'
      obtain ⟨s, rfl, hs⟩ := hparam h'
      refine ⟨m.toList ++ ['/'], s, by simp, Or.inr ⟨_, rfl, hm, ?_⟩, hs⟩
      exact fun h => hne (String.toList_inj.mp h)
  subst hrest'
  refine exists_cut_of_param hroot hmid hlast hs ?_
  -- only the parameter can have a special character
  obtain ⟨c, hc, hce⟩ := hends
  refine ⟨c, ?_, hce⟩
  have hslash : c ≠ '/' := by
    rintro rfl
    cases hce
  simp only [List.cons_append, List.mem_cons, List.mem_append, hslash,
    false_or] at hc
  rcases hc with hc | (hc | hc) | hc
  · rw [(plain_of_mem hroot hc).2.2] at hce
    cases hce
  · rw [hmid.endsPath_eq c hc] at hce
    cases hce
  · exact hc
  · rw [(plain_of_mem hlast hc).2.2] at hce
    cases hce

/-- A line feed at the end belongs to the last segment. -/
theorem Cut.concat {path root before : List Char} {x : Char}
    {after last : List Char} (h : Cut path root before x after last) :
    Cut (path ++ ['\n']) root before x after (last ++ ['\n']) where
  eq := by
    rw [h.eq]
    simp
  plain := h.plain
  ends := h.ends
  before_ends := h.before_ends
  after_slash := h.after_slash
  last_slash := by simpa using h.last_slash
  root_once := by
    intro t ht
    have hsplit : root ++ '/' :: t =
        (before ++ x :: after ++ '/' :: last) ++ ['\n'] := by
      rw [ht]
      simp
    rcases List.eq_nil_or_concat t with rfl | ⟨t, c, rfl⟩
    · have hend := List.append_inj_right' hsplit rfl
      simp at hend
    · have hinit : root ++ '/' :: t ++ [c] =
          (before ++ x :: after ++ '/' :: last) ++ ['\n'] := by
        rw [← hsplit]
        simp
      exact h.root_once t (List.append_inj_left' hinit rfl)

theorem exists_cut_of_mem_routes {route : Route} {path : List Char}
    (hmem : route ∈ Router.routes) (hmatch : matchPath route.segments path = true)
    (hends : ∃ c ∈ path, endsPath c = true) :
    ∃ root before x after last, Cut path root before x after last := by
  have fixed : ∀ lits : List String,
      (lits.all fun l => l.toList.all isPlain) = true →
      matchPath (lits.map Segment.lit) path = true →
      ∃ root before x after last, Cut path root before x after last := by
    intro lits hplain hmatch
    obtain ⟨c, hc, hce⟩ := hends
    rw [endsPath_of_lits hplain hmatch c hc] at hce
    cases hce
  have param : ∀ {root last : String} (middle : List String),
      root.toList.all isPlain = true → last.toList.all isPlain = true →
      (middle = [] ∨ ∃ m : String, middle = [m] ∧
        m.toList.all isPlain = true ∧ root ≠ m) →
      matchPath (.lit root :: (middle.map Segment.lit ++
        [.param, .lit last])) path = true →
      ∃ root before x after last, Cut path root before x after last := by
    intro root last middle hroot hlast hmiddle hmatch
    obtain ⟨before, x, after, hcut⟩ :=
      exists_cut_of_matchPath hroot hlast hmiddle hmatch hends
    exact ⟨_, before, x, after, _, hcut⟩
  simp only [Router.routes, List.mem_cons, List.not_mem_nil, or_false] at hmem
  rcases hmem with rfl | rfl | rfl | rfl | rfl | rfl | rfl | rfl | rfl
  · exact fixed ["auth", "login"] (by decide +kernel) hmatch
  · exact fixed ["employees", "me", "balances"] (by decide +kernel)
      hmatch
  · exact param [] (by decide +kernel) (by decide +kernel)
      (Or.inl rfl) hmatch
  · exact fixed ["leaves"] (by decide +kernel) hmatch
  · exact fixed ["leaves", "history"] (by decide +kernel) hmatch
  · exact param [] (by decide +kernel) (by decide +kernel)
      (Or.inl rfl) hmatch
  · exact fixed ["manager", "requests"] (by decide +kernel) hmatch
  · exact param ["requests"] (by decide +kernel) (by decide +kernel)
      (Or.inr ⟨_, rfl, by decide +kernel, by decide⟩) hmatch
  · exact param ["requests"] (by decide +kernel) (by decide +kernel)
      (Or.inr ⟨_, rfl, by decide +kernel, by decide⟩) hmatch

theorem Routed.exists_cut {route : Route} {path : List Char}
    (h : Routed route path) (hends : ∃ c ∈ path, endsPath c = true) :
    ∃ root before x after last, Cut path root before x after last := by
  obtain ⟨body, hbody, hmatch⟩ := h.exists_matchPath
  obtain ⟨c, hc, hce⟩ := hends
  rcases hbody with rfl | rfl
  · exact exists_cut_of_mem_routes h.mem hmatch ⟨c, hc, hce⟩
  · have hcbody : c ∈ body := by
      rcases List.mem_append.mp hc with hc | hc
      · exact hc
      · rw [List.mem_singleton.mp hc] at hce
        cases hce
    obtain ⟨root, before, x, after, last, hcut⟩ :=
      exists_cut_of_mem_routes h.mem hmatch ⟨c, hcbody, hce⟩
    exact ⟨root, before, x, after, _, hcut.concat⟩

/-- What is left of a path that is cut. -/
theorem Cut.takeWhile_eq {path root before : List Char} {x : Char}
    {after last : List Char} (h : Cut path root before x after last) :
    (removeUnsafe path).takeWhile (¬ endsPath ·) =
      '/' :: root ++ '/' :: removeUnsafe before := by
  have hroot : removeUnsafe root = root := by
    refine List.filter_eq_self.mpr fun c hc => ?_
    have hpc := List.all_eq_true.mp h.plain c hc
    simp only [isPlain, Bool.and_eq_true] at hpc
    simpa using hpc.2
  have hx : removeUnsafe (x :: after ++ '/' :: last) =
      x :: removeUnsafe (after ++ '/' :: last) := by
    have hends := h.ends
    simp only [endsPath, Bool.or_eq_true, decide_eq_true_eq] at hends
    rcases hends with rfl | rfl
    · simp [removeUnsafe, isUnsafe]
    · simp [removeUnsafe, isUnsafe]
  have hsafe : removeUnsafe path =
      ('/' :: root ++ '/' :: removeUnsafe before) ++
        x :: removeUnsafe (after ++ '/' :: last) := by
    rw [h.eq, removeUnsafe_append, removeUnsafe_slash, removeUnsafe_slash,
      List.append_assoc before, removeUnsafe_append, hroot, hx]
    simp
  rw [hsafe, List.takeWhile_append_of_pos]
  · rw [List.takeWhile_cons_of_neg (by simp [h.ends]), List.append_nil]
  · intro c hc
    rw [decide_eq_true_iff]
    intro hce
    simp only [List.cons_append, List.mem_cons, List.mem_append] at hc
    rcases hc with rfl | hc | rfl | hc
    · cases hce
    · rw [(plain_of_mem h.plain hc).2.2] at hce
      cases hce
    · cases hce
    · rw [h.before_ends c (List.mem_of_mem_filter hc)] at hce
      cases hce

/-- **A path moved to the right** does not come back: the `/` in front is one
too many, unless the path is cut, and then its root comes a segment late. -/
theorem Routed.shifted_ne {route : Route} {path : List Char}
    (h : Routed route path) (front : List Char) :
    unquote ('/' :: front ++ (removeUnsafe path).takeWhile (¬ endsPath ·)) ≠
      path := by
  intro heq
  by_cases hends : ∃ c ∈ path, endsPath c = true
  · obtain ⟨root, before, x, after, last, hcut⟩ := h.exists_cut hends
    have hrootslash : '/' ∉ root := fun h => (plain_of_mem hcut.plain h).1 rfl
    have hroot : unquote root = root :=
      unquote_of_not_mem fun h => (plain_of_mem hcut.plain h).2.1 rfl
    have hsegments : '/' :: (unquote front ++ '/' :: (root ++
        '/' :: unquote (removeUnsafe before))) =
        '/' :: (root ++ '/' :: (before ++ x :: after ++ '/' :: last)) := by
      rw [hcut.takeWhile_eq, hcut.eq] at heq
      simp only [List.cons_append] at heq
      rw [unquote_slash, unquote_append_slash, unquote_append_slash, hroot] at heq
      simpa using heq
    have hsegments' := List.tail_eq_of_cons_eq hsegments
    -- no `/` is left over for what the `Host` header puts in front
    have hfront : '/' ∉ unquote front := by
      have hcount := congrArg (List.count '/') hsegments'
      have hkept := count_slash_unquote (removeUnsafe before)
      have hx : x ≠ '/' := by
        rintro rfl
        cases hcut.ends
      simp only [List.count_append, List.count_cons_self,
        List.count_cons_of_ne hx, List.count_eq_zero_of_not_mem hrootslash,
        List.count_eq_zero_of_not_mem hcut.after_slash,
        List.count_eq_zero_of_not_mem hcut.last_slash] at hcount
      rw [count_slash_removeUnsafe] at hkept
      exact List.count_eq_zero.mp (by omega)
    exact hcut.root_once _ (segment_eq hfront hrootslash hsegments').2
  · have hwhole : (removeUnsafe path).takeWhile (¬ endsPath ·) =
        removeUnsafe path := by
      refine List.takeWhile_eq_self_iff.mpr fun c hc => ?_
      rw [decide_eq_true_iff]
      exact fun hce => hends ⟨c, List.mem_of_mem_filter hc, hce⟩
    have hcount := count_slash_unquote
      ('/' :: front ++ (removeUnsafe path).takeWhile (¬ endsPath ·))
    rw [heq, hwhole, List.count_append, List.count_cons_self,
      count_slash_removeUnsafe] at hcount
    omega

/-! ## §5  The path that arrives -/

/-- The `Host` header is an authority and nothing more. -/
def HttpRequest.HostClean (request : HttpRequest) : Prop :=
  (request.host.all fun c => !isDelim c) = true

/-- The `Host` header has a path of its own, ends it with a `?` or `#`, and it
decodes to the path of the request. -/
def HttpRequest.HostSpellsPath (request : HttpRequest) : Prop :=
  (request.host.any endsPath) = true ∧
    unquote (pathAfterAuthority (removeUnsafe request.host)) = request.path

/-- The condition under which the routed path is the forwarded one, when no
`.` or `..` segment is removed from it. -/
def HttpRequest.KeepsPath (request : HttpRequest) : Prop :=
  (request.HostClean ∧ PathClean request.path) ∨ request.HostSpellsPath

instance (request : HttpRequest) : Decidable request.HostClean :=
  inferInstanceAs (Decidable (_ = true))

instance (request : HttpRequest) : Decidable request.HostSpellsPath :=
  inferInstanceAs (Decidable (_ ∧ _))

instance (request : HttpRequest) : Decidable request.KeepsPath :=
  inferInstanceAs (Decidable (_ ∨ _))

theorem mem_removeUnsafe_of_isDelim {c : Char} {s : List Char} (hc : c ∈ s)
    (hd : isDelim c = true) : c ∈ removeUnsafe s := by
  apply List.mem_filter.mpr
  refine ⟨hc, ?_⟩
  simp only [isDelim, Bool.or_eq_true, decide_eq_true_eq] at hd
  rcases hd with (rfl | rfl) | rfl
  · rfl
  · rfl
  · rfl

/-- **The path cut out of the URL** decodes to the routed one exactly under
the condition. -/
theorem unquote_urlPath_eq_iff {checkNetloc : List Char → Bool}
    {request : HttpRequest} {route : Route} {urlPath : List Char}
    (hr : Routed route request.path)
    (hurl : request.urlPath checkNetloc = some urlPath) :
    unquote urlPath = request.path ↔ request.KeepsPath := by
  rw [urlPath_eq_some hurl, HttpRequest.urlRest, removeUnsafe_append,
    removeUnsafe_append, List.append_assoc]
  unfold HttpRequest.KeepsPath
  by_cases hclean : request.HostClean
  · have hhost : ∀ c ∈ removeUnsafe request.host, isDelim c = false := by
      intro c hc
      have hall := List.all_eq_true.mp hclean c (List.mem_of_mem_filter hc)
      simpa using hall
    have hnot : ¬ request.HostSpellsPath := by
      rintro ⟨hany, -⟩
      obtain ⟨c, hc, hce⟩ := List.any_eq_true.mp hany
      have hall := List.all_eq_true.mp hclean c hc
      simp [isDelim_of_endsPath hce] at hall
    have hpath : pathAfterAuthority (removeUnsafe request.path ++
        removeUnsafe (if request.queryString = [] then []
          else '?' :: request.queryString)) =
        (removeUnsafe request.path).takeWhile (¬ endsPath ·) := by
      obtain ⟨c, rest, hp, -⟩ := hr.root
      rw [← takeWhile_append_query _ request.queryString, hp,
        removeUnsafe_slash, List.cons_append, pathAfterAuthority_slash]
    rw [pathAfterAuthority_append_of_clean hhost, hpath,
      unquote_takeWhile_removeUnsafe_eq_iff]
    simp only [hclean, hnot, true_and, or_false]
  · simp only [hclean, false_and, false_or]
    by_cases hany : (request.host.any endsPath) = true
    · have hends : ∃ c ∈ removeUnsafe request.host, endsPath c = true := by
        obtain ⟨c, hc, hce⟩ := List.any_eq_true.mp hany
        exact ⟨c, mem_removeUnsafe_of_isDelim hc (isDelim_of_endsPath hce), hce⟩
      rw [pathAfterAuthority_append_of_ends hends]
      exact ⟨fun h => ⟨hany, h⟩, fun h => h.2⟩
    · -- a `/`, and nothing that ends the path before the routed one
      have hnoends : ∀ c ∈ request.host, endsPath c = false := by
        simpa using hany
      have hslash : '/' ∈ removeUnsafe request.host := by
        have hdelim : ∃ c ∈ request.host, isDelim c = true := by
          by_contra hnone
          apply hclean
          refine List.all_eq_true.mpr fun c hc => ?_
          by_contra hcd
          exact hnone ⟨c, hc, by simpa using hcd⟩
        obtain ⟨c, hc, hcd⟩ := hdelim
        have hce := hnoends c hc
        have hcs : c = '/' := by
          simp only [endsPath, Bool.or_eq_false_iff, decide_eq_false_iff_not]
            at hce
          simpa [isDelim, hce] using hcd
        rw [hcs] at hc
        exact mem_removeUnsafe_of_isDelim hc rfl
      obtain ⟨front, hfront⟩ := pathAfterAuthority_append_of_slash hslash
        (fun c hc => hnoends c (List.mem_of_mem_filter hc))
        (removeUnsafe request.path ++ removeUnsafe
          (if request.queryString = [] then [] else '?' :: request.queryString))
      rw [hfront, takeWhile_append_query]
      exact iff_of_false (hr.shifted_ne front) fun h => hany h.1

/-- The downstream service decodes the path cut out of the URL, or `/`. -/
theorem decodedPath_eq_iff {httpx : Httpx} {request : HttpRequest}
    {checkNetloc : List Char → Bool} {user : Option Claims} {service : String}
    {urlPath : List Char} {route : Route} {f : Forwarded}
    (hr : Routed route request.path)
    (hurl : request.urlPath checkNetloc = some urlPath)
    (hf : forward httpx request urlPath user service = some f) :
    f.decodedPath = request.path ↔ unquote urlPath = request.path := by
  have hwire : httpx.wirePath urlPath = some f.path := by
    unfold forward at hf
    split at hf
    · cases hf
    · rename_i path hpath
      cases hf
      exact hpath
  have hends : ∀ c ∈ urlPath, endsPath c = false := by
    intro c hc
    rw [urlPath_eq_some hurl, pathAfterAuthority] at hc
    simpa using List.mem_takeWhile_imp hc
  unfold Forwarded.decodedPath
  by_cases hne : urlPath = []
  · rw [hne, httpx.wirePath_nil] at hwire
    rw [hne, ← Option.some.inj hwire]
    obtain ⟨c, rest, hpath, -⟩ := hr.root
    refine iff_of_false (fun h => hr.ne_root h.symm) fun h => ?_
    rw [hpath] at h
    cases h
  · rw [httpx.unquote_wirePath urlPath f.path (fun h => by cases hends _ h)
      (fun h => by cases hends _ h) hne hwire]

/-- The downstream service is asked for the routed path, and not for an
internal one. -/
structure Forwarded.AsRouted (f : Forwarded) (request : HttpRequest) :
    Prop where
  same : f.decodedPath = request.path
  not_internal : ¬ INTERNAL <+: f.decodedPath

/-- **The forwarded path.** A request is forwarded to the path that was routed
exactly if its `Host` header is an authority only and its decoded path has no
`?`, `#`, tab or line break and no further escape, or if the `Host` header
spells out this very path itself. -/
theorem forwarded_as_routed_iff {checkNetloc : List Char → Bool}
    {decodeToken : String → Option Claims} {httpx : Httpx}
    {request : HttpRequest} {f : Forwarded}
    (h : gateway checkNetloc decodeToken httpx request = .forwarded f) :
    f.AsRouted request ↔ request.KeepsPath := by
  obtain ⟨urlPath, user, route, hurl, -, hroute, hforward⟩ :=
    gateway_eq_forwarded h
  have hr := routed_of_matchRoute hroute
  rw [← unquote_urlPath_eq_iff hr hurl, ← decodedPath_eq_iff hr hurl hforward]
  constructor
  · exact fun h => h.same
  · intro h
    refine ⟨h, ?_⟩
    rw [h]
    exact hr.not_internal

/-- The first employee applies for leave, through the given `Host`. -/
def applyThrough (host : String) : HttpRequest :=
  { method := "POST", rawPath := "/leaves".toList
    lines := [("Host", host), ("Authorization", "Bearer emp1-token")] }

/-- What the Leave Request Service receives for it. -/
def applyForwarded (path : String) : Forwarded :=
  { service := REQUEST_SERVICE, method := "POST", path := path.toList
    params := Dict.empty
    headers := Dict.ofList [("authorization", "Bearer emp1-token"),
      ("X-User-Id", EMP1_ID), ("X-User-Role", "EMPLOYEE")]
    content := [] }

theorem forwarded_as_routed_iff_localhost :
    gateway noBrackets decodeEmp1 Httpx.plain (applyThrough "localhost:8000") =
      .forwarded (applyForwarded "/leaves") ∧
    (applyForwarded "/leaves").AsRouted (applyThrough "localhost:8000") := by
  have hf : gateway noBrackets decodeEmp1 Httpx.plain
      (applyThrough "localhost:8000") = .forwarded (applyForwarded "/leaves") := by
    decide +kernel
  exact ⟨hf, (forwarded_as_routed_iff hf).mpr (by decide +kernel)⟩

/-- An application for leave arrives as a decision about a request. -/
theorem internal_path_reached :
    ¬ ∀ (checkNetloc : List Char → Bool) (decodeToken : String → Option Claims)
      (httpx : Httpx) (request : HttpRequest) (f : Forwarded),
      gateway checkNetloc decodeToken httpx request = .forwarded f →
      f.AsRouted request := by
  intro hall
  have hf : gateway noBrackets decodeEmp1 Httpx.plain
      (applyThrough "api-gateway/internal/requests/request-1/status?") =
        .forwarded (applyForwarded "/internal/requests/request-1/status") := by
    decide +kernel
  have hinternal : INTERNAL <+:
      (applyForwarded "/internal/requests/request-1/status").decodedPath := by
    decide +kernel
  exact (hall _ _ _ _ _ hf).not_internal hinternal

end Elms
