import Mathlib.Algebra.BigOperators.Group.Finset.Basic
import Mathlib.Data.List.Nodup

/-!
# Insertion-ordered dictionaries

A dictionary that remembers the order of first insertion: assigning to a
present key replaces the value in place, assigning to a new key appends. The
entry list is canonical (keys never repeat, and that is a field), so a
dictionary is determined by its entries and can be compared and summed over.
-/

/-- A finite map in insertion order; no key occurs twice. -/
structure Dict (α β : Type*) where
  entries : List (α × β)
  nodup_keys : (entries.map Prod.fst).Nodup

namespace Dict

variable {α β : Type*}

@[ext] theorem ext {d e : Dict α β} (h : d.entries = e.entries) : d = e := by
  cases d
  cases e
  simpa using h

instance [DecidableEq α] [DecidableEq β] : DecidableEq (Dict α β) :=
  fun d e => decidable_of_iff (d.entries = e.entries) Dict.ext_iff.symm

/-! ## §1  Operations -/

def empty : Dict α β := ⟨[], List.nodup_nil⟩

def keys (d : Dict α β) : List α := d.entries.map Prod.fst

def values (d : Dict α β) : List β := d.entries.map Prod.snd

variable [DecidableEq α]

instance (d : Dict α β) (k : α) : Decidable (k ∈ d.keys) :=
  inferInstanceAs (Decidable (k ∈ d.entries.map Prod.fst))

/-- `d.get(k)` -/
def get? (d : Dict α β) (k : α) : Option β :=
  (d.entries.find? fun p => p.1 = k).map Prod.snd

/-- The entry list after `d[k] = v`. -/
def setEntries (k : α) (v : β) : List (α × β) → List (α × β)
  | [] => [(k, v)]
  | p :: ps => if p.1 = k then (k, v) :: ps else p :: setEntries k v ps

theorem mem_keys_setEntries {k x : α} {v : β} : ∀ {ps : List (α × β)},
    x ∈ (setEntries k v ps).map Prod.fst ↔ x = k ∨ x ∈ ps.map Prod.fst
  | [] => by simp [setEntries]
  | p :: ps => by
      by_cases h : p.1 = k
      · simp [setEntries, h]
      · simp only [setEntries, if_neg h, List.map_cons, List.mem_cons,
          mem_keys_setEntries]
        tauto

theorem nodup_setEntries {k : α} {v : β} : ∀ {ps : List (α × β)},
    (ps.map Prod.fst).Nodup → ((setEntries k v ps).map Prod.fst).Nodup
  | [], _ => by simp [setEntries]
  | p :: ps, hnd => by
      obtain ⟨hp, hps⟩ := List.nodup_cons.mp hnd
      by_cases h : p.1 = k
      · simpa [setEntries, h] using (h ▸ hnd : (k :: ps.map Prod.fst).Nodup)
      · simp only [setEntries, if_neg h, List.map_cons]
        refine List.nodup_cons.mpr ⟨?_, nodup_setEntries hps⟩
        rw [mem_keys_setEntries]
        rintro (he | he)
        · exact h he
        · exact hp he

theorem setEntries_of_not_mem {k : α} {v : β} : ∀ {ps : List (α × β)},
    k ∉ ps.map Prod.fst → setEntries k v ps = ps ++ [(k, v)]
  | [], _ => rfl
  | p :: ps, h => by
      obtain ⟨hp, hps⟩ : k ≠ p.1 ∧ k ∉ ps.map Prod.fst := by
        simpa only [List.map_cons, List.mem_cons, not_or] using h
      rw [setEntries, if_neg fun he => hp he.symm, setEntries_of_not_mem hps]
      rfl

/-- `d[k] = v` -/
def set (d : Dict α β) (k : α) (v : β) : Dict α β :=
  ⟨setEntries k v d.entries, nodup_setEntries d.nodup_keys⟩

/-! ## §2  Lookup -/

@[simp] theorem get?_empty (k : α) : (empty : Dict α β).get? k = none := rfl

/-- Lookup finds exactly the entries: keys do not repeat. -/
theorem get?_eq_some_iff {d : Dict α β} {k : α} {v : β} :
    d.get? k = some v ↔ (k, v) ∈ d.entries := by
  unfold get?
  constructor
  · intro h
    obtain ⟨p, hp, rfl⟩ := Option.map_eq_some_iff.mp h
    have hk : p.1 = k := by simpa using List.find?_some hp
    have hm := List.mem_of_find?_eq_some hp
    rw [← hk]
    exact hm
  · intro h
    cases hf : d.entries.find? (fun p => p.1 = k) with
    | none =>
        have := List.find?_eq_none.mp hf (k, v) h
        simp at this
    | some p =>
        have hk : p.1 = k := by simpa using List.find?_some hf
        have hm := List.mem_of_find?_eq_some hf
        have hpe : p = (k, v) := List.inj_on_of_nodup_map d.nodup_keys hm h hk
        rw [hpe]
        rfl

theorem get?_eq_none_iff {d : Dict α β} {k : α} :
    d.get? k = none ↔ k ∉ d.keys := by
  constructor
  · intro h hk
    obtain ⟨p, hp, rfl⟩ := List.mem_map.mp hk
    rw [get?_eq_some_iff.mpr (show (p.1, p.2) ∈ d.entries from hp)] at h
    exact absurd h (by simp)
  · intro h
    cases hg : d.get? k with
    | none => rfl
    | some v =>
        exact absurd (List.mem_map.mpr ⟨(k, v), get?_eq_some_iff.mp hg, rfl⟩) h

theorem mem_keys_of_get? {d : Dict α β} {k : α} {v : β}
    (h : d.get? k = some v) : k ∈ d.keys :=
  List.mem_map.mpr ⟨(k, v), get?_eq_some_iff.mp h, rfl⟩

theorem exists_get?_of_mem_keys {d : Dict α β} {k : α} (h : k ∈ d.keys) :
    ∃ v, d.get? k = some v := by
  obtain ⟨p, hp, rfl⟩ := List.mem_map.mp h
  exact ⟨p.2, get?_eq_some_iff.mpr hp⟩

theorem mem_values_iff {d : Dict α β} {v : β} :
    v ∈ d.values ↔ ∃ k, d.get? k = some v := by
  constructor
  · intro h
    obtain ⟨p, hp, rfl⟩ := List.mem_map.mp h
    exact ⟨p.1, get?_eq_some_iff.mpr hp⟩
  · rintro ⟨k, hk⟩
    exact List.mem_map.mpr ⟨(k, v), get?_eq_some_iff.mp hk, rfl⟩

/-! ## §3  Assignment -/

theorem mem_keys_set {d : Dict α β} {k x : α} {v : β} :
    x ∈ (d.set k v).keys ↔ x = k ∨ x ∈ d.keys :=
  mem_keys_setEntries

theorem mem_setEntries {k x : α} {v w : β} : ∀ {ps : List (α × β)},
    (ps.map Prod.fst).Nodup →
      ((x, w) ∈ setEntries k v ps ↔
        (x = k ∧ w = v) ∨ (x ≠ k ∧ (x, w) ∈ ps))
  | [], _ => by simp [setEntries]
  | p :: ps, hnd => by
      obtain ⟨hp, hps⟩ := List.nodup_cons.mp hnd
      by_cases h : p.1 = k
      · have hk : k ∉ ps.map Prod.fst := h ▸ hp
        have hne : (x, w) ∈ ps → x ≠ k := by
          rintro hm rfl
          exact hk (List.mem_map.mpr ⟨(x, w), hm, rfl⟩)
        obtain ⟨a, b⟩ := p
        obtain rfl : a = k := h
        simp only [setEntries, if_true, List.mem_cons, Prod.mk.injEq]
        tauto
      · obtain ⟨a, b⟩ := p
        have hak : a ≠ k := h
        simp only [setEntries, if_neg hak, List.mem_cons, Prod.mk.injEq,
          mem_setEntries hps]
        constructor
        · rintro (⟨rfl, rfl⟩ | h')
          · exact Or.inr ⟨hak, Or.inl ⟨rfl, rfl⟩⟩
          · tauto
        · tauto

theorem get?_set (d : Dict α β) (k x : α) (v : β) :
    (d.set k v).get? x = if x = k then some v else d.get? x := by
  by_cases hx : x = k
  · rw [if_pos hx, get?_eq_some_iff]
    exact (mem_setEntries d.nodup_keys).mpr (Or.inl ⟨hx, rfl⟩)
  · rw [if_neg hx]
    ext w
    simp only [get?_eq_some_iff]
    exact (mem_setEntries d.nodup_keys).trans (by simp [hx])

@[simp] theorem get?_set_self (d : Dict α β) (k : α) (v : β) :
    (d.set k v).get? k = some v := by
  rw [get?_set, if_pos rfl]

theorem get?_set_ne (d : Dict α β) {k x : α} (v : β) (h : x ≠ k) :
    (d.set k v).get? x = d.get? x := by
  rw [get?_set, if_neg h]

/-- A new key goes to the end. -/
theorem entries_set_of_not_mem {d : Dict α β} {k : α} (v : β)
    (h : k ∉ d.keys) : (d.set k v).entries = d.entries ++ [(k, v)] :=
  setEntries_of_not_mem h

/-- A present key keeps its place: the entry list splits around it. -/
theorem entries_set_of_get? {d : Dict α β} {k : α} {v : β}
    (h : d.get? k = some v) :
    ∃ l r, d.entries = l ++ (k, v) :: r ∧
      (∀ p ∈ l, p.1 ≠ k) ∧ (∀ p ∈ r, p.1 ≠ k) ∧
      ∀ w, (d.set k w).entries = l ++ (k, w) :: r := by
  obtain ⟨l, r, hlr⟩ := List.append_of_mem (get?_eq_some_iff.mp h)
  have hnd := d.nodup_keys
  rw [hlr, List.map_append, List.map_cons, List.nodup_append] at hnd
  obtain ⟨-, hr, hdis⟩ := hnd
  have hl : ∀ p ∈ l, p.1 ≠ k := fun p hp =>
    hdis p.1 (List.mem_map_of_mem hp) k List.mem_cons_self
  have hr' : ∀ p ∈ r, p.1 ≠ k := by
    intro p hp he
    have hmem : p.1 ∈ r.map Prod.fst := List.mem_map_of_mem hp
    rw [he] at hmem
    exact (List.nodup_cons.mp hr).1 hmem
  refine ⟨l, r, hlr, hl, hr', fun w => ?_⟩
  show setEntries k w d.entries = _
  rw [hlr]
  clear hlr hdis
  induction l with
  | nil => simp [setEntries]
  | cons p l ih =>
      have hp : p.1 ≠ k := hl p List.mem_cons_self
      simp only [List.cons_append, setEntries, if_neg hp,
        ih (fun q hq => hl q (List.mem_cons_of_mem _ hq))]

/-- Overwriting a present key leaves the key list as it was. -/
theorem keys_set_of_get? {d : Dict α β} {k : α} {v : β} (w : β)
    (h : d.get? k = some v) : (d.set k w).keys = d.keys := by
  obtain ⟨l, r, he, _, _, hs⟩ := entries_set_of_get? h
  simp [keys, he, hs w]

theorem values_set_of_not_mem {d : Dict α β} {k : α} (v : β)
    (h : k ∉ d.keys) : (d.set k v).values = d.values ++ [v] := by
  simp [values, entries_set_of_not_mem v h]

/-- `{k: v for k, v in l}` -/
def ofList (l : List (α × β)) : Dict α β :=
  l.foldl (fun d p => d.set p.1 p.2) empty

/-- Of several values for one key the last one stays. -/
theorem get?_ofList (l : List (α × β)) (k : α) :
    (ofList l).get? k = (l.reverse.find? fun p => p.1 = k).map Prod.snd := by
  unfold ofList
  induction l using List.reverseRecOn with
  | nil => rfl
  | append_singleton l p ih =>
      rw [List.foldl_append, List.foldl_cons, List.foldl_nil, get?_set, ih,
        List.reverse_append, List.reverse_singleton, List.singleton_append]
      by_cases hk : k = p.1
      · rw [if_pos hk, List.find?_cons_of_pos (by simpa using hk.symm)]
        rfl
      · rw [if_neg hk, List.find?_cons_of_neg (by simpa using Ne.symm hk)]

theorem mem_keys_ofList {l : List (α × β)} {k : α} :
    k ∈ (ofList l).keys ↔ k ∈ l.map Prod.fst := by
  unfold ofList
  induction l using List.reverseRecOn with
  | nil => simp [empty, keys]
  | append_singleton l p ih =>
      rw [List.foldl_append, List.foldl_cons, List.foldl_nil, mem_keys_set, ih,
        List.map_append, List.mem_append, List.map_singleton,
        List.mem_singleton, or_comm]

/-! ## §4  Dictionaries of lists -/

/-- `d.get(k, [])` -/
def getList (d : Dict α (List β)) (k : α) : List β := (d.get? k).getD []

/-- `d.setdefault(k, []).append(x)` -/
def push (d : Dict α (List β)) (k : α) (x : β) : Dict α (List β) :=
  d.set k (d.getList k ++ [x])

theorem getList_push (d : Dict α (List β)) (k j : α) (x : β) :
    (d.push k x).getList j =
      if j = k then d.getList k ++ [x] else d.getList j := by
  rw [getList, push, get?_set]
  split
  · rfl
  · rfl

/-! ## §5  The part of a dictionary that counts -/

section Part

variable (o : β → Prop) [DecidablePred o]

/-- The entries whose value counts. -/
def part (d : Dict α β) : List (α × β) := d.entries.filter fun p => o p.2

variable {o}

theorem mem_part_iff {d : Dict α β} {k : α} {v : β} :
    (k, v) ∈ d.part o ↔ d.get? k = some v ∧ o v := by
  rw [get?_eq_some_iff]
  simp [part]

omit [DecidableEq α] in
theorem map_snd_part (d : Dict α β) :
    (d.part o).map Prod.snd = d.values.filter fun v => o v := by
  rw [values, List.filter_map]
  rfl

/-- Dictionaries that agree on their parts agree on the values that count. -/
theorem get?_of_part_eq {d e : Dict α β} (h : d.part o = e.part o) {k : α}
    {v : β} (hd : d.get? k = some v) (hv : o v) : e.get? k = some v := by
  have hmem : (k, v) ∈ e.part o := h ▸ mem_part_iff.mpr ⟨hd, hv⟩
  exact (mem_part_iff.mp hmem).1

theorem part_set_of_not_mem {d : Dict α β} {k : α} (w : β) (h : k ∉ d.keys) :
    (d.set k w).part o = d.part o ++ if o w then [(k, w)] else [] := by
  unfold part
  rw [entries_set_of_not_mem w h, List.filter_append]
  by_cases hw : o w
  · simp [hw]
  · simp [hw]

/-- Overwriting a value that does not count by another such leaves the part
as it is. -/
theorem part_set_of_not {d : Dict α β} {k : α} {v w : β}
    (h : d.get? k = some v) (hv : ¬ o v) (hw : ¬ o w) :
    (d.set k w).part o = d.part o := by
  obtain ⟨l, r, he, -, -, hs⟩ := entries_set_of_get? h
  unfold part
  rw [hs w, he, List.filter_append, List.filter_append,
    List.filter_cons_of_neg (by simpa using hw),
    List.filter_cons_of_neg (by simpa using hv)]

/-- Overwriting a value that counts by another such does so in the part. -/
theorem part_set_of_pos {d : Dict α β} {k : α} {v w : β}
    (h : d.get? k = some v) (hv : o v) (hw : o w) :
    (d.set k w).part o =
      (d.part o).map fun p => if p.1 = k then (k, w) else p := by
  obtain ⟨l, r, he, hl, hr, hs⟩ := entries_set_of_get? h
  have hkeep : ∀ ps : List (α × β), (∀ p ∈ ps, p.1 ≠ k) →
      (ps.filter fun p => o p.2).map (fun p => if p.1 = k then (k, w) else p) =
        ps.filter fun p => o p.2 := by
    intro ps hps
    rw [List.map_congr_left (g := id), List.map_id]
    intro p hp
    exact if_neg (hps p (List.mem_of_mem_filter hp))
  unfold part
  rw [hs w, he, List.filter_append, List.filter_append,
    List.filter_cons_of_pos (by simpa using hw),
    List.filter_cons_of_pos (by simpa using hv), List.map_append,
    List.map_cons, hkeep l hl, hkeep r hr, if_pos rfl]

/-- So two dictionaries with the same part still have the same part. -/
theorem part_set_congr {d e : Dict α β} (hpart : d.part o = e.part o) {k : α}
    {v w : β} (h : d.get? k = some v) (hv : o v) (hw : o w) :
    (d.set k w).part o = (e.set k w).part o := by
  rw [part_set_of_pos h hv hw,
    part_set_of_pos (get?_of_part_eq hpart h hv) hv hw, hpart]

end Part

/-! ## §6  Sums over a dictionary -/

section Sums

variable {M : Type*} [AddCommMonoid M]

/-- **Sum by key**: keys do not repeat, so a sum over the values is a sum over
the set of keys. -/
theorem sum_map_values (f : β → M) (d : Dict α β) :
    (d.values.map f).sum = ∑ k ∈ d.keys.toFinset, (d.get? k).elim 0 f := by
  unfold values keys
  rw [List.sum_toFinset _ d.nodup_keys, List.map_map, List.map_map]
  congr 1
  apply List.map_congr_left
  intro p hp
  have hget : d.get? p.1 = some p.2 := get?_eq_some_iff.mpr hp
  simp only [Function.comp_apply, hget, Option.elim_some]

/-- A sum over a list whose keys all lie in `s`, collected by key. -/
theorem sum_map_eq_sum_count (l : List α) {s : Finset α} (hs : l.toFinset ⊆ s)
    (g : α → M) : (l.map g).sum = ∑ k ∈ s, l.count k • g k := by
  rw [Finset.sum_list_map_count]
  apply Finset.sum_subset hs
  intro k _ hk
  have hzero : l.count k = 0 :=
    List.count_eq_zero_of_not_mem fun h => hk (List.mem_toFinset.mpr h)
  rw [hzero, zero_nsmul]

end Sums

end Dict
