import Mathlib.Data.Int.CardIntervalMod

/-!
# `itertools.cycle`

An endless iterator over a list that is not empty. What it yields over any
stretch is a walk through consecutive positions modulo the length, and such a
walk visits any two positions equally often, up to one visit
(`count_walk_le`).
-/

namespace Itertools

variable {α : Type*}

/-! ## §1  Walks modulo `n` -/

/-- The first `k` positions from `start` on. -/
def walk (n start k : Nat) : List Nat :=
  (List.range k).map fun t => (start + t) % n

theorem walk_succ (n start k : Nat) :
    walk n start (k + 1) = start % n :: walk n (start + 1) k := by
  rw [walk, List.range_succ_eq_map, List.map_cons, List.map_map, walk]
  congr 1
  apply List.map_congr_left
  intro t _
  show (start + (t + 1)) % n = (start + 1 + t) % n
  congr 1
  omega

theorem countP_range (p : Nat → Prop) [DecidablePred p] (k : Nat) :
    (List.range k).countP p = Nat.count p k := by
  induction k with
  | zero => rfl
  | succ k ih =>
      rw [List.range_succ, List.countP_append, ih, Nat.count_succ,
        List.countP_singleton]
      simp

/-- The visits to a position are those at the times of one residue. -/
theorem count_walk {n i : Nat} (hi : i < n) (start k : Nat) :
    (walk n start k).count i =
      k / n + if (i + (n - start % n)) % n < k % n then 1 else 0 := by
  have hn : 0 < n := by omega
  have hstart : start % n < n := Nat.mod_lt start hn
  set v := i + (n - start % n) with hv
  have htime : ∀ t, (start + t) % n = i ↔ t ≡ v [MOD n] := by
    intro t
    have hmeet : start + v ≡ i [MOD n] := by
      have hmod := Nat.div_add_mod start n
      have hsum : start + v = i + n * (start / n + 1) := by
        rw [Nat.mul_add, Nat.mul_one]
        omega
      rw [hsum]
      exact Nat.add_mul_mod_self_left _ _ _
    constructor
    · intro ht
      apply Nat.ModEq.add_left_cancel' start
      rw [← Nat.mod_eq_of_lt hi] at ht
      exact Nat.ModEq.trans ht hmeet.symm
    · intro ht
      have hsame : start + t ≡ i [MOD n] := (ht.add_left start).trans hmeet
      exact Eq.trans hsame (Nat.mod_eq_of_lt hi)
  rw [walk, List.count, List.countP_map, ← Nat.count_modEq_card k hn v,
    ← countP_range]
  apply List.countP_congr
  intro t _
  simp [htime]

/-- **Fairness**: no position is visited twice more often than another. -/
theorem count_walk_le {n i j : Nat} (hi : i < n) (hj : j < n) (start k : Nat) :
    (walk n start k).count i ≤ (walk n start k).count j + 1 := by
  rw [count_walk hi, count_walk hj]
  split <;> split <;> omega

/-! ## §2  The iterator -/

structure Cycle (α : Type*) where
  items : List α
  items_ne : items ≠ []
  /-- How many have been drawn. -/
  taken : Nat

namespace Cycle

/-- `itertools.cycle(items)` -/
def start (items : List α) (h : items ≠ []) : Cycle α := ⟨items, h, 0⟩

/-- The position of the item that comes next. -/
def position (c : Cycle α) : Nat := c.taken % c.items.length

theorem position_lt (c : Cycle α) : c.position < c.items.length :=
  Nat.mod_lt _ (List.length_pos_iff.mpr c.items_ne)

/-- `next(c)` -/
def next (c : Cycle α) : α × Cycle α :=
  (c.items.get ⟨c.position, c.position_lt⟩, { c with taken := c.taken + 1 })

@[simp] theorem taken_next (c : Cycle α) : c.next.2.taken = c.taken + 1 := rfl

theorem getElem?_position (c : Cycle α) :
    c.items[c.position]? = some c.next.1 :=
  List.getElem?_eq_getElem c.position_lt

end Cycle

end Itertools
