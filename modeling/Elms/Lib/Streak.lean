import Mathlib.Data.List.Infix
import Mathlib.Data.List.TakeWhile

/-!
# Consecutive events

A counter that counts the events of one kind, starts again at every other
event and trips when it reaches its limit. It has tripped exactly if there was
a streak of that many consecutive events of the kind (`foldl_step_zero_iff`).
-/

namespace Streak

variable {α : Type*} (p : α → Bool)

/-- Some `k` consecutive elements of `xs` are of the kind. -/
def Has (k : Nat) (xs : List α) : Prop :=
  ∃ ys, ys <:+: xs ∧ ys.length = k ∧ ∀ y ∈ ys, p y = true

/-- The elements of the kind that `xs` begins with. -/
def lead (xs : List α) : Nat := (xs.takeWhile p).length

theorem lead_cons (x : α) (xs : List α) :
    lead p (x :: xs) = if p x then lead p xs + 1 else 0 := by
  unfold lead
  rw [List.takeWhile_cons]
  split <;> rfl

theorem le_lead_iff {k : Nat} {xs : List α} :
    k ≤ lead p xs ↔ ∃ ys, ys <+: xs ∧ ys.length = k ∧ ∀ y ∈ ys, p y = true := by
  constructor
  · intro hk
    have hall : (xs.takeWhile p).take k <+: xs :=
      (List.take_prefix _ _).trans (List.takeWhile_prefix p)
    refine ⟨_, hall, List.length_take_of_le hk, ?_⟩
    intro y hy
    exact List.mem_takeWhile_imp (List.mem_of_mem_take hy)
  · rintro ⟨ys, ⟨zs, rfl⟩, rfl, hall⟩
    rw [lead, List.takeWhile_append_of_pos hall, List.length_append]
    exact Nat.le_add_right _ _

theorem has_nil_iff {k : Nat} : Has p k [] ↔ k = 0 := by
  constructor
  · rintro ⟨ys, hys, rfl, -⟩
    rw [List.infix_nil.mp hys]
    rfl
  · rintro rfl
    exact ⟨[], List.infix_refl _, rfl, fun y h => by cases h⟩

theorem has_cons_iff {k : Nat} {x : α} {xs : List α} :
    Has p k (x :: xs) ↔ k ≤ lead p (x :: xs) ∨ Has p k xs := by
  rw [le_lead_iff]
  constructor
  · rintro ⟨ys, hys, hlen, hall⟩
    rcases List.infix_cons_iff.mp hys with hpre | hin
    · exact Or.inl ⟨ys, hpre, hlen, hall⟩
    · exact Or.inr ⟨ys, hin, hlen, hall⟩
  · rintro (⟨ys, hpre, hlen, hall⟩ | ⟨ys, hin, hlen, hall⟩)
    · exact ⟨ys, hpre.isInfix, hlen, hall⟩
    · exact ⟨ys, List.infix_cons hin, hlen, hall⟩

theorem has_of_le_lead {k : Nat} {xs : List α} (h : k ≤ lead p xs) : Has p k xs := by
  obtain ⟨ys, hpre, hlen, hall⟩ := (le_lead_iff p).mp h
  exact ⟨ys, hpre.isInfix, hlen, hall⟩

instance (k : Nat) : ∀ xs : List α, Decidable (Has p k xs)
  | [] => decidable_of_iff (k = 0) (has_nil_iff p).symm
  | x :: xs =>
      have := instDecidableHas k xs
      decidable_of_iff (k ≤ lead p (x :: xs) ∨ Has p k xs) (has_cons_iff p).symm

/-- Two kinds that the elements do not tell apart have the same streaks. -/
theorem has_congr {q : α → Bool} {k : Nat} {xs : List α}
    (h : ∀ x ∈ xs, p x = q x) : Has p k xs ↔ Has q k xs := by
  constructor
  · rintro ⟨ys, hys, hlen, hall⟩
    exact ⟨ys, hys, hlen, fun y hy => (h y (hys.mem hy)).symm.trans (hall y hy)⟩
  · rintro ⟨ys, hys, hlen, hall⟩
    exact ⟨ys, hys, hlen, fun y hy => (h y (hys.mem hy)).trans (hall y hy)⟩

/-! ## §1  The counter -/

/-- The count after one more element; `none` is a counter that has tripped. -/
def step (k : Nat) : Option Nat → α → Option Nat
  | none, _ => none
  | some c, x =>
      if p x then (if c + 1 < k then some (c + 1) else none) else some 0

theorem foldl_step_none (k : Nat) (xs : List α) :
    xs.foldl (step p k) none = none := by
  induction xs with
  | nil => rfl
  | cons x xs ih => exact ih

/-- From a count `c`, the elements that come first may complete a streak that
has begun before. -/
theorem foldl_step_iff {k c : Nat} (hc : c < k) {xs : List α} :
    xs.foldl (step p k) (some c) = none ↔ k ≤ c + lead p xs ∨ Has p k xs := by
  induction xs generalizing c with
  | nil =>
      have hne : k ≠ 0 := by omega
      simp only [List.foldl_nil, reduceCtorEq, has_nil_iff, hne, or_false, false_iff,
        lead, List.takeWhile_nil, List.length_nil]
      omega
  | cons x xs ih =>
      rw [List.foldl_cons, has_cons_iff, lead_cons]
      by_cases hx : p x = true
      · by_cases hlast : c + 1 < k
        · have hstep : step p k (some c) x = some (c + 1) := by
            rw [step, if_pos hx, if_pos hlast]
          rw [hstep, ih hlast, if_pos hx]
          constructor
          · rintro (h | h)
            · exact Or.inl (by omega)
            · exact Or.inr (Or.inr h)
          · rintro (h | h | h)
            · exact Or.inl (by omega)
            · exact Or.inl (by omega)
            · exact Or.inr h
        · have hstep : step p k (some c) x = none := by
            rw [step, if_pos hx, if_neg hlast]
          rw [hstep, foldl_step_none, if_pos hx]
          exact iff_of_true rfl (Or.inl (by omega))
      · have hstep : step p k (some c) x = some 0 := by
          rw [step, if_neg hx]
        rw [hstep, ih (Nat.zero_lt_of_lt hc), if_neg hx]
        constructor
        · rintro (h | h)
          · exact Or.inr (Or.inr (has_of_le_lead p (by omega)))
          · exact Or.inr (Or.inr h)
        · rintro (h | h | h)
          · omega
          · omega
          · exact Or.inr h

/-- **A counter trips on a streak and on nothing else.** -/
theorem foldl_step_zero_iff {k : Nat} (hk : 0 < k) {xs : List α} :
    xs.foldl (step p k) (some 0) = none ↔ Has p k xs := by
  rw [foldl_step_iff p hk, Nat.zero_add]
  exact or_iff_right_of_imp (has_of_le_lead p)

end Streak
