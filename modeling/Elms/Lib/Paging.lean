import Elms.Lib.Transition
import Mathlib.Algebra.Order.Floor.Div
import Mathlib.Data.List.Infix

/-!
# Reading by pages

The pages of a list partition it, and there are as many as the rounded-up
quotient says (`partition_page`).

A reader asks for page 1, 2, 3, … of a log that only grows at its end, and
stops at the first page that reaches the end of what it sees. Each page is cut
from the log as it is when that page is read. Whatever is appended in between,
the reader ends up with a prefix of the log that covers all it held at the
start (`Reader.finished_covers`).
-/

namespace Paging

variable {α : Type*}

/-- Page `k` (counted from 0) of `l`, with `n` entries a page. -/
def page (n k : Nat) (l : List α) : List α := (l.drop (k * n)).take n

/-- Reading one more page from a longer log extends what was read before. -/
theorem append_page_eq_take {n k : Nat} {read l : List α} (h : read <+: l)
    (hlen : read.length = k * n) : read ++ page n k l = l.take ((k + 1) * n) := by
  have hread : read = l.take (k * n) := by
    rw [← hlen]
    exact List.prefix_iff_eq_take.mp h
  rw [hread, page, Nat.add_mul, Nat.one_mul, List.take_add]

/-! ## §1  The pages of a list -/

/-- `count` pages of `n` entries, the last one possibly shorter, make up `l`,
and there is nothing on any page after them. -/
structure Partition (n : Nat) (l : List α) (pages : Nat → List α) (count : Nat) :
    Prop where
  concat : (List.range count).flatMap pages = l
  full : ∀ k, k + 1 < count → (pages k).length = n
  last : ∀ k, k + 1 = count → 1 ≤ (pages k).length ∧ (pages k).length ≤ n
  beyond : ∀ k, count ≤ k → pages k = []
  count_eq_zero_iff : count = 0 ↔ l = []

theorem length_page (n k : Nat) (l : List α) :
    (page n k l).length = min n (l.length - k * n) := by
  rw [page, List.length_take, List.length_drop]

theorem flatMap_page (n count : Nat) (l : List α) :
    ((List.range count).flatMap fun k => page n k l) = l.take (count * n) := by
  induction count with
  | zero => simp
  | succ count ih =>
      rw [List.range_succ, List.flatMap_append, ih, List.flatMap_singleton]
      by_cases hle : count * n ≤ l.length
      · apply append_page_eq_take (List.take_prefix _ _)
        rw [List.length_take, Nat.min_eq_left hle]
      · have hlen : l.length ≤ count * n := Nat.le_of_not_le hle
        have hnext : count * n ≤ (count + 1) * n :=
          Nat.mul_le_mul_right n (Nat.le_succ count)
        rw [page, List.drop_eq_nil_of_le hlen, List.take_of_length_le hlen,
          List.take_of_length_le (hlen.trans hnext)]
        simp

/-- There is an entry on page `k` exactly if it is one of the counted pages. -/
theorem lt_ceilDiv_iff {n : Nat} (hn : 0 < n) (k len : Nat) :
    k < len ⌈/⌉ n ↔ k * n < len := by
  rw [← not_le, ← not_le, ceilDiv_le_iff_le_mul hn, Nat.mul_comm]

/-- **The pages of a list partition it.** -/
theorem partition_page {n : Nat} (hn : 0 < n) (l : List α) :
    Partition n l (fun k => page n k l) (l.length ⌈/⌉ n) := by
  constructor
  · rw [flatMap_page]
    apply List.take_of_length_le
    rw [← not_lt, ← lt_ceilDiv_iff hn]
    exact lt_irrefl _
  · intro k hk
    have hlt := (lt_ceilDiv_iff hn (k + 1) l.length).mp hk
    rw [Nat.add_mul] at hlt
    rw [length_page]
    omega
  · intro k hk
    have hlt : k * n < l.length := by
      rw [← lt_ceilDiv_iff hn]
      omega
    rw [length_page]
    omega
  · intro k hk
    have hle : l.length ≤ k * n := by
      rw [← not_lt, ← lt_ceilDiv_iff hn]
      omega
    show page n k l = []
    rw [page, List.drop_eq_nil_of_le hle, List.take_nil]
  · constructor
    · intro h
      have hnot : ¬ 0 * n < l.length := by
        rw [← lt_ceilDiv_iff hn]
        omega
      rw [← List.length_eq_zero_iff]
      omega
    · rintro rfl
      exact zero_ceilDiv n

/-! ## §2  The reader -/

structure Reader (α : Type*) where
  log : List α
  read : List α
  pages : Nat
  finished : Bool

inductive Label (α : Type*) where
  | append (xs : List α)
  | readPage

namespace Reader

/-- Nothing has been read of the log. -/
def start (l : List α) : Reader α := ⟨l, [], 0, false⟩

def step (n : Nat) (r : Reader α) : Label α → Option (Reader α)
  | .append xs => some { r with log := r.log ++ xs }
  | .readPage =>
      if r.finished then none
      else
        some { r with
          read := r.read ++ page n r.pages r.log
          pages := r.pages + 1
          finished := decide (r.log.length ≤ (r.pages + 1) * n) }

/-- The read entries are the first ones of the log, whole pages of them until
the end is reached, and then at least the log `l` of the start. -/
structure Inv (n : Nat) (l : List α) (r : Reader α) : Prop where
  old : l <+: r.log
  order : r.read <+: r.log
  full : r.finished = false → r.read.length = r.pages * n
  covers : r.finished = true → l <+: r.read

theorem inv_start (n : Nat) (l : List α) : Inv n l (start l) where
  old := List.prefix_rfl
  order := List.nil_prefix
  full := fun _ => (Nat.zero_mul n).symm
  covers := fun h => by cases h

theorem inv_step {n : Nat} {l : List α} {r r' : Reader α} {lab : Label α}
    (hI : Inv n l r) (h : step n r lab = some r') : Inv n l r' := by
  cases lab with
  | append xs =>
      cases h
      have hgrow : r.log <+: r.log ++ xs := List.prefix_append _ _
      exact ⟨hI.old.trans hgrow, hI.order.trans hgrow, hI.full, hI.covers⟩
  | readPage =>
      rw [step] at h
      split at h
      · cases h
      · rename_i hf
        have hfull := hI.full (by simpa using hf)
        have hread := append_page_eq_take hI.order hfull
        cases h
        constructor
        · exact hI.old
        · show r.read ++ page n r.pages r.log <+: r.log
          rw [hread]
          exact List.take_prefix _ _
        · intro hend
          have hlt : (r.pages + 1) * n < r.log.length := by simpa using hend
          show (r.read ++ page n r.pages r.log).length = _
          rw [hread, List.length_take, Nat.min_eq_left hlt.le]
        · intro hend
          have hle : r.log.length ≤ (r.pages + 1) * n := by simpa using hend
          show l <+: r.read ++ page n r.pages r.log
          rw [hread, List.take_of_length_le hle]
          exact hI.old

/-- **A walk that ends has seen everything it started from**, in the order of
the log. -/
theorem finished_covers {n : Nat} {l : List α} {r : Reader α}
    (h : Transition.Reaches (step n) (start l) r) (hf : r.finished = true) :
    l <+: r.read ∧ r.read <+: r.log := by
  have hI : Inv n l r :=
    Transition.invariant (fun _ _ _ => inv_step) (inv_start n l) h
  exact ⟨hI.covers hf, hI.order⟩

end Reader

end Paging
