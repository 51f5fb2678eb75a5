import Mathlib.Data.Set.Card
import Mathlib.Order.Interval.Finset.Nat
import Mathlib.Order.Interval.Set.Basic
import Mathlib.Order.Lattice

/-!
# Calendar days

A day is its proleptic Gregorian ordinal, as `datetime.date.toordinal` gives
it: comparison and subtraction of dates are those of their ordinals.
-/

namespace Calendar

/-- A calendar day, by ordinal; day 1 is 0001-01-01. -/
@[ext] structure Date where
  ordinal : Nat
deriving DecidableEq, Repr

instance : LinearOrder Date :=
  LinearOrder.lift' Date.ordinal fun _ _ h => Date.ext h

theorem Date.le_def {a b : Date} : a ≤ b ↔ a.ordinal ≤ b.ordinal := Iff.rfl

theorem Date.lt_def {a b : Date} : a < b ↔ a.ordinal < b.ordinal := Iff.rfl

/-- `(a - b).days` -/
def Date.sub (a b : Date) : Int := (a.ordinal : Int) - b.ordinal

/-- A point in time, on the UTC clock. -/
abbrev Timestamp := Nat

def daysBeforeMonth : List Nat :=
  [0, 0, 31, 59, 90, 120, 151, 181, 212, 243, 273, 304, 334]

def daysInMonth : List Nat :=
  [0, 31, 28, 31, 30, 31, 30, 31, 31, 30, 31, 30, 31]

/-- `datetime._ord2ymd`: year, month and day of an ordinal. -/
def ord2ymd (ordinal : Nat) : Nat × Nat × Nat :=
  let n := ordinal - 1
  let n400 := n / 146097
  let n := n % 146097
  let n100 := n / 36524
  let n := n % 36524
  let n4 := n / 1461
  let n := n % 1461
  let n1 := n / 365
  let n := n % 365
  let year := n400 * 400 + 1 + n100 * 100 + n4 * 4 + n1
  if n1 = 4 ∨ n100 = 4 then (year - 1, 12, 31)
  else
    let leap := decide (n1 = 3 ∧ (n4 ≠ 24 ∨ n100 = 3))
    -- the estimate is the month itself or the one after it
    let month := (n + 50) / 32
    let preceding :=
      daysBeforeMonth.getD month 0 + (if 2 < month ∧ leap then 1 else 0)
    if n < preceding then
      let month := month - 1
      let preceding :=
        preceding - (daysInMonth.getD month 0 + if month = 2 ∧ leap then 1 else 0)
      (year, month, n - preceding + 1)
    else (year, month, n - preceding + 1)

def padded (width n : Nat) : String :=
  let digits := toString n
  String.ofList (List.replicate (width - digits.length) '0') ++ digits

/-- `date.isoformat` -/
def isoformat (d : Date) : String :=
  let (year, month, day) := ord2ymd d.ordinal
  padded 4 year ++ "-" ++ padded 2 month ++ "-" ++ padded 2 day

example : isoformat ⟨738945⟩ = "2024-02-29" := by decide

theorem isDigit_of_mem_padded {width n : Nat} {c : Char}
    (h : c ∈ (padded width n).toList) : c.isDigit = true := by
  rw [padded, String.toList_append, List.mem_append] at h
  rcases h with h | h
  · rw [String.toList_ofList] at h
    rw [List.eq_of_mem_replicate h]
    rfl
  · have hn : c ∈ Nat.toDigits 10 n := by
      rw [← Nat.toList_repr]
      exact h
    exact Nat.isDigit_of_mem_toDigits (by decide) (by decide) hn

/-- A date is written with digits and dashes. -/
theorem mem_isoformat {d : Date} {c : Char} (h : c ∈ (isoformat d).toList) :
    c.isDigit = true ∨ c = '-' := by
  simp only [isoformat, String.toList_append, List.mem_append, or_assoc] at h
  have hdash : c ∈ "-".toList → c = '-' := fun hc => List.mem_singleton.mp hc
  rcases h with h | h | h | h | h
  · exact Or.inl (isDigit_of_mem_padded h)
  · exact Or.inr (hdash h)
  · exact Or.inl (isDigit_of_mem_padded h)
  · exact Or.inr (hdash h)
  · exact Or.inl (isDigit_of_mem_padded h)

/-- An inclusive range has one day more than its ends are apart. -/
theorem ncard_Icc {s e : Date} (h : s ≤ e) :
    ((Set.Icc s e).ncard : Int) = e.sub s + 1 := by
  have himage : Set.Icc s e = Date.mk '' Set.Icc s.ordinal e.ordinal := by
    ext d
    constructor
    · intro hd
      exact ⟨d.ordinal, ⟨Date.le_def.mp hd.1, Date.le_def.mp hd.2⟩, rfl⟩
    · rintro ⟨n, hn, rfl⟩
      exact ⟨Date.le_def.mpr hn.1, Date.le_def.mpr hn.2⟩
  have hinj : Function.Injective Date.mk := fun a b hab => Date.mk.inj hab
  rw [himage, Set.ncard_image_of_injective _ hinj, ← Finset.coe_Icc,
    Set.ncard_coe_finset, Nat.card_Icc, Date.sub]
  have hle : s.ordinal ≤ e.ordinal := Date.le_def.mp h
  omega

/-- Two inclusive ranges have a common day. -/
def SharesDay (s₁ e₁ s₂ e₂ : Date) : Prop :=
  (Set.Icc s₁ e₁ ∩ Set.Icc s₂ e₂).Nonempty

/-- Two nonempty inclusive ranges share a day exactly when each starts on or
before the day the other ends. -/
theorem sharesDay_iff {s₁ e₁ s₂ e₂ : Date} (h₁ : s₁ ≤ e₁) (h₂ : s₂ ≤ e₂) :
    SharesDay s₁ e₁ s₂ e₂ ↔ s₁ ≤ e₂ ∧ s₂ ≤ e₁ := by
  rw [SharesDay, Set.Icc_inter_Icc, Set.nonempty_Icc, sup_le_iff, le_inf_iff,
    le_inf_iff]
  tauto

end Calendar
