import Mathlib.Data.List.Basic
import Mathlib.Order.Basic

/-!
# Runs of a deterministic step function

A transition system is a partial step function `step : σ → ℓ → Option σ`
over labels; `none` means that the label cannot happen in that state. All
nondeterminism (scheduling, clocks, fresh names, faults) lives in the labels,
so a run is a plain list of labels and can be evaluated.

Three families of rules: invariants of whole runs, preorders along runs, and
the two `iff` rules that say exactly which runs a property survives
(`always_iff_along`, `measure_eq_iff_along`).
-/

namespace Transition

variable {σ τ ℓ κ : Type*}

/-! ## §1  Runs and reachable states -/

/-- The state a list of labels leads to, when each label can be taken. -/
def run (step : σ → ℓ → Option σ) : σ → List ℓ → Option σ
  | s, [] => some s
  | s, l :: ls =>
      match step s l with
      | some s' => run step s' ls
      | none => none

/-- `s'` is reached from `s` by some run. -/
def Reaches (step : σ → ℓ → Option σ) (s s' : σ) : Prop :=
  ∃ ls, run step s ls = some s'

variable {step : σ → ℓ → Option σ}

@[simp] theorem run_nil (s : σ) : run step s [] = some s := rfl

theorem run_cons_of_step {s s' : σ} {l : ℓ} {ls : List ℓ}
    (h : step s l = some s') : run step s (l :: ls) = run step s' ls := by
  simp only [run, h]

/-- A nonempty run is a first step followed by a run. -/
theorem run_cons_iff {s t : σ} {l : ℓ} {ls : List ℓ} :
    run step s (l :: ls) = some t ↔
      ∃ s', step s l = some s' ∧ run step s' ls = some t := by
  cases h : step s l with
  | none => simp [run, h]
  | some s' => simp [run, h]

/-- A run splits at any point of its label list. -/
theorem run_append_iff {ls ms : List ℓ} : ∀ {s t : σ},
    run step s (ls ++ ms) = some t ↔
      ∃ u, run step s ls = some u ∧ run step u ms = some t := by
  induction ls with
  | nil => intro s t; simp
  | cons l ls ih =>
      intro s t
      rw [List.cons_append, run_cons_iff]
      constructor
      · rintro ⟨s', hs, hr⟩
        obtain ⟨u, hu, ht⟩ := ih.mp hr
        exact ⟨u, run_cons_iff.mpr ⟨s', hs, hu⟩, ht⟩
      · rintro ⟨u, hu, ht⟩
        obtain ⟨s', hs, hr⟩ := run_cons_iff.mp hu
        exact ⟨s', hs, ih.mpr ⟨u, hr, ht⟩⟩

theorem Reaches.refl (s : σ) : Reaches step s s := ⟨[], rfl⟩

theorem Reaches.trans {s t u : σ} (h₁ : Reaches step s t)
    (h₂ : Reaches step t u) : Reaches step s u := by
  obtain ⟨ls, hls⟩ := h₁
  obtain ⟨ms, hms⟩ := h₂
  exact ⟨ls ++ ms, run_append_iff.mpr ⟨t, hls, hms⟩⟩

theorem Reaches.single {s t : σ} {l : ℓ} (h : step s l = some t) :
    Reaches step s t :=
  ⟨[l], run_cons_iff.mpr ⟨t, h, rfl⟩⟩

/-! ## §2  Step conditions and invariants -/

/-- Every step that the run takes meets `C` in the state it is taken from. -/
def Along (step : σ → ℓ → Option σ) (C : σ → ℓ → Prop) : σ → List ℓ → Prop
  | _, [] => True
  | s, l :: ls => C s l ∧ ∀ s', step s l = some s' → Along step C s' ls

theorem along_cons_of_step {C : σ → ℓ → Prop} {s s' : σ} {l : ℓ} {ls : List ℓ}
    (h : step s l = some s') :
    Along step C s (l :: ls) ↔ C s l ∧ Along step C s' ls := by
  simp [Along, h]

theorem along_congr {C D : σ → ℓ → Prop} (h : ∀ s l, C s l ↔ D s l) :
    ∀ {ls : List ℓ} {s : σ}, Along step C s ls ↔ Along step D s ls := by
  intro ls
  induction ls with
  | nil => exact fun {_} => Iff.rfl
  | cons l ls ih =>
      intro s
      refine and_congr (h s l) (forall_congr' fun s' => ?_)
      exact imp_congr_right fun _ => ih

/-- Whether a run meets a decidable condition can be computed. -/
instance decidableAlong {C : σ → ℓ → Prop} [∀ s l, Decidable (C s l)] :
    ∀ s ls, Decidable (Along step C s ls)
  | _, [] => isTrue trivial
  | s, l :: ls =>
      match h : step s l with
      | none => decidable_of_iff (C s l) (by simp [Along, h])
      | some s' =>
          have := decidableAlong (C := C) s' ls
          decidable_of_iff (C s l ∧ Along step C s' ls)
            (along_cons_of_step h).symm

/-- **Invariant rule**: what every step preserves holds at the end of every
run. -/
theorem invariant {I : σ → Prop}
    (hstep : ∀ s l s', I s → step s l = some s' → I s')
    {s t : σ} (hI : I s) (h : Reaches step s t) : I t := by
  obtain ⟨ls, hr⟩ := h
  induction ls generalizing s with
  | nil => cases hr; exact hI
  | cons l ls ih =>
      obtain ⟨s', hs, hr'⟩ := run_cons_iff.mp hr
      exact ih (hstep s l s' hI hs) hr'

/-- **Preorder rule**: a reflexive and transitive relation that every step
from an invariant state respects relates the two ends of a run. -/
theorem related {I : σ → Prop} {R : σ → σ → Prop}
    (hI : ∀ s l s', I s → step s l = some s' → I s')
    (hrefl : ∀ s, R s s) (htrans : ∀ s t u, R s t → R t u → R s u)
    (hstep : ∀ s l s', I s → step s l = some s' → R s s')
    {s t : σ} (hs : I s) (h : Reaches step s t) : R s t := by
  have key : I t ∧ R s t := by
    refine invariant (I := fun u => I u ∧ R s u) ?_ ⟨hs, hrefl s⟩ h
    rintro u l u' ⟨hu, hru⟩ hl
    exact ⟨hI u l u' hu hl, htrans s u u' hru (hstep u l u' hu hl)⟩
  exact key.2

/-! ## §3  Properties of every state on a run -/

/-- `P` holds in every state the run passes through, both ends included. -/
def Always (step : σ → ℓ → Option σ) (P : σ → Prop) : σ → List ℓ → Prop
  | s, [] => P s
  | s, l :: ls => P s ∧ ∀ s', step s l = some s' → Always step P s' ls

theorem always_cons_of_step {P : σ → Prop} {s s' : σ} {l : ℓ} {ls : List ℓ}
    (h : step s l = some s') :
    Always step P s (l :: ls) ↔ P s ∧ Always step P s' ls := by
  simp [Always, h]

theorem Always.head {P : σ → Prop} {s : σ} {ls : List ℓ}
    (h : Always step P s ls) : P s := by
  cases ls with
  | nil => exact h
  | cons l ls => exact h.1

/-- **Exact condition for a state property.** When a step from a good state
leads to a good state exactly if it meets `C`, a run passes through good
states only exactly if all its steps meet `C`. -/
theorem always_iff_along {I P : σ → Prop} {C : σ → ℓ → Prop}
    (hI : ∀ s l s', I s → step s l = some s' → I s')
    (hstep : ∀ s l s', I s → P s → step s l = some s' → (P s' ↔ C s l)) :
    ∀ {ls : List ℓ} {s t : σ}, I s → P s → run step s ls = some t →
      (Always step P s ls ↔ Along step C s ls) := by
  intro ls
  induction ls with
  | nil =>
      intro s t _ hP _
      exact ⟨fun _ => trivial, fun _ => hP⟩
  | cons l ls ih =>
      intro s t hs hP hr
      obtain ⟨s', hl, hr'⟩ := run_cons_iff.mp hr
      have hs' := hI s l s' hs hl
      rw [always_cons_of_step hl, along_cons_of_step hl]
      constructor
      · rintro ⟨_, ha⟩
        have hP' : P s' := ha.head
        exact ⟨(hstep s l s' hs hP hl).mp hP', (ih hs' hP' hr').mp ha⟩
      · rintro ⟨hc, ha⟩
        have hP' : P s' := (hstep s l s' hs hP hl).mpr hc
        exact ⟨hP, (ih hs' hP' hr').mpr ha⟩

/-- **Exact condition for a measure.** When a step keeps the measure `μ` if it
meets `C` and raises it otherwise, the measure at the end of a run is the one
at its start exactly if all steps met `C`. The order may be partial, so `μ`
may be a family of measures. -/
theorem measure_eq_iff_along {α : Type*} [Preorder α] {I : σ → Prop}
    {μ : σ → α} {C : σ → ℓ → Prop}
    (hI : ∀ s l s', I s → step s l = some s' → I s')
    (hkeep : ∀ s l s', I s → step s l = some s' → C s l → μ s' = μ s)
    (hraise : ∀ s l s', I s → step s l = some s' → ¬ C s l → μ s < μ s') :
    ∀ {ls : List ℓ} {s t : σ}, I s → run step s ls = some t →
      μ s ≤ μ t ∧ (μ t = μ s ↔ Along step C s ls) := by
  intro ls
  induction ls with
  | nil =>
      intro s t _ hr
      cases hr
      exact ⟨le_rfl, fun _ => trivial, fun _ => rfl⟩
  | cons l ls ih =>
      intro s t hs hr
      obtain ⟨s', hl, hr'⟩ := run_cons_iff.mp hr
      obtain ⟨hle, hiff⟩ := ih (hI s l s' hs hl) hr'
      rw [along_cons_of_step hl]
      by_cases hc : C s l
      · have hk := hkeep s l s' hs hl hc
        rw [hk] at hle hiff
        exact ⟨hle, fun h => ⟨hc, hiff.mp h⟩, fun h => hiff.mpr h.2⟩
      · have hlt := hraise s l s' hs hl hc
        refine ⟨hlt.le.trans hle, fun h => ?_, fun h => absurd h.1 hc⟩
        exact absurd h (hlt.trans_le hle).ne'

/-! ## §4  Simulation -/

/-- **Simulation rule**: when every step of one system is matched, through
`π`, by a run of another, the images of reachable states are reachable. -/
theorem reaches_of_simulation {step' : τ → κ → Option τ} {π : σ → τ}
    (hstep : ∀ s l s', step s l = some s' → Reaches step' (π s) (π s'))
    {s t : σ} (h : Reaches step s t) : Reaches step' (π s) (π t) := by
  refine invariant (I := fun u => Reaches step' (π s) (π u)) ?_
    (Reaches.refl _) h
  intro u l u' hu hl
  exact hu.trans (hstep u l u' hl)

end Transition
