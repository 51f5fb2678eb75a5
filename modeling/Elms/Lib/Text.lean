import Mathlib.Data.List.Basic
import Mathlib.Data.Fin.Basic
import Mathlib.Data.String.Basic
import Mathlib.Tactic.Common

/-!
# Texts of code points

A Python string is a sequence of code points, and a surrogate is a code point
like any other there: a string may hold half of a UTF-16 pair, or both halves
side by side without their being one character. `Text` keeps that difference.
-/

/-- A Unicode code point, surrogates included. -/
abbrev CodePoint := Fin 0x110000

/-- A Python `str` -/
abbrev Text := List CodePoint

namespace CodePoint

/-! ## §1  Characters -/

/-- `chr(n)`, for the numbers that have one. -/
def ofNat (n : Nat) : CodePoint := Fin.ofNat 0x110000 n

theorem val_ofNat {n : Nat} (h : n < 0x110000) : (ofNat n).val = n :=
  Nat.mod_eq_of_lt h

theorem ofNat_val (c : CodePoint) : ofNat c.val = c := Fin.ext (val_ofNat c.isLt)

def ofChar (c : Char) : CodePoint := ofNat c.toNat

theorem toNat_char_lt (c : Char) :
    c.toNat < 0xd800 ∨ 0xe000 ≤ c.toNat ∧ c.toNat < 0x110000 := by
  rcases c.valid with h | ⟨h, h'⟩
  · exact Or.inl h
  · exact Or.inr ⟨h, h'⟩

theorem val_ofChar (c : Char) : (ofChar c).val = c.toNat := by
  apply val_ofNat
  rcases toNat_char_lt c with h | h <;> omega

theorem ofChar_injective : Function.Injective ofChar := by
  intro a b h
  apply Char.toNat_inj.mp
  rw [← val_ofChar a, ← val_ofChar b, h]

/-! ## §2  Surrogates -/

/-- The first half of a UTF-16 pair. -/
def IsHigh (c : CodePoint) : Prop := 0xd800 ≤ c.val ∧ c.val < 0xdc00

/-- The second half of a UTF-16 pair. -/
def IsLow (c : CodePoint) : Prop := 0xdc00 ≤ c.val ∧ c.val < 0xe000

instance (c : CodePoint) : Decidable (IsHigh c) :=
  inferInstanceAs (Decidable (_ ∧ _))

instance (c : CodePoint) : Decidable (IsLow c) :=
  inferInstanceAs (Decidable (_ ∧ _))

/-- The character that a pair of halves encodes. -/
def join (hi lo : CodePoint) : CodePoint :=
  ofNat (0x10000 + ((hi.val - 0xd800) * 0x400 + (lo.val - 0xdc00)))

def high (c : CodePoint) : CodePoint := ofNat (0xd800 + (c.val - 0x10000) / 0x400)

def low (c : CodePoint) : CodePoint := ofNat (0xdc00 + (c.val - 0x10000) % 0x400)

/-- The UTF-16 code units of a code point: two beyond the basic plane. -/
def units (c : CodePoint) : Text :=
  if c.val < 0x10000 then [c] else [high c, low c]

variable {c d : CodePoint}

theorem val_high (c : CodePoint) :
    (high c).val = 0xd800 + (c.val - 0x10000) / 0x400 :=
  val_ofNat (by have := c.isLt; omega)

theorem val_low (c : CodePoint) :
    (low c).val = 0xdc00 + (c.val - 0x10000) % 0x400 :=
  val_ofNat (by omega)

theorem isHigh_high (c : CodePoint) : IsHigh (high c) := by
  have := c.isLt
  rw [IsHigh, val_high]
  omega

theorem isLow_low (c : CodePoint) : IsLow (low c) := by
  rw [IsLow, val_low]
  omega

theorem IsHigh.not_isLow (h : IsHigh c) : ¬ IsLow c := by
  rw [IsHigh] at h
  rw [IsLow]
  omega

/-- Beyond the basic plane there are no surrogates. -/
theorem not_isHigh_of_astral (h : ¬ c.val < 0x10000) : ¬ IsHigh c := by
  rw [IsHigh]
  omega

theorem not_isLow_of_astral (h : ¬ c.val < 0x10000) : ¬ IsLow c := by
  rw [IsLow]
  omega

theorem join_high_low (h : ¬ c.val < 0x10000) : join (high c) (low c) = c := by
  have := c.isLt
  rw [join, val_high, val_low]
  have hn : 0x10000 + ((0xd800 + (c.val - 0x10000) / 0x400 - 0xd800) * 0x400 +
      (0xdc00 + (c.val - 0x10000) % 0x400 - 0xdc00)) = c.val := by
    omega
  rw [hn, ofNat_val]

theorem val_lt_of_mem_units {u : CodePoint} (h : u ∈ units c) : u.val < 0x10000 := by
  unfold units at h
  split_ifs at h with hc
  · rw [List.mem_singleton.mp h]
    exact hc
  · rcases List.mem_pair.mp h with rfl | rfl
    · have := (isHigh_high c).2
      omega
    · have := (isLow_low c).2
      omega

theorem not_isHigh_ofChar (c : Char) : ¬ IsHigh (ofChar c) := by
  rw [IsHigh, val_ofChar]
  rcases toNat_char_lt c with h | h <;> omega

end CodePoint

/-! ## §3  Texts -/

/-- A text from a string, which has no surrogates. -/
def text (s : String) : Text := s.toList.map CodePoint.ofChar

theorem text_append (s t : String) : text (s ++ t) = text s ++ text t := by
  simp [text]

theorem text_injective : Function.Injective text := by
  intro s t h
  apply String.toList_injective
  exact List.map_injective_iff.mpr CodePoint.ofChar_injective h

namespace Text

open CodePoint

/-- Every half of a pair that is followed by its other half is put together
with it, from left to right. -/
def joinSurrogates : Text → Text
  | [] => []
  | [c] => [c]
  | c :: d :: rest =>
    if IsHigh c ∧ IsLow d then join c d :: joinSurrogates rest
    else c :: joinSurrogates (d :: rest)

variable {c d : CodePoint} {t : Text}

theorem joinSurrogates_pair (hc : IsHigh c) (hd : IsLow d) :
    joinSurrogates (c :: d :: t) = join c d :: joinSurrogates t := by
  rw [joinSurrogates, if_pos ⟨hc, hd⟩]

theorem joinSurrogates_cons_of_not_isHigh (hc : ¬ IsHigh c) :
    joinSurrogates (c :: t) = c :: joinSurrogates t := by
  cases t with
  | nil => rfl
  | cons d t => rw [joinSurrogates, if_neg fun h => hc h.1]

theorem joinSurrogates_cons_of_not_isLow (hd : ¬ IsLow d) :
    joinSurrogates (c :: d :: t) = c :: joinSurrogates (d :: t) := by
  rw [joinSurrogates, if_neg fun h => hd h.2]

/-- Splitting characters into UTF-16 units and joining the pairs again joins
the pairs that were there. -/
theorem joinSurrogates_units (t : Text) :
    joinSurrogates (t.flatMap units) = joinSurrogates t := by
  fun_induction joinSurrogates t with
  | case1 => rfl
  | case2 c =>
      by_cases hc : c.val < 0x10000
      · simp [units, hc, joinSurrogates]
      · simp only [List.flatMap_cons, List.flatMap_nil, List.append_nil, units,
          if_neg hc]
        rw [joinSurrogates_pair (isHigh_high c) (isLow_low c), join_high_low hc]
        rfl
  | case3 c d rest hcd ih =>
      have hc : c.val < 0x10000 := by
        by_contra h
        exact not_isHigh_of_astral h hcd.1
      have hd : d.val < 0x10000 := by
        by_contra h
        exact not_isLow_of_astral h hcd.2
      simp only [List.flatMap_cons, units, if_pos hc, if_pos hd, List.cons_append,
        List.nil_append]
      rw [joinSurrogates_pair hcd.1 hcd.2, ih]
  | case4 c d rest hcd ih =>
      by_cases hc : c.val < 0x10000
      · -- the first unit of `d` is a low surrogate only if `d` itself is one
        have hskip : joinSurrogates (c :: (d :: rest).flatMap units) =
            c :: joinSurrogates ((d :: rest).flatMap units) := by
          by_cases hhigh : IsHigh c
          · have hlow : ¬ IsLow d := fun h => hcd ⟨hhigh, h⟩
            by_cases hd : d.val < 0x10000
            · simp only [List.flatMap_cons, units, if_pos hd, List.cons_append,
                List.nil_append]
              exact joinSurrogates_cons_of_not_isLow hlow
            · simp only [List.flatMap_cons, units, if_neg hd, List.cons_append,
                List.nil_append]
              exact joinSurrogates_cons_of_not_isLow (isHigh_high d).not_isLow
          · exact joinSurrogates_cons_of_not_isHigh hhigh
        rw [List.flatMap_cons, units, if_pos hc, List.cons_append, List.nil_append,
          hskip, ih]
      · rw [List.flatMap_cons, units, if_neg hc, List.cons_append, List.cons_append,
          List.nil_append, joinSurrogates_pair (isHigh_high c) (isLow_low c),
          join_high_low hc, ih]

/-- A string of characters has nothing to join. -/
theorem joinSurrogates_text (s : String) : joinSurrogates (text s) = text s := by
  rw [text]
  induction s.toList with
  | nil => rfl
  | cons c cs ih =>
      rw [List.map_cons, joinSurrogates_cons_of_not_isHigh (not_isHigh_ofChar c), ih]

end Text
