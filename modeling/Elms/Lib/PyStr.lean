import Mathlib.Data.List.TakeWhile
import Mathlib.Data.String.Basic
import Mathlib.Data.Char
import Mathlib.Tactic.Common

/-!
# Python string methods

`str.strip`, `str.lower` and `str.upper`, as far as request handling uses them.
Whitespace is what `str.isspace` accepts; `lower` is the ASCII fold that HTTP
header names and authentication schemes are compared under, and `upper` is
compared with ASCII texts only.
-/

namespace PyStr

/-- `c.isspace()` -/
def isSpace (c : Char) : Bool :=
  let n := c.toNat
  decide (9 ≤ n ∧ n ≤ 13) || decide (28 ≤ n ∧ n ≤ 32) || n == 0x85 ||
    n == 0xa0 || n == 0x1680 || decide (0x2000 ≤ n ∧ n ≤ 0x200a) ||
    n == 0x2028 || n == 0x2029 || n == 0x202f || n == 0x205f || n == 0x3000

/-- `s.strip()` -/
def strip (s : String) : String :=
  String.ofList
    ((s.toList.dropWhile isSpace).reverse.dropWhile isSpace).reverse

/-- `s.lower()` on ASCII -/
def lower (s : String) : String := String.ofList (s.toList.map Char.toLower)

/-- `c.upper()`, for every character whose upper case is ASCII. -/
def upperChar (c : Char) : List Char :=
  match c with
  | 'ß' => ['S', 'S']
  | 'ı' => ['I']
  | 'ſ' => ['S']
  | 'ﬀ' => ['F', 'F']
  | 'ﬁ' => ['F', 'I']
  | 'ﬂ' => ['F', 'L']
  | 'ﬃ' => ['F', 'F', 'I']
  | 'ﬄ' => ['F', 'F', 'L']
  | 'ﬅ' => ['S', 'T']
  | 'ﬆ' => ['S', 'T']
  | c => [c.toUpper]

/-- `s.upper()`, exact where the result is ASCII. -/
def upper (s : String) : String := String.ofList (s.toList.flatMap upperChar)

/-- `s.partition(c)`, without the separator in the middle. -/
def partition (c : Char) (s : String) : String × String :=
  (String.ofList (s.toList.takeWhile (· ≠ c)),
   String.ofList ((s.toList.dropWhile (· ≠ c)).drop 1))

/-- Stripping leaves nothing exactly when there is only whitespace. -/
theorem strip_eq_empty_iff {s : String} :
    strip s = "" ↔ ∀ c ∈ s.toList, isSpace c = true := by
  rw [strip, String.ofList_eq_empty_iff, List.reverse_eq_nil_iff,
    List.dropWhile_eq_nil_iff]
  constructor
  · intro h c hc
    rw [← List.takeWhile_append_dropWhile (p := isSpace) (l := s.toList)] at hc
    rcases List.mem_append.mp hc with h' | h'
    · exact List.mem_takeWhile_imp h'
    · exact h c (List.mem_reverse.mpr h')
  · intro h c hc
    exact h c ((List.dropWhile_suffix _).subset (List.mem_reverse.mp hc))

end PyStr
