import Elms.Lib.Dict
import Elms.Lib.Text

/-!
# JSON as Python reads it

`json.loads` of a decoded text: the values, the scanner with the exceptions it
raises, and `str` of a value it returned. The scanner recurses once for every
container it enters, so its depth budget is what the recursion is on; the loops
over members and elements are bounded by the characters that are left.
-/

/-- A value that `json.loads` returns. A float keeps the literal it was read
from. -/
inductive Json where
  | null
  | bool (b : Bool)
  | int (n : Int)
  | float (literal : String)
  | str (s : Text)
  | array (elements : List Json)
  | object (members : List (Text × Json))

/-- What reading and printing values takes from the interpreter. -/
structure Interpreter where
  /-- Containers that can be open at once before `RecursionError`. -/
  maxDepth : Nat
  maxDepth_pos : 0 < maxDepth
  /-- `sys.get_int_max_str_digits()`, where 0 is no limit. -/
  maxStrDigits : Nat
  /-- `str.isprintable` beyond ASCII. -/
  isPrintable : CodePoint → Bool
  /-- `repr(float(literal))` -/
  floatRepr : String → String
  /-- It begins with a digit or a sign, or is `inf` or `nan`. -/
  floatRepr_head (literal : String) :
    ∃ c, (floatRepr literal).toList.head? = some c ∧
      (c.isDigit = true ∨ c ∈ ['-', 'i', 'n'])

namespace Json

/-- The exceptions of `json.loads`. A `JSONDecodeError` is a `ValueError`, but
not every `ValueError` is a `JSONDecodeError`. -/
inductive LoadError where
  | jsonDecodeError
  | valueError
  | recursionError
deriving DecidableEq, Repr

/-- `d.get(key)` on the members of an object. -/
def get? (members : List (Text × Json)) (key : Text) : Option Json :=
  (members.find? fun p => p.1 = key).map Prod.snd

/-! ## §1  Strings -/

def hexDigit? (c : Char) : Option Nat :=
  if c.isDigit then some (c.toNat - '0'.toNat)
  else if 'a' ≤ c ∧ c ≤ 'f' then some (c.toNat - 'a'.toNat + 10)
  else if 'A' ≤ c ∧ c ≤ 'F' then some (c.toNat - 'A'.toNat + 10)
  else none

/-- The code unit that four hexadecimal digits name. -/
def hex4? (h₁ h₂ h₃ h₄ : Char) : Option CodePoint := do
  let n₁ ← hexDigit? h₁
  let n₂ ← hexDigit? h₂
  let n₃ ← hexDigit? h₃
  let n₄ ← hexDigit? h₄
  some (CodePoint.ofNat (((n₁ * 16 + n₂) * 16 + n₃) * 16 + n₄))

/-- The character that a backslash before `c` stands for. -/
def simpleEscape? (c : Char) : Option Char :=
  match c with
  | '"' => some '"'
  | '\\' => some '\\'
  | '/' => some '/'
  | 'b' => some '\x08'
  | 'f' => some '\x0c'
  | 'n' => some '\n'
  | 'r' => some '\r'
  | 't' => some '\t'
  | _ => none

/-- A string literal after its opening quote, read one code unit at a time. -/
def scanUnits : List Char → Option (Text × List Char)
  | [] => none
  | c :: rest =>
    if c = '"' then some ([], rest)
    else if c = '\\' then
      match rest with
      | [] => none
      | e :: rest =>
        if e = 'u' then
          match rest with
          | h₁ :: h₂ :: h₃ :: h₄ :: rest =>
            (hex4? h₁ h₂ h₃ h₄).bind fun unit =>
              (scanUnits rest).map fun r => (unit :: r.1, r.2)
          | _ => none
        else
          (simpleEscape? e).bind fun unit =>
            (scanUnits rest).map fun r => (CodePoint.ofChar unit :: r.1, r.2)
    -- control characters have to be escaped
    else if c.toNat < 0x20 then none
    else (scanUnits rest).map fun r => (CodePoint.ofChar c :: r.1, r.2)

/-- `scanstring`: a surrogate pair written as two escapes is one character. -/
def scanString (s : List Char) : Except LoadError (Text × List Char) :=
  match scanUnits s with
  | some (units, rest) => .ok (units.joinSurrogates, rest)
  | none => .error .jsonDecodeError

/-! ## §2  Numbers and constants -/

def scanFraction (s : List Char) : List Char × List Char :=
  match s with
  | '.' :: rest =>
    let digits := rest.takeWhile Char.isDigit
    if digits = [] then ([], s) else ('.' :: digits, rest.drop digits.length)
  | _ => ([], s)

def scanExponent (s : List Char) : List Char × List Char :=
  match s with
  | e :: rest =>
    if e = 'e' ∨ e = 'E' then
      let sign := (rest.take 1).filter fun c => c = '-' ∨ c = '+'
      let digits := (rest.drop sign.length).takeWhile Char.isDigit
      if digits = [] then ([], s)
      else (e :: (sign ++ digits), rest.drop (sign ++ digits).length)
    else ([], s)
  | [] => ([], s)

/-- `_match_number`: only the conversion of an integer has a limit. -/
def scanNumber (maxStrDigits : Nat) (s : List Char) :
    Except LoadError (Json × List Char) :=
  let sign := (s.take 1).filter fun c => c = '-'
  match s.drop sign.length with
  | [] => .error .jsonDecodeError
  | c :: rest =>
    if c.isDigit then
      let digits := c :: if c = '0' then [] else rest.takeWhile Char.isDigit
      let fraction := scanFraction (rest.drop (digits.length - 1))
      let exponent := scanExponent fraction.2
      let decimals := fraction.1 ++ exponent.1
      if decimals ≠ [] then
        .ok (.float (String.ofList (sign ++ digits ++ decimals)), exponent.2)
      else if maxStrDigits ≠ 0 ∧ maxStrDigits < digits.length then
        .error .valueError
      else
        let n : Int := Nat.ofDigitChars 10 digits 0
        .ok (.int (if sign = [] then n else -n), exponent.2)
    else .error .jsonDecodeError

def constants : List (String × Json) :=
  [("null", .null), ("true", .bool true), ("false", .bool false),
   ("NaN", .float "NaN"), ("Infinity", .float "Infinity"),
   ("-Infinity", .float "-Infinity")]

def scanConstant? (s : List Char) : Option (Json × List Char) :=
  constants.findSome? fun p =>
    (p.1.toList.isPrefixOf? s).map fun rest => (p.2, rest)

/-! ## §3  Containers -/

def isWhitespace (c : Char) : Bool :=
  c = ' ' || c = '\t' || c = '\n' || c = '\r'

def skipWhitespace (s : List Char) : List Char := s.dropWhile isWhitespace

/-- The items of a container from one of them on, up to the closing
delimiter. -/
def scanItems {σ : Type}
    (item : σ → List Char → Except LoadError (σ × List Char)) (close : Char) :
    Nat → σ → List Char → Except LoadError (σ × List Char)
  | 0, _, _ => .error .jsonDecodeError
  | fuel + 1, found, s => do
    let (found, rest) ← item found s
    match skipWhitespace rest with
    | [] => .error .jsonDecodeError
    | c :: rest =>
      if c = close then .ok (found, rest)
      else if c = ',' then scanItems item close fuel found (skipWhitespace rest)
      else .error .jsonDecodeError

/-- A container after its opening delimiter. -/
def scanContainer {σ : Type}
    (item : σ → List Char → Except LoadError (σ × List Char)) (close : Char)
    (none : σ) (s : List Char) : Except LoadError (σ × List Char) :=
  match skipWhitespace s with
  | [] => .error .jsonDecodeError
  | c :: rest =>
    if c = close then .ok (none, rest)
    else scanItems item close (rest.length + 2) none (c :: rest)

section Items

variable (scan : List Char → Except LoadError (Json × List Char))

/-- The value of a member, after its key. A key that comes again keeps its place
and takes the later value. -/
def scanValue (members : List (Text × Json)) (key : Text) (s : List Char) :
    Except LoadError (List (Text × Json) × List Char) :=
  match skipWhitespace s with
  | [] => .error .jsonDecodeError
  | c :: rest =>
    if c = ':' then do
      let (value, rest) ← scan (skipWhitespace rest)
      .ok (Dict.setEntries key value members, rest)
    else .error .jsonDecodeError

/-- One member of an object. -/
def scanMember (members : List (Text × Json)) (s : List Char) :
    Except LoadError (List (Text × Json) × List Char) :=
  match s with
  | [] => .error .jsonDecodeError
  | c :: rest =>
    if c = '"' then do
      let (key, rest) ← scanString rest
      scanValue scan members key rest
    else .error .jsonDecodeError

/-- One element of an array. -/
def scanElement (elements : List Json) (s : List Char) :
    Except LoadError (List Json × List Char) := do
  let (value, rest) ← scan s
  .ok (elements ++ [value], rest)

/-- `_parse_object`, after the opening brace. -/
def scanObject (s : List Char) : Except LoadError (Json × List Char) := do
  let (members, rest) ← scanContainer (scanMember scan) '}' [] s
  .ok (.object members, rest)

/-- `_parse_array`, after the opening bracket. -/
def scanArray (s : List Char) : Except LoadError (Json × List Char) := do
  let (elements, rest) ← scanContainer (scanElement scan) ']' [] s
  .ok (.array elements, rest)

end Items

/-- A string, a constant or a number. -/
def scanScalar (maxStrDigits : Nat) (s : List Char) :
    Except LoadError (Json × List Char) :=
  match s with
  | [] => .error .jsonDecodeError
  | c :: rest =>
    if c = '"' then do
      let (t, rest) ← scanString rest
      .ok (.str t, rest)
    else
      match scanConstant? (c :: rest) with
      | some r => .ok r
      | none => scanNumber maxStrDigits (c :: rest)

/-- `scan_once`: the value at the front of a text, inside at most `depth` more
containers. -/
def scanOnce (maxStrDigits : Nat) : Nat → List Char →
    Except LoadError (Json × List Char)
  | _, [] => .error .jsonDecodeError
  | depth, c :: rest =>
    if c = '{' then
      match depth with
      | 0 => .error .recursionError
      | depth + 1 => scanObject (fun s => scanOnce maxStrDigits depth s) rest
    else if c = '[' then
      match depth with
      | 0 => .error .recursionError
      | depth + 1 => scanArray (fun s => scanOnce maxStrDigits depth s) rest
    else scanScalar maxStrDigits (c :: rest)

/-! ## §4  The loops end

Nothing that is scanned leaves more characters than there were, so a loop that
may go round as often as there are characters is never stopped by its bound.
-/

theorem scanUnits_quote (rest : List Char) :
    scanUnits ('"' :: rest) = some ([], rest) := by
  rw [scanUnits.eq_def]
  exact if_pos rfl

theorem scanUnits_hex (h₁ h₂ h₃ h₄ : Char) (rest : List Char) :
    scanUnits ('\\' :: 'u' :: h₁ :: h₂ :: h₃ :: h₄ :: rest) =
      (hex4? h₁ h₂ h₃ h₄).bind fun unit =>
        (scanUnits rest).map fun r => (unit :: r.1, r.2) := by
  rw [scanUnits.eq_def]
  simp

theorem scanUnits_escape {e : Char} (he : e ≠ 'u') (rest : List Char) :
    scanUnits ('\\' :: e :: rest) =
      (simpleEscape? e).bind fun unit =>
        (scanUnits rest).map fun r => (CodePoint.ofChar unit :: r.1, r.2) := by
  rw [scanUnits.eq_def]
  simp [he]

theorem scanUnits_char {c : Char} (hquote : c ≠ '"') (hslash : c ≠ '\\')
    (hcontrol : ¬ c.toNat < 0x20) (rest : List Char) :
    scanUnits (c :: rest) =
      (scanUnits rest).map fun r => (CodePoint.ofChar c :: r.1, r.2) := by
  rw [scanUnits.eq_def]
  simp only [if_neg hquote, if_neg hslash, if_neg hcontrol]

/-- Whatever comes first, the rest is what the scan of what follows leaves. -/
theorem exists_scanUnits_of_map {s rest : List Char} {unit : CodePoint}
    {units : Text}
    (h : ((scanUnits s).map fun r => (unit :: r.1, r.2)) = some (units, rest)) :
    ∃ us, scanUnits s = some (us, rest) := by
  obtain ⟨⟨us, r⟩, hs, he⟩ := Option.map_eq_some_iff.mp h
  obtain ⟨-, rfl⟩ := Prod.mk.inj he
  exact ⟨us, hs⟩

theorem length_scanUnits {s rest : List Char} {units : Text}
    (h : scanUnits s = some (units, rest)) : rest.length < s.length := by
  induction s using scanUnits.induct generalizing units rest with
  | case1 => simp [scanUnits] at h
  | case2 s =>
      rw [scanUnits_quote] at h
      cases h
      simp
  | case3 => simp [scanUnits] at h
  | case4 h₁ h₂ h₃ h₄ s _ ih =>
      rw [scanUnits_hex] at h
      obtain ⟨unit, -, h⟩ := Option.bind_eq_some_iff.mp h
      obtain ⟨us, hs⟩ := exists_scanUnits_of_map h
      have := ih hs
      simp only [List.length_cons]
      omega
  | case5 s hs =>
      rw [scanUnits.eq_def] at h
      simp at h
  | case6 e s he _ ih =>
      rw [scanUnits_escape he] at h
      obtain ⟨unit, -, h⟩ := Option.bind_eq_some_iff.mp h
      obtain ⟨us, hs⟩ := exists_scanUnits_of_map h
      have := ih hs
      simp only [List.length_cons]
      omega
  | case7 c s hquote hslash hcontrol =>
      rw [scanUnits.eq_def] at h
      simp [hquote, hslash, hcontrol] at h
  | case8 c s hquote hslash hcontrol ih =>
      rw [scanUnits_char hquote hslash hcontrol] at h
      obtain ⟨us, hs⟩ := exists_scanUnits_of_map h
      have := ih hs
      simp only [List.length_cons]
      omega

theorem length_scanString {s rest : List Char} {t : Text}
    (h : scanString s = .ok (t, rest)) : rest.length < s.length := by
  unfold scanString at h
  split at h
  · next units rest' hs =>
      cases h
      exact length_scanUnits hs
  · cases h

theorem length_skipWhitespace_le (s : List Char) :
    (skipWhitespace s).length ≤ s.length :=
  (List.dropWhile_suffix _).length_le

theorem length_scanFraction_le (s : List Char) :
    (scanFraction s).2.length ≤ s.length := by
  unfold scanFraction
  split
  · next rest =>
      dsimp only
      split
      · exact Nat.le_refl _
      · simp only [List.length_drop, List.length_cons]
        omega
  · exact Nat.le_refl _

theorem length_scanExponent_le (s : List Char) :
    (scanExponent s).2.length ≤ s.length := by
  unfold scanExponent
  split
  · next e rest =>
      dsimp only
      split_ifs
      · exact Nat.le_refl _
      · simp only [List.length_drop, List.length_cons]
        omega
      · exact Nat.le_refl _
  · exact Nat.le_refl _

theorem length_scanNumber {maxStrDigits : Nat} {s rest : List Char} {value : Json}
    (h : scanNumber maxStrDigits s = .ok (value, rest)) :
    rest.length ≤ s.length := by
  unfold scanNumber at h
  dsimp only at h
  split at h
  · cases h
  · next c tail hs =>
      have htail : tail.length < s.length := by
        have := congrArg List.length hs
        simp only [List.length_drop, List.length_cons] at this
        omega
      have hrest (n : Nat) :
          (scanExponent (scanFraction (tail.drop n)).2).2.length ≤ tail.length := by
        have h₁ := length_scanExponent_le (scanFraction (tail.drop n)).2
        have h₂ := length_scanFraction_le (tail.drop n)
        have h₃ : (tail.drop n).length ≤ tail.length := by simp
        omega
      have hlt (n : Nat) := Nat.lt_of_le_of_lt (hrest n) htail
      split_ifs at h <;> cases h <;> exact Nat.le_of_lt (hlt _)

theorem length_scanConstant {s rest : List Char} {value : Json}
    (h : scanConstant? s = some (value, rest)) : rest.length ≤ s.length := by
  obtain ⟨p, -, hp⟩ := List.exists_of_findSome?_eq_some h
  obtain ⟨r, hr, he⟩ := Option.map_eq_some_iff.mp hp
  cases he
  rw [List.isPrefixOf?_eq_some_iff_append_eq] at hr
  rw [← hr, List.length_append]
  omega

/-- The scanner gives back a text no longer than the one it was given. -/
def Shrinks {α : Type} (scan : List Char → Except LoadError (α × List Char)) :
    Prop :=
  ∀ ⦃s a rest⦄, scan s = .ok (a, rest) → rest.length ≤ s.length

theorem bind_eq_ok {α β : Type} {x : Except LoadError α}
    {f : α → Except LoadError β} {b : β} (h : x >>= f = .ok b) :
    ∃ a, x = .ok a ∧ f a = .ok b := by
  cases x with
  | error e => cases h
  | ok a => exact ⟨a, rfl, h⟩

section Loops

variable {σ : Type} {item : σ → List Char → Except LoadError (σ × List Char)}
variable {close : Char}

theorem shrinks_scanItems (hitem : ∀ found, Shrinks (item found)) (fuel : Nat)
    (found : σ) : Shrinks (scanItems item close fuel found) := by
  induction fuel generalizing found with
  | zero =>
      intro s a rest h
      cases h
  | succ fuel ih =>
      intro s a rest h
      obtain ⟨⟨found', tail⟩, hfound, h⟩ := bind_eq_ok h
      have htail := hitem found hfound
      have hskip := length_skipWhitespace_le tail
      -- the delimiter after an item is what makes the text shorter
      dsimp only at h
      split at h
      · cases h
      · next c tail' hc =>
          rw [hc, List.length_cons] at hskip
          split_ifs at h
          · cases h
            omega
          · have hrest := ih found' h
            have := length_skipWhitespace_le tail'
            omega

/-- The loop does not reach its bound: any two bounds above the length of the
text give the same result. -/
theorem scanItems_fuel (hitem : ∀ found, Shrinks (item found)) {m n : Nat}
    {found : σ} {s : List Char} (hm : s.length < m) (hn : s.length < n) :
    scanItems item close m found s = scanItems item close n found s := by
  induction m generalizing n found s with
  | zero => omega
  | succ m ih =>
      cases n with
      | zero => omega
      | succ n =>
          rw [scanItems, scanItems]
          cases hfound : item found s with
          | error e => rfl
          | ok r =>
              obtain ⟨found', tail⟩ := r
              have htail := hitem found hfound
              have hskip := length_skipWhitespace_le tail
              dsimp only [bind, Except.bind]
              split
              · rfl
              · next c tail' hc =>
                  rw [hc, List.length_cons] at hskip
                  have := length_skipWhitespace_le tail'
                  -- the comma is gone, so either bound is above what is left
                  have hnext : (skipWhitespace tail').length < m := by omega
                  rw [ih (n := n) hnext (by omega)]

theorem shrinks_scanContainer (hitem : ∀ found, Shrinks (item found)) (none : σ) :
    Shrinks (scanContainer item close none) := by
  intro s a rest h
  have hskip := length_skipWhitespace_le s
  rw [scanContainer] at h
  split at h
  · cases h
  · next c tail hc =>
      rw [hc, List.length_cons] at hskip
      split_ifs at h
      · cases h
        omega
      · have := shrinks_scanItems hitem _ _ h
        rw [List.length_cons] at this
        omega

end Loops

variable {scan : List Char → Except LoadError (Json × List Char)}

theorem shrinks_scanValue (hscan : Shrinks scan) (members : List (Text × Json))
    (key : Text) : Shrinks (scanValue scan members key) := by
  intro s a rest h
  have h₁ := length_skipWhitespace_le s
  rw [scanValue] at h
  split at h
  · cases h
  · next c afterColon hcolon =>
      rw [hcolon, List.length_cons] at h₁
      split_ifs at h
      obtain ⟨⟨value, afterValue⟩, hvalue, h⟩ := bind_eq_ok h
      have h₂ := length_skipWhitespace_le afterColon
      have h₃ := hscan hvalue
      cases h
      omega

theorem shrinks_scanMember (hscan : Shrinks scan) (members : List (Text × Json)) :
    Shrinks (scanMember scan members) := by
  intro s a rest h
  cases s with
  | nil => cases h
  | cons c s =>
      rw [scanMember] at h
      split_ifs at h
      obtain ⟨⟨key, afterKey⟩, hkey, h⟩ := bind_eq_ok h
      have h₁ := length_scanString hkey
      have h₂ := shrinks_scanValue hscan members key h
      rw [List.length_cons]
      omega

theorem shrinks_scanElement (hscan : Shrinks scan) (elements : List Json) :
    Shrinks (scanElement scan elements) := by
  intro s a rest h
  obtain ⟨⟨value, tail⟩, hvalue, h⟩ := bind_eq_ok h
  cases h
  exact hscan hvalue

theorem shrinks_scanObject (hscan : Shrinks scan) : Shrinks (scanObject scan) := by
  intro s a rest h
  obtain ⟨⟨members, tail⟩, hmembers, h⟩ := bind_eq_ok h
  cases h
  exact shrinks_scanContainer (shrinks_scanMember hscan) _ hmembers

theorem shrinks_scanArray (hscan : Shrinks scan) : Shrinks (scanArray scan) := by
  intro s a rest h
  obtain ⟨⟨elements, tail⟩, helements, h⟩ := bind_eq_ok h
  cases h
  exact shrinks_scanContainer (shrinks_scanElement hscan) _ helements

theorem shrinks_scanScalar (maxStrDigits : Nat) :
    Shrinks (scanScalar maxStrDigits) := by
  intro s a rest h
  cases s with
  | nil => cases h
  | cons c s =>
      rw [scanScalar] at h
      split_ifs at h
      · obtain ⟨⟨t, tail⟩, ht, h⟩ := bind_eq_ok h
        cases h
        exact Nat.le_succ_of_le (Nat.le_of_lt (length_scanString ht))
      · split at h
        · next r hr =>
            cases h
            exact length_scanConstant hr
        · exact length_scanNumber h

/-- At every depth the scanner only moves forward. -/
theorem shrinks_scanOnce (maxStrDigits depth : Nat) :
    Shrinks (scanOnce maxStrDigits depth) := by
  induction depth with
  | zero =>
      intro s a rest h
      cases s with
      | nil => cases h
      | cons c s =>
          rw [scanOnce.eq_def] at h
          dsimp only at h
          split_ifs at h
          · exact shrinks_scanScalar maxStrDigits h
  | succ depth ih =>
      intro s a rest h
      cases s with
      | nil => cases h
      | cons c s =>
          rw [scanOnce.eq_def] at h
          dsimp only at h
          split_ifs at h
          · exact Nat.le_succ_of_le (shrinks_scanObject ih h)
          · exact Nat.le_succ_of_le (shrinks_scanArray ih h)
          · exact shrinks_scanScalar maxStrDigits h

/-- No object is cut short by the bound on its members. -/
theorem scanMembers_fuel (maxStrDigits depth : Nat) {m n : Nat}
    {members : List (Text × Json)} {s : List Char}
    (hm : s.length < m) (hn : s.length < n) :
    scanItems (scanMember (scanOnce maxStrDigits depth)) '}' m members s =
      scanItems (scanMember (scanOnce maxStrDigits depth)) '}' n members s :=
  scanItems_fuel (shrinks_scanMember (shrinks_scanOnce maxStrDigits depth)) hm hn

/-- No array is cut short by the bound on its elements. -/
theorem scanElements_fuel (maxStrDigits depth : Nat) {m n : Nat}
    {elements : List Json} {s : List Char}
    (hm : s.length < m) (hn : s.length < n) :
    scanItems (scanElement (scanOnce maxStrDigits depth)) ']' m elements s =
      scanItems (scanElement (scanOnce maxStrDigits depth)) ']' n elements s :=
  scanItems_fuel (shrinks_scanElement (shrinks_scanOnce maxStrDigits depth)) hm hn

/-! ## §5  `json.loads` -/

/-- `body.decode("utf-8")` -/
def decodeUtf8 (body : ByteArray) : Option (List Char) :=
  (String.fromUTF8? body).map String.toList

/-- `s.encode("utf-8")`, for a text without surrogates. -/
def encodeUtf8 (s : List Char) : ByteArray := (String.ofList s).toUTF8

theorem decodeUtf8_encodeUtf8 (s : List Char) : decodeUtf8 (encodeUtf8 s) = some s := by
  have hvalid : (encodeUtf8 s).IsValidUTF8 := (String.ofList s).isValidUTF8
  rw [decodeUtf8, String.fromUTF8?, dif_pos hvalid]
  show some (String.ofList s).toList = some s
  rw [String.toList_ofList]

/-- `json.loads` -/
def loads (py : Interpreter) (s : List Char) : Except LoadError Json :=
  -- a byte order mark is refused before anything is scanned
  if s.head? = some '\uFEFF' then .error .jsonDecodeError
  else do
    let (value, rest) ← scanOnce py.maxStrDigits py.maxDepth (skipWhitespace s)
    if skipWhitespace rest = [] then .ok value else .error .jsonDecodeError

/-! ## §6  `str` -/

/-- The last `width` hexadecimal digits of `n`. -/
def hexDigits : Nat → Nat → List Char
  | 0, _ => []
  | width + 1, n => hexDigits width (n / 16) ++ [Nat.digitChar (n % 16)]

section Str

variable (py : Interpreter)

/-- One code point inside quotes. -/
def reprCodePoint (quote c : CodePoint) : Text :=
  if c = quote ∨ c = CodePoint.ofChar '\\' then [CodePoint.ofChar '\\', c]
  else if c = CodePoint.ofChar '\t' then text "\\t"
  else if c = CodePoint.ofChar '\n' then text "\\n"
  else if c = CodePoint.ofChar '\r' then text "\\r"
  else if (32 ≤ c.val ∧ c.val < 127) ∨ (127 < c.val ∧ py.isPrintable c) then [c]
  else if c.val < 0x100 then text (String.ofList ('\\' :: 'x' :: hexDigits 2 c))
  else if c.val < 0x10000 then text (String.ofList ('\\' :: 'u' :: hexDigits 4 c))
  else text (String.ofList ('\\' :: 'U' :: hexDigits 8 c))

/-- `repr` of a string: in single quotes unless only those occur in it. -/
def reprText (t : Text) : Text :=
  let single := CodePoint.ofNat 39
  let double := CodePoint.ofNat 34
  let quote := if single ∈ t ∧ double ∉ t then double else single
  quote :: (t.flatMap (reprCodePoint py quote) ++ [quote])

/-- `repr`. It goes through no more containers at once than reading the value
did, so the depth limit is not reached here. -/
def pyRepr : Json → Text
  | .null => text "None"
  | .bool b => text (if b then "True" else "False")
  | .int n => text (toString n)
  | .float literal => text (py.floatRepr literal)
  | .str s => reprText py s
  | .array elements =>
    text "[" ++ List.intercalate (text ", ") (reprElements elements) ++ text "]"
  | .object members =>
    text "\x7b" ++ List.intercalate (text ", ") (reprMembers members) ++
      text "\x7d"
where
  reprElements : List Json → List Text
    | [] => []
    | v :: vs => pyRepr v :: reprElements vs
  reprMembers : List (Text × Json) → List Text
    | [] => []
    | (key, v) :: ps =>
      (reprText py key ++ text ": " ++ pyRepr v) :: reprMembers ps

/-- `str`, and what an f-string makes of a value: a string is itself. -/
def pyStr : Json → Text
  | .str s => s
  | v => pyRepr py v

example (py : Interpreter) :
    pyStr py (.array [.str (text "it's"), .null]) = text "[\"it's\", None]" := by rfl

theorem head_text {s : String} {c : Char} (h : s.toList.head? = some c) :
    (text s).head? = some (CodePoint.ofChar c) := by
  rw [text, List.head?_map, h]
  rfl

theorem head_toString_int (n : Int) : ∃ c, (toString n).toList.head? = some c ∧
    (c.isDigit = true ∨ c = '-') := by
  cases n with
  | ofNat m =>
      obtain ⟨c, cs, hcs⟩ : ∃ c cs, Nat.toDigits 10 m = c :: cs :=
        List.exists_cons_of_ne_nil Nat.toDigits_ne_nil
      refine ⟨c, ?_, Or.inl ?_⟩
      · show (Nat.repr m).toList.head? = some c
        rw [Nat.toList_repr, hcs]
        rfl
      · apply Nat.isDigit_of_mem_toDigits (b := 10) (n := m) (by decide) (by decide)
        rw [hcs]
        exact List.mem_cons_self
  | negSucc m =>
      refine ⟨'-', ?_, Or.inr rfl⟩
      show ("-" ++ Nat.repr (m + 1)).toList.head? = some '-'
      rw [String.toList_append]
      rfl

/-- What is not a string is printed from one of these characters on. -/
theorem head_pyStr (v : Json) :
    (∃ s, v = .str s) ∨ ∃ c, (pyStr py v).head? = some (CodePoint.ofChar c) ∧
      (c.isDigit = true ∨ c ∈ ['-', 'i', 'n', 'N', 'T', 'F', '[', '\x7b']) := by
  cases v with
  | null => exact Or.inr ⟨'N', head_text rfl, by decide⟩
  | bool b =>
      cases b
      · exact Or.inr ⟨'F', head_text rfl, by decide⟩
      · exact Or.inr ⟨'T', head_text rfl, by decide⟩
  | int n =>
      obtain ⟨c, hhead, hc⟩ := head_toString_int n
      refine Or.inr ⟨c, head_text hhead, hc.imp_right ?_⟩
      rintro rfl
      decide
  | float literal =>
      obtain ⟨c, hhead, hc⟩ := py.floatRepr_head literal
      refine Or.inr ⟨c, head_text hhead, hc.imp_right ?_⟩
      intro hmem
      exact List.mem_append_left ['N', 'T', 'F', '[', '\x7b'] hmem
  | str s => exact Or.inl ⟨s, rfl⟩
  | array elements => exact Or.inr ⟨'[', rfl, by decide⟩
  | object members => exact Or.inr ⟨'\x7b', rfl, by decide⟩

end Str

end Json
