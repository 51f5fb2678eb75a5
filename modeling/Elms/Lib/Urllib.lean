import Mathlib.Data.List.Basic
import Mathlib.Data.List.Count
import Mathlib.Data.List.TakeDrop
import Mathlib.Data.List.TakeWhile

/-!
# `urllib.parse`

`unquote` and `urlsplit`, on lists of characters. `unquote` is written as a
transducer: the text is read as a list of pieces, escapes and ASCII characters
giving bytes, and the bytes are decoded as UTF-8 with replacement characters,
anew after each non-ASCII character.

Decoding never makes a text longer, and shortens it if there is anything to
decode (`unquote_eq_self_iff`); it keeps every `/` (`count_slash_unquote`), and
so goes segment by segment (`unquote_append_slash`).
-/

namespace Urllib

/-! ## §1  UTF-8 with `errors="replace"` -/

def replacementCharacter : Char := Char.ofNat 0xFFFD

/-- An unfinished sequence: the bytes still needed after the next one, the
range of the next one, which is never ASCII, and the code point so far. -/
structure Pending where
  more : Nat
  lo : Nat
  hi : Nat
  codePoint : Nat
  nonascii : 0x80 ≤ lo := by decide
deriving DecidableEq

/-- What a byte outside of a sequence gives. -/
def leadByte (b : Nat) : List Char × Option Pending :=
  if b < 0x80 then ([Char.ofNat b], none)
  else if b < 0xC2 then ([replacementCharacter], none)
  else if b < 0xE0 then ([], some { more := 0, lo := 0x80, hi := 0xBF, codePoint := b - 0xC0 })
  else if b = 0xE0 then ([], some { more := 1, lo := 0xA0, hi := 0xBF, codePoint := 0 })
  else if b = 0xED then ([], some { more := 1, lo := 0x80, hi := 0x9F, codePoint := 0xD })
  else if b < 0xF0 then ([], some { more := 1, lo := 0x80, hi := 0xBF, codePoint := b - 0xE0 })
  else if b = 0xF0 then ([], some { more := 2, lo := 0x90, hi := 0xBF, codePoint := 0 })
  else if b < 0xF4 then ([], some { more := 2, lo := 0x80, hi := 0xBF, codePoint := b - 0xF0 })
  else if b = 0xF4 then ([], some { more := 2, lo := 0x80, hi := 0x8F, codePoint := 4 })
  else ([replacementCharacter], none)

/-- What a byte gives. One that does not continue the sequence ends it with a
replacement character, and is looked at again. -/
def feed : Option Pending → Nat → List Char × Option Pending
  | none, b => leadByte b
  | some p, b =>
      if p.lo ≤ b ∧ b ≤ p.hi then
        let codePoint := p.codePoint * 64 + (b - 0x80)
        match p.more with
        | 0 => ([Char.ofNat codePoint], none)
        | more + 1 => ([], some { more := more, lo := 0x80, hi := 0xBF, codePoint := codePoint })
      else (replacementCharacter :: (leadByte b).1, (leadByte b).2)

/-- The end of the bytes inside a sequence. -/
def flush : Option Pending → List Char
  | none => []
  | some _ => [replacementCharacter]

/-- Text that is being decoded: a byte, or a character that needs no decoding. -/
inductive Piece where
  | byte (b : Nat)
  | char (c : Char)
deriving DecidableEq

def decode : Option Pending → List Piece → List Char
  | p, [] => flush p
  | p, .byte b :: ps => (feed p b).1 ++ decode (feed p b).2 ps
  | p, .char c :: ps => flush p ++ c :: decode none ps

/-! ## §2  `unquote` -/

def hexDigit (c : Char) : Option Nat :=
  if '0' ≤ c ∧ c ≤ '9' then some (c.toNat - 48)
  else if 'a' ≤ c ∧ c ≤ 'f' then some (c.toNat - 87)
  else if 'A' ≤ c ∧ c ≤ 'F' then some (c.toNat - 55)
  else none

/-- The two hexadecimal digits the text begins with, as a number. -/
def hexPair : List Char → Option Nat
  | a :: b :: _ =>
      match hexDigit a, hexDigit b with
      | some x, some y => some (x * 16 + y)
      | _, _ => none
  | _ => none

def Piece.ofChar (c : Char) : Piece :=
  if c.toNat < 0x80 then .byte c.toNat else .char c

/-- Each `%XX` is a byte; `skip` counts the digits still to pass over. -/
def pieces : Nat → List Char → List Piece
  | _, [] => []
  | skip + 1, _ :: cs => pieces skip cs
  | 0, c :: cs =>
      if c = '%' then
        match hexPair cs with
        | some b => .byte b :: pieces 2 cs
        | none => .ofChar c :: pieces 0 cs
      else .ofChar c :: pieces 0 cs

/-- `unquote(s)` -/
def unquote (s : List Char) : List Char := decode none (pieces 0 s)

/-- The text contains a `%XX`. -/
def hasEscape : List Char → Bool
  | [] => false
  | c :: cs => (decide (c = '%') && (hexPair cs).isSome) || hasEscape cs

/-! ## §3  What decoding keeps -/

/-- A byte is worth at most one character, counting the replacement character
that an unfinished sequence may still become. -/
theorem length_feed (p : Option Pending) (b : Nat) :
    (feed p b).1.length + (flush (feed p b).2).length ≤ (flush p).length + 1 := by
  have hlead : (leadByte b).1.length + (flush (leadByte b).2).length ≤ 1 := by
    unfold leadByte
    repeat' split
    all_goals simp [flush]
  cases p with
  | none => simpa [feed, flush] using hlead
  | some p =>
      simp only [feed]
      split
      · cases p.more <;> simp [flush]
      · show (leadByte b).1.length + 1 + (flush (leadByte b).2).length ≤ 1 + 1
        omega

theorem length_decode : ∀ (ps : List Piece) (p : Option Pending),
    (decode p ps).length ≤ (flush p).length + ps.length := by
  intro ps
  induction ps with
  | nil => intro p; simp [decode]
  | cons piece ps ih =>
      intro p
      cases piece with
      | byte b =>
          have hfeed := length_feed p b
          have hrest := ih (feed p b).2
          simp only [decode, List.length_append, List.length_cons]
          omega
      | char c =>
          have hrest := ih none
          simp only [decode, List.length_append, List.length_cons, flush,
            List.length_nil] at hrest ⊢
          omega

theorem length_pieces : ∀ (s : List Char) (skip : Nat),
    (pieces skip s).length ≤ s.length := by
  intro s
  induction s with
  | nil => intro skip; simp [pieces]
  | cons c cs ih =>
      intro skip
      cases skip with
      | succ skip => exact (ih skip).trans (Nat.le_succ _)
      | zero =>
          have h0 := ih 0
          have h2 := ih 2
          simp only [pieces]
          repeat' split
          all_goals
            simp only [List.length_cons]
            omega

/-- The two digits of an escape are there to be skipped. -/
theorem hexPair_eq_some {cs : List Char} {n : Nat} (h : hexPair cs = some n) :
    ∃ a b rest, cs = a :: b :: rest ∧ (hexDigit a).isSome ∧
      (hexDigit b).isSome := by
  rcases cs with _ | ⟨a, _ | ⟨b, rest⟩⟩
  · cases h
  · cases h
  · refine ⟨a, b, rest, rfl, ?_⟩
    simp only [hexPair] at h
    split at h
    · rename_i ha hb
      rw [ha, hb]
      exact ⟨rfl, rfl⟩
    · cases h

/-- An escape is three characters for one byte. -/
theorem length_pieces_lt : ∀ {s : List Char}, hasEscape s = true →
    (pieces 0 s).length < s.length := by
  intro s
  induction s with
  | nil => intro h; cases h
  | cons c cs ih =>
      intro h
      have h0 := length_pieces cs 0
      simp only [pieces]
      cases hx : hexPair cs with
      | some n =>
          obtain ⟨a, b, rest, rfl, -, -⟩ := hexPair_eq_some hx
          have hrest := length_pieces rest 0
          by_cases hc : c = '%'
          · rw [if_pos hc]
            show (pieces 0 rest).length + 1 < rest.length + 2 + 1
            omega
          · have hcs := ih (by simpa [hasEscape, hc] using h)
            rw [if_neg hc]
            simp only [List.length_cons] at hcs ⊢
            omega
      | none =>
          have hcs := ih (by simpa [hasEscape, hx] using h)
          simp only [ite_self, List.length_cons]
          omega

theorem pieces_of_not_hasEscape : ∀ {s : List Char}, hasEscape s = false →
    pieces 0 s = s.map Piece.ofChar := by
  intro s
  induction s with
  | nil => intro _; rfl
  | cons c cs ih =>
      intro h
      simp only [hasEscape, Bool.or_eq_false_iff, Bool.and_eq_false_iff,
        decide_eq_false_iff_not, Option.isSome_eq_false_iff,
        Option.isNone_iff_eq_none] at h
      simp only [pieces, List.map_cons]
      rcases h.1 with hc | hx
      · rw [if_neg hc, ih h.2]
      · simp only [hx, ite_self, ih h.2]

theorem decode_map_ofChar (s : List Char) :
    decode none (s.map Piece.ofChar) = s := by
  induction s with
  | nil => rfl
  | cons c cs ih =>
      rw [List.map_cons, Piece.ofChar]
      split
      · rename_i h
        simp only [decode, feed, leadByte, if_pos h, ih, Char.ofNat_toNat]
        rfl
      · simp only [decode, flush, ih]
        rfl

/-- **Decoding changes a text exactly if it contains an escape**, and then
makes it shorter. -/
theorem unquote_eq_self_iff {s : List Char} :
    unquote s = s ↔ hasEscape s = false := by
  constructor
  · intro h
    by_contra he
    have hlt := length_pieces_lt (Bool.not_eq_false _ ▸ he)
    have hle := length_decode (pieces 0 s) none
    rw [← unquote, h] at hle
    simp only [flush, List.length_nil] at hle
    omega
  · intro h
    rw [unquote, pieces_of_not_hasEscape h, decode_map_ofChar]

theorem unquote_of_not_mem {s : List Char} (h : '%' ∉ s) : unquote s = s := by
  apply unquote_eq_self_iff.mpr
  induction s with
  | nil => rfl
  | cons c cs ih =>
      rw [List.mem_cons, not_or] at h
      simp only [hasEscape, ih h.2, Bool.or_false, Ne.symm h.1, decide_false,
        Bool.false_and]

theorem length_unquote (s : List Char) : (unquote s).length ≤ s.length := by
  have hle := length_decode (pieces 0 s) none
  have hp := length_pieces s 0
  simp only [flush, List.length_nil] at hle
  exact hle.trans (by omega)

/-! ## §4  Decoding and `/` -/

theorem feed_slash (p : Option Pending) :
    feed p '/'.toNat = (flush p ++ ['/'], none) := by
  cases p with
  | none => rfl
  | some p =>
      have hlo : ¬ (p.lo ≤ '/'.toNat ∧ '/'.toNat ≤ p.hi) := by
        have h80 := p.nonascii
        have hslash : '/'.toNat = 47 := rfl
        omega
      simp only [feed, if_neg hlo]
      rfl

/-- A `/` ends what comes before it. -/
theorem decode_append_slash (qs : List Piece) : ∀ (ps : List Piece)
    (p : Option Pending),
    decode p (ps ++ .byte '/'.toNat :: qs) = decode p ps ++ '/' :: decode none qs := by
  intro ps
  induction ps with
  | nil =>
      intro p
      simp only [List.nil_append, decode, feed_slash, List.append_assoc,
        List.cons_append]
  | cons piece ps ih =>
      intro p
      cases piece with
      | byte b => simp only [List.cons_append, decode, ih, List.append_assoc]
      | char c => simp only [List.cons_append, decode, ih, List.append_assoc]

theorem hexPair_append_slash (cs t : List Char) :
    hexPair (cs ++ '/' :: t) = hexPair cs := by
  have hslash : hexDigit '/' = none := rfl
  rcases cs with _ | ⟨a, _ | ⟨b, rest⟩⟩
  · cases t <;> simp [hexPair, hslash]
  · simp [hexPair, hslash]
  · rfl

theorem pieces_append_slash (t : List Char) : ∀ (s : List Char) (skip : Nat),
    skip ≤ s.length →
    pieces skip (s ++ '/' :: t) =
      pieces skip s ++ .byte '/'.toNat :: pieces 0 t := by
  intro s
  induction s with
  | nil =>
      intro skip h
      obtain rfl : skip = 0 := Nat.le_zero.mp h
      rfl
  | cons c cs ih =>
      intro skip h
      cases skip with
      | succ skip => exact ih skip (Nat.le_of_succ_le_succ h)
      | zero =>
          have h0 := ih 0 (Nat.zero_le _)
          simp only [List.cons_append, pieces, hexPair_append_slash]
          cases hx : hexPair cs with
          | none => simp only [h0, ite_self, List.cons_append]
          | some n =>
              have hlen : 2 ≤ cs.length := by
                obtain ⟨a, b, rest, rfl, -, -⟩ := hexPair_eq_some hx
                simp
              have h2 := ih 2 hlen
              by_cases hc : c = '%'
              · simp only [if_pos hc, h2, List.cons_append]
              · simp only [if_neg hc, h0, List.cons_append]

/-- **Decoding goes segment by segment.** -/
theorem unquote_append_slash (s t : List Char) :
    unquote (s ++ '/' :: t) = unquote s ++ '/' :: unquote t := by
  rw [unquote, pieces_append_slash t s 0 (Nat.zero_le _), decode_append_slash]
  rfl

theorem unquote_slash (s : List Char) : unquote ('/' :: s) = '/' :: unquote s :=
  unquote_append_slash [] s

/-- **Decoding keeps every `/`**, and may bring in others. -/
theorem count_slash_unquote (s : List Char) :
    s.count '/' ≤ (unquote s).count '/' := by
  induction hn : s.count '/' using Nat.strong_induction_on generalizing s with
  | _ n ih =>
      rcases Nat.eq_zero_or_pos n with rfl | hpos
      · exact Nat.zero_le _
      · obtain ⟨a, b, rfl⟩ :=
          List.append_of_mem (List.count_pos_iff.mp (hn ▸ hpos))
        rw [List.count_append, List.count_cons_self] at hn
        rw [unquote_append_slash, List.count_append, List.count_cons_self]
        have ha := ih (a.count '/') (by omega) a rfl
        have hb := ih (b.count '/') (by omega) b rfl
        omega

/-! ## §5  `urlsplit` -/

/-- `url.split(d, 1)`, with an empty second part if there is no `d`. -/
def split1 (d : Char) (url : List Char) : List Char × List Char :=
  (url.takeWhile (· ≠ d), (url.dropWhile (· ≠ d)).drop 1)

/-- `_splitnetloc` stops at these. -/
def isDelim (c : Char) : Bool := c = '/' || c = '?' || c = '#'

/-- `_UNSAFE_URL_BYTES_TO_REMOVE` -/
def isUnsafe (c : Char) : Bool := c = '\t' || c = '\r' || c = '\n'

def removeUnsafe (url : List Char) : List Char := url.filter (¬ isUnsafe ·)

/-- `_WHATWG_C0_CONTROL_OR_SPACE` -/
def isC0ControlOrSpace (c : Char) : Bool := c.toNat ≤ 0x20

/-- `scheme_chars` -/
def isSchemeChar (c : Char) : Bool :=
  c.isAlpha || c.isDigit || c = '+' || c = '-' || c = '.'

structure SplitResult where
  scheme : List Char
  netloc : List Char
  path : List Char
  query : List Char
  fragment : List Char
deriving DecidableEq, Repr

/-- The scheme at the front of a URL, and what follows its `:`. -/
def splitScheme (url : List Char) : List Char × List Char :=
  match url.span (· ≠ ':') with
  | (c :: cs, _ :: rest) =>
      if c.isAlpha && (c :: cs).all isSchemeChar then
        ((c :: cs).map Char.toLower, rest)
      else ([], url)
  | _ => ([], url)

/-- `urlsplit(url)`; `none` is the `ValueError` of a bad authority.
`checkNetloc` stands for the checks on it (`_check_bracketed_host`,
`_checknetloc`), which differ between versions. -/
def urlsplit (checkNetloc : List Char → Bool) (url : List Char) :
    Option SplitResult :=
  let url := removeUnsafe (url.dropWhile isC0ControlOrSpace)
  let (scheme, url) := splitScheme url
  let (netloc, url) :=
    match url with
    | '/' :: '/' :: rest =>
        (rest.takeWhile (¬ isDelim ·), rest.dropWhile (¬ isDelim ·))
    | _ => ([], url)
  if checkNetloc netloc then
    let (url, fragment) := split1 '#' url
    let (path, query) := split1 '?' url
    some ⟨scheme, netloc, path, query, fragment⟩
  else none

/-- A path ends before these. -/
def endsPath (c : Char) : Bool := c = '?' || c = '#'

/-- The path in what follows the `//` of a URL. -/
def pathAfterAuthority (rest : List Char) : List Char :=
  (rest.dropWhile (¬ isDelim ·)).takeWhile (¬ endsPath ·)

theorem removeUnsafe_append (s t : List Char) :
    removeUnsafe (s ++ t) = removeUnsafe s ++ removeUnsafe t :=
  List.filter_append ..

theorem splitScheme_append {c : Char} {cs rest : List Char}
    (hc : c.isAlpha = true) (hcs : ∀ x ∈ c :: cs, isSchemeChar x = true) :
    splitScheme (c :: cs ++ ':' :: rest) = ((c :: cs).map Char.toLower, rest) := by
  have hne : ∀ x ∈ c :: cs, decide (x ≠ ':') = true := by
    intro x hx
    rw [decide_eq_true_iff]
    rintro rfl
    exact absurd (hcs _ hx) (by decide)
  have hspan : (c :: cs ++ ':' :: rest).span (· ≠ ':') = (c :: cs, ':' :: rest) := by
    rw [List.span_eq_takeWhile_dropWhile, List.takeWhile_append_of_pos hne,
      List.dropWhile_append_of_pos hne]
    simp
  have hall : (c.isAlpha && (c :: cs).all isSchemeChar) = true := by
    rw [hc, Bool.true_and]
    exact List.all_eq_true.mpr hcs
  unfold splitScheme
  rw [hspan]
  exact if_pos hall

/-- **The path of an absolute URL**: what is unsafe is removed first, and a
`?` or `#` ends the path wherever it comes from. -/
theorem path_urlsplit {checkNetloc : List Char → Bool} {c : Char}
    {cs rest : List Char} (hc : c.isAlpha = true)
    (hcs : ∀ x ∈ c :: cs, isSchemeChar x = true) {r : SplitResult}
    (h : urlsplit checkNetloc (c :: cs ++ "://".toList ++ rest) = some r) :
    r.path = pathAfterAuthority (removeUnsafe rest) := by
  have hctl : ¬ isC0ControlOrSpace c = true := by
    intro hle
    have hle' : c.toNat ≤ 0x20 := of_decide_eq_true hle
    have hlow : 65 ≤ c.toNat := by
      have hcases : (c.isUpper || c.isLower) = true := hc
      rcases Bool.or_eq_true_iff.mp hcases with hupper | hlower
      · exact (of_decide_eq_true hupper : c.val ≥ 'A'.val ∧ _).1
      · have hlower' : (decide (c.val ≥ 'a'.val) && decide (c.val ≤ 'z'.val)) =
            true := hlower
        rw [Bool.and_eq_true] at hlower'
        exact Nat.le_trans (by decide) (of_decide_eq_true hlower'.1)
    omega
  have hsafe : ∀ x ∈ c :: cs, decide (¬ isUnsafe x = true) = true := by
    intro x hx
    have hscheme := hcs x hx
    rw [decide_eq_true_iff]
    intro hun
    simp only [isUnsafe, Bool.or_eq_true, decide_eq_true_eq] at hun
    rcases hun with (rfl | rfl) | rfl
    · exact absurd hscheme (by decide)
    · exact absurd hscheme (by decide)
    · exact absurd hscheme (by decide)
  have hurl : removeUnsafe ((c :: cs ++ "://".toList ++ rest).dropWhile
      isC0ControlOrSpace) =
      c :: cs ++ ':' :: '/' :: '/' :: removeUnsafe rest := by
    have hfront : removeUnsafe (c :: cs) = c :: cs :=
      List.filter_eq_self.mpr hsafe
    have hmid : removeUnsafe "://".toList = "://".toList := by decide
    rw [List.append_assoc, List.cons_append, List.dropWhile_cons_of_neg hctl,
      ← List.cons_append, removeUnsafe_append, removeUnsafe_append, hfront, hmid]
    rfl
  unfold urlsplit at h
  simp only [hurl, splitScheme_append hc hcs] at h
  split at h
  · cases h
    show List.takeWhile _ (List.takeWhile _ _) = _
    rw [List.takeWhile_takeWhile]
    simp only [pathAfterAuthority, endsPath, Bool.or_eq_true, not_or,
      decide_eq_true_eq]
  · cases h

theorem isDelim_of_endsPath {c : Char} (h : endsPath c = true) :
    isDelim c = true := by
  simp only [endsPath, Bool.or_eq_true, decide_eq_true_eq] at h
  rcases h with rfl | rfl
  · rfl
  · rfl

/-- What comes before the first delimiter is the authority. -/
theorem pathAfterAuthority_append_of_clean {h : List Char}
    (hclean : ∀ c ∈ h, isDelim c = false) (t : List Char) :
    pathAfterAuthority (h ++ t) = pathAfterAuthority t := by
  unfold pathAfterAuthority
  rw [List.dropWhile_append_of_pos]
  intro c hc
  simp [hclean c hc]

theorem pathAfterAuthority_slash (t : List Char) :
    pathAfterAuthority ('/' :: t) = ('/' :: t).takeWhile (¬ endsPath ·) := by
  unfold pathAfterAuthority
  rw [List.dropWhile_cons_of_neg (by decide)]

/-- After a `?` or `#` nothing counts. -/
theorem pathAfterAuthority_append_of_ends {h : List Char}
    (hends : ∃ c ∈ h, endsPath c = true) (t : List Char) :
    pathAfterAuthority (h ++ t) = pathAfterAuthority h := by
  obtain ⟨c, hc, hend⟩ := hends
  -- the character is still there once the authority is dropped
  have hrest : c ∈ h.dropWhile (¬ isDelim ·) := by
    have hmem := hc
    rw [← List.takeWhile_append_dropWhile (p := fun c => ¬ isDelim c) (l := h)]
      at hmem
    rcases List.mem_append.mp hmem with hin | hin
    · have hnot := List.mem_takeWhile_imp hin
      rw [decide_eq_true_iff] at hnot
      exact absurd (isDelim_of_endsPath hend) hnot
    · exact hin
  unfold pathAfterAuthority
  rw [List.dropWhile_append, if_neg, List.takeWhile_append, if_neg]
  · intro hlen
    have hall := (List.takeWhile_prefix _).eq_of_length hlen
    have hnot := List.takeWhile_eq_self_iff.mp hall c hrest
    rw [decide_eq_true_iff] at hnot
    exact hnot hend
  · rw [List.isEmpty_iff]
    exact List.ne_nil_of_mem hrest

/-- A `/` in front moves the path to the right. -/
theorem pathAfterAuthority_append_of_slash {h : List Char} (hslash : '/' ∈ h)
    (hends : ∀ c ∈ h, endsPath c = false) (t : List Char) :
    ∃ front, pathAfterAuthority (h ++ t) =
      '/' :: front ++ t.takeWhile (¬ endsPath ·) := by
  induction h with
  | nil => cases hslash
  | cons c cs ih =>
      by_cases hc : c = '/'
      · refine ⟨cs, ?_⟩
        rw [hc, List.cons_append, pathAfterAuthority_slash, ← List.cons_append,
          List.takeWhile_append_of_pos]
        intro x hx
        have hx' : endsPath x = false := by
          rcases List.mem_cons.mp hx with rfl | hx
          · rfl
          · exact hends x (List.mem_cons_of_mem _ hx)
        simp [hx']
      · have hmem : '/' ∈ cs := by
          rcases List.mem_cons.mp hslash with h | h
          · exact absurd h.symm hc
          · exact h
        obtain ⟨front, hfront⟩ := ih hmem fun x hx =>
          hends x (List.mem_cons_of_mem _ hx)
        have hcd : isDelim c = false := by
          have hce := hends c List.mem_cons_self
          simp only [endsPath, Bool.or_eq_false_iff, decide_eq_false_iff_not]
            at hce
          simp [isDelim, hc, hce]
        refine ⟨front, ?_⟩
        rw [← hfront]
        apply pathAfterAuthority_append_of_clean (h := [c])
        simpa using hcd

/-! ## §6  `parse_qsl` -/

/-- `unquote(s.replace('+', ' '))` -/
def unquotePlus (s : List Char) : List Char :=
  unquote (s.map fun c => if c = '+' then ' ' else c)

/-- `parse_qsl(qs, keep_blank_values=True)` -/
def parseQsl (qs : List Char) : List (List Char × List Char) :=
  ((qs.splitOn '&').filter (· ≠ [])).map fun nameValue =>
    (unquotePlus (split1 '=' nameValue).1, unquotePlus (split1 '=' nameValue).2)

end Urllib
