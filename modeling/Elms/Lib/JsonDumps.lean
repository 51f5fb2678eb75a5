import Elms.Lib.Json

/-!
# JSON as Python writes it

`json.dumps` of a dictionary of strings, and what `json.loads` reads back: the
same dictionary, except that the halves of a surrogate pair, which are written
as two escapes, come back as the one character they encode.
-/

namespace Json

open CodePoint

/-! ## §1  The encoder -/

/-- The characters with an escape of their own, and its letter. -/
def shortEscapes : List (Char × Char) :=
  [('"', '"'), ('\\', '\\'), ('\n', 'n'), ('\r', 'r'), ('\t', 't'), ('\x0c', 'f'),
   ('\x08', 'b')]

/-- One UTF-16 unit of a string literal; `ensure_ascii` escapes all but printable
ASCII. -/
def escapeUnit (u : CodePoint) : List Char :=
  match shortEscapes.find? fun p => ofChar p.1 = u with
  | some p => ['\\', p.2]
  | none =>
    if 32 ≤ u.val ∧ u.val < 127 then [Char.ofNat u.val]
    else '\\' :: 'u' :: hexDigits 4 u.val

def escapeText (t : Text) : List Char := (t.flatMap units).flatMap escapeUnit

/-- `json.dumps` of a string. -/
def dumpsText (t : Text) : List Char := '"' :: (escapeText t ++ ['"'])

def dumpsMember (p : Text × Text) : List Char :=
  dumpsText p.1 ++ ':' :: ' ' :: dumpsText p.2

def dumpsMembers : List (Text × Text) → List Char
  | [] => []
  | [p] => dumpsMember p
  | p :: ps => dumpsMember p ++ ',' :: ' ' :: dumpsMembers ps

/-- `json.dumps` of a dictionary of strings. -/
def dumps (d : Dict Text Text) : List Char :=
  '\x7b' :: (dumpsMembers d.entries ++ ['\x7d'])

/-! ## §2  Strings -/

theorem hexDigit?_digitChar {d : Nat} (hd : d < 16) :
    hexDigit? (Nat.digitChar d) = some d := by
  have h : ∀ d : Fin 16, hexDigit? (Nat.digitChar d) = some d.val := by decide
  exact h ⟨d, hd⟩

theorem scanUnits_hexDigits {u : CodePoint} (hu : u.val < 0x10000)
    (rest : List Char) :
    scanUnits ('\\' :: 'u' :: (hexDigits 4 u.val ++ rest)) =
      (scanUnits rest).map fun r => (u :: r.1, r.2) := by
  have hdigits : hexDigits 4 u.val =
      [Nat.digitChar (u.val / 16 / 16 / 16 % 16), Nat.digitChar (u.val / 16 / 16 % 16),
       Nat.digitChar (u.val / 16 % 16), Nat.digitChar (u.val % 16)] := rfl
  have hval : ((u.val / 16 / 16 / 16 % 16 * 16 + u.val / 16 / 16 % 16) * 16 +
      u.val / 16 % 16) * 16 + u.val % 16 = u.val := by
    omega
  have hunit : hex4? (Nat.digitChar (u.val / 16 / 16 / 16 % 16))
      (Nat.digitChar (u.val / 16 / 16 % 16)) (Nat.digitChar (u.val / 16 % 16))
      (Nat.digitChar (u.val % 16)) = some u := by
    have hlt (n : Nat) : n % 16 < 16 := Nat.mod_lt _ (by decide)
    rw [hex4?, hexDigit?_digitChar (hlt _), hexDigit?_digitChar (hlt _),
      hexDigit?_digitChar (hlt _), hexDigit?_digitChar (hlt _)]
    show some (ofNat _) = some u
    rw [hval, ofNat_val]
  rw [hdigits]
  simp only [List.cons_append, List.nil_append]
  rw [scanUnits_hex, hunit]
  rfl

theorem simpleEscape?_of_mem_shortEscapes :
    ∀ p ∈ shortEscapes, p.2 ≠ 'u' ∧ simpleEscape? p.2 = some p.1 := by
  decide

/-- A code unit is read back from what it was written as. -/
theorem scanUnits_escapeUnit {u : CodePoint} (hu : u.val < 0x10000)
    (rest : List Char) :
    scanUnits (escapeUnit u ++ rest) =
      (scanUnits rest).map fun r => (u :: r.1, r.2) := by
  unfold escapeUnit
  split
  · next p hp =>
      obtain ⟨hletter, hescape⟩ :=
        simpleEscape?_of_mem_shortEscapes p (List.mem_of_find?_eq_some hp)
      have hunit : ofChar p.1 = u := by simpa using List.find?_some hp
      show scanUnits ('\\' :: p.2 :: rest) = _
      rw [scanUnits_escape hletter, hescape, ← hunit]
      rfl
  · next hnone =>
      split_ifs with hplain
      · have hvalid : u.val.isValidChar := Or.inl (by omega)
        have hval : (Char.ofNat u.val).toNat = u.val := by
          rw [Char.ofNat, dif_pos hvalid]
          rfl
        have hchar : ofChar (Char.ofNat u.val) = u := by
          rw [ofChar, hval, ofNat_val]
        -- a quote or a backslash would have had an escape of its own
        have hshort : ∀ p ∈ shortEscapes, Char.ofNat u.val ≠ p.1 := by
          intro p hp he
          have hne := List.find?_eq_none.mp hnone p hp
          rw [← he, hchar] at hne
          simp at hne
        have hquote : Char.ofNat u.val ≠ '"' := hshort ('"', '"') (by decide)
        have hslash : Char.ofNat u.val ≠ '\\' := hshort ('\\', '\\') (by decide)
        have hcontrol : ¬ (Char.ofNat u.val).toNat < 0x20 := by
          rw [hval]
          omega
        rw [List.singleton_append, scanUnits_char hquote hslash hcontrol, hchar]
      · exact scanUnits_hexDigits hu rest

theorem scanUnits_flatMap {us : Text} (hus : ∀ u ∈ us, u.val < 0x10000)
    (rest : List Char) :
    scanUnits (us.flatMap escapeUnit ++ '"' :: rest) = some (us, rest) := by
  induction us with
  | nil => exact scanUnits_quote rest
  | cons u us ih =>
      have hu := hus u List.mem_cons_self
      have hus' : ∀ v ∈ us, v.val < 0x10000 :=
        fun v hv => hus v (List.mem_cons_of_mem u hv)
      rw [List.flatMap_cons, List.append_assoc, scanUnits_escapeUnit hu, ih hus']
      rfl

/-- A string literal is read back with its surrogate pairs joined. -/
theorem scanString_escapeText (t : Text) (rest : List Char) :
    scanString (escapeText t ++ '"' :: rest) = .ok (t.joinSurrogates, rest) := by
  have hunits : ∀ u ∈ t.flatMap units, u.val < 0x10000 := by
    intro u hu
    obtain ⟨c, -, hc⟩ := List.mem_flatMap.mp hu
    exact val_lt_of_mem_units hc
  rw [scanString, escapeText, scanUnits_flatMap hunits]
  show Except.ok (Text.joinSurrogates (t.flatMap units), rest) = _
  rw [Text.joinSurrogates_units]

/-! ## §3  Dictionaries -/

theorem skipWhitespace_cons {c : Char} (hc : isWhitespace c = false)
    (rest : List Char) : skipWhitespace (c :: rest) = c :: rest := by
  rw [skipWhitespace, List.dropWhile_cons, hc]
  rfl

theorem skipWhitespace_space (rest : List Char) :
    skipWhitespace (' ' :: rest) = skipWhitespace rest := rfl

theorem scanOnce_dumpsText (maxStrDigits depth : Nat) (t : Text) (rest : List Char) :
    scanOnce maxStrDigits depth (dumpsText t ++ rest) =
      .ok (.str t.joinSurrogates, rest) := by
  rw [dumpsText, List.cons_append, List.append_assoc, List.singleton_append,
    scanOnce.eq_def]
  dsimp only
  rw [if_neg (by decide), if_neg (by decide), scanScalar, if_pos rfl,
    scanString_escapeText]
  rfl

/-- What the members written for `ps` add to the ones read before. -/
def readMembers (members : List (Text × Json)) (ps : List (Text × Text)) :
    List (Text × Json) :=
  ps.foldl (fun members p =>
    Dict.setEntries p.1.joinSurrogates (.str p.2.joinSurrogates) members) members

/-- Distinct keys without surrogates are read as they were written. -/
theorem readMembers_eq_map {ps : List (Text × Text)}
    (hkeys : ∀ p ∈ ps, ∃ key, p.1 = text key) (members : List (Text × Json))
    (hnd : (members.map Prod.fst ++ ps.map Prod.fst).Nodup) :
    readMembers members ps =
      members ++ ps.map fun p => (p.1, .str p.2.joinSurrogates) := by
  induction ps generalizing members with
  | nil => exact (List.append_nil members).symm
  | cons p ps ih =>
      obtain ⟨key, hkey⟩ := hkeys p List.mem_cons_self
      have hjoin : p.1.joinSurrogates = p.1 := by
        rw [hkey, Text.joinSurrogates_text]
      have hfresh : p.1 ∉ members.map Prod.fst := by
        intro hmem
        exact (List.nodup_append.mp hnd).2.2 _ hmem _ List.mem_cons_self rfl
      have hnd' : ((members ++ [(p.1, Json.str p.2.joinSurrogates)]).map Prod.fst ++
          ps.map Prod.fst).Nodup := by
        simpa using hnd
      have hstep : readMembers members (p :: ps) =
          readMembers (members ++ [(p.1, .str p.2.joinSurrogates)]) ps := by
        rw [readMembers, List.foldl_cons, hjoin, Dict.setEntries_of_not_mem hfresh]
        rfl
      rw [hstep, ih (fun q hq => hkeys q (List.mem_cons_of_mem p hq)) _ hnd',
        List.append_assoc]
      rfl

theorem scanMember_dumpsMember (maxStrDigits depth : Nat)
    (members : List (Text × Json)) (p : Text × Text) (rest : List Char) :
    scanMember (scanOnce maxStrDigits depth) members (dumpsMember p ++ rest) =
      .ok (readMembers members [p], rest) := by
  have hsplit : dumpsMember p ++ rest =
      '"' :: (escapeText p.1 ++ '"' :: ':' :: ' ' :: (dumpsText p.2 ++ rest)) := by
    simp [dumpsMember, dumpsText]
  have hvalue : skipWhitespace (dumpsText p.2 ++ rest) = dumpsText p.2 ++ rest :=
    skipWhitespace_cons (by decide) _
  rw [hsplit, scanMember, if_pos rfl, scanString_escapeText]
  dsimp only [bind, Except.bind]
  rw [scanValue, skipWhitespace_cons (by decide)]
  dsimp only
  rw [if_pos rfl, skipWhitespace_space, hvalue, scanOnce_dumpsText]
  rfl

theorem exists_dumpsMembers_cons (p : Text × Text) (ps : List (Text × Text)) :
    ∃ tail, dumpsMembers (p :: ps) = '"' :: tail := by
  cases ps <;> exact ⟨_, rfl⟩

/-- The loop reads back all members that were written. -/
theorem scanItems_dumpsMembers (maxStrDigits depth : Nat) {ps : List (Text × Text)}
    (hne : ps ≠ []) {fuel : Nat} (hfuel : ps.length ≤ fuel)
    (members : List (Text × Json)) (rest : List Char) :
    scanItems (scanMember (scanOnce maxStrDigits depth)) '\x7d' fuel members
        (dumpsMembers ps ++ '\x7d' :: rest) =
      .ok (readMembers members ps, rest) := by
  induction ps generalizing fuel members with
  | nil => exact absurd rfl hne
  | cons p ps ih =>
      obtain ⟨n, rfl⟩ : ∃ n, fuel = n + 1 :=
        Nat.exists_eq_add_one.mpr (Nat.lt_of_lt_of_le (Nat.succ_pos _) hfuel)
      rw [scanItems]
      cases ps with
      | nil =>
          rw [dumpsMembers, scanMember_dumpsMember]
          dsimp only [bind, Except.bind]
          rw [skipWhitespace_cons (by decide)]
          rfl
      | cons q ps =>
          have hsplit : dumpsMembers (p :: q :: ps) ++ '\x7d' :: rest =
              dumpsMember p ++
                ',' :: ' ' :: (dumpsMembers (q :: ps) ++ '\x7d' :: rest) := by
            simp [dumpsMembers]
          have hnext : skipWhitespace (dumpsMembers (q :: ps) ++ '\x7d' :: rest) =
              dumpsMembers (q :: ps) ++ '\x7d' :: rest := by
            obtain ⟨tail, htail⟩ := exists_dumpsMembers_cons q ps
            rw [htail]
            exact skipWhitespace_cons (by decide) _
          rw [hsplit, scanMember_dumpsMember]
          dsimp only [bind, Except.bind]
          rw [skipWhitespace_cons (by decide)]
          dsimp only
          rw [if_neg (by decide), if_pos rfl, skipWhitespace_space, hnext,
            ih (List.cons_ne_nil q ps) (Nat.le_of_succ_le_succ hfuel)]
          rfl

theorem length_le_dumpsMembers (ps : List (Text × Text)) :
    ps.length ≤ (dumpsMembers ps).length := by
  fun_induction dumpsMembers ps with
  | case1 => exact Nat.le_refl _
  | case2 p => simp [dumpsMember, dumpsText]
  | case3 p ps hne ih =>
      simp only [List.length_cons, List.length_append]
      omega

/-- What comes before the members and after them is passed over. -/
theorem scanContainer_dumpsMembers (maxStrDigits depth : Nat)
    (ps : List (Text × Text)) (rest : List Char) :
    scanContainer (scanMember (scanOnce maxStrDigits depth)) '\x7d' []
        (dumpsMembers ps ++ '\x7d' :: rest) =
      .ok (readMembers [] ps, rest) := by
  cases ps with
  | nil => rfl
  | cons p ps =>
      obtain ⟨tail, htail⟩ := exists_dumpsMembers_cons p ps
      have hlength := length_le_dumpsMembers (p :: ps)
      have hfuel : (p :: ps).length ≤ (tail ++ '\x7d' :: rest).length + 2 := by
        rw [htail] at hlength
        simp only [List.length_cons, List.length_append] at hlength ⊢
        omega
      have hitems := scanItems_dumpsMembers maxStrDigits depth
        (List.cons_ne_nil p ps) hfuel [] rest
      rw [htail, List.cons_append] at hitems ⊢
      rw [scanContainer, skipWhitespace_cons (by decide)]
      dsimp only
      rw [if_neg (by decide), hitems]

/-- **Round trip.** A dictionary of strings is read back as an object of the
same strings, with their surrogate pairs joined. -/
theorem loads_dumps (py : Interpreter) (d : Dict Text Text) :
    loads py (dumps d) = .ok (.object (readMembers [] d.entries)) := by
  obtain ⟨depth, hdepth⟩ : ∃ n, py.maxDepth = n + 1 :=
    Nat.exists_eq_add_one.mpr py.maxDepth_pos
  have hscan : scanOnce py.maxStrDigits py.maxDepth (dumps d) =
      .ok (.object (readMembers [] d.entries), []) := by
    rw [dumps, hdepth, scanOnce.eq_def]
    dsimp only
    rw [if_pos rfl, scanObject, scanContainer_dumpsMembers]
    rfl
  have hmark : (dumps d).head? ≠ some '\uFEFF' := by
    show some '\x7b' ≠ _
    decide
  have hspace : skipWhitespace (dumps d) = dumps d := skipWhitespace_cons (by decide) _
  rw [loads, if_neg hmark, hspace, hscan]
  rfl

end Json
