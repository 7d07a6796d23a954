import Mathlib

/-!
# JSON string literals

Python strings as lists of code points, the literals that `json.dumps` writes for them in pure
ASCII, and the scanner of `json.loads`. Half a surrogate pair may stand alone in a Python string;
two matching halves that stand side by side come back as one code point.
-/
namespace AgentSystem.Json

/-- A character of a Python string. -/
abbrev CodePoint := Fin 0x110000

abbrev PyStr := List CodePoint

instance instNeZeroCodePoint : NeZero 0x110000 := ⟨by decide⟩

instance : LawfulBEq CodePoint := inferInstance

instance : LawfulBEq PyStr := inferInstance

def CodePoint.isHigh (c : CodePoint) : Bool := 0xD800 ≤ c.val && c.val < 0xDC00

def CodePoint.isLow (c : CodePoint) : Bool := 0xDC00 ≤ c.val && c.val < 0xE000

/-- The code point of a surrogate pair. -/
def joinPair (high low : CodePoint) : CodePoint :=
  Fin.ofNat _ (0x10000 + (high.val - 0xD800) * 0x400 + (low.val - 0xDC00))

/-- Surrogate pairs from left to right become one code point each. -/
def joinSurrogates : PyStr → PyStr
  | high :: low :: s =>
      if high.isHigh && low.isLow then joinPair high low :: joinSurrogates s
      else high :: joinSurrogates (low :: s)
  | s => s

/-- The UTF-16 code units of a code point. -/
def codeUnits (c : CodePoint) : List CodePoint :=
  if c.val < 0x10000 then [c]
  else
    [Fin.ofNat _ (0xD800 + (c.val - 0x10000) / 0x400),
     Fin.ofNat _ (0xDC00 + (c.val - 0x10000) % 0x400)]

/-- The code point of a character. -/
def codePoint (c : Char) : CodePoint := Fin.ofNat _ c.toNat

def toPyStr (s : String) : PyStr := s.toList.map codePoint

/-- `s.encode("utf-8")` as a text, `none` when half of a surrogate pair makes it raise. -/
def encode (s : PyStr) : Option String :=
  if s.any fun c => c.isHigh || c.isLow then none
  else some (String.ofList (s.map fun c => Char.ofNat c.val))

lemma codePoint_val (c : Char) : (codePoint c).val = c.toNat :=
  Nat.mod_eq_of_lt (by have := c.valid; simp only [Char.toNat]; rcases this with h | h <;> omega)

lemma encode_toPyStr (s : String) : encode (toPyStr s) = some s := by
  have hscalar : ∀ c : Char, ((codePoint c).isHigh || (codePoint c).isLow) = false := by
    intro c
    have hvalid : c.toNat < 0xD800 ∨ 0xDFFF < c.toNat ∧ c.toNat < 0x110000 := c.valid
    simp only [CodePoint.isHigh, CodePoint.isLow, codePoint_val, Bool.or_eq_false_iff,
      Bool.and_eq_false_iff, decide_eq_false_iff_not]
    omega
  have hany : (toPyStr s).any (fun c => c.isHigh || c.isLow) = false := by
    simp [toPyStr, hscalar]
  rw [encode, hany, if_neg Bool.false_ne_true, toPyStr, List.map_map]
  have hchars : (fun c : CodePoint => Char.ofNat c.val) ∘ codePoint = id := by
    funext c
    simp [codePoint_val]
  rw [hchars, List.map_id, String.ofList_toList]
lemma isHigh_codePoint (c : Char) : (codePoint c).isHigh = false := by
  have hvalid : c.toNat < 0xD800 ∨ 0xDFFF < c.toNat ∧ c.toNat < 0x110000 := c.valid
  simp only [CodePoint.isHigh, codePoint_val, Bool.and_eq_false_iff, decide_eq_false_iff_not]
  omega

lemma joinSurrogates_of_scalar {s : PyStr} (h : ∀ c ∈ s, c.isHigh = false) :
    joinSurrogates s = s := by
  induction s with
  | nil => rfl
  | cons c s ih =>
      cases s with
      | nil => rfl
      | cons c' s =>
          rw [joinSurrogates, h c (by simp), Bool.false_and, if_neg Bool.false_ne_true,
            ih fun x hx => h x (List.mem_cons_of_mem _ hx)]

lemma joinSurrogates_toPyStr (s : String) : joinSurrogates (toPyStr s) = toPyStr s := by
  refine joinSurrogates_of_scalar fun c hc => ?_
  obtain ⟨c, -, rfl⟩ := List.mem_map.mp hc
  exact isHigh_codePoint c

lemma toPyStr_append (s t : String) : toPyStr (s ++ t) = toPyStr s ++ toPyStr t := by
  rw [toPyStr, String.toList_append, List.map_append]
  rfl

lemma toPyStr_injective : Function.Injective toPyStr := by
  intro s t h
  have hencode := encode_toPyStr s
  rw [h, encode_toPyStr] at hencode
  exact (Option.some_injective _ hencode).symm

/-! ## Writing -/

/-- The letter after the backslash, for the characters that have one. -/
def escapeLetter (c : CodePoint) : Option Char :=
  match c.val with
  | 0x22 => some '"'
  | 0x5C => some '\\'
  | 0x08 => some 'b'
  | 0x0C => some 'f'
  | 0x0A => some 'n'
  | 0x0D => some 'r'
  | 0x09 => some 't'
  | _ => none

def hexUnit (n : ℕ) : List Char :=
  [(n / 4096 % 16).digitChar, (n / 256 % 16).digitChar, (n / 16 % 16).digitChar,
   (n % 16).digitChar]

/-- `ascii_escape_unichar` for one code unit. -/
def escapeUnit (c : CodePoint) : List Char :=
  match escapeLetter c with
  | some letter => ['\\', letter]
  | none =>
      if 0x20 ≤ c.val ∧ c.val ≤ 0x7E then [Char.ofNat c.val] else '\\' :: 'u' :: hexUnit c.val

def escape (s : PyStr) : List Char := (s.flatMap codeUnits).flatMap escapeUnit

/-- The literal of a string. -/
def stringText (s : PyStr) : List Char := '"' :: (escape s ++ ['"'])

/-! ## Reading -/

/-- What the letter after a backslash stands for. -/
def unescapeLetter : Char → Option CodePoint
  | '"' => some 0x22
  | '\\' => some 0x5C
  | '/' => some 0x2F
  | 'b' => some 0x08
  | 'f' => some 0x0C
  | 'n' => some 0x0A
  | 'r' => some 0x0D
  | 't' => some 0x09
  | _ => none

def hexValue (c : Char) : Option ℕ :=
  if '0' ≤ c ∧ c ≤ '9' then some (c.toNat - 48)
  else if 'a' ≤ c ∧ c ≤ 'f' then some (c.toNat - 87)
  else if 'A' ≤ c ∧ c ≤ 'F' then some (c.toNat - 55)
  else none

/-- The code unit of four hexadecimal digits. -/
def hexUnitValue (a b c d : Char) : Option CodePoint := do
  let a ← hexValue a
  let b ← hexValue b
  let c ← hexValue c
  let d ← hexValue d
  return Fin.ofNat _ (4096 * a + 256 * b + 16 * c + d)

/-- The characters of a literal up to its closing quote, escapes resolved one by one. -/
def scanUnits : List Char → Option (PyStr × List Char)
  | [] => none
  | c :: text =>
      if c = '"' then some ([], text)
      else if c = '\\' then
        match text with
        | [] => none
        | 'u' :: h₁ :: h₂ :: h₃ :: h₄ :: text =>
            (hexUnitValue h₁ h₂ h₃ h₄).bind fun unit =>
              (scanUnits text).map (Prod.map (unit :: ·) id)
        | letter :: text =>
            (unescapeLetter letter).bind fun unit =>
              (scanUnits text).map (Prod.map (unit :: ·) id)
      else if c.toNat < 0x20 then none
      else (scanUnits text).map (Prod.map (codePoint c :: ·) id)

/-- `scanstring`, after the opening quote. -/
def scanString (text : List Char) : Option (PyStr × List Char) :=
  (scanUnits text).map (Prod.map joinSurrogates id)

/-! ## What is written is read back -/

lemma hexValue_digitChar : ∀ n < 16, hexValue n.digitChar = some n := by
  decide

lemma hexUnitValue_hexUnit {c : CodePoint} (hc : c.val < 0x10000) :
    hexUnitValue (c.val / 4096 % 16).digitChar (c.val / 256 % 16).digitChar
      (c.val / 16 % 16).digitChar (c.val % 16).digitChar = some c := by
  have hvalue (n : ℕ) : hexValue (n % 16).digitChar = some (n % 16) :=
    hexValue_digitChar _ (Nat.mod_lt _ (by decide))
  unfold hexUnitValue
  simp only [hvalue, Option.bind_eq_bind, Option.bind_some, Option.pure_def, Option.some.injEq]
  apply Fin.ext
  rw [Fin.val_ofNat]
  omega

@[simp] lemma scanUnits_quote (text : List Char) : scanUnits ('"' :: text) = some ([], text) := by
  rw [scanUnits.eq_def]
  simp

lemma scanUnits_plain {c : Char} (hquote : c ≠ '"') (hslash : c ≠ '\\') (hc : ¬ c.toNat < 0x20)
    (text : List Char) :
    scanUnits (c :: text) = (scanUnits text).map (Prod.map (codePoint c :: ·) id) := by
  rw [scanUnits.eq_def]
  simp [hquote, hslash, hc]

lemma scanUnits_letter {letter : Char} {unit : CodePoint} (h : unescapeLetter letter = some unit)
    (text : List Char) :
    scanUnits ('\\' :: letter :: text) = (scanUnits text).map (Prod.map (unit :: ·) id) := by
  have hu : letter ≠ 'u' := by
    rintro rfl
    cases h
  simp [scanUnits, hu, h]

lemma unescapeLetter_escapeLetter {c : CodePoint} {letter : Char}
    (h : escapeLetter c = some letter) : unescapeLetter letter = some c := by
  have hc : c = Fin.ofNat _ c.val := by simp
  unfold escapeLetter at h
  split at h <;> cases h <;> rename_i hval <;> rw [hc, hval] <;> rfl

lemma scanUnits_escapeUnit {c : CodePoint} (hc : c.val < 0x10000) (text : List Char) :
    scanUnits (escapeUnit c ++ text) = (scanUnits text).map (Prod.map (c :: ·) id) := by
  unfold escapeUnit
  split
  · next letter hletter => exact scanUnits_letter (unescapeLetter_escapeLetter hletter) text
  · next hletter =>
    split_ifs with hprintable
    · have hnat : (Char.ofNat c.val).toNat = c.val := by
        rw [Char.toNat_ofNat, if_pos (.inl (by omega))]
      have hquote : Char.ofNat c.val ≠ '"' := by
        intro h
        have := congrArg Char.toNat h
        rw [hnat] at this
        simp [escapeLetter, this] at hletter
      have hslash : Char.ofNat c.val ≠ '\\' := by
        intro h
        have := congrArg Char.toNat h
        rw [hnat] at this
        simp [escapeLetter, this] at hletter
      have hpoint : codePoint (Char.ofNat c.val) = c := by
        apply Fin.ext
        simp [codePoint, hnat]
      rw [List.singleton_append, scanUnits_plain hquote hslash (by omega), hpoint]
    · simp [scanUnits, hexUnit, hexUnitValue_hexUnit hc]

lemma codeUnits_lt {c unit : CodePoint} (h : unit ∈ codeUnits c) : unit.val < 0x10000 := by
  unfold codeUnits at h
  split_ifs at h with hc
  · rw [List.mem_singleton.mp h]
    exact hc
  · rcases List.mem_pair.mp h with rfl | rfl <;> rw [Fin.val_ofNat] <;> omega

lemma scanUnits_escaped {units : PyStr} (h : ∀ unit ∈ units, unit.val < 0x10000)
    (text : List Char) :
    scanUnits (units.flatMap escapeUnit ++ '"' :: text) = some (units, text) := by
  induction units with
  | nil => simp
  | cons unit units ih =>
      rw [List.flatMap_cons, List.append_assoc, scanUnits_escapeUnit (h unit (by simp)),
        ih fun unit hunit => h unit (List.mem_cons_of_mem _ hunit)]
      rfl

lemma joinPair_codeUnits {c : CodePoint} (hc : ¬ c.val < 0x10000) :
    ∃ high low, codeUnits c = [high, low] ∧ high.isHigh = true ∧ low.isLow = true ∧
      high.isLow = false ∧ joinPair high low = c := by
  have hlt := c.isLt
  refine ⟨_, _, if_neg hc, ?_, ?_, ?_, ?_⟩
  · simp only [CodePoint.isHigh, Fin.val_ofNat, Bool.and_eq_true, decide_eq_true_eq]
    omega
  · simp only [CodePoint.isLow, Fin.val_ofNat, Bool.and_eq_true, decide_eq_true_eq]
    omega
  · simp only [CodePoint.isLow, Fin.val_ofNat, Bool.and_eq_false_iff, decide_eq_false_iff_not]
    omega
  · apply Fin.ext
    simp only [joinPair, Fin.val_ofNat]
    omega

/-- Splitting code points in code units changes nothing for the joined string. -/
lemma joinSurrogates_flatMap (s : PyStr) :
    joinSurrogates (s.flatMap codeUnits) = joinSurrogates s := by
  have hcons (c : CodePoint) (rest : PyStr) (hc : ¬ c.val < 0x10000) :
      joinSurrogates (codeUnits c ++ rest) = c :: joinSurrogates rest := by
    obtain ⟨high, low, hunits, hhigh, hlow, -, hjoin⟩ := joinPair_codeUnits hc
    rw [hunits, List.cons_append, List.cons_append, List.nil_append, joinSurrogates, hhigh, hlow]
    simp [hjoin]
  fun_induction joinSurrogates s with
  | case1 high low s hpair ih =>
      rw [List.flatMap_cons, List.flatMap_cons]
      have hhigh : codeUnits high = [high] := by
        refine if_pos ?_
        simp [CodePoint.isHigh] at hpair
        omega
      have hlow : codeUnits low = [low] := by
        refine if_pos ?_
        simp [CodePoint.isLow] at hpair
        omega
      rw [hhigh, hlow, List.singleton_append, List.singleton_append, joinSurrogates, if_pos hpair, ih]
  | case2 high low s hpair ih =>
      rw [List.flatMap_cons]
      by_cases hhigh : high.val < 0x10000
      · rw [codeUnits, if_pos hhigh, List.singleton_append, ← ih]
        by_cases hlow : low.val < 0x10000
        · rw [List.flatMap_cons, codeUnits, if_pos hlow, List.singleton_append, joinSurrogates,
            if_neg hpair]
        · obtain ⟨up, down, hunits, -, -, hnot, -⟩ := joinPair_codeUnits hlow
          have hup : up.isLow = false := hnot
          rw [List.flatMap_cons, hunits, List.cons_append, List.cons_append, joinSurrogates]
          simp [hup]
      · rw [hcons high _ hhigh, ih]
  | case3 s hs =>
      cases s with
      | nil => rfl
      | cons c rest =>
          cases rest with
          | cons low rest => exact absurd rfl (hs c low rest)
          | nil =>
              rw [List.flatMap_cons, List.flatMap_nil]
              by_cases hc : c.val < 0x10000
              · rw [codeUnits, if_pos hc]
                rfl
              · rw [hcons c [] hc]
                rfl

/-- The literal of a string is read back as the string with its surrogates joined. -/
theorem scanString_escape (s : PyStr) (text : List Char) :
    scanString (escape s ++ '"' :: text) = some (joinSurrogates s, text) := by
  have hunits : ∀ unit ∈ s.flatMap codeUnits, unit.val < 0x10000 := by
    intro unit hunit
    obtain ⟨c, -, hc⟩ := List.mem_flatMap.mp hunit
    exact codeUnits_lt hc
  rw [scanString, escape, scanUnits_escaped hunits, Option.map_some, Prod.map_apply,
    joinSurrogates_flatMap]
  rfl

/-- Strings with the same literal are the same once their surrogates are joined. -/
lemma joinSurrogates_eq_of_escape {s t : PyStr} (h : escape s = escape t) :
    joinSurrogates s = joinSurrogates t := by
  have hs := scanString_escape s []
  rw [h, scanString_escape t [], Option.some.injEq, Prod.mk.injEq] at hs
  exact hs.1.symm

/-- Joining surrogates does not change the literal. -/
theorem escape_joinSurrogates (s : PyStr) : escape (joinSurrogates s) = escape s := by
  unfold escape
  congr 1
  fun_induction joinSurrogates s with
  | case1 high low s hpair ih =>
      rw [Bool.and_eq_true] at hpair
      simp only [CodePoint.isHigh, CodePoint.isLow, Bool.and_eq_true, decide_eq_true_eq] at hpair
      have hvalue : (joinPair high low).val =
          0x10000 + (high.val - 0xD800) * 0x400 + (low.val - 0xDC00) := by
        rw [joinPair, Fin.val_ofNat]
        omega
      have hunits : codeUnits (joinPair high low) = [high, low] := by
        have hfirst : Fin.ofNat 0x110000 (0xD800 + ((joinPair high low).val - 0x10000) / 0x400) =
            high := by
          apply Fin.ext
          rw [Fin.val_ofNat]
          omega
        have hsecond : Fin.ofNat 0x110000 (0xDC00 + ((joinPair high low).val - 0x10000) % 0x400) =
            low := by
          apply Fin.ext
          rw [Fin.val_ofNat]
          omega
        rw [codeUnits, if_neg (by omega), hfirst, hsecond]
      have hhigh : codeUnits high = [high] := if_pos (by omega)
      have hlow : codeUnits low = [low] := if_pos (by omega)
      simp only [List.flatMap_cons, hunits, hhigh, hlow, ih, List.cons_append, List.nil_append]
  | case2 high low s hpair ih => rw [List.flatMap_cons, ih, ← List.flatMap_cons]
  | case3 s hs => rfl

lemma joinSurrogates_joinSurrogates (s : PyStr) :
    joinSurrogates (joinSurrogates s) = joinSurrogates s :=
  joinSurrogates_eq_of_escape (escape_joinSurrogates s)

end AgentSystem.Json
