import AgentSystem.JsonRoundTrip

/-!
# Compact JSON

`json.dumps(…, sort_keys=True, separators=(",", ":"))`. The default text comes back from the compact
one by a blank after each comma and colon outside the strings, so that values with the same compact
text are the same to `json.loads`.
-/
namespace AgentSystem.Json

variable {D : Type}

/-! ## Writing -/

/-- `",".join(texts)`. -/
def separateCompact : List (List Char) → List Char
  | [] => []
  | [text] => text
  | text :: texts => text ++ ',' :: separateCompact texts

/-- `name:value` as a member of an object. -/
def compactMember (name : PyStr) (value : List Char) : List Char :=
  stringText name ++ ':' :: value

section Compact

variable [Interpreter D]

mutual

/-- The text of a value without blanks, `none` when writing raises. -/
def compact : PyValue D → Option (List Char)
  | .none => some ['n', 'u', 'l', 'l']
  | .bool b => some (boolText b)
  | .int n => intText n
  | .float x => some (floatText x)
  | .str s => some (stringText s)
  | .list items => (compactItems items).map fun texts => '[' :: (separateCompact texts ++ [']'])
  | .dict items =>
      if comparable (items.map Prod.fst) then
        (compactMembers items).map fun members =>
          '{' :: (separateCompact (reorder (Interpreter.order (items.map Prod.fst)) members) ++ ['}'])
      else none

def compactItems : List (PyValue D) → Option (List (List Char))
  | [] => some []
  | value :: items => (compact value).bind fun text => (compactItems items).map (text :: ·)

def compactMembers : List (PyKey D × PyValue D) → Option (List (List Char))
  | [] => some []
  | (key, value) :: items =>
      key.name.bind fun name => (compact value).bind fun text =>
        (compactMembers items).map (compactMember name text :: ·)

end

end Compact

/-! ## Blanks -/

/-- The text with a blank after each comma and colon outside the strings; the flag says whether it
starts within one. -/
def expand : Bool → List Char → List Char
  | _, [] => []
  | false, c :: text =>
      if c = '"' then c :: expand true text
      else if c = ',' ∨ c = ':' then c :: ' ' :: expand false text
      else c :: expand false text
  | true, '\\' :: c :: text => '\\' :: c :: expand true text
  | true, c :: text => c :: expand (c != '"') text

/-- Outside the strings such a character stays as it is. -/
def plain (c : Char) : Bool := c != '"' && c != ',' && c != ':'

lemma expand_plain {text : List Char} (h : ∀ c ∈ text, plain c = true) (rest : List Char) :
    expand false (text ++ rest) = text ++ expand false rest := by
  induction text with
  | nil => rfl
  | cons c text ih =>
      have hc := h c List.mem_cons_self
      simp only [plain, Bool.and_eq_true, bne_iff_ne] at hc
      obtain ⟨⟨hquote, hcomma⟩, hcolon⟩ := hc
      rw [List.cons_append, expand, if_neg hquote, if_neg (by simp [hcomma, hcolon]),
        ih fun c hc => h c (List.mem_cons_of_mem _ hc), List.cons_append]

lemma expand_string {c : Char} (hquote : c ≠ '"') (hslash : c ≠ '\\') (rest : List Char) :
    expand true (c :: rest) = c :: expand true rest := by
  have hflag : (c != '"') = true := by simpa using hquote
  cases rest with
  | nil => simp [expand]
  | cons d rest =>
      rw [expand, hflag]
      simp [hslash]

lemma expand_escapeUnit (c : CodePoint) (rest : List Char) :
    expand true (escapeUnit c ++ rest) = escapeUnit c ++ expand true rest := by
  unfold escapeUnit
  split
  · rfl
  · next hletter =>
    split_ifs with hprintable
    · have hnat : (Char.ofNat c.val).toNat = c.val := by
        rw [Char.toNat_ofNat, if_pos (.inl (by omega))]
      have hne {d : Char} (hd : d = '"' ∨ d = '\\') : Char.ofNat c.val ≠ d := by
        intro h
        have hval := congrArg Char.toNat h
        rw [hnat] at hval
        rcases hd with rfl | rfl <;> simp [escapeLetter, hval] at hletter
      exact expand_string (hne (.inl rfl)) (hne (.inr rfl)) rest
    · have hdigit : ∀ n < 16, n.digitChar ≠ '"' ∧ n.digitChar ≠ '\\' := by decide
      have hstep (n : ℕ) (text : List Char) : expand true ((n % 16).digitChar :: text) =
          (n % 16).digitChar :: expand true text :=
        have h := hdigit (n % 16) (Nat.mod_lt _ (by decide))
        expand_string h.1 h.2 text
      simp only [hexUnit, List.cons_append, List.nil_append, expand, hstep]

lemma expand_stringText (s : PyStr) (rest : List Char) :
    expand false (stringText s ++ rest) = stringText s ++ expand false rest := by
  have hunits (units : List CodePoint) (text : List Char) :
      expand true (units.flatMap escapeUnit ++ text) =
        units.flatMap escapeUnit ++ expand true text := by
    induction units with
    | nil => rfl
    | cons unit units ih =>
        rw [List.flatMap_cons, List.append_assoc, expand_escapeUnit, ih, List.append_assoc]
  have hclose : expand true ('"' :: rest) = '"' :: expand false rest := by
    cases rest <;> rfl
  rw [stringText, List.cons_append, expand, if_pos rfl, List.append_assoc, escape, hunits,
    List.singleton_append, hclose]
  simp

lemma Literal.WellFormed.all_plain {l : Literal} (h : l.WellFormed) : ∀ c ∈ l.text, plain c = true := by
  have hdigit {c : Char} (hc : c.isDigit = true) : plain c = true := by
    simp only [plain, Bool.and_eq_true, bne_iff_ne]
    refine ⟨⟨?_, ?_⟩, ?_⟩ <;> rintro rfl <;> cases hc
  have hsign {sign : List Char} (hs : sign = [] ∨ sign = ['+'] ∨ sign = ['-']) :
      ∀ c ∈ sign, plain c = true := by
    rcases hs with rfl | rfl | rfl <;> exact List.all_eq_true.mp rfl
  have hwhole : ∀ c ∈ l.whole, plain c = true := by
    rcases h.whole with hzero | ⟨d, digits, hwhole, -, hdigits⟩
    · rw [hzero]
      exact List.all_eq_true.mp rfl
    · rw [hwhole]
      exact fun c hc => hdigit (hdigits c hc)
  have hfraction : ∀ c ∈ l.fraction, plain c = true := by
    rcases h.fraction with hnil | ⟨d, digits, hfraction, hdigits⟩
    · simp [hnil]
    · rw [hfraction]
      exact List.forall_mem_cons.mpr ⟨by decide, fun c hc => hdigit (hdigits c hc)⟩
  have hexponent : ∀ c ∈ l.exponent, plain c = true := by
    rcases h.exponent with hnil | ⟨e, sign, d, digits, hexponent, he, hs, hdigits⟩
    · simp [hnil]
    · rw [hexponent]
      refine List.forall_mem_cons.mpr ⟨by rcases he with rfl | rfl <;> decide, ?_⟩
      exact List.forall_mem_append.mpr ⟨hsign hs, fun c hc => hdigit (hdigits c hc)⟩
  unfold Literal.text
  refine List.forall_mem_append.mpr ⟨List.forall_mem_append.mpr
    ⟨List.forall_mem_append.mpr ⟨hsign (h.sign.imp_right .inr), hwhole⟩, hfraction⟩, hexponent⟩

/-! ## The default text of a compact one -/

/-- The second text is the first one with its blanks. -/
def Expands (text full : List Char) : Prop :=
  ∀ rest, expand false (text ++ rest) = full ++ expand false rest

lemma expands_plain {text : List Char} (h : text.all plain = true) : Expands text text :=
  expand_plain (List.all_eq_true.mp h)

lemma expands_separate {texts fulls : List (List Char)} (h : List.Forall₂ Expands texts fulls) :
    Expands (separateCompact texts) (separate fulls) := by
  induction h with
  | nil => exact fun rest => rfl
  | @cons text full texts fulls htext h ih =>
      cases h with
      | nil => exact htext
      | cons hnext hrest =>
          intro rest
          rw [separateCompact, separate, List.append_assoc, htext, List.cons_append, expand,
            if_neg (by decide), if_pos (.inl rfl), ih]
          · simp
          · simp
          · simp

lemma expands_bracket {text full : List Char} (h : Expands text full) {opening closing : Char}
    (hopening : plain opening = true) (hclosing : plain closing = true) :
    Expands (opening :: (text ++ [closing])) (opening :: (full ++ [closing])) := by
  intro rest
  have hopen := @expand_plain [opening] (by simpa using hopening)
  have hclose := @expand_plain [closing] (by simpa using hclosing) rest
  simp only [List.cons_append, List.nil_append, List.append_assoc] at hopen hclose ⊢
  rw [hopen, h, hclose]

lemma expands_member {name : PyStr} {text full : List Char} (h : Expands text full) :
    Expands (compactMember name text) (memberText name full) := by
  intro rest
  rw [compactMember, List.append_assoc, expand_stringText, List.cons_append, expand,
    if_neg (by decide), if_pos (.inr rfl), h]
  simp [memberText]

variable [Interpreter D]

lemma expands_floatText (x : PyFloat D) : Expands (floatText x) (floatText x) := by
  refine expands_plain ?_
  cases x with
  | finite x => exact List.all_eq_true.mpr (Doubles.wellFormed x).all_plain
  | infinity negative => cases negative <;> rfl
  | nan => rfl

/-- A value whose compact text expands to its default text. -/
def Expandable (value : PyValue D) : Prop :=
  ∀ text, compact value = some text → ∃ full, dumps value = some full ∧ Expands text full

lemma compactItems_expands {values : List (PyValue D)} (h : ∀ value ∈ values, Expandable value)
    {texts : List (List Char)} (hcompact : compactItems values = some texts) :
    ∃ fulls, dumpsItems values = some fulls ∧ List.Forall₂ Expands texts fulls := by
  induction values generalizing texts with
  | nil =>
      cases hcompact
      exact ⟨[], rfl, .nil⟩
  | cons value values ih =>
      obtain ⟨text, htext, hrest⟩ := Option.bind_eq_some_iff.mp hcompact
      obtain ⟨texts, htexts, rfl⟩ := Option.map_eq_some_iff.mp hrest
      obtain ⟨full, hfull, hexpands⟩ := h value List.mem_cons_self text htext
      obtain ⟨fulls, hfulls, hall⟩ := ih (fun value hv => h value (List.mem_cons_of_mem _ hv)) htexts
      exact ⟨full :: fulls, by rw [dumpsItems, hfull, hfulls]; rfl, .cons hexpands hall⟩

lemma compactMembers_expands {items : List (PyKey D × PyValue D)}
    (h : ∀ item ∈ items, Expandable item.2) {members : List (List Char)}
    (hcompact : compactMembers items = some members) :
    ∃ fulls, dumpsMembers items = some fulls ∧ List.Forall₂ Expands members fulls := by
  induction items generalizing members with
  | nil =>
      cases hcompact
      exact ⟨[], rfl, .nil⟩
  | cons item items ih =>
      obtain ⟨key, value⟩ := item
      obtain ⟨name, hname, hrest⟩ := Option.bind_eq_some_iff.mp hcompact
      obtain ⟨text, htext, hrest⟩ := Option.bind_eq_some_iff.mp hrest
      obtain ⟨members, hmembers, rfl⟩ := Option.map_eq_some_iff.mp hrest
      obtain ⟨full, hfull, hexpands⟩ := h (key, value) List.mem_cons_self text htext
      obtain ⟨fulls, hfulls, hall⟩ :=
        ih (fun item hitem => h item (List.mem_cons_of_mem _ hitem)) hmembers
      refine ⟨memberText name full :: fulls, ?_, .cons (expands_member hexpands) hall⟩
      simp only at hfull
      rw [dumpsMembers, hname, hfull, hfulls]
      rfl

theorem expandable (value : PyValue D) : Expandable value := by
  induction value using PyValue.induction with
  | none =>
      rintro text ⟨⟩
      exact ⟨_, rfl, expands_plain rfl⟩
  | bool b =>
      rintro text ⟨⟩
      exact ⟨_, rfl, expands_plain (by cases b <;> rfl)⟩
  | int n =>
      intro text htext
      obtain ⟨-, rfl⟩ := intText_eq_some.mp htext
      exact ⟨_, htext, expands_plain (List.all_eq_true.mpr (intLiteral_wellFormed n).all_plain)⟩
  | float x =>
      rintro text ⟨⟩
      exact ⟨_, rfl, expands_floatText x⟩
  | str s =>
      rintro text ⟨⟩
      exact ⟨_, rfl, expand_stringText s⟩
  | list items ih =>
      intro text htext
      obtain ⟨texts, htexts, rfl⟩ := Option.map_eq_some_iff.mp htext
      obtain ⟨fulls, hfulls, hall⟩ := compactItems_expands ih htexts
      refine ⟨_, by rw [dumps, hfulls]; rfl, ?_⟩
      exact expands_bracket (expands_separate hall) rfl rfl
  | dict items ih =>
      intro text htext
      rw [compact] at htext
      split_ifs at htext with hcomparable
      obtain ⟨members, hmembers, rfl⟩ := Option.map_eq_some_iff.mp htext
      obtain ⟨fulls, hfulls, hall⟩ := compactMembers_expands ih hmembers
      refine ⟨_, by rw [dumps, if_pos hcomparable, hfulls]; rfl, ?_⟩
      exact expands_bracket (expands_separate (forall₂_reorder hall _)) rfl rfl

/-- Values with one compact text are the same to `json.loads`. -/
theorem reload_eq_of_compact {value value' : PyValue D} {text : List Char}
    (h : compact value = some text) (h' : compact value' = some text) :
    reload value = reload value' := by
  obtain ⟨full, hfull, hexpands⟩ := expandable value text h
  obtain ⟨full', hfull', hexpands'⟩ := expandable value' text h'
  have hsame : full = full' := by
    have heq := (hexpands []).symm.trans (hexpands' [])
    simpa [expand] using heq
  have hloads := loads_dumps hfull
  rw [hsame, loads_dumps hfull', Option.some.injEq] at hloads
  exact hloads.symm

end AgentSystem.Json
