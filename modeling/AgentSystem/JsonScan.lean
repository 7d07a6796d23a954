import AgentSystem.JsonValue

/-!
# The scanner on written texts

What a scanner that reads single elements tells about sequences of them: they are read one by one,
and their text determines them.
-/
namespace AgentSystem.Json

variable {α : Type}

/-- The scanner reads this value from the text, whatever follows that no number goes on with. -/
def Reads (scan : Scan α) (text : List Char) (x : α) : Prop :=
  ∀ rest, Stops rest → scan (text ++ rest) = some (x, rest)

/-- The text begins with neither a space nor a closing bracket. -/
def Starts (text : List Char) : Prop :=
  ∃ c tail, text = c :: tail ∧ isSpace c = false ∧ c ≠ ']' ∧ c ≠ '}'

/-- A closing bracket. -/
def Closes (c : Char) : Prop := c = ']' ∨ c = '}'

lemma Starts.append {text : List Char} (h : Starts text) (rest : List Char) :
    Starts (text ++ rest) := by
  obtain ⟨c, tail, rfl, hspace, hclose⟩ := h
  exact ⟨c, tail ++ rest, rfl, hspace, hclose⟩

lemma Starts.ne_nil {text : List Char} (h : Starts text) : text ≠ [] := by
  obtain ⟨c, tail, rfl, -⟩ := h
  exact List.cons_ne_nil c tail

lemma Starts.length_pos {text : List Char} (h : Starts text) : 0 < text.length :=
  List.length_pos_iff.mpr h.ne_nil

@[simp] lemma skipSpace_nil : skipSpace [] = [] := rfl

lemma skipSpace_cons {c : Char} (hc : isSpace c = false) (text : List Char) :
    skipSpace (c :: text) = c :: text :=
  List.dropWhile_cons_of_neg (by rw [hc]; simp)

@[simp] lemma skipSpace_blank (text : List Char) : skipSpace (' ' :: text) = skipSpace text := rfl

lemma Starts.skipSpace {text : List Char} (h : Starts text) : skipSpace text = text := by
  obtain ⟨c, tail, rfl, hspace, -⟩ := h
  exact skipSpace_cons hspace tail

lemma stops_nil : Stops [] := by
  intro c hc
  cases hc

lemma stops_comma (text : List Char) : Stops (',' :: text) := by
  intro c hc
  cases hc
  decide

lemma stops_close {close : Char} (h : Closes close) (text : List Char) : Stops (close :: text) := by
  intro c hc
  cases hc
  rcases h with rfl | rfl <;> decide

lemma Closes.isSpace {close : Char} (h : Closes close) : isSpace close = false := by
  rcases h with rfl | rfl <;> rfl

lemma Closes.ne_comma {close : Char} (h : Closes close) : ',' ≠ close := by
  rcases h with rfl | rfl <;> decide

/-! ## Sequences are read -/

lemma separate_cons {text : List Char} {texts : List (List Char)} (h : texts ≠ []) :
    separate (text :: texts) = text ++ ',' :: ' ' :: separate texts := by
  cases texts with
  | nil => exact absurd rfl h
  | cons next texts => rfl

lemma separate_starts {texts : List (List Char)} (hne : texts ≠ [])
    (h : ∀ text ∈ texts, Starts text) : Starts (separate texts) := by
  cases texts with
  | nil => exact absurd rfl hne
  | cons text texts =>
      have htext := h text (by simp)
      cases texts with
      | nil => exact htext
      | cons next texts => exact htext.append _

lemma length_le_separate {texts : List (List Char)} (h : ∀ text ∈ texts, Starts text) :
    texts.length ≤ (separate texts).length := by
  induction texts with
  | nil => simp
  | cons text texts ih =>
      have hpos := (h text (by simp)).length_pos
      have hrest := ih fun t ht => h t (List.mem_cons_of_mem _ ht)
      cases texts with
      | nil =>
          simp only [separate, List.length_cons, List.length_nil]
          omega
      | cons next texts =>
          rw [separate_cons (List.cons_ne_nil _ _)]
          simp only [List.length_append, List.length_cons] at hrest ⊢
          omega

lemma mem_length_le_separate {texts : List (List Char)} {text : List Char} (h : text ∈ texts) :
    text.length ≤ (separate texts).length := by
  induction texts with
  | nil => cases h
  | cons first texts ih =>
      cases texts with
      | nil =>
          rw [List.mem_singleton.mp h]
          rfl
      | cons next texts =>
          rw [separate_cons (List.cons_ne_nil _ _)]
          simp only [List.length_append, List.length_cons]
          rcases List.mem_cons.mp h with rfl | hmem
          · omega
          · have := ih hmem
            omega

section Separated

variable {scan : Scan α} {close : Char} {texts : List (List Char)} {xs : List α}

lemma scanSeparated_separate (hclose : Closes close) (hreads : List.Forall₂ (Reads scan) texts xs)
    (hstarts : ∀ text ∈ texts, Starts text) (hne : texts ≠ []) (count : ℕ)
    (hcount : texts.length ≤ count) (rest : List Char) :
    scanSeparated scan close count (separate texts ++ close :: rest) = some (xs, rest) := by
  induction hreads generalizing count with
  | nil => exact absurd rfl hne
  | @cons text x texts xs hread hreads ih =>
      obtain ⟨count, rfl⟩ : ∃ n, count = n + 1 := ⟨count - 1, by simp at hcount; omega⟩
      cases texts with
      | nil =>
          cases hreads
          rw [separate, scanSeparated, hread _ (stops_close hclose rest), Option.bind_some]
          simp only [skipSpace_cons hclose.isSpace, if_true]
      | cons next texts =>
          have hstarts' : ∀ t ∈ next :: texts, Starts t :=
            fun t ht => hstarts t (List.mem_cons_of_mem _ ht)
          have hnext := (separate_starts (List.cons_ne_nil _ _) hstarts').append (close :: rest)
          have hcomma : isSpace ',' = false := rfl
          have hrest := ih hstarts' (List.cons_ne_nil _ _) count (by
            simp only [List.length_cons] at hcount ⊢
            omega)
          rw [separate_cons (List.cons_ne_nil _ _), List.append_assoc, List.cons_append,
            List.cons_append, scanSeparated, hread _ (stops_comma _), Option.bind_some]
          simp only [skipSpace_cons hcomma, if_neg hclose.ne_comma, if_true, skipSpace_blank,
            hnext.skipSpace, hrest]
          rfl

/-- What stands between brackets is read element by element. -/
lemma scanBody_separate (hclose : Closes close) (hreads : List.Forall₂ (Reads scan) texts xs)
    (hstarts : ∀ text ∈ texts, Starts text) (rest : List Char) :
    scanBody scan close (separate texts ++ close :: rest) = some (xs, rest) := by
  cases texts with
  | nil =>
      cases hreads
      rw [separate, List.nil_append, scanBody, skipSpace_cons hclose.isSpace]
      simp
  | cons text texts =>
      have hne := List.cons_ne_nil text texts
      have hlength := length_le_separate hstarts
      obtain ⟨c, tail, heq, hspace, hbracket, hbrace⟩ := separate_starts hne hstarts
      have hc : c ≠ close := by
        rintro rfl
        rcases hclose with h | h
        · exact hbracket h
        · exact hbrace h
      have hrest := scanSeparated_separate hclose hreads hstarts hne
        ((tail ++ close :: rest).length + 1) (by
          rw [heq] at hlength
          simp only [List.length_cons, List.length_append] at hlength ⊢
          omega) rest
      rw [heq, List.cons_append] at hrest ⊢
      rw [scanBody, skipSpace_cons hspace]
      simp only [if_neg hc, hrest]

lemma memberText_append (name : PyStr) (text rest : List Char) :
    memberText name text ++ rest =
      '"' :: (escape name ++ '"' :: ':' :: ' ' :: (text ++ rest)) := by
  simp [memberText, stringText]

/-- A member of an object is read as its name and its value. -/
lemma reads_member {text : List Char} {x : α} (hread : Reads scan text x) (hstarts : Starts text)
    (name : PyStr) : Reads (scanMember scan) (memberText name text) (joinSurrogates name, x) := by
  intro rest hrest
  have hcolon : isSpace ':' = false := rfl
  have hstring := scanString_escape name (':' :: ' ' :: (text ++ rest))
  rw [memberText_append, scanMember, if_pos rfl, hstring, Option.bind_some]
  simp only [skipSpace_cons hcolon, if_true, skipSpace_blank, (hstarts.append rest).skipSpace,
    hread rest hrest]
  rfl

end Separated

lemma memberText_starts (name : PyStr) (text : List Char) : Starts (memberText name text) :=
  ⟨'"', _, rfl, rfl, by decide, by decide⟩

/-! ## Texts determine the elements -/

section Unambiguous

variable {scan : Scan α}

lemma Reads.append_inj {text text' rest rest' : List Char} {x x' : α} (h : Reads scan text x)
    (h' : Reads scan text' x') (hrest : Stops rest) (hrest' : Stops rest')
    (heq : text ++ rest = text' ++ rest') : text = text' ∧ rest = rest' := by
  have hscan := h rest hrest
  rw [heq, h' rest' hrest', Option.some.injEq, Prod.mk.injEq] at hscan
  obtain ⟨-, rfl⟩ := hscan
  exact ⟨List.append_cancel_right heq, rfl⟩

lemma Reads.functional {text : List Char} {x x' : α} (h : Reads scan text x)
    (h' : Reads scan text x') : x = x' := by
  have hscan := h [] stops_nil
  rw [h' [] stops_nil, Option.some.injEq, Prod.mk.injEq] at hscan
  exact hscan.1.symm

/-- A sequence of readable texts can be told from its joined text. -/
lemma separate_injective {texts texts' : List (List Char)}
    (h : ∀ text ∈ texts, ∃ x, Reads scan text x) (h' : ∀ text ∈ texts', ∃ x, Reads scan text x)
    (hstarts : ∀ text ∈ texts, Starts text) (hstarts' : ∀ text ∈ texts', Starts text)
    (heq : separate texts = separate texts') : texts = texts' := by
  induction texts generalizing texts' with
  | nil =>
      cases texts' with
      | nil => rfl
      | cons text' texts' =>
          exact absurd heq.symm (separate_starts (List.cons_ne_nil _ _) hstarts').ne_nil
  | cons text texts ih =>
      cases texts' with
      | nil => exact absurd heq (separate_starts (List.cons_ne_nil _ _) hstarts).ne_nil
      | cons text' texts' =>
          obtain ⟨x, hx⟩ := h text (by simp)
          obtain ⟨x', hx'⟩ := h' text' (by simp)
          cases texts with
          | nil =>
              cases texts' with
              | nil => rw [show text = text' from heq]
              | cons next' texts' =>
                  have hsplit : text ++ [] = text' ++ ',' :: ' ' :: separate (next' :: texts') := by
                    rw [List.append_nil]
                    exact heq
                  exact absurd (hx.append_inj hx' stops_nil (stops_comma _) hsplit).2
                    (List.cons_ne_nil _ _).symm
          | cons next texts =>
              cases texts' with
              | nil =>
                  have hsplit : text ++ ',' :: ' ' :: separate (next :: texts) = text' ++ [] := by
                    rw [List.append_nil]
                    exact heq
                  exact absurd (hx.append_inj hx' (stops_comma _) stops_nil hsplit).2
                    (List.cons_ne_nil _ _)
              | cons next' texts' =>
                  obtain ⟨rfl, hrest⟩ := hx.append_inj hx' (stops_comma _) (stops_comma _) heq
                  rw [ih (fun t ht => h t (List.mem_cons_of_mem _ ht))
                    (fun t ht => h' t (List.mem_cons_of_mem _ ht))
                    (fun t ht => hstarts t (List.mem_cons_of_mem _ ht))
                    (fun t ht => hstarts' t (List.mem_cons_of_mem _ ht))
                    (List.cons_inj_right _ |>.mp (List.cons_inj_right _ |>.mp hrest))]

end Unambiguous

/-! ## Numbers are read -/

section Numbers

variable {D : Type} [Doubles D]

lemma Literal.WellFormed.text_head {l : Literal} (h : l.WellFormed) :
    ∃ c rest, l.text = c :: rest ∧ (c = '-' ∨ c.isDigit = true) := by
  obtain ⟨c, rest, hwhole, hc⟩ := h.whole_head
  unfold Literal.text
  rcases h.sign with hsign | hsign
  · exact ⟨c, _, by rw [hsign, hwhole]; rfl, .inr hc⟩
  · exact ⟨'-', _, by rw [hsign]; rfl, .inl rfl⟩

lemma Literal.WellFormed.starts {l : Literal} (h : l.WellFormed) : Starts l.text := by
  obtain ⟨c, rest, htext, hc⟩ := h.text_head
  refine ⟨c, rest, htext, ?_⟩
  rcases hc with rfl | hc
  · decide
  · refine ⟨?_, ?_, ?_⟩
    · unfold isSpace
      simp only [Bool.or_eq_false_iff, decide_eq_false_iff_not]
      refine ⟨⟨⟨?_, ?_⟩, ?_⟩, ?_⟩ <;> rintro rfl <;> cases hc
    · rintro rfl
      cases hc
    · rintro rfl
      cases hc

lemma intText_eq_some {n : ℤ} {text : List Char} : intText n = some text ↔
    (intLiteral n).whole.length ≤ maxStrDigits ∧ text = (intLiteral n).text := by
  unfold intText
  split_ifs with h
  · simp [h, eq_comm]
  · simp [h]

lemma floatText_starts (x : PyFloat D) : Starts (floatText x) := by
  cases x with
  | finite x => exact (Doubles.wellFormed x).starts
  | infinity negative => cases negative <;> exact ⟨_, _, rfl, by decide⟩
  | nan => exact ⟨_, _, rfl, by decide⟩

lemma scanOnce_string (fuel : ℕ) (text : List Char) :
    scanOnce (D := D) (fuel + 1) ('"' :: text) = (scanString text).map (Prod.map .str id) := rfl

lemma scanOnce_object (fuel : ℕ) (text : List Char) :
    scanOnce (D := D) (fuel + 1) ('\x7b' :: text) =
      (scanBody (scanMember (scanOnce fuel)) '\x7d' text).map
        (Prod.map (fun members => .dict (fromMembers members)) id) := rfl

lemma scanOnce_array (fuel : ℕ) (text : List Char) :
    scanOnce (D := D) (fuel + 1) ('[' :: text) =
      (scanBody (scanOnce fuel) ']' text).map (Prod.map .list id) := rfl

/-- A sign that no infinity follows, or a digit, begins a number. -/
lemma scanOnce_number (fuel : ℕ) {c : Char} {rest : List Char}
    (hc : c.isDigit = true ∨ c = '-' ∧ ∀ d ∈ rest.head?, d ≠ 'I') :
    scanOnce (D := D) (fuel + 1) (c :: rest) = scanNumber (c :: rest) := by
  rw [scanOnce]
  all_goals
    intro text h
    cases h
    rcases hc with hc | ⟨hc, hd⟩
    · cases hc
    · first
      | exact hd 'I' rfl rfl
      | cases hc

lemma reads_literal {l : Literal} (hl : l.WellFormed) (fuel : ℕ) {value : PyValue D}
    (hvalue : ∀ rest, scanLiteral (l.text ++ rest) = some (l, rest) →
      scanNumber (l.text ++ rest) = some (value, rest)) :
    Reads (scanOnce (fuel + 1)) l.text value := by
  intro rest hrest
  have hnumber := hvalue rest (scanLiteral_text hl hrest)
  obtain ⟨d, tail, hwhole, hd⟩ := hl.whole_head
  rcases hl.sign with hsign | hsign
  · have htext : l.text ++ rest = d :: (tail ++ l.fraction ++ l.exponent ++ rest) := by
      simp [Literal.text, hsign, hwhole]
    rw [htext] at hnumber ⊢
    rw [scanOnce_number fuel (.inl hd), hnumber]
  · have htext : l.text ++ rest = '-' :: d :: (tail ++ l.fraction ++ l.exponent ++ rest) := by
      simp [Literal.text, hsign, hwhole]
    have hI : ∀ c ∈ (d :: (tail ++ l.fraction ++ l.exponent ++ rest)).head?, c ≠ 'I' := by
      intro c hc
      cases hc
      rintro rfl
      cases hd
    rw [htext] at hnumber ⊢
    rw [scanOnce_number fuel (.inr ⟨rfl, hI⟩), hnumber]

lemma reads_int {n : ℤ} {text : List Char} (h : intText n = some text) (fuel : ℕ) :
    Reads (scanOnce (D := D) (fuel + 1)) text (.int n) := by
  obtain ⟨hdigits, rfl⟩ := intText_eq_some.mp h
  refine reads_literal (intLiteral_wellFormed n) fuel fun rest hscan => ?_
  have hint : (intLiteral n).isInt = true := rfl
  rw [scanNumber, hscan, Option.bind_some]
  simp only [hint, if_true, readInt_intLiteral hdigits, Option.map_some]

lemma reads_float (x : PyFloat D) (fuel : ℕ) :
    Reads (scanOnce (fuel + 1)) (floatText x) (.float x) := by
  cases x with
  | finite x =>
      refine reads_literal (Doubles.wellFormed x) fuel fun rest hscan => ?_
      rw [scanNumber, hscan, Option.bind_some]
      simp only [Doubles.notInt, Doubles.read_literal, Bool.false_eq_true, if_false]
  | infinity negative =>
      intro rest _
      cases negative <;> rfl
  | nan =>
      intro rest _
      rfl

end Numbers

end AgentSystem.Json
