import AgentSystem.JsonRoundTrip
import AgentSystem.PyData

/-!
# Indented JSON

`json.dumps(…, ensure_ascii=False, indent=2)` as it stands in a UTF-8 file, and what `json.loads`
makes of the file. A value comes back equal exactly if it is one that JSON keeps.
-/
namespace AgentSystem.Json

open PySequence

variable {D : Type}

/-! ## Writing -/

/-- `ESCAPE_DCT` and the other control characters; everything else stands for itself. -/
def plainUnit (c : CodePoint) : List Char :=
  match escapeLetter c with
  | some letter => ['\\', letter]
  | none => if c.val < 0x20 then '\\' :: 'u' :: hexUnit c.val else [Char.ofNat c.val]

/-- The literal of a string, `none` when half of a surrogate pair cannot be encoded. -/
def plainText (s : PyStr) : Option (List Char) :=
  if s.any fun c => c.isHigh || c.isLow then none
  else some ('"' :: (s.flatMap plainUnit ++ ['"']))

/-- A line break and the indentation of a level. -/
def newline (level : ℕ) : List Char := '\n' :: List.replicate (2 * level) ' '

/-- The texts on lines of their own. -/
def lines (level : ℕ) : List (List Char) → List Char
  | [] => []
  | [text] => text
  | text :: texts => text ++ ',' :: (newline level ++ lines level texts)

/-- An array or an object; an empty one stays on its line. -/
def block (opening closing : Char) (level : ℕ) (texts : List (List Char)) : List Char :=
  if texts = [] then [opening, closing]
  else opening :: (newline (level + 1) ++ lines (level + 1) texts ++ newline level ++ [closing])

section Pretty

variable [Doubles D]

/-- The text of a number, `none` for a `TypeError` and for an integer with too many digits. -/
def PyNumber.text : PyNumber D → Option (List Char)
  | .bool b => some (boolText b)
  | .int n => intText n
  | .float x => some (floatText x)
  | .complex _ _ => none

/-- The string that a key is written as, `none` for a `TypeError`. -/
def PyData.name : PyData D → Option PyStr
  | .str s => some s
  | .none => some (toPyStr "null")
  | .number x => x.text.map (List.map codePoint)
  | _ => Option.none

mutual

/-- The text of a value, `none` when writing raises. Tuples are written like lists. -/
def pretty : ℕ → PyData D → Option (List Char)
  | _, .none => some ['n', 'u', 'l', 'l']
  | _, .number x => x.text
  | _, .str s => plainText s
  | level, .list items => (prettyItems (level + 1) items).map (block '[' ']' level)
  | level, .tuple items => (prettyItems (level + 1) items).map (block '[' ']' level)
  | level, .dict items => (prettyMembers (level + 1) items).map (block '\x7b' '\x7d' level)
  | _, .ellipsis => Option.none
  | _, .bytes _ => Option.none
  | _, .set _ => Option.none

def prettyItems : ℕ → List (PyData D) → Option (List (List Char))
  | _, [] => some []
  | level, value :: items =>
      (pretty level value).bind fun text => (prettyItems level items).map (text :: ·)

def prettyMembers : ℕ → List (PyData D × PyData D) → Option (List (List Char))
  | _, [] => some []
  | level, (key, value) :: items =>
      (key.name.bind plainText).bind fun name => (pretty level value).bind fun text =>
        (prettyMembers level items).map ((name ++ ':' :: ' ' :: text) :: ·)

end

mutual

/-- The value of the text of a value. -/
def asJson : PyData D → PyValue D
  | .number (.bool b) => .bool b
  | .number (.int n) => .int n
  | .number (.float x) => .float x
  | .str s => .str s
  | .list items => .list (asJsonItems items)
  | .tuple items => .list (asJsonItems items)
  | .dict items => .dict (fromMembers (asJsonMembers items))
  | _ => .none

def asJsonItems : List (PyData D) → List (PyValue D)
  | [] => []
  | value :: items => asJson value :: asJsonItems items

def asJsonMembers : List (PyData D × PyData D) → List (PyStr × PyValue D)
  | [] => []
  | (key, value) :: items => (key.name.getD [], asJson value) :: asJsonMembers items

end

end Pretty

/-! ## Reading -/

section Strings

lemma codePoint_ofNat {c : CodePoint} (hhigh : c.isHigh = false) (hlow : c.isLow = false) :
    (Char.ofNat c.val).toNat = c.val ∧ codePoint (Char.ofNat c.val) = c := by
  have hvalid : c.val.isValidChar := by
    have hlt := c.isLt
    simp only [CodePoint.isHigh, CodePoint.isLow, Bool.and_eq_false_iff, decide_eq_false_iff_not]
      at hhigh hlow
    unfold Nat.isValidChar
    omega
  have hnat : (Char.ofNat c.val).toNat = c.val := by rw [Char.toNat_ofNat, if_pos hvalid]
  refine ⟨hnat, ?_⟩
  apply Fin.ext
  rw [codePoint, Fin.val_ofNat, hnat]
  exact Nat.mod_eq_of_lt c.isLt

lemma scanUnits_plainUnit {c : CodePoint} (hhigh : c.isHigh = false) (hlow : c.isLow = false)
    (text : List Char) :
    scanUnits (plainUnit c ++ text) = (scanUnits text).map (Prod.map (c :: ·) id) := by
  unfold plainUnit
  split
  · next letter hletter => exact scanUnits_letter (unescapeLetter_escapeLetter hletter) text
  · next hletter =>
    split_ifs with hcontrol
    · simp [scanUnits, hexUnit, hexUnitValue_hexUnit (show c.val < 0x10000 by omega)]
    · obtain ⟨hnat, hpoint⟩ := codePoint_ofNat hhigh hlow
      have hne : ∀ d : Char, d = '"' ∨ d = '\\' → Char.ofNat c.val ≠ d := by
        rintro d (rfl | rfl) h <;> have hval := congrArg Char.toNat h <;> rw [hnat] at hval <;>
          simp [escapeLetter, hval] at hletter
      rw [List.singleton_append, scanUnits_plain (hne _ (.inl rfl)) (hne _ (.inr rfl)) (by omega),
        hpoint]

lemma plainText_eq_some {s : PyStr} {text : List Char} : plainText s = some text ↔
    Scalars s ∧ text = '"' :: (s.flatMap plainUnit ++ ['"']) := by
  unfold plainText Scalars
  split_ifs with h
  · obtain ⟨c, hc, hhalf⟩ := List.any_eq_true.mp h
    rw [Bool.or_eq_true] at hhalf
    constructor
    · nofun
    · rintro ⟨hscalars, -⟩
      rw [(hscalars c hc).1, (hscalars c hc).2] at hhalf
      simp at hhalf
  · rw [List.any_eq_true] at h
    push Not at h
    simp only [Option.some.injEq, eq_comm (a := text)]
    rw [iff_and_self]
    intro _ c hc
    simpa using h c hc

/-- A string is read back from its literal. -/
lemma scanString_plain {s : PyStr} (hs : Scalars s) (text : List Char) :
    scanString (s.flatMap plainUnit ++ '"' :: text) = some (s, text) := by
  have hunits : scanUnits (s.flatMap plainUnit ++ '"' :: text) = some (s, text) := by
    induction s with
    | nil => simp
    | cons c s ih =>
        obtain ⟨hhigh, hlow⟩ := hs c List.mem_cons_self
        rw [List.flatMap_cons, List.append_assoc, scanUnits_plainUnit hhigh hlow,
          ih fun c hc => hs c (List.mem_cons_of_mem _ hc)]
        rfl
  rw [scanString, hunits, Option.map_some, Prod.map_apply,
    joinSurrogates_of_scalar fun c hc => (hs c hc).1]
  rfl

end Strings

/-! ## Lines -/

section Lines

variable {α : Type} {scan : Scan α} {close : Char} {texts : List (List Char)} {xs : List α}

lemma skipSpace_newline (level : ℕ) (rest : List Char) :
    skipSpace (newline level ++ rest) = skipSpace rest := by
  unfold newline
  rw [List.cons_append]
  change skipSpace (List.replicate (2 * level) ' ' ++ rest) = _
  induction 2 * level with
  | zero => rfl
  | succ n ih => rw [List.replicate_succ, List.cons_append, skipSpace_blank, ih]

lemma stops_newline (level : ℕ) (rest : List Char) : Stops (newline level ++ rest) := by
  intro c hc
  cases hc
  decide

lemma lines_cons {text : List Char} {level : ℕ} (h : texts ≠ []) :
    lines level (text :: texts) = text ++ ',' :: (newline level ++ lines level texts) := by
  cases texts with
  | nil => exact absurd rfl h
  | cons next texts => rfl

lemma lines_starts (level : ℕ) (hne : texts ≠ []) (h : ∀ text ∈ texts, Starts text) :
    Starts (lines level texts) := by
  cases texts with
  | nil => exact absurd rfl hne
  | cons text texts =>
      have htext := h text List.mem_cons_self
      cases texts with
      | nil => exact htext
      | cons next texts => exact htext.append _

lemma length_le_lines (level : ℕ) (h : ∀ text ∈ texts, Starts text) :
    texts.length ≤ (lines level texts).length := by
  induction texts with
  | nil => simp
  | cons text texts ih =>
      have hpos := (h text List.mem_cons_self).length_pos
      have hrest := ih fun t ht => h t (List.mem_cons_of_mem _ ht)
      cases texts with
      | nil =>
          simp only [lines, List.length_cons, List.length_nil]
          omega
      | cons next texts =>
          rw [lines_cons (List.cons_ne_nil _ _)]
          simp only [List.length_append, List.length_cons] at hrest ⊢
          omega

lemma mem_length_le_lines (level : ℕ) {text : List Char} (h : text ∈ texts) :
    text.length ≤ (lines level texts).length := by
  induction texts with
  | nil => cases h
  | cons first texts ih =>
      cases texts with
      | nil =>
          rw [List.mem_singleton.mp h]
          rfl
      | cons next texts =>
          rw [lines_cons (List.cons_ne_nil _ _)]
          simp only [List.length_append, List.length_cons]
          rcases List.mem_cons.mp h with rfl | hmem
          · omega
          · have := ih hmem
            omega

lemma mem_length_lt_block (opening close : Char) (level : ℕ) {text : List Char}
    (h : text ∈ texts) :
    text.length < (block opening close level texts).length := by
  have := mem_length_le_lines (level + 1) h
  rw [block, if_neg (List.ne_nil_of_mem h)]
  simp only [List.length_cons, List.length_append]
  omega

lemma scanSeparated_lines (hclose : Closes close) (hreads : List.Forall₂ (Reads scan) texts xs)
    (hstarts : ∀ text ∈ texts, Starts text) (hne : texts ≠ []) (level outer count : ℕ)
    (hcount : texts.length ≤ count) (rest : List Char) :
    scanSeparated scan close count (lines level texts ++ (newline outer ++ close :: rest)) =
      some (xs, rest) := by
  induction hreads generalizing count with
  | nil => exact absurd rfl hne
  | @cons text x texts xs hread hreads ih =>
      obtain ⟨count, rfl⟩ : ∃ n, count = n + 1 := ⟨count - 1, by simp at hcount; omega⟩
      cases texts with
      | nil =>
          cases hreads
          rw [lines, scanSeparated, hread _ (stops_newline outer _), Option.bind_some]
          simp only [skipSpace_newline, skipSpace_cons hclose.isSpace, if_true]
      | cons next texts =>
          have hstarts' : ∀ t ∈ next :: texts, Starts t :=
            fun t ht => hstarts t (List.mem_cons_of_mem _ ht)
          have hnext := (lines_starts level (List.cons_ne_nil _ _) hstarts').append
            (newline outer ++ close :: rest)
          have hcomma : isSpace ',' = false := rfl
          have hrest := ih hstarts' (List.cons_ne_nil _ _) count (by
            simp only [List.length_cons] at hcount ⊢
            omega)
          rw [lines_cons (List.cons_ne_nil _ _), List.append_assoc, List.cons_append, scanSeparated,
            hread _ (stops_comma _), Option.bind_some, List.append_assoc]
          simp only [skipSpace_cons hcomma, if_neg hclose.ne_comma, if_true, skipSpace_newline,
            hnext.skipSpace, hrest]
          rfl

/-- What stands in an indented block is read element by element. -/
lemma scanBody_block (hclose : Closes close) (hreads : List.Forall₂ (Reads scan) texts xs)
    (hstarts : ∀ text ∈ texts, Starts text) (opening : Char) (level : ℕ) (rest : List Char) :
    ∃ body, block opening close level texts ++ rest = opening :: body ∧
      scanBody scan close body = some (xs, rest) := by
  by_cases hne : texts = []
  · subst hne
    cases hreads
    refine ⟨close :: rest, rfl, ?_⟩
    rw [scanBody, skipSpace_cons hclose.isSpace]
    simp
  · refine ⟨newline (level + 1) ++ (lines (level + 1) texts ++ (newline level ++ close :: rest)),
      by simp [block, hne], ?_⟩
    have hlength := length_le_lines (level + 1) hstarts
    have hlines := lines_starts (level + 1) hne hstarts
    obtain ⟨c, tail, heq, hspace, hbracket, hbrace⟩ := hlines
    have hc : c ≠ close := by
      rintro rfl
      rcases hclose with h | h
      · exact hbracket h
      · exact hbrace h
    have hrest := scanSeparated_lines hclose hreads hstarts hne (level + 1) level
      ((tail ++ (newline level ++ close :: rest)).length + 1) (by
        rw [heq] at hlength
        simp only [List.length_cons, List.length_append] at hlength ⊢
        omega) rest
    rw [heq, List.cons_append] at hrest ⊢
    rw [scanBody, skipSpace_newline, skipSpace_cons hspace]
    simp only [if_neg hc, hrest]

lemma block_starts {opening : Char} (hopening : opening = '[' ∨ opening = '\x7b') (level : ℕ) :
    Starts (block opening close level texts) := by
  have hstarts : ∀ tail, Starts (opening :: tail) := by
    intro tail
    rcases hopening with rfl | rfl <;> exact ⟨_, tail, rfl, by decide⟩
  unfold block
  split_ifs
  · exact hstarts _
  · exact hstarts _

/-- A member of an object is read as its name and its value. -/
lemma reads_plainMember {s : PyStr} {name text : List Char} {x : α} (hread : Reads scan text x)
    (hstarts : Starts text) (hname : plainText s = some name) :
    Reads (scanMember scan) (name ++ ':' :: ' ' :: text) (s, x) := by
  obtain ⟨hscalars, rfl⟩ := plainText_eq_some.mp hname
  intro rest hrest
  have hcolon : isSpace ':' = false := rfl
  have hstring := scanString_plain hscalars (':' :: ' ' :: (text ++ rest))
  have htext : '"' :: (s.flatMap plainUnit ++ ['"']) ++ ':' :: ' ' :: text ++ rest =
      '"' :: (s.flatMap plainUnit ++ '"' :: ':' :: ' ' :: (text ++ rest)) := by
    simp
  rw [htext, scanMember, if_pos rfl, hstring, Option.bind_some]
  simp only [skipSpace_cons hcolon, if_true, skipSpace_blank, (hstarts.append rest).skipSpace,
    hread rest hrest]
  rfl

end Lines

/-! ## Values are read -/

section Values

variable [Doubles D] {level : ℕ} {values : List (PyData D)} {items : List (PyData D × PyData D)}

lemma prettyItems_iff {texts : List (List Char)} : prettyItems level values = some texts ↔
    List.Forall₂ (fun value text => pretty level value = some text) values texts := by
  induction values generalizing texts with
  | nil => rw [prettyItems, Option.some.injEq, List.forall₂_nil_left_iff, eq_comm]
  | cons value values ih =>
      rw [prettyItems]
      constructor
      · intro h
        obtain ⟨text, htext, hmap⟩ := Option.bind_eq_some_iff.mp h
        obtain ⟨rest, hrest, rfl⟩ := Option.map_eq_some_iff.mp hmap
        exact .cons htext (ih.mp hrest)
      · rintro (_ | ⟨htext, hrest⟩)
        rw [htext, ih.mpr hrest]
        rfl

/-- The line that an item of a dictionary is written on. -/
def PrettyMember (level : ℕ) (item : PyData D × PyData D) (member : List Char) : Prop :=
  ∃ key name text, item.1.name = some key ∧ plainText key = some name ∧
    pretty level item.2 = some text ∧ member = name ++ ':' :: ' ' :: text

lemma prettyMembers_iff {members : List (List Char)} : prettyMembers level items = some members ↔
    List.Forall₂ (PrettyMember level) items members := by
  induction items generalizing members with
  | nil => rw [prettyMembers, Option.some.injEq, List.forall₂_nil_left_iff, eq_comm]
  | cons item items ih =>
      obtain ⟨key, value⟩ := item
      rw [prettyMembers]
      constructor
      · intro h
        obtain ⟨name, hname, hvalue⟩ := Option.bind_eq_some_iff.mp h
        obtain ⟨s, hkey, hplain⟩ := Option.bind_eq_some_iff.mp hname
        obtain ⟨text, htext, hmap⟩ := Option.bind_eq_some_iff.mp hvalue
        obtain ⟨rest, hrest, rfl⟩ := Option.map_eq_some_iff.mp hmap
        exact .cons ⟨s, name, text, hkey, hplain, htext, rfl⟩ (ih.mp hrest)
      · rintro (_ | ⟨⟨s, name, text, hkey, hplain, htext, rfl⟩, hrest⟩)
        simp only at hkey htext
        rw [hkey, Option.bind_some, hplain, htext, ih.mpr hrest]
        rfl

lemma asJsonItems_eq : asJsonItems values = values.map asJson := by
  induction values with
  | nil => rfl
  | cons value values ih => rw [asJsonItems, ih, List.map_cons]

lemma asJsonMembers_eq :
    asJsonMembers items = items.map fun item => (item.1.name.getD [], asJson item.2) := by
  induction items with
  | nil => rfl
  | cons item items ih => rw [asJsonMembers, ih, List.map_cons]

lemma plainText_starts {s : PyStr} {text : List Char} (h : plainText s = some text) :
    Starts text := by
  obtain ⟨-, rfl⟩ := plainText_eq_some.mp h
  exact ⟨_, _, rfl, by decide⟩

lemma number_starts {x : PyNumber D} {text : List Char} (h : x.text = some text) : Starts text := by
  cases x with
  | bool b =>
      cases h
      cases b <;> exact ⟨_, _, rfl, by decide⟩
  | int n =>
      obtain ⟨-, rfl⟩ := intText_eq_some.mp h
      exact (intLiteral_wellFormed n).starts
  | float x =>
      cases h
      exact floatText_starts x
  | complex re im => cases h

@[simp] lemma pretty_none (level : ℕ) :
    pretty (D := D) level .none = some ['n', 'u', 'l', 'l'] := rfl

@[simp] lemma pretty_number (level : ℕ) (x : PyNumber D) : pretty level (.number x) = x.text := rfl

@[simp] lemma pretty_str (level : ℕ) (s : PyStr) :
    pretty (D := D) level (.str s) = plainText s := rfl

@[simp] lemma pretty_ellipsis (level : ℕ) : pretty (D := D) level .ellipsis = Option.none := rfl

@[simp] lemma pretty_bytes (level : ℕ) (s : List (Fin 256)) :
    pretty (D := D) level (.bytes s) = Option.none := rfl

@[simp] lemma pretty_set (level : ℕ) (values : List (PyData D)) :
    pretty level (.set values) = Option.none := rfl

lemma pretty_list_eq_some {text : List Char} : pretty level (.list values) = some text ↔
    ∃ texts, List.Forall₂ (fun value text => pretty (level + 1) value = some text) values texts ∧
      text = block '[' ']' level texts := by
  change (prettyItems (level + 1) values).map (block '[' ']' level) = some text ↔ _
  simp only [Option.map_eq_some_iff, prettyItems_iff]
  exact exists_congr fun texts => and_congr_right fun _ => eq_comm

lemma pretty_tuple (level : ℕ) (values : List (PyData D)) :
    pretty level (.tuple values) = pretty level (.list values) := rfl

lemma pretty_dict_eq_some {text : List Char} : pretty level (.dict items) = some text ↔
    ∃ members, List.Forall₂ (PrettyMember (level + 1)) items members ∧
      text = block '\x7b' '\x7d' level members := by
  change (prettyMembers (level + 1) items).map (block '\x7b' '\x7d' level) = some text ↔ _
  simp only [Option.map_eq_some_iff, prettyMembers_iff]
  exact exists_congr fun texts => and_congr_right fun _ => eq_comm

/-- The items of a dictionary that is written are written. -/
lemma pretty_dict_items {text : List Char} (h : pretty level (.dict items) = some text) :
    ∀ item ∈ items, (∃ key, item.1.name = some key ∧ Scalars key) ∧
      ∃ text, pretty (level + 1) item.2 = some text := by
  obtain ⟨members, hmembers, -⟩ := pretty_dict_eq_some.mp h
  intro item hitem
  obtain ⟨member, ⟨key, name, text, hkey, hname, htext, -⟩, -⟩ :=
    exists_of_forall₂_both hmembers hmembers hitem
  exact ⟨⟨key, hkey, (plainText_eq_some.mp hname).1⟩, text, htext⟩

lemma pretty_starts {value : PyData D} {text : List Char} (h : pretty level value = some text) :
    Starts text := by
  cases value with
  | none =>
      rw [pretty_none, Option.some.injEq] at h
      subst h
      exact ⟨_, _, rfl, by decide⟩
  | number x =>
      rw [pretty_number] at h
      exact number_starts h
  | str s =>
      rw [pretty_str] at h
      exact plainText_starts h
  | list values =>
      obtain ⟨texts, -, rfl⟩ := pretty_list_eq_some.mp h
      exact block_starts (.inl rfl) level
  | tuple values =>
      rw [pretty_tuple] at h
      obtain ⟨texts, -, rfl⟩ := pretty_list_eq_some.mp h
      exact block_starts (.inl rfl) level
  | dict items =>
      obtain ⟨members, -, rfl⟩ := pretty_dict_eq_some.mp h
      exact block_starts (.inr rfl) level
  | ellipsis => simp at h
  | bytes s => simp at h
  | set values => simp at h

lemma reads_number {x : PyNumber D} {text : List Char} (h : x.text = some text) (fuel : ℕ) :
    Reads (scanOnce (fuel + 1)) text (asJson (.number x)) := by
  cases x with
  | bool b =>
      cases h
      cases b <;> exact fun _ _ => rfl
  | int n => exact reads_int h fuel
  | float x =>
      cases h
      exact reads_float x fuel
  | complex re im => cases h

/-- The elements of an array are read one by one, when each of them is. -/
lemma reads_items {texts : List (List Char)} {fuel : ℕ}
    (hpretty : List.Forall₂ (fun value text => pretty (level + 1) value = some text) values texts)
    (hread : ∀ value ∈ values, ∀ text, pretty (level + 1) value = some text → text.length < fuel →
      Reads (scanOnce fuel) text (asJson value))
    (hlength : (block '[' ']' level texts).length < fuel + 1) :
    Reads (scanOnce (fuel + 1)) (block '[' ']' level texts) (.list (values.map asJson)) := by
  have hreads : List.Forall₂ (Reads (scanOnce fuel)) texts (values.map asJson) := by
    rw [List.forall₂_map_right_iff]
    refine ((forall₂_mem hpretty).imp ?_).flip
    rintro value text ⟨htext, hvalue, hmem⟩
    refine hread value hvalue text htext ?_
    have := mem_length_lt_block '[' ']' level hmem
    omega
  have hstarts : ∀ text ∈ texts, Starts text := by
    intro text htext
    obtain ⟨value, -, hvalue⟩ := exists_of_forall₂ hpretty htext
    exact pretty_starts hvalue
  intro rest _
  obtain ⟨body, hbody, hscan⟩ := scanBody_block (.inl rfl) hreads hstarts '[' level rest
  rw [hbody, scanOnce_array, hscan]
  rfl

/-- With fuel for its length an indented text is read as the value that JSON has for it. -/
theorem reads_pretty {value : PyData D} {text : List Char} (h : pretty level value = some text)
    {fuel : ℕ} (hfuel : text.length < fuel) : Reads (scanOnce fuel) text (asJson value) := by
  obtain ⟨fuel, rfl⟩ := Nat.exists_eq_succ_of_ne_zero (by omega : fuel ≠ 0)
  induction value using PyData.induction generalizing level text fuel with
  | none =>
      rw [pretty_none, Option.some.injEq] at h
      subst h
      exact fun _ _ => rfl
  | number x =>
      rw [pretty_number] at h
      exact reads_number h fuel
  | str s =>
      rw [pretty_str] at h
      obtain ⟨hscalars, rfl⟩ := plainText_eq_some.mp h
      intro rest _
      have htext : '"' :: (s.flatMap plainUnit ++ ['"']) ++ rest =
          '"' :: (s.flatMap plainUnit ++ '"' :: rest) := by
        simp
      rw [htext, scanOnce_string, scanString_plain hscalars]
      rfl
  | list values ih =>
      obtain ⟨texts, htexts, rfl⟩ := pretty_list_eq_some.mp h
      rw [asJson, asJsonItems_eq]
      refine reads_items htexts (fun value hvalue text htext hlt => ?_) hfuel
      obtain ⟨fuel, rfl⟩ := Nat.exists_eq_succ_of_ne_zero (by omega : fuel ≠ 0)
      exact ih value hvalue htext fuel hlt
  | tuple values ih =>
      rw [pretty_tuple] at h
      obtain ⟨texts, htexts, rfl⟩ := pretty_list_eq_some.mp h
      rw [asJson, asJsonItems_eq]
      refine reads_items htexts (fun value hvalue text htext hlt => ?_) hfuel
      obtain ⟨fuel, rfl⟩ := Nat.exists_eq_succ_of_ne_zero (by omega : fuel ≠ 0)
      exact ih value hvalue htext fuel hlt
  | dict items ih =>
      obtain ⟨members, hmembers, rfl⟩ := pretty_dict_eq_some.mp h
      have hreads : List.Forall₂ (Reads (scanMember (scanOnce fuel))) members
          (items.map fun item => (item.1.name.getD [], asJson item.2)) := by
        rw [List.forall₂_map_right_iff]
        refine ((forall₂_mem hmembers).imp ?_).flip
        rintro item member ⟨⟨s, name, text, hkey, hname, htext, rfl⟩, hitem, hmem⟩
        have hlt := mem_length_lt_block '\x7b' '\x7d' level hmem
        have hshort : text.length < fuel := by
          simp only [List.length_append, List.length_cons] at hlt
          omega
        obtain ⟨fuel, rfl⟩ := Nat.exists_eq_succ_of_ne_zero (by omega : fuel ≠ 0)
        change Reads _ _ (item.1.name.getD [], asJson item.2)
        rw [hkey]
        exact reads_plainMember ((ih item hitem).2 htext fuel hshort) (pretty_starts htext) hname
      have hstarts : ∀ member ∈ members, Starts member := by
        intro member hmember
        obtain ⟨item, -, s, name, text, -, hname, -, rfl⟩ := exists_of_forall₂ hmembers hmember
        exact (plainText_starts hname).append _
      intro rest _
      obtain ⟨body, hbody, hscan⟩ := scanBody_block (.inr rfl) hreads hstarts '\x7b' level rest
      rw [hbody, scanOnce_object, hscan, asJson, asJsonMembers_eq]
      rfl
  | ellipsis => simp at h
  | bytes s => simp at h
  | set values => simp at h

/-- `json.loads` reads what stands in the file. -/
theorem loads_pretty {value : PyData D} {text : List Char} (h : pretty level value = some text) :
    loads text = some (asJson value) := by
  have hread := reads_pretty h (Nat.lt_succ_self _) [] stops_nil
  rw [List.append_nil] at hread
  rw [loads, (pretty_starts h).skipSpace, hread]
  rfl

end Values

/-! ## What comes back -/

def PyKey.data : PyKey D → PyData D
  | .none => .none
  | .bool b => .number (.bool b)
  | .int n => .number (.int n)
  | .float x => .number (.float x)
  | .str s => .str s

mutual

/-- A JSON value among the others. -/
def fromJson : PyValue D → PyData D
  | .none => .none
  | .bool b => .number (.bool b)
  | .int n => .number (.int n)
  | .float x => .number (.float x)
  | .str s => .str s
  | .list items => .list (fromJsonItems items)
  | .dict items => .dict (fromJsonMembers items)

def fromJsonItems : List (PyValue D) → List (PyData D)
  | [] => []
  | value :: items => fromJson value :: fromJsonItems items

def fromJsonMembers : List (PyKey D × PyValue D) → List (PyData D × PyData D)
  | [] => []
  | (key, value) :: items => (key.data, fromJson value) :: fromJsonMembers items

end

lemma fromJsonItems_eq (items : List (PyValue D)) : fromJsonItems items = items.map fromJson := by
  induction items with
  | nil => rfl
  | cons value items ih => rw [fromJsonItems, ih, List.map_cons]

lemma fromJsonMembers_eq (items : List (PyKey D × PyValue D)) :
    fromJsonMembers items = items.map fun item => (item.1.data, fromJson item.2) := by
  induction items with
  | nil => rfl
  | cons item items ih => rw [fromJsonMembers, ih, List.map_cons]

/-- A dictionary that loses no item has different names. -/
lemma nodup_of_length {pairs : List (PyStr × PyValue D)}
    (h : (fromPairs pairs).length = pairs.length) : (pairs.map Prod.fst).Nodup := by
  have hsame : ((fromPairs pairs).map Prod.fst).toFinset = (pairs.map Prod.fst).toFinset := by
    ext name
    rw [List.mem_toFinset, List.mem_toFinset, mem_keys_fromPairs]
  have hcard := List.toFinset_card_of_nodup (fromPairs_nodup pairs)
  rw [hsame, List.length_map, h, ← List.length_map (f := Prod.fst)] at hcard
  exact List.dedup_eq_self.mp ((List.dedup_sublist _).eq_of_length hcard)

section Back

variable [Doubles D]

/-- What a value is after it was written and read. -/
def PyData.back (value : PyData D) : PyData D := fromJson (asJson value)

lemma back_list (values : List (PyData D)) :
    (PyData.list values).back = .list (values.map PyData.back) := by
  rw [PyData.back, asJson, fromJson, asJsonItems_eq, fromJsonItems_eq, List.map_map]
  rfl

lemma back_tuple (values : List (PyData D)) :
    (PyData.tuple values).back = .list (values.map PyData.back) := by
  rw [PyData.back, asJson, fromJson, asJsonItems_eq, fromJsonItems_eq, List.map_map]
  rfl

lemma back_dict (items : List (PyData D × PyData D)) :
    (PyData.dict items).back =
      .dict ((fromPairs (items.map fun item => (item.1.name.getD [], asJson item.2))).map fun pair =>
        (.str pair.1, fromJson pair.2)) := by
  rw [PyData.back, asJson, fromJson, asJsonMembers_eq, fromJsonMembers_eq, fromMembers, List.map_map]
  rfl

/-- With different names the items of a dictionary come back one by one. -/
lemma back_dict_of_nodup {items : List (PyData D × PyData D)}
    (hnodup : (items.map fun item => item.1.name.getD []).Nodup) :
    (PyData.dict items).back =
      .dict (items.map fun item => (.str (item.1.name.getD []), item.2.back)) := by
  have hkeys : ((items.map fun item => (item.1.name.getD [], asJson item.2)).map Prod.fst).Nodup := by
    rw [List.map_map]
    exact hnodup
  rw [back_dict, fromPairs_of_nodup hkeys, List.map_map]
  rfl

lemma name_of_text {key : PyData D} {name : PyStr} (h : key.text = some name) :
    key.name = some name := by
  rw [text_eq_some.mp h]
  rfl

/-- Keys that are different strings have different names. -/
lemma names_nodup {items : List (PyData D × PyData D)}
    (htexts : ∀ item ∈ items, ∃ name, item.1.text = some name)
    (hnodup : (items.map fun item => item.1.text).Nodup) :
    (items.map fun item => item.1.name.getD []).Nodup := by
  refine List.Nodup.of_map some ?_
  rw [List.map_map]
  have hsame : items.map (some ∘ fun item => item.1.name.getD []) =
      items.map fun item => item.1.text := by
    refine List.map_congr_left fun item hitem => ?_
    obtain ⟨name, hname⟩ := htexts item hitem
    rw [Function.comp_apply, name_of_text hname, hname]
    rfl
  rw [hsame]
  exact hnodup

/-- What JSON keeps comes back as it is. -/
lemma PyData.Kept.back_eq {value : PyData D} (h : value.Kept) : value.back = value := by
  induction value using PyData.induction with
  | none => rfl
  | number x =>
      cases x with
      | complex re im => exact h.elim
      | _ => rfl
  | str s => rfl
  | list values ih =>
      rw [back_list, List.map_congr_left fun value hvalue => ih value hvalue (keptItems_iff.mp h value hvalue)]
      rw [List.map_id']
  | dict items ih =>
      have hkept := keptMembers_iff.mp h.2
      have htexts : ∀ item ∈ items, ∃ name, item.1.text = some name := fun item hitem =>
        (hkept item hitem).1.imp fun _ hname => hname.1
      rw [back_dict_of_nodup (names_nodup htexts h.1)]
      have hitem : ∀ item ∈ items, (PyData.str (item.1.name.getD []), item.2.back) = item := by
        intro item hitem
        obtain ⟨name, hname⟩ := htexts item hitem
        rw [(ih item hitem).2 (hkept item hitem).2, name_of_text hname]
        exact Prod.ext (text_eq_some.mp hname).symm rfl
      rw [List.map_congr_left hitem, List.map_id']
  | ellipsis => exact h.elim
  | bytes s => exact h.elim
  | tuple values _ => exact h.elim
  | set values _ => exact h.elim

/-- What JSON keeps can be written. -/
lemma PyData.Kept.written {value : PyData D} (h : value.Kept) (level : ℕ) :
    ∃ text, pretty level value = some text := by
  have plain : ∀ {s : PyStr}, Scalars s → ∃ text, plainText s = some text :=
    fun hs => ⟨_, plainText_eq_some.mpr ⟨hs, rfl⟩⟩
  induction value using PyData.induction generalizing level with
  | none => exact ⟨_, pretty_none level⟩
  | number x =>
      rw [pretty_number]
      cases x with
      | bool b => exact ⟨_, rfl⟩
      | int n => exact ⟨_, intText_eq_some.mpr ⟨h, rfl⟩⟩
      | float x => exact ⟨_, rfl⟩
      | complex re im => exact h.elim
  | str s =>
      rw [pretty_str]
      exact plain h
  | list values ih =>
      have hall : ∀ value ∈ values, ∃ text, pretty (level + 1) value = some text :=
        fun value hvalue => ih value hvalue (keptItems_iff.mp h value hvalue) (level + 1)
      obtain ⟨texts, htexts⟩ := forall₂_of_exists hall
      exact ⟨_, pretty_list_eq_some.mpr ⟨texts, htexts, rfl⟩⟩
  | dict items ih =>
      have hall : ∀ item ∈ items, ∃ member, PrettyMember (level + 1) item member := by
        intro item hitem
        obtain ⟨⟨name, hname, hscalars⟩, hvalue⟩ := keptMembers_iff.mp h.2 item hitem
        obtain ⟨key, hkey⟩ := plain hscalars
        obtain ⟨text, htext⟩ := (ih item hitem).2 hvalue (level + 1)
        exact ⟨_, name, key, text, name_of_text hname, hkey, htext, rfl⟩
      obtain ⟨members, hmembers⟩ := forall₂_of_exists hall
      exact ⟨_, pretty_dict_eq_some.mpr ⟨members, hmembers, rfl⟩⟩
  | ellipsis => exact h.elim
  | bytes s => exact h.elim
  | tuple values _ => exact h.elim
  | set values _ => exact h.elim

end Back

section Equal

variable [RealDoubles D]

/-- Only the string itself is equal to a string. -/
lemma eq_str_iff {key : PyData D} {name : PyStr} :
    key.eq (.str name) = true ↔ key = .str name := by
  cases key <;> simp [PyData.eq]

lemma kept_of_number {x : PyNumber D} {text : List Char} (h : x.text = some text)
    (heq : (PyData.number x).eq (PyData.number x).back = true) : x.Kept := by
  cases x with
  | bool b => trivial
  | int n => exact (intText_eq_some.mp h).1
  | float x =>
      rintro rfl
      simp [PyData.back, asJson, fromJson, PyData.eq, PyNumber.eq, PyNumber.parts, PyFloat.part,
        Part.eq] at heq
  | complex re im => cases h

/-- A dictionary that comes back equal has different strings as keys, and its values come back
equal. -/
lemma items_of_eq {items : List (PyData D × PyData D)}
    (heq : (PyData.dict items).eq (PyData.dict items).back = true) :
    (items.map fun item => item.1.text).Nodup ∧
      ∀ item ∈ items, (∃ name, item.1.text = some name) ∧ item.2.eq item.2.back = true := by
  rw [back_dict, PyData.eq, Bool.and_eq_true, eqMembers_iff, decide_eq_true_eq, List.length_map]
    at heq
  obtain ⟨hlength, hmembers⟩ := heq
  have hnames := nodup_of_length (hlength.symm.trans (List.length_map _).symm)
  rw [fromPairs_of_nodup hnames, List.map_map] at hmembers
  rw [List.map_map] at hnames
  have hitems : ∀ item ∈ items, (∃ name, item.1.text = some name) ∧
      item.2.eq item.2.back = true := by
    intro item hitem
    obtain ⟨found, hfound, hkey, hvalue⟩ := hmembers item hitem
    obtain ⟨other, hother, rfl⟩ := List.mem_map.mp hfound
    have hname : item.1 = .str (other.1.name.getD []) := eq_str_iff.mp hkey
    -- the item that was found has the same name, so it is the item itself
    have hsame : item = other := by
      refine List.inj_on_of_nodup_map hnames hitem hother ?_
      change item.1.name.getD [] = other.1.name.getD []
      rw [hname]
      rfl
    subst hsame
    exact ⟨⟨_, text_eq_some.mpr hname⟩, hvalue⟩
  refine ⟨?_, hitems⟩
  have htexts : items.map (fun item => item.1.text) =
      (items.map fun item => item.1.name.getD []).map some := by
    rw [List.map_map]
    refine List.map_congr_left fun item hitem => ?_
    obtain ⟨name, hname⟩ := (hitems item hitem).1
    rw [hname, Function.comp_apply, name_of_text hname]
    rfl
  rw [htexts]
  exact hnames.map (Option.some_injective _)

/-- A value that was written comes back equal exactly if JSON keeps it. -/
theorem eq_back_iff {value : PyData D} {level : ℕ} {text : List Char}
    (h : pretty level value = some text) : value.eq value.back = true ↔ value.Kept := by
  refine ⟨fun heq => ?_, fun hkept => by rw [hkept.back_eq]; exact hkept.eq_self⟩
  induction value using PyData.induction generalizing level text with
  | none => trivial
  | number x =>
      rw [pretty_number] at h
      exact kept_of_number h heq
  | str s =>
      rw [pretty_str] at h
      exact (plainText_eq_some.mp h).1
  | list values ih =>
      obtain ⟨texts, htexts, -⟩ := pretty_list_eq_some.mp h
      rw [back_list, PyData.eq, eqItems_iff, List.forall₂_map_right_iff, List.forall₂_same] at heq
      refine keptItems_iff.mpr fun value hvalue => ?_
      obtain ⟨text, htext, -⟩ := exists_of_forall₂_both htexts htexts hvalue
      exact ih value hvalue htext (heq value hvalue)
  | tuple values _ =>
      rw [back_tuple] at heq
      simp [PyData.eq] at heq
  | dict items ih =>
      obtain ⟨hnodup, hitems⟩ := items_of_eq heq
      refine ⟨hnodup, keptMembers_iff.mpr fun item hitem => ?_⟩
      obtain ⟨⟨key, hkey, hscalars⟩, text, htext⟩ := pretty_dict_items h item hitem
      obtain ⟨⟨s, hs⟩, hvalue⟩ := hitems item hitem
      rw [name_of_text hs, Option.some.injEq] at hkey
      exact ⟨⟨s, hs, hkey ▸ hscalars⟩, (ih item hitem).2 htext hvalue⟩
  | ellipsis => simp at h
  | bytes s => simp at h
  | set values _ => simp at h

end Equal

end AgentSystem.Json
