import AgentSystem.JsonRoundTrip

/-!
# JSON in insertion order

`json.dumps(value)` without options. An object with different strings as keys comes back as it was, when no
string in it has two halves of a surrogate pair side by side.
-/
namespace AgentSystem.Json

open PySequence

variable {D : Type}

/-! ## Writing -/

section Write

variable [Doubles D]

mutual

/-- `json.dumps(value)`, `none` when it raises. -/
def write : PyValue D → Option (List Char)
  | .none => some ['n', 'u', 'l', 'l']
  | .bool b => some (boolText b)
  | .int n => intText n
  | .float x => some (floatText x)
  | .str s => some (stringText s)
  | .list items => (writeItems items).map fun texts => '[' :: (separate texts ++ [']'])
  | .dict items => (writeMembers items).map fun members => '\x7b' :: (separate members ++ ['\x7d'])

def writeItems : List (PyValue D) → Option (List (List Char))
  | [] => some []
  | value :: items => (write value).bind fun text => (writeItems items).map (text :: ·)

def writeMembers : List (PyKey D × PyValue D) → Option (List (List Char))
  | [] => some []
  | (key, value) :: items =>
      key.name.bind fun name => (write value).bind fun text =>
        (writeMembers items).map (memberText name text :: ·)

end

end Write

def keyText : PyKey D → PyStr
  | .str s => s
  | _ => []

mutual

/-- A JSON value as `json.loads` gives it: different strings as keys, and the halves of every surrogate pair
joined. -/
def IsJson : PyValue D → Prop
  | .str s => joinSurrogates s = s
  | .list items => IsJsonItems items
  | .dict items => (items.map fun item => keyText item.1).Nodup ∧ IsJsonMembers items
  | _ => True

def IsJsonItems : List (PyValue D) → Prop
  | [] => True
  | value :: items => IsJson value ∧ IsJsonItems items

def IsJsonMembers : List (PyKey D × PyValue D) → Prop
  | [] => True
  | (key, value) :: items =>
      (key = .str (keyText key) ∧ joinSurrogates (keyText key) = keyText key) ∧ IsJson value ∧
        IsJsonMembers items

end

section Lists

variable {values : List (PyValue D)} {items : List (PyKey D × PyValue D)}

lemma isJsonItems_iff : IsJsonItems values ↔ ∀ value ∈ values, IsJson value := by
  induction values with
  | nil => simp [IsJsonItems]
  | cons value values ih => rw [IsJsonItems, ih, List.forall_mem_cons]

lemma isJsonMembers_iff : IsJsonMembers items ↔ ∀ item ∈ items,
    (item.1 = .str (keyText item.1) ∧ joinSurrogates (keyText item.1) = keyText item.1) ∧ IsJson item.2 := by
  induction items with
  | nil => simp [IsJsonMembers]
  | cons item items ih =>
    rw [IsJsonMembers, ih, List.forall_mem_cons]
    exact and_assoc.symm

variable [Doubles D]

lemma writeItems_iff {texts : List (List Char)} : writeItems values = some texts ↔
    List.Forall₂ (fun value text => write value = some text) values texts := by
  induction values generalizing texts with
  | nil => rw [writeItems, Option.some.injEq, List.forall₂_nil_left_iff, eq_comm]
  | cons value values ih =>
    rw [writeItems]
    constructor
    · intro h
      obtain ⟨text, htext, hmap⟩ := Option.bind_eq_some_iff.mp h
      obtain ⟨rest, hrest, rfl⟩ := Option.map_eq_some_iff.mp hmap
      exact .cons htext (ih.mp hrest)
    · rintro (_ | ⟨htext, hrest⟩)
      rw [htext, ih.mpr hrest]
      rfl

/-- The member that an item is written as. -/
def WrittenMember (item : PyKey D × PyValue D) (member : List Char) : Prop :=
  ∃ name text, item.1.name = some name ∧ write item.2 = some text ∧ member = memberText name text

lemma writeMembers_iff {members : List (List Char)} : writeMembers items = some members ↔
    List.Forall₂ WrittenMember items members := by
  induction items generalizing members with
  | nil => rw [writeMembers, Option.some.injEq, List.forall₂_nil_left_iff, eq_comm]
  | cons item items ih =>
    rw [writeMembers]
    constructor
    · intro h
      obtain ⟨name, hname, hvalue⟩ := Option.bind_eq_some_iff.mp h
      obtain ⟨text, htext, hmap⟩ := Option.bind_eq_some_iff.mp hvalue
      obtain ⟨rest, hrest, rfl⟩ := Option.map_eq_some_iff.mp hmap
      exact .cons ⟨name, text, hname, htext, rfl⟩ (ih.mp hrest)
    · rintro (_ | ⟨⟨name, text, hname, htext, rfl⟩, hrest⟩)
      rw [hname, htext, ih.mpr hrest]
      rfl

lemma write_list_eq_some {text : List Char} : write (.list values) = some text ↔
    ∃ texts, List.Forall₂ (fun value text => write value = some text) values texts ∧
      text = '[' :: (separate texts ++ [']']) := by
  rw [write]
  simp only [Option.map_eq_some_iff, writeItems_iff]
  exact exists_congr fun texts => and_congr_right fun _ => eq_comm

lemma write_dict_eq_some {text : List Char} : write (.dict items) = some text ↔
    ∃ members, List.Forall₂ WrittenMember items members ∧
      text = '\x7b' :: (separate members ++ ['\x7d']) := by
  rw [write]
  simp only [Option.map_eq_some_iff, writeMembers_iff]
  exact exists_congr fun members => and_congr_right fun _ => eq_comm

end Lists

/-! ## Reading back -/

section Read

variable [Doubles D] {values : List (PyValue D)} {items : List (PyKey D × PyValue D)}

lemma write_starts {value : PyValue D} {text : List Char} (h : write value = some text) : Starts text := by
  cases value with
  | none =>
    cases h
    exact ⟨_, _, rfl, by decide⟩
  | bool b =>
    cases h
    cases b <;> exact ⟨_, _, rfl, by decide⟩
  | int n =>
    obtain ⟨-, rfl⟩ := intText_eq_some.mp h
    exact (intLiteral_wellFormed n).starts
  | float x =>
    cases h
    exact floatText_starts x
  | str s =>
    cases h
    exact ⟨_, _, rfl, by decide⟩
  | list values =>
    obtain ⟨texts, -, rfl⟩ := write_list_eq_some.mp h
    exact ⟨_, _, rfl, by decide⟩
  | dict items =>
    obtain ⟨members, -, rfl⟩ := write_dict_eq_some.mp h
    exact ⟨_, _, rfl, by decide⟩

omit [Doubles D] in
lemma fromMembers_of_isJson (hnodup : (items.map fun item => keyText item.1).Nodup)
    (hkeys : ∀ item ∈ items, item.1 = .str (keyText item.1)) :
    fromMembers (items.map fun item => (keyText item.1, item.2)) = items := by
  unfold fromMembers
  rw [fromPairs_of_nodup (by rw [List.map_map]; exact hnodup), List.map_map]
  conv_rhs => rw [← List.map_id items]
  refine List.map_congr_left fun item hitem => ?_
  have hkey := hkeys item hitem
  obtain ⟨key, value⟩ := item
  simp only [Function.comp_apply, Prod.map_apply, id_eq] at hkey ⊢
  rw [← hkey]

/-- With fuel for its length the text of a value is read as the value. -/
theorem reads_write {value : PyValue D} {text : List Char} (h : write value = some text)
    (hjson : IsJson value) {fuel : ℕ} (hfuel : text.length < fuel) :
    Reads (scanOnce fuel) text value := by
  obtain ⟨fuel, rfl⟩ := Nat.exists_eq_succ_of_ne_zero (show fuel ≠ 0 by omega)
  induction value using PyValue.induction generalizing text fuel with
  | none =>
    cases h
    exact fun _ _ => rfl
  | bool b =>
    cases h
    cases b <;> exact fun _ _ => rfl
  | int n => exact reads_int h fuel
  | float x =>
    cases h
    exact reads_float x fuel
  | str s =>
    cases h
    have hread := reads_string (D := D) s fuel
    rwa [show joinSurrogates s = s from hjson] at hread
  | list values ih =>
    obtain ⟨texts, htexts, rfl⟩ := write_list_eq_some.mp h
    have hvalues := isJsonItems_iff.mp hjson
    have hreads : List.Forall₂ (Reads (scanOnce fuel)) texts values := by
      refine ((forall₂_mem htexts).imp ?_).flip
      rintro value text ⟨htext, hvalue, hmem⟩
      have hlt := (length_lt_list hmem).trans_le (Nat.lt_succ_iff.mp hfuel)
      obtain ⟨fuel, rfl⟩ := Nat.exists_eq_succ_of_ne_zero (show fuel ≠ 0 by omega)
      exact ih value hvalue htext (hvalues value hvalue) fuel hlt
    have hstarts : ∀ text ∈ texts, Starts text := by
      intro text htext
      obtain ⟨value, -, hvalue⟩ := exists_of_forall₂ htexts htext
      exact write_starts hvalue
    intro rest _
    rw [List.cons_append, List.append_assoc, List.singleton_append, scanOnce_array,
      scanBody_separate (.inl rfl) hreads hstarts rest]
    rfl
  | dict items ih =>
    obtain ⟨members, hmembers, rfl⟩ := write_dict_eq_some.mp h
    obtain ⟨hnodup, hmembersJson⟩ := hjson
    have hitems := isJsonMembers_iff.mp hmembersJson
    have hreads : List.Forall₂ (Reads (scanMember (scanOnce fuel))) members
        (items.map fun item => (keyText item.1, item.2)) := by
      rw [List.forall₂_map_right_iff]
      refine ((forall₂_mem hmembers).imp ?_).flip
      rintro item member ⟨⟨name, text, hname, htext, rfl⟩, hitem, hmem⟩
      obtain ⟨⟨hkey, hname'⟩, hvalue⟩ := hitems item hitem
      have hlt := length_lt_member.trans ((length_lt_list hmem).trans_le (Nat.lt_succ_iff.mp hfuel))
      obtain ⟨fuel, rfl⟩ := Nat.exists_eq_succ_of_ne_zero (show fuel ≠ 0 by omega)
      have hread := reads_member (ih item hitem htext hvalue fuel hlt) (write_starts htext) name
      have hsame : keyText item.1 = name := by
        rw [hkey] at hname
        exact Option.some.inj hname
      rw [hsame] at hname'
      rw [hname'] at hread
      change Reads _ _ (keyText item.1, item.2)
      rw [hsame]
      exact hread
    have hstarts : ∀ member ∈ members, Starts member := by
      intro member hmember
      obtain ⟨item, -, name, text, -, -, rfl⟩ := exists_of_forall₂ hmembers hmember
      exact memberText_starts name text
    intro rest _
    rw [List.cons_append, List.append_assoc, List.singleton_append, scanOnce_object,
      scanBody_separate (.inr rfl) hreads hstarts rest]
    simp only [Option.map_some, Prod.map_apply, id_eq]
    rw [fromMembers_of_isJson hnodup fun item hitem => (hitems item hitem).1.1]

/-- `json.loads(json.dumps(value))`. -/
theorem loads_write {value : PyValue D} {text : List Char} (h : write value = some text)
    (hjson : IsJson value) : loads text = some value := by
  have hread := reads_write h hjson (Nat.lt_succ_self _) [] stops_nil
  rw [List.append_nil] at hread
  rw [loads, (write_starts h).skipSpace, hread]
  rfl

/-! ## The characters of a text -/

/-- A printable ASCII character. -/
def printable (c : Char) : Bool := 0x20 ≤ c.toNat && c.toNat ≤ 0x7E

lemma printable_digit {c : Char} (h : c.isDigit = true) : printable c = true := by
  simp only [Char.isDigit, Bool.and_eq_true, decide_eq_true_eq, ge_iff_le, UInt32.le_iff_toNat_le] at h
  simp only [printable, Bool.and_eq_true, decide_eq_true_eq]
  change 48 ≤ c.toNat ∧ c.toNat ≤ 57 at h
  omega

omit [Doubles D] in
lemma Literal.WellFormed.all_printable {l : Literal} (h : l.WellFormed) : ∀ c ∈ l.text, printable c = true := by
  have hsign {sign : List Char} (hs : sign = [] ∨ sign = ['+'] ∨ sign = ['-']) :
      ∀ c ∈ sign, printable c = true := by
    rcases hs with rfl | rfl | rfl <;> exact List.all_eq_true.mp rfl
  have hwhole : ∀ c ∈ l.whole, printable c = true := by
    rcases h.whole with hzero | ⟨d, digits, hwhole, -, hdigits⟩
    · rw [hzero]
      exact List.all_eq_true.mp rfl
    · rw [hwhole]
      exact fun c hc => printable_digit (hdigits c hc)
  have hfraction : ∀ c ∈ l.fraction, printable c = true := by
    rcases h.fraction with hnil | ⟨d, digits, hfraction, hdigits⟩
    · simp [hnil]
    · rw [hfraction]
      exact List.forall_mem_cons.mpr ⟨by decide, fun c hc => printable_digit (hdigits c hc)⟩
  have hexponent : ∀ c ∈ l.exponent, printable c = true := by
    rcases h.exponent with hnil | ⟨e, sign, d, digits, hexponent, he, hs, hdigits⟩
    · simp [hnil]
    · rw [hexponent]
      refine List.forall_mem_cons.mpr ⟨by rcases he with rfl | rfl <;> decide, ?_⟩
      exact List.forall_mem_append.mpr ⟨hsign hs, fun c hc => printable_digit (hdigits c hc)⟩
  unfold Literal.text
  refine List.forall_mem_append.mpr ⟨List.forall_mem_append.mpr
    ⟨List.forall_mem_append.mpr ⟨hsign (h.sign.imp_right .inr), hwhole⟩, hfraction⟩, hexponent⟩

lemma escapeUnit_printable (c : CodePoint) : ∀ d ∈ escapeUnit c, printable d = true := by
  have hhex : ∀ n < 16, printable (Nat.digitChar n) = true := by decide
  unfold escapeUnit
  cases hletter : escapeLetter c with
  | some letter =>
    unfold escapeLetter at hletter
    split at hletter <;> cases hletter <;> exact List.all_eq_true.mp rfl
  | none =>
    dsimp only
    split_ifs with hrange
    · intro d hd
      rw [List.mem_singleton.mp hd]
      have htoNat : (Char.ofNat c.val).toNat = c.val := by
        rw [Char.toNat_ofNat, if_pos (.inl (by omega))]
      simp only [printable, htoNat, Bool.and_eq_true, decide_eq_true_eq]
      exact hrange
    · unfold hexUnit
      intro d hd
      simp only [List.mem_cons, List.not_mem_nil, or_false] at hd
      rcases hd with rfl | rfl | rfl | rfl | rfl | rfl
      · decide
      · decide
      all_goals exact hhex _ (Nat.mod_lt _ (by omega))

lemma stringText_printable (s : PyStr) : ∀ c ∈ stringText s, printable c = true := by
  have hquote : printable '"' = true := by decide
  unfold stringText escape
  refine List.forall_mem_cons.mpr ⟨hquote, List.forall_mem_append.mpr ⟨?_, ?_⟩⟩
  · intro c hc
    obtain ⟨unit, -, hunit⟩ := List.mem_flatMap.mp hc
    exact escapeUnit_printable unit c hunit
  · simpa using hquote

lemma separate_printable {texts : List (List Char)} (h : ∀ text ∈ texts, ∀ c ∈ text, printable c = true) :
    ∀ c ∈ separate texts, printable c = true := by
  induction texts with
  | nil => simp [separate]
  | cons text texts ih =>
    have htext := h text List.mem_cons_self
    have hrest := ih fun other hother => h other (List.mem_cons_of_mem _ hother)
    cases texts with
    | nil => exact htext
    | cons next texts =>
      rw [separate_cons (List.cons_ne_nil _ _)]
      refine List.forall_mem_append.mpr ⟨htext, List.forall_mem_cons.mpr ⟨by decide, ?_⟩⟩
      exact List.forall_mem_cons.mpr ⟨by decide, hrest⟩

/-- `json.dumps` writes printable ASCII only. -/
theorem write_printable {value : PyValue D} {text : List Char} (h : write value = some text) :
    ∀ c ∈ text, printable c = true := by
  have hbrackets : ∀ {inner : List Char} {a b : Char}, printable a = true → printable b = true →
      (∀ c ∈ inner, printable c = true) → ∀ c ∈ a :: (inner ++ [b]), printable c = true := by
    intro inner a b ha hb hinner
    exact List.forall_mem_cons.mpr ⟨ha, List.forall_mem_append.mpr ⟨hinner, by simpa using hb⟩⟩
  induction value using PyValue.induction generalizing text with
  | none =>
    cases h
    exact List.all_eq_true.mp rfl
  | bool b =>
    cases h
    cases b <;> exact List.all_eq_true.mp rfl
  | int n =>
    obtain ⟨-, rfl⟩ := intText_eq_some.mp h
    exact (intLiteral_wellFormed n).all_printable
  | float x =>
    cases h
    cases x with
    | finite x => exact (Doubles.wellFormed x).all_printable
    | infinity negative => cases negative <;> exact List.all_eq_true.mp rfl
    | nan => exact List.all_eq_true.mp rfl
  | str s =>
    cases h
    exact stringText_printable s
  | list values ih =>
    obtain ⟨texts, htexts, rfl⟩ := write_list_eq_some.mp h
    refine hbrackets (by decide) (by decide) (separate_printable fun text htext => ?_)
    obtain ⟨value, hvalue, hwrite⟩ := exists_of_forall₂ htexts htext
    exact ih value hvalue hwrite
  | dict items ih =>
    obtain ⟨members, hmembers, rfl⟩ := write_dict_eq_some.mp h
    refine hbrackets (by decide) (by decide) (separate_printable fun member hmember => ?_)
    obtain ⟨item, hitem, name, text, -, hwrite, rfl⟩ := exists_of_forall₂ hmembers hmember
    refine List.forall_mem_append.mpr ⟨stringText_printable name, ?_⟩
    refine List.forall_mem_cons.mpr ⟨by decide, List.forall_mem_cons.mpr ⟨by decide, ?_⟩⟩
    exact ih item hitem hwrite

end Read

end AgentSystem.Json
