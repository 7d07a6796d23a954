import AgentSystem.JsonWrite
import AgentSystem.PrettyJson

/-!
# Sorted JSON in UTF-8

`json.dumps(value, sort_keys=True, ensure_ascii=False)` as it is encoded for a checksum. The text
tells the value, by way of the text in ASCII, and does not depend on the order of insertion. What
`json.loads` gives comes back as it is when it is written indented.
-/
namespace AgentSystem.Json

open PySequence

variable {D : Type}

/-! ## Writing -/

section Utf8

variable [Interpreter D]

mutual

/-- The text, `none` when writing or encoding it raises. -/
def dumpsUtf8 : PyValue D → Option (List Char)
  | .none => some ['n', 'u', 'l', 'l']
  | .bool b => some (boolText b)
  | .int n => intText n
  | .float x => some (floatText x)
  | .str s => plainText s
  | .list items => (dumpsUtf8Items items).map fun texts => '[' :: (separate texts ++ [']'])
  | .dict items =>
      if comparable (items.map Prod.fst) then
        (dumpsUtf8Members items).map fun members =>
          '\x7b' :: (separate (reorder (Interpreter.order (items.map Prod.fst)) members) ++ ['\x7d'])
      else none

def dumpsUtf8Items : List (PyValue D) → Option (List (List Char))
  | [] => some []
  | value :: items => (dumpsUtf8 value).bind fun text => (dumpsUtf8Items items).map (text :: ·)

def dumpsUtf8Members : List (PyKey D × PyValue D) → Option (List (List Char))
  | [] => some []
  | (key, value) :: items =>
      (key.name.bind plainText).bind fun name => (dumpsUtf8 value).bind fun text =>
        (dumpsUtf8Members items).map ((name ++ ':' :: ' ' :: text) :: ·)

end

variable {items : List (PyKey D × PyValue D)} {values : List (PyValue D)}

lemma dumpsUtf8Items_iff {texts : List (List Char)} : dumpsUtf8Items values = some texts ↔
    List.Forall₂ (fun value text => dumpsUtf8 value = some text) values texts := by
  induction values generalizing texts with
  | nil => rw [dumpsUtf8Items, Option.some.injEq, List.forall₂_nil_left_iff, eq_comm]
  | cons value values ih =>
    rw [dumpsUtf8Items]
    constructor
    · intro h
      obtain ⟨text, htext, hmap⟩ := Option.bind_eq_some_iff.mp h
      obtain ⟨rest, hrest, rfl⟩ := Option.map_eq_some_iff.mp hmap
      exact .cons htext (ih.mp hrest)
    · rintro (_ | ⟨htext, hrest⟩)
      rw [htext, ih.mpr hrest]
      rfl

/-- The member that an item is written as. -/
def Utf8Member (item : PyKey D × PyValue D) (member : List Char) : Prop :=
  ∃ key name text, item.1.name = some key ∧ plainText key = some name ∧
    dumpsUtf8 item.2 = some text ∧ member = name ++ ':' :: ' ' :: text

lemma dumpsUtf8Members_iff {members : List (List Char)} : dumpsUtf8Members items = some members ↔
    List.Forall₂ Utf8Member items members := by
  induction items generalizing members with
  | nil => rw [dumpsUtf8Members, Option.some.injEq, List.forall₂_nil_left_iff, eq_comm]
  | cons item items ih =>
    obtain ⟨key, value⟩ := item
    rw [dumpsUtf8Members]
    constructor
    · intro h
      obtain ⟨name, hname, hvalue⟩ := Option.bind_eq_some_iff.mp h
      obtain ⟨s, hkey, hplain⟩ := Option.bind_eq_some_iff.mp hname
      obtain ⟨text, htext, hmap⟩ := Option.bind_eq_some_iff.mp hvalue
      obtain ⟨rest, hrest, rfl⟩ := Option.map_eq_some_iff.mp hmap
      exact .cons ⟨s, name, text, hkey, hplain, htext, rfl⟩ (ih.mp hrest)
    · rintro (_ | ⟨⟨s, name, text, hkey, hplain, htext, rfl⟩, hrest⟩)
      simp only at hkey htext
      rw [hkey, Option.bind_some, hplain, htext, ih.mpr hrest]
      rfl

lemma dumpsUtf8_list_eq_some {text : List Char} : dumpsUtf8 (.list values) = some text ↔
    ∃ texts, List.Forall₂ (fun value text => dumpsUtf8 value = some text) values texts ∧
      text = '[' :: (separate texts ++ [']']) := by
  rw [dumpsUtf8]
  simp only [Option.map_eq_some_iff, dumpsUtf8Items_iff]
  exact exists_congr fun texts => and_congr_right fun _ => eq_comm

lemma dumpsUtf8_dict_eq_some {text : List Char} : dumpsUtf8 (.dict items) = some text ↔
    comparable (items.map Prod.fst) = true ∧ ∃ members, List.Forall₂ Utf8Member items members ∧
      text = '\x7b' :: (separate (reorder (written items) members) ++ ['\x7d']) := by
  rw [dumpsUtf8]
  split_ifs with h
  · simp only [Option.map_eq_some_iff, dumpsUtf8Members_iff, h, true_and]
    exact exists_congr fun members => and_congr_right fun _ => eq_comm
  · simp [h]

/-! ## The order of insertion -/

/-- Different names are sorted in one way. -/
lemma reorder_names_perm {pairs pairs' : List (PyStr × List Char)} (h : pairs.Perm pairs')
    (hnodup : (pairs.map Prod.fst).Nodup) :
    reorder (Interpreter.order ((pairs.map Prod.fst).map (PyKey.str (D := D)))) pairs =
      reorder (Interpreter.order ((pairs'.map Prod.fst).map (PyKey.str (D := D)))) pairs' := by
  have hperm : ∀ l : List (PyStr × List Char),
      (reorder (Interpreter.order ((l.map Prod.fst).map (PyKey.str (D := D)))) l).Perm l := by
    intro l
    have hrange := Interpreter.order_perm ((l.map Prod.fst).map (PyKey.str (D := D)))
    rw [List.length_map, List.length_map] at hrange
    exact reorder_perm hrange
  have hascend : ∀ l : List (PyStr × List Char), (l.map Prod.fst).Nodup →
      (reorder (Interpreter.order ((l.map Prod.fst).map (PyKey.str (D := D)))) l).Pairwise
        (fun a b => a.1 < b.1) := by
    intro l hl
    have hnames := reorder_strs_ascend (D := D) hl
    rw [reorder_map, List.pairwise_map] at hnames
    exact hnames
  have hnodup' : (pairs'.map Prod.fst).Nodup := (h.map Prod.fst).nodup_iff.mp hnodup
  have hsame := (hperm pairs).trans (h.trans (hperm pairs').symm)
  exact hsame.eq_of_pairwise (fun a b _ _ hab hba => absurd hab (lt_asymm hba)) (hascend pairs hnodup)
    (hascend pairs' hnodup')

/-- The member of a string and a value, `none` when one of them is not written. -/
def memberOf (pair : PyStr × PyValue D) : Option (List Char) :=
  (plainText pair.1).bind fun name => (dumpsUtf8 pair.2).map fun text => name ++ ':' :: ' ' :: text

lemma utf8Member_iff {pair : PyStr × PyValue D} {member : List Char} :
    Utf8Member (.str pair.1, pair.2) member ↔ memberOf pair = some member := by
  unfold Utf8Member memberOf
  simp only [PyKey.name, Option.some.injEq, Option.bind_eq_some_iff, Option.map_eq_some_iff]
  constructor
  · rintro ⟨key, name, text, rfl, hname, htext, rfl⟩
    exact ⟨name, hname, text, htext, rfl⟩
  · rintro ⟨name, hname, text, htext, rfl⟩
    exact ⟨_, name, text, rfl, hname, htext, rfl⟩

/-- The names with their members, in the order in which they are written. -/
def sortedMembers (pairs : List (PyStr × PyValue D)) : List (PyStr × List Char) :=
  reorder (Interpreter.order ((pairs.map Prod.fst).map (PyKey.str (D := D))))
    (pairs.map fun pair => (pair.1, (memberOf pair).getD []))

lemma dumpsUtf8Members_strs {pairs : List (PyStr × PyValue D)} {members : List (List Char)} :
    List.Forall₂ Utf8Member (pairs.map fun pair => (.str pair.1, pair.2)) members ↔
      (∀ pair ∈ pairs, (memberOf pair).isSome) ∧
        members = pairs.map fun pair => (memberOf pair).getD [] := by
  rw [List.forall₂_map_left_iff]
  induction pairs generalizing members with
  | nil => simp
  | cons pair pairs ih =>
    rw [List.forall₂_cons_left_iff, List.forall_mem_cons, List.map_cons]
    constructor
    · rintro ⟨member, rest, hmember, hrest, rfl⟩
      obtain ⟨hall, rfl⟩ := ih.mp hrest
      rw [utf8Member_iff.mp hmember]
      exact ⟨⟨rfl, hall⟩, rfl⟩
    · rintro ⟨⟨hsome, hall⟩, rfl⟩
      obtain ⟨member, hmember⟩ := Option.isSome_iff_exists.mp hsome
      exact ⟨_, _, utf8Member_iff.mpr (by simp [hmember]), ih.mpr ⟨hall, rfl⟩, rfl⟩

lemma dumpsUtf8_dict_strs {pairs : List (PyStr × PyValue D)} {text : List Char} :
    dumpsUtf8 (.dict (pairs.map fun pair => (.str pair.1, pair.2))) = some text ↔
      (∀ pair ∈ pairs, (memberOf pair).isSome) ∧
        text = '\x7b' :: (separate ((sortedMembers pairs).map Prod.snd) ++ ['\x7d']) := by
  have hkeys : (pairs.map fun pair => ((.str pair.1, pair.2) : PyKey D × PyValue D)).map Prod.fst =
      (pairs.map Prod.fst).map .str := by simp
  have hcomparable : comparable ((pairs.map Prod.fst).map (PyKey.str (D := D))) = true := by
    simp [comparable, PyKey.isStr]
  have hsnd : (sortedMembers pairs).map Prod.snd =
      reorder (Interpreter.order ((pairs.map Prod.fst).map (PyKey.str (D := D))))
        (pairs.map fun pair => (memberOf pair).getD []) := by
    rw [sortedMembers, ← reorder_map]
    simp [Function.comp_def]
  rw [dumpsUtf8_dict_eq_some, written, hkeys, hsnd, and_iff_right hcomparable]
  simp only [dumpsUtf8Members_strs, and_assoc, exists_and_left, exists_eq_left]

/-- A dictionary with strings as keys is written the same whatever the order of its items is. -/
theorem dumpsUtf8_perm {pairs pairs' : List (PyStr × PyValue D)} (h : pairs.Perm pairs')
    (hnodup : (pairs.map Prod.fst).Nodup) :
    dumpsUtf8 (.dict (pairs.map fun pair => (.str pair.1, pair.2))) =
      dumpsUtf8 (.dict (pairs'.map fun pair => (.str pair.1, pair.2))) := by
  have hsorted : sortedMembers pairs = sortedMembers pairs' := by
    have hfst : ∀ l : List (PyStr × PyValue D),
        (l.map fun pair => (pair.1, (memberOf pair).getD [])).map Prod.fst = l.map Prod.fst := by
      intro l
      rw [List.map_map]
      rfl
    have hsame := reorder_names_perm (D := D) (h.map fun pair => (pair.1, (memberOf pair).getD []))
      (by rw [hfst]; exact hnodup)
    rwa [hfst, hfst] at hsame
  ext text
  rw [dumpsUtf8_dict_strs, dumpsUtf8_dict_strs, hsorted]
  simp only [h.mem_iff]

/-! ## The text in ASCII -/

/-- A character as it is escaped in ASCII. -/
def asciiChar (c : Char) : List Char :=
  if c.toNat ≤ 0x7E then [c] else (codeUnits (codePoint c)).flatMap escapeUnit

omit [Interpreter D] in
lemma ascii_of_printable {text : List Char} (h : ∀ c ∈ text, printable c = true) :
    text.flatMap asciiChar = text := by
  induction text with
  | nil => rfl
  | cons c text ih =>
    have hc := h c List.mem_cons_self
    simp only [printable, Bool.and_eq_true, decide_eq_true_eq] at hc
    rw [List.flatMap_cons, ih fun d hd => h d (List.mem_cons_of_mem _ hd), asciiChar, if_pos hc.2]
    rfl

omit [Interpreter D] in
lemma ascii_plainUnit {c : CodePoint} (hhigh : c.isHigh = false) (hlow : c.isLow = false) :
    (plainUnit c).flatMap asciiChar = (codeUnits c).flatMap escapeUnit := by
  by_cases hascii : c.val ≤ 0x7E
  · have hunits : codeUnits c = [c] := by
      rw [codeUnits, if_pos (by omega)]
    have hplain : plainUnit c = escapeUnit c := by
      unfold plainUnit escapeUnit
      cases escapeLetter c with
      | some letter => rfl
      | none =>
        simp only
        split_ifs with hcontrol hrange hrange <;> first | rfl | omega
    rw [hplain, ascii_of_printable (escapeUnit_printable c), hunits, List.flatMap_singleton]
  · obtain ⟨hnat, hpoint⟩ := codePoint_ofNat hhigh hlow
    have hletter : escapeLetter c = none := by
      unfold escapeLetter
      split <;> first | rfl | omega
    have hplain : plainUnit c = [Char.ofNat c.val] := by
      rw [plainUnit, hletter]
      simp only
      rw [if_neg (by omega)]
    rw [hplain, List.flatMap_singleton, asciiChar, if_neg (by rw [hnat]; exact hascii), hpoint]

omit [Interpreter D] in
lemma ascii_plainText {s : PyStr} {text : List Char} (h : plainText s = some text) :
    text.flatMap asciiChar = stringText s := by
  obtain ⟨hscalars, rfl⟩ := plainText_eq_some.mp h
  have hinner : (s.flatMap plainUnit).flatMap asciiChar = escape s := by
    rw [escape, List.flatMap_assoc, List.flatMap_assoc]
    refine List.flatMap_congr fun c hc => ?_
    exact ascii_plainUnit (hscalars c hc).1 (hscalars c hc).2
  rw [List.flatMap_cons, List.flatMap_append, hinner]
  rfl

omit [Interpreter D] in
lemma ascii_separate (texts : List (List Char)) :
    (separate texts).flatMap asciiChar = separate (texts.map (List.flatMap asciiChar)) := by
  induction texts with
  | nil => rfl
  | cons text texts ih =>
    cases texts with
    | nil => rfl
    | cons next texts =>
      rw [separate, List.flatMap_append, List.flatMap_cons, List.flatMap_cons, ih]
      · rfl
      · simp

/-- Escaped character by character the text is the one in ASCII. -/
theorem dumps_of_dumpsUtf8 {value : PyValue D} {text : List Char} (h : dumpsUtf8 value = some text) :
    dumps value = some (text.flatMap asciiChar) := by
  have hscalar : ∀ {text : List Char}, dumpsUtf8 value = some text → write value = some text →
      text.flatMap asciiChar = text := fun _ hwrite => ascii_of_printable (write_printable hwrite)
  induction value using PyValue.induction generalizing text with
  | none => rw [hscalar h h]; exact h
  | bool b => rw [hscalar h h]; exact h
  | int n => rw [hscalar h h]; exact h
  | float x => rw [hscalar h h]; exact h
  | str s => rw [dumps, ascii_plainText h]
  | list values ih =>
    obtain ⟨texts, htexts, rfl⟩ := dumpsUtf8_list_eq_some.mp h
    refine dumps_list_eq_some.mpr ⟨texts.map (List.flatMap asciiChar), ?_, ?_⟩
    · rw [List.forall₂_map_right_iff]
      refine (forall₂_mem htexts).imp fun value text hboth => ?_
      exact ih value hboth.2.1 hboth.1 fun _ hwrite => ascii_of_printable (write_printable hwrite)
    · rw [List.flatMap_cons, List.flatMap_append, ascii_separate]
      rfl
  | dict items ih =>
    obtain ⟨hcomparable, members, hmembers, rfl⟩ := dumpsUtf8_dict_eq_some.mp h
    refine dumps_dict_eq_some.mpr ⟨hcomparable, members.map (List.flatMap asciiChar), ?_, ?_⟩
    · rw [List.forall₂_map_right_iff]
      refine (forall₂_mem hmembers).imp fun item member hboth => ?_
      obtain ⟨⟨key, name, text, hkey, hname, htext, rfl⟩, hitem, -⟩ := hboth
      have hvalue := ih item hitem htext fun _ hwrite => ascii_of_printable (write_printable hwrite)
      refine ⟨key, text.flatMap asciiChar, hkey, hvalue, ?_⟩
      rw [List.flatMap_append, ascii_plainText hname]
      rfl
    · rw [List.flatMap_cons, List.flatMap_append, ascii_separate, reorder_map]
      rfl

/-- Values with one text are the same to `json.loads`. -/
theorem reload_eq_of_dumpsUtf8 {value value' : PyValue D} {text : List Char}
    (h : dumpsUtf8 value = some text) (h' : dumpsUtf8 value' = some text) : reload value = reload value' := by
  have hloads := loads_dumps (dumps_of_dumpsUtf8 h)
  rw [loads_dumps (dumps_of_dumpsUtf8 h'), Option.some.injEq] at hloads
  exact hloads.symm

lemma data_name (key : PyKey D) : key.data.name = key.name := by
  cases key <;> rfl

/-- What is written for a checksum is also written indented. -/
lemma exists_pretty_of_dumpsUtf8 {value : PyValue D} {text : List Char} (h : dumpsUtf8 value = some text)
    (level : ℕ) : ∃ text, pretty level (fromJson value) = some text := by
  induction value using PyValue.induction generalizing text level with
  | none => exact ⟨text, h⟩
  | bool b => exact ⟨text, h⟩
  | int n => exact ⟨text, h⟩
  | float x => exact ⟨text, h⟩
  | str s => exact ⟨text, h⟩
  | list values ih =>
    obtain ⟨texts, htexts, -⟩ := dumpsUtf8_list_eq_some.mp h
    have hall : ∀ value ∈ values.map fromJson, ∃ text, pretty (level + 1) value = some text := by
      rintro _ hvalue
      obtain ⟨value, hmem, rfl⟩ := List.mem_map.mp hvalue
      obtain ⟨text, htext, -⟩ := exists_of_forall₂_both htexts htexts hmem
      exact ih value hmem htext (level + 1)
    obtain ⟨texts, htexts⟩ := forall₂_of_exists hall
    rw [fromJson, fromJsonItems_eq]
    exact ⟨_, pretty_list_eq_some.mpr ⟨texts, htexts, rfl⟩⟩
  | dict items ih =>
    obtain ⟨-, members, hmembers, -⟩ := dumpsUtf8_dict_eq_some.mp h
    have hall : ∀ item ∈ items.map fun item => (item.1.data, fromJson item.2),
        ∃ member, PrettyMember (level + 1) item member := by
      rintro _ hitem
      obtain ⟨item, hmem, rfl⟩ := List.mem_map.mp hitem
      obtain ⟨member, ⟨key, name, text, hkey, hname, htext, -⟩, -⟩ :=
        exists_of_forall₂_both hmembers hmembers hmem
      obtain ⟨text, htext⟩ := ih item hmem htext (level + 1)
      exact ⟨_, key, name, text, by rw [← hkey]; exact data_name item.1, hname, htext, rfl⟩
    obtain ⟨members, hmembers⟩ := forall₂_of_exists hall
    rw [fromJson, fromJsonMembers_eq]
    exact ⟨_, pretty_dict_eq_some.mpr ⟨members, hmembers, rfl⟩⟩

end Utf8

/-! ## What `json.loads` gives -/

section Loads

variable {α : Type} {P : α → Prop} {element : Scan α} {close : Char}

lemma scanSeparated_forall (h : ∀ text x rest, element text = some (x, rest) → P x) {count : ℕ}
    {text rest : List Char} {xs : List α}
    (hscan : scanSeparated element close count text = some (xs, rest)) : ∀ x ∈ xs, P x := by
  induction count generalizing text xs with
  | zero => cases hscan
  | succ count ih =>
    rw [scanSeparated] at hscan
    obtain ⟨⟨x, text'⟩, helement, hrest⟩ := Option.bind_eq_some_iff.mp hscan
    have hx := h _ _ _ helement
    simp only at hrest
    split at hrest
    · cases hrest
    · split_ifs at hrest
      · cases hrest
        simpa using hx
      · obtain ⟨⟨ys, text''⟩, hys, heq⟩ := Option.map_eq_some_iff.mp hrest
        cases heq
        exact List.forall_mem_cons.mpr ⟨hx, ih hys⟩

lemma scanBody_forall (h : ∀ text x rest, element text = some (x, rest) → P x)
    {text rest : List Char} {xs : List α} (hscan : scanBody element close text = some (xs, rest)) :
    ∀ x ∈ xs, P x := by
  unfold scanBody at hscan
  split at hscan
  · cases hscan
  · split_ifs at hscan
    · cases hscan
      simp
    · exact scanSeparated_forall h hscan

lemma scanString_joined {text rest : List Char} {s : PyStr}
    (h : scanString text = some (s, rest)) : joinSurrogates s = s := by
  obtain ⟨⟨units, text'⟩, -, heq⟩ := Option.map_eq_some_iff.mp h
  cases heq
  exact joinSurrogates_joinSurrogates units

lemma scanMember_spec {value : Scan α} (h : ∀ text x rest, value text = some (x, rest) → P x)
    (text : List Char) (member : PyStr × α) (rest : List Char)
    (hscan : scanMember value text = some (member, rest)) :
    joinSurrogates member.1 = member.1 ∧ P member.2 := by
  unfold scanMember at hscan
  split at hscan
  · cases hscan
  · split_ifs at hscan
    obtain ⟨⟨name, text'⟩, hname, hrest⟩ := Option.bind_eq_some_iff.mp hscan
    simp only at hrest
    split at hrest
    · cases hrest
    · split_ifs at hrest
      obtain ⟨⟨x, text''⟩, hx, heq⟩ := Option.map_eq_some_iff.mp hrest
      cases heq
      exact ⟨scanString_joined hname, h _ _ _ hx⟩

lemma isJson_fromMembers {members : List (PyStr × PyValue D)}
    (h : ∀ member ∈ members, joinSurrogates member.1 = member.1 ∧ IsJson member.2) :
    IsJson (.dict (fromMembers members)) := by
  rw [IsJson, isJsonMembers_iff]
  constructor
  · rw [fromMembers, List.map_map]
    exact fromPairs_nodup members
  · intro item hitem
    obtain ⟨pair, hpair, rfl⟩ := List.mem_map.mp hitem
    obtain ⟨hname, hvalue⟩ := h pair (mem_of_mem_fromPairs hpair)
    exact ⟨⟨rfl, hname⟩, hvalue⟩

lemma isJson_scanNumber [Doubles D] {text rest : List Char} {value : PyValue D}
    (h : scanNumber text = some (value, rest)) : IsJson value := by
  obtain ⟨⟨literal, text'⟩, -, hvalue⟩ := Option.bind_eq_some_iff.mp h
  simp only at hvalue
  split_ifs at hvalue
  · obtain ⟨n, -, heq⟩ := Option.map_eq_some_iff.mp hvalue
    cases heq
    trivial
  · cases hvalue
    trivial

lemma isJson_scanOnce [Doubles D] (fuel : ℕ) (text : List Char) (value : PyValue D)
    (rest : List Char) (h : scanOnce fuel text = some (value, rest)) : IsJson value := by
  induction fuel generalizing text value rest with
  | zero => cases h
  | succ fuel ih =>
    unfold scanOnce at h
    split at h
    · obtain ⟨⟨s, text'⟩, hs, heq⟩ := Option.map_eq_some_iff.mp h
      cases heq
      exact scanString_joined hs
    · obtain ⟨⟨members, text'⟩, hmembers, heq⟩ := Option.map_eq_some_iff.mp h
      cases heq
      exact isJson_fromMembers (scanBody_forall (scanMember_spec ih) hmembers)
    · obtain ⟨⟨values, text'⟩, hvalues, heq⟩ := Option.map_eq_some_iff.mp h
      cases heq
      exact isJsonItems_iff.mpr (scanBody_forall ih hvalues)
    case h_10 => exact isJson_scanNumber h
    all_goals
      cases h
      trivial

/-- `json.loads` gives JSON values only. -/
theorem isJson_of_loads [Doubles D] {text : List Char} {value : PyValue D}
    (h : loads text = some value) : IsJson value := by
  unfold loads at h
  split at h
  · next hscan =>
    split_ifs at h
    cases h
    exact isJson_scanOnce _ _ _ _ hscan
  · cases h

/-- A JSON value is the value of its indented text. -/
theorem asJson_fromJson [Doubles D] {value : PyValue D} (h : IsJson value) :
    asJson (fromJson value) = value := by
  induction value using PyValue.induction with
  | none => rfl
  | bool b => rfl
  | int n => rfl
  | float x => rfl
  | str s => rfl
  | list values ih =>
    rw [fromJson, fromJsonItems_eq, asJson, asJsonItems_eq, List.map_map]
    refine congrArg PyValue.list ?_
    conv_rhs => rw [← List.map_id values]
    exact List.map_congr_left fun value hvalue => ih value hvalue (isJsonItems_iff.mp h value hvalue)
  | dict items ih =>
    obtain ⟨hnodup, hmembers⟩ := h
    have hitems := isJsonMembers_iff.mp hmembers
    rw [fromJson, fromJsonMembers_eq, asJson, asJsonMembers_eq, List.map_map]
    refine congrArg PyValue.dict ?_
    conv_rhs => rw [← fromMembers_of_isJson hnodup fun item hitem => (hitems item hitem).1.1]
    refine congrArg fromMembers (List.map_congr_left fun item hitem => ?_)
    obtain ⟨⟨hkey, -⟩, hvalue⟩ := hitems item hitem
    rw [Function.comp_apply, ih item hitem hvalue, hkey]
    rfl

/-- A JSON value comes back from its indented text. -/
theorem loads_pretty_fromJson [Doubles D] {value : PyValue D} (h : IsJson value) {level : ℕ}
    {text : List Char} (hpretty : pretty level (fromJson value) = some text) :
    loads text = some value := by
  rw [loads_pretty hpretty, asJson_fromJson h]

end Loads

end AgentSystem.Json
