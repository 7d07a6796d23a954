import AgentSystem.JsonScan

/-!
# JSON round trips

`json.loads` reads every text that `json.dumps(…, sort_keys=True)` writes, and writing the value
that comes back gives the same text exactly if in every dictionary the names of the keys ascend in
the order in which they were written.
-/
namespace AgentSystem.Json

variable {D : Type}

theorem PyValue.induction {P : PyValue D → Prop} (none : P .none) (bool : ∀ b, P (.bool b))
    (int : ∀ n, P (.int n)) (float : ∀ x, P (.float x)) (str : ∀ s, P (.str s))
    (list : ∀ items, (∀ value ∈ items, P value) → P (.list items))
    (dict : ∀ items, (∀ item ∈ items, P item.2) → P (.dict items)) (value : PyValue D) :
    P value := by
  refine @PyValue.rec D P (fun items => ∀ value ∈ items, P value)
    (fun items => ∀ item ∈ items, P item.2) (fun item => P item.2)
    none bool int float str list dict ?_ ?_ ?_ ?_ ?_ value
  · simp
  · intro value items hvalue hitems
    simpa using ⟨hvalue, hitems⟩
  · simp
  · intro item items hitem hitems
    exact List.forall_mem_cons.mpr ⟨hitem, hitems⟩
  · exact fun _ _ hvalue => hvalue

/-! ## Reordering -/

section Reorder

variable {α β : Type}

lemma reorder_map (f : α → β) (positions : List ℕ) (xs : List α) :
    reorder positions (xs.map f) = (reorder positions xs).map f := by
  unfold reorder
  rw [List.map_filterMap]
  exact List.filterMap_congr fun i _ => List.getElem?_map

lemma reorder_range (xs : List α) : reorder (List.range xs.length) xs = xs := by
  induction xs with
  | nil => rfl
  | cons x xs ih =>
      unfold reorder at ih ⊢
      have hfirst : (x :: xs)[0]? = some x := rfl
      rw [List.length_cons, List.range_succ_eq_map, List.filterMap_cons_some hfirst,
        List.filterMap_map]
      exact congrArg (x :: ·) ih

lemma reorder_perm {positions : List ℕ} {xs : List α}
    (h : positions.Perm (List.range xs.length)) : (reorder positions xs).Perm xs := by
  have hperm := h.filterMap (xs[·]?)
  rwa [show (List.range xs.length).filterMap (xs[·]?) = xs from reorder_range xs] at hperm

lemma mem_reorder {positions : List ℕ} {xs : List α}
    (h : positions.Perm (List.range xs.length)) {x : α} : x ∈ reorder positions xs ↔ x ∈ xs :=
  (reorder_perm h).mem_iff

lemma forall₂_mem {R : α → β → Prop} {xs : List α} {ys : List β} (h : List.Forall₂ R xs ys) :
    List.Forall₂ (fun x y => R x y ∧ x ∈ xs ∧ y ∈ ys) xs ys := by
  induction h with
  | nil => exact .nil
  | cons hxy h ih =>
      refine .cons ⟨hxy, by simp, by simp⟩ (ih.imp ?_)
      rintro x y ⟨hR, hx, hy⟩
      exact ⟨hR, List.mem_cons_of_mem _ hx, List.mem_cons_of_mem _ hy⟩

lemma exists_of_forall₂ {R : α → β → Prop} {xs : List α} {ys : List β} (h : List.Forall₂ R xs ys)
    {y : β} (hy : y ∈ ys) : ∃ x ∈ xs, R x y := by
  induction h with
  | nil => cases hy
  | @cons x y' xs ys hxy h ih =>
      rcases List.mem_cons.mp hy with rfl | hmem
      · exact ⟨x, by simp, hxy⟩
      · obtain ⟨x', hx', hR⟩ := ih hmem
        exact ⟨x', List.mem_cons_of_mem _ hx', hR⟩

/-- Related elements of two lists have their properties together. -/
lemma forall_iff_of_forall₂ {R : α → β → Prop} {P : α → Prop} {Q : β → Prop} {xs : List α}
    {ys : List β} (h : List.Forall₂ R xs ys) (hiff : ∀ x y, R x y → (P x ↔ Q y)) :
    (∀ x ∈ xs, P x) ↔ ∀ y ∈ ys, Q y := by
  induction h with
  | nil => simp
  | cons hxy h ih => rw [List.forall_mem_cons, List.forall_mem_cons, hiff _ _ hxy, ih]

lemma forall₂_of_exists {R : α → β → Prop} {xs : List α} (h : ∀ x ∈ xs, ∃ y, R x y) :
    ∃ ys, List.Forall₂ R xs ys := by
  induction xs with
  | nil => exact ⟨[], .nil⟩
  | cons x xs ih =>
      obtain ⟨y, hy⟩ := h x List.mem_cons_self
      obtain ⟨ys, hys⟩ := ih fun x hx => h x (List.mem_cons_of_mem _ hx)
      exact ⟨y :: ys, .cons hy hys⟩

lemma eq_of_forall₂ {R : α → β → Prop} (hfun : ∀ x y y', R x y → R x y' → y = y') {xs : List α}
    {ys ys' : List β} (h : List.Forall₂ R xs ys) (h' : List.Forall₂ R xs ys') : ys = ys' := by
  induction h generalizing ys' with
  | nil => exact (List.forall₂_nil_left_iff.mp h').symm
  | cons hxy h ih =>
      obtain ⟨y', rest, hxy', hrest, rfl⟩ := List.forall₂_cons_left_iff.mp h'
      rw [hfun _ _ _ hxy hxy', ih hrest]

lemma exists_of_forall₂_both {P Q : α → β → Prop} {xs : List α} {ys : List β}
    (hP : List.Forall₂ P xs ys) (hQ : List.Forall₂ Q xs ys) {x : α} (hx : x ∈ xs) :
    ∃ y, P x y ∧ Q x y := by
  induction hP with
  | nil => cases hx
  | cons hxy hP ih =>
      cases hQ with
      | cons hxy' hQ =>
          rcases List.mem_cons.mp hx with rfl | hmem
          · exact ⟨_, hxy, hxy'⟩
          · exact ih hQ hmem

lemma forall₂_reorder {R : α → β → Prop} {xs : List α} {ys : List β} (h : List.Forall₂ R xs ys)
    (positions : List ℕ) : List.Forall₂ R (reorder positions xs) (reorder positions ys) := by
  induction positions with
  | nil => exact .nil
  | cons i positions ih =>
      unfold reorder at ih ⊢
      by_cases hi : i < xs.length
      · have hi' : i < ys.length := h.length_eq ▸ hi
        rw [List.filterMap_cons_some (List.getElem?_eq_getElem hi),
          List.filterMap_cons_some (List.getElem?_eq_getElem hi')]
        exact .cons (h.get hi hi') ih
      · have hi' : ¬ i < ys.length := h.length_eq ▸ hi
        rw [List.filterMap_cons_none (List.getElem?_eq_none (not_lt.mp hi)),
          List.filterMap_cons_none (List.getElem?_eq_none (not_lt.mp hi'))]
        exact ih

lemma map_some_reorder {positions : List ℕ} {xs : List α} (h : ∀ i ∈ positions, i < xs.length) :
    (reorder positions xs).map some = positions.map (xs[·]?) := by
  induction positions with
  | nil => rfl
  | cons i positions ih =>
      have hi := List.getElem?_eq_getElem (h i (by simp))
      have hrest := ih fun j hj => h j (List.mem_cons_of_mem _ hj)
      unfold reorder at hrest ⊢
      rw [List.filterMap_cons_some hi, List.map_cons, List.map_cons, hrest, hi]

/-- An order that leaves different elements where they are leaves everything where it is. -/
lemma eq_range_of_reorder {positions : List ℕ} {xs : List α} (hnodup : xs.Nodup)
    (hpositions : positions.Perm (List.range xs.length)) (h : reorder positions xs = xs) :
    positions = List.range xs.length := by
  have hlength : positions.length = xs.length := hpositions.length_eq.trans List.length_range
  have hmap := map_some_reorder fun i hi => List.mem_range.mp (hpositions.mem_iff.mp hi)
  rw [h] at hmap
  apply List.ext_getElem (by rw [hlength, List.length_range])
  intro k hk hk'
  have hat := congrArg (·[k]?) hmap
  simp only [List.getElem?_map, List.getElem?_eq_getElem hk, Option.map_some] at hat
  rw [List.getElem?_eq_getElem (hlength ▸ hk), Option.map_some, Option.some.injEq] at hat
  rw [List.getElem_range]
  refine ((List.getElem?_inj (hlength ▸ hk) hnodup).mp ?_).symm
  rw [← hat]
  exact List.getElem?_eq_getElem _

end Reorder

/-! ## Texts of lists and dictionaries -/

variable [Interpreter D] {items : List (PyKey D × PyValue D)} {values : List (PyValue D)}

lemma dumpsItems_iff {texts : List (List Char)} : dumpsItems values = some texts ↔
    List.Forall₂ (fun value text => dumps value = some text) values texts := by
  induction values generalizing texts with
  | nil =>
      rw [dumpsItems, Option.some.injEq, List.forall₂_nil_left_iff, eq_comm]
  | cons value values ih =>
      rw [dumpsItems]
      constructor
      · intro h
        obtain ⟨text, htext, hmap⟩ := Option.bind_eq_some_iff.mp h
        obtain ⟨rest, hrest, rfl⟩ := Option.map_eq_some_iff.mp hmap
        exact .cons htext (ih.mp hrest)
      · rintro (_ | ⟨htext, hrest⟩)
        rw [htext, ih.mpr hrest]
        rfl

/-- The member of an object that an item of a dictionary is written as. -/
def Written (item : PyKey D × PyValue D) (member : List Char) : Prop :=
  ∃ name text, item.1.name = some name ∧ dumps item.2 = some text ∧ member = memberText name text

lemma dumpsMembers_iff {members : List (List Char)} : dumpsMembers items = some members ↔
    List.Forall₂ Written items members := by
  induction items generalizing members with
  | nil =>
      rw [dumpsMembers, Option.some.injEq, List.forall₂_nil_left_iff, eq_comm]
  | cons item items ih =>
      obtain ⟨key, value⟩ := item
      rw [dumpsMembers]
      constructor
      · intro h
        obtain ⟨name, hname, hvalue⟩ := Option.bind_eq_some_iff.mp h
        obtain ⟨text, htext, hmap⟩ := Option.bind_eq_some_iff.mp hvalue
        obtain ⟨rest, hrest, rfl⟩ := Option.map_eq_some_iff.mp hmap
        exact .cons ⟨name, text, hname, htext, rfl⟩ (ih.mp hrest)
      · rintro (_ | ⟨⟨name, text, hname, htext, rfl⟩, hrest⟩)
        simp only at hname htext
        rw [hname, htext, ih.mpr hrest]
        rfl

@[simp] lemma reloadItems_eq : reloadItems values = values.map reload := by
  induction values with
  | nil => rfl
  | cons value values ih => rw [reloadItems, ih, List.map_cons]

@[simp] lemma reloadMembers_eq :
    reloadMembers items = items.map fun item => (item.1.reloadedName, reload item.2) := by
  induction items with
  | nil => rfl
  | cons item items ih => rw [reloadMembers, ih, List.map_cons]

@[simp] lemma namesAscendItems_iff :
    NamesAscendItems values ↔ ∀ value ∈ values, NamesAscend value := by
  induction values with
  | nil => simp [NamesAscendItems]
  | cons value values ih => rw [NamesAscendItems, ih, List.forall_mem_cons]

@[simp] lemma namesAscendMembers_iff :
    NamesAscendMembers items ↔ ∀ item ∈ items, NamesAscend item.2 := by
  induction items with
  | nil => simp [NamesAscendMembers]
  | cons item items ih => rw [NamesAscendMembers, ih, List.forall_mem_cons]

/-- The order in which the items of a dictionary are written. -/
def written (items : List (PyKey D × PyValue D)) : List ℕ :=
  Interpreter.order (items.map Prod.fst)

lemma written_perm : (written items).Perm (List.range items.length) := by
  have h := Interpreter.order_perm (items.map Prod.fst)
  rwa [List.length_map] at h

lemma dumps_dict_eq_some {text : List Char} : dumps (.dict items) = some text ↔
    comparable (items.map Prod.fst) = true ∧ ∃ members, List.Forall₂ Written items members ∧
      text = '{' :: (separate (reorder (written items) members) ++ ['}']) := by
  rw [dumps]
  split_ifs with h
  · simp only [Option.map_eq_some_iff, dumpsMembers_iff, h, true_and]
    exact exists_congr fun members => and_congr_right fun _ => eq_comm
  · simp [h]

lemma dumps_list_eq_some {text : List Char} : dumps (.list values) = some text ↔
    ∃ texts, List.Forall₂ (fun value text => dumps value = some text) values texts ∧
      text = '[' :: (separate texts ++ [']']) := by
  rw [dumps]
  simp only [Option.map_eq_some_iff, dumpsItems_iff]
  exact exists_congr fun texts => and_congr_right fun _ => eq_comm

/-! ## Reading back -/

lemma dumps_starts {value : PyValue D} {text : List Char} (h : dumps value = some text) :
    Starts text := by
  cases value with
  | none =>
      cases h
      exact ⟨_, _, rfl, by decide⟩
  | bool b =>
      cases h
      cases b <;> exact ⟨_, _, rfl, by decide⟩
  | int n =>
      obtain ⟨-, rfl⟩ := intText_eq_some.mp h
      exact (intLiteral_wellFormed n).starts
  | float x =>
      cases h
      exact floatText_starts x
  | str s =>
      cases h
      exact ⟨_, _, rfl, by decide⟩
  | list values =>
      obtain ⟨texts, -, rfl⟩ := dumps_list_eq_some.mp h
      exact ⟨_, _, rfl, by decide⟩
  | dict items =>
      obtain ⟨-, members, -, rfl⟩ := dumps_dict_eq_some.mp h
      exact ⟨_, _, rfl, by decide⟩

omit [Interpreter D] in
lemma reads_string [Doubles D] (s : PyStr) (fuel : ℕ) :
    Reads (scanOnce (D := D) (fuel + 1)) (stringText s) (.str (joinSurrogates s)) := by
  intro rest _
  have hstring := scanString_escape s rest
  have htext : stringText s ++ rest = '"' :: (escape s ++ '"' :: rest) := by
    simp [stringText]
  rw [htext, scanOnce_string, hstring]
  rfl

lemma length_lt_list {texts : List (List Char)} {text : List Char} (h : text ∈ texts) {a b : Char} :
    text.length < (a :: (separate texts ++ [b])).length := by
  have := mem_length_le_separate h
  simp only [List.length_cons, List.length_append]
  omega

lemma length_lt_member {name : PyStr} {text : List Char} :
    text.length < (memberText name text).length := by
  simp only [memberText, List.length_append, List.length_cons]
  omega

/-- The elements of an array are read one by one, when each of them is. -/
lemma forall₂_reads_items {texts : List (List Char)} {fuel : ℕ}
    (hdumps : List.Forall₂ (fun value text => dumps value = some text) values texts)
    (hread : ∀ value ∈ values, ∀ text, dumps value = some text → text.length < fuel →
      Reads (scanOnce fuel) text (reload value))
    (hlength : ∀ text ∈ texts, text.length < fuel) :
    List.Forall₂ (Reads (scanOnce fuel)) texts (values.map reload) := by
  rw [List.forall₂_map_right_iff]
  refine ((forall₂_mem hdumps).imp ?_).flip
  rintro value text ⟨htext, hvalue, hmem⟩
  exact hread value hvalue text htext (hlength text hmem)

/-- The members of an object are read as names and values, when its values are. -/
lemma forall₂_reads_members {members : List (List Char)} {fuel : ℕ}
    (hwritten : List.Forall₂ Written items members)
    (hread : ∀ item ∈ items, ∀ text, dumps item.2 = some text → text.length < fuel →
      Reads (scanOnce fuel) text (reload item.2))
    (hlength : ∀ member ∈ members, member.length < fuel) :
    List.Forall₂ (Reads (scanMember (scanOnce fuel))) members
      (items.map fun item => (item.1.reloadedName, reload item.2)) := by
  rw [List.forall₂_map_right_iff]
  refine ((forall₂_mem hwritten).imp ?_).flip
  rintro item member ⟨⟨name, text, hname, htext, rfl⟩, hitem, hmem⟩
  have hlt := length_lt_member.trans (hlength _ hmem)
  have hreloaded : item.1.reloadedName = joinSurrogates name := by
    rw [PyKey.reloadedName, hname, Option.getD_some]
  change Reads _ _ (item.1.reloadedName, reload item.2)
  rw [hreloaded]
  exact reads_member (hread item hitem text htext hlt) (dumps_starts htext) name

lemma written_starts {members : List (List Char)} (h : List.Forall₂ Written items members) :
    ∀ member ∈ members, Starts member := by
  intro member hmember
  obtain ⟨item, -, name, text, -, -, rfl⟩ := exists_of_forall₂ h hmember
  exact memberText_starts name text

/-- With fuel for its length a written text is read as the reloaded value. -/
theorem reads_dumps {value : PyValue D} {text : List Char} (h : dumps value = some text) {fuel : ℕ}
    (hfuel : text.length < fuel) : Reads (scanOnce fuel) text (reload value) := by
  obtain ⟨fuel, rfl⟩ := Nat.exists_eq_succ_of_ne_zero (by omega : fuel ≠ 0)
  induction value using PyValue.induction generalizing text fuel with
  | none =>
      cases h
      exact fun _ _ => rfl
  | bool b =>
      cases h
      cases b <;> exact fun _ _ => rfl
  | int n => exact reads_int h fuel
  | float x =>
      cases h
      exact reads_float x fuel
  | str s =>
      cases h
      exact reads_string s fuel
  | list values ih =>
      obtain ⟨texts, htexts, rfl⟩ := dumps_list_eq_some.mp h
      have hreads : List.Forall₂ (Reads (scanOnce fuel)) texts (values.map reload) := by
        refine forall₂_reads_items htexts (fun value hvalue text htext hlt => ?_) fun text htext => ?_
        · obtain ⟨fuel, rfl⟩ := Nat.exists_eq_succ_of_ne_zero (by omega : fuel ≠ 0)
          exact ih value hvalue htext fuel hlt
        · exact (length_lt_list htext).trans_le (Nat.lt_succ_iff.mp hfuel)
      have hstarts : ∀ text ∈ texts, Starts text := by
        intro text htext
        obtain ⟨value, -, hvalue⟩ := exists_of_forall₂ htexts htext
        exact dumps_starts hvalue
      intro rest _
      rw [List.cons_append, List.append_assoc, List.singleton_append, scanOnce_array,
        scanBody_separate (.inl rfl) hreads hstarts rest, reload, reloadItems_eq]
      rfl
  | dict items ih =>
      obtain ⟨-, members, hmembers, rfl⟩ := dumps_dict_eq_some.mp h
      have hperm : (written items).Perm (List.range members.length) := by
        rw [← hmembers.length_eq]
        exact written_perm
      have hreads : List.Forall₂ (Reads (scanMember (scanOnce fuel))) members
          (items.map fun item => (item.1.reloadedName, reload item.2)) := by
        refine forall₂_reads_members hmembers (fun item hitem text htext hlt => ?_)
          fun member hmember => ?_
        · obtain ⟨fuel, rfl⟩ := Nat.exists_eq_succ_of_ne_zero (by omega : fuel ≠ 0)
          exact ih item hitem htext fuel hlt
        · exact (length_lt_list ((mem_reorder hperm).mpr hmember)).trans_le
            (Nat.lt_succ_iff.mp hfuel)
      have hstarts : ∀ member ∈ reorder (written items) members, Starts member :=
        fun member hmember => written_starts hmembers member ((mem_reorder hperm).mp hmember)
      intro rest _
      rw [List.cons_append, List.append_assoc, List.singleton_append, scanOnce_object,
        scanBody_separate (.inr rfl) (forall₂_reorder hreads _) hstarts rest, reload,
        reloadMembers_eq]
      rfl

/-- `json.loads` reads what `json.dumps` writes. -/
theorem loads_dumps {value : PyValue D} {text : List Char} (h : dumps value = some text) :
    loads text = some (reload value) := by
  have hread := reads_dumps h (Nat.lt_succ_self _) [] stops_nil
  rw [List.append_nil] at hread
  rw [loads, (dumps_starts h).skipSpace, hread]
  rfl

/-! ## Writing what came back -/

lemma reorder_strs_ascend {names : List PyStr} (h : names.Nodup) :
    (reorder (Interpreter.order (names.map (PyKey.str (D := D)))) names).Pairwise (· < ·) := by
  have hperm := Interpreter.order_perm (names.map (PyKey.str (D := D)))
  rw [List.length_map] at hperm
  have hnodup := (reorder_perm hperm).nodup_iff.mpr h
  exact (Interpreter.order_str names).imp₂ (fun _ _ hle hne => lt_of_le_of_ne hle hne) hnodup

/-- Ascending names are written in the order in which they stand. -/
lemma order_strs {names : List PyStr} (h : names.Pairwise (· < ·)) :
    Interpreter.order (names.map (PyKey.str (D := D))) = List.range names.length := by
  have hperm := Interpreter.order_perm (names.map (PyKey.str (D := D)))
  rw [List.length_map] at hperm
  have hnodup : names.Nodup := h.imp fun hlt => hlt.ne
  refine eq_range_of_reorder hnodup hperm ?_
  exact (reorder_perm hperm).eq_of_pairwise (fun _ _ _ _ hle hge => le_antisymm hle hge)
    (Interpreter.order_str names) (h.imp fun hlt => hlt.le)

lemma memberText_joinSurrogates (name : PyStr) (text : List Char) :
    memberText (joinSurrogates name) text = memberText name text := by
  unfold memberText stringText
  rw [escape_joinSurrogates]

lemma memberText_inj {name : PyStr} {text text' : List Char}
    (h : memberText name text = memberText name text') : text = text' := by
  have htail := List.append_cancel_left h
  rw [List.cons.injEq, List.cons.injEq] at htail
  exact htail.2.2

/-- The members that a dictionary comes back as, in the order in which they were written. -/
def reloadedMembers (items : List (PyKey D × PyValue D)) : List (PyStr × PyValue D) :=
  (reorder (written items) items).map fun item => (item.1.reloadedName, reload item.2)

lemma reload_dict : reload (.dict items) = .dict (fromMembers (reloadedMembers items)) := by
  rw [reload, reloadMembers_eq, reorder_map]
  rfl

lemma reloadedMembers_names : (reloadedMembers items).map Prod.fst =
    reorder (written items) (items.map fun item => item.1.reloadedName) := by
  rw [reorder_map, reloadedMembers, List.map_map]
  rfl

lemma namesAscend_dict : NamesAscend (.dict items) ↔
    ((reloadedMembers items).map Prod.fst).Pairwise (· < ·) ∧
      ∀ item ∈ items, NamesAscend item.2 := by
  rw [NamesAscend, namesAscendMembers_iff, reloadedMembers_names]
  rfl

/-- Members with ascending names become items that are written in their order. -/
lemma fromMembers_of_ascend {members : List (PyStr × PyValue D)}
    (h : (members.map Prod.fst).Pairwise (· < ·)) :
    fromMembers members = members.map (Prod.map .str id) ∧
      written (fromMembers members) = List.range members.length := by
  have hitems : fromMembers members = members.map (Prod.map .str id) := by
    rw [fromMembers, PySequence.fromPairs_of_nodup (h.imp fun hlt => hlt.ne)]
  refine ⟨hitems, ?_⟩
  have hkeys : (members.map (Prod.map .str id)).map Prod.fst =
      (members.map Prod.fst).map (PyKey.str (D := D)) := by
    rw [List.map_map, List.map_map]
    rfl
  rw [hitems, written, hkeys, order_strs h, List.length_map]

omit [Interpreter D] in
lemma comparable_fromMembers (members : List (PyStr × PyValue D)) :
    comparable ((fromMembers members).map Prod.fst) = true := by
  unfold comparable fromMembers
  simp [PyKey.isStr]

/-- Names that come back and are written again ascend. -/
lemma rewritten_ascend {members : List (PyStr × PyValue D)}
    (hjoined : ∀ name ∈ members.map Prod.fst, joinSurrogates name = name) :
    ((reloadedMembers (fromMembers members)).map Prod.fst).Pairwise (· < ·) := by
  have hkeys : (fromMembers members).map Prod.fst =
      ((PySequence.fromPairs members).map Prod.fst).map (PyKey.str (D := D)) := by
    rw [fromMembers, List.map_map, List.map_map]
    rfl
  have hnames : (fromMembers members).map (fun item => item.1.reloadedName) =
      (PySequence.fromPairs members).map Prod.fst := by
    rw [fromMembers, List.map_map]
    refine List.map_congr_left fun member hmember => ?_
    exact hjoined _ (PySequence.mem_keys_fromPairs.mp (List.mem_map_of_mem hmember))
  rw [reloadedMembers_names, hnames, written, hkeys]
  exact reorder_strs_ascend (PySequence.fromPairs_nodup members)

lemma reloadedMembers_joined : ∀ name ∈ (reloadedMembers items).map Prod.fst,
    joinSurrogates name = name := by
  intro name hname
  unfold reloadedMembers at hname
  rw [List.map_map] at hname
  obtain ⟨item, -, rfl⟩ := List.mem_map.mp hname
  exact joinSurrogates_joinSurrogates _

section Rewrite

variable {members : List (List Char)}

/-- The members of an object, in the order in which they are written, are read back. -/
lemma reads_reordered (h : List.Forall₂ Written items members) {fuel : ℕ}
    (hfuel : (separate (reorder (written items) members)).length < fuel) :
    List.Forall₂ (Reads (scanMember (scanOnce fuel))) (reorder (written items) members)
      (reloadedMembers items) := by
  have hperm : (written items).Perm (List.range members.length) := by
    rw [← h.length_eq]
    exact written_perm
  have hreads := forall₂_reads_members h (fun _ _ _ htext hlt => reads_dumps htext hlt)
    fun member hmember =>
      (mem_length_le_separate ((mem_reorder hperm).mpr hmember)).trans_lt hfuel
  have hreordered := forall₂_reorder hreads (written items)
  rwa [reorder_map] at hreordered

lemma reordered_starts (h : List.Forall₂ Written items members) :
    ∀ member ∈ reorder (written items) members, Starts member := by
  have hperm : (written items).Perm (List.range members.length) := by
    rw [← h.length_eq]
    exact written_perm
  exact fun member hmember => written_starts h member ((mem_reorder hperm).mp hmember)

/-- An object that is written again as it stands has ascending names and values of that kind. -/
lemma ascend_of_rewritten (h : List.Forall₂ Written items members) {members' : List (List Char)}
    (h' : List.Forall₂ Written (fromMembers (reloadedMembers items)) members')
    (heq : separate (reorder (written items) members) =
      separate (reorder (written (fromMembers (reloadedMembers items))) members')) :
    ((reloadedMembers items).map Prod.fst).Pairwise (· < ·) ∧
      ∀ item ∈ items, ∃ text, dumps item.2 = some text ∧ dumps (reload item.2) = some text := by
  have hreads := reads_reordered h (Nat.lt_succ_self _)
  have hreads' := reads_reordered h' (Nat.lt_succ_self _)
  rw [← heq] at hreads'
  have htexts := separate_injective
    (fun text htext => (exists_of_forall₂ hreads.flip htext).imp fun _ hx => hx.2)
    (fun text htext => (exists_of_forall₂ hreads'.flip htext).imp fun _ hx => hx.2)
    (reordered_starts h) (reordered_starts h') heq
  rw [← htexts] at hreads'
  have hmembers : reloadedMembers items = reloadedMembers (fromMembers (reloadedMembers items)) :=
    eq_of_forall₂ (fun _ _ _ hx hx' => hx.functional hx') hreads hreads'
  have hascend : ((reloadedMembers items).map Prod.fst).Pairwise (· < ·) := by
    rw [hmembers]
    exact rewritten_ascend reloadedMembers_joined
  refine ⟨hascend, fun item hitem => ?_⟩
  obtain ⟨hitems, hrange⟩ := fromMembers_of_ascend hascend
  have hlength : (reloadedMembers items).length = members'.length := by
    rw [← h'.length_eq, hitems, List.length_map]
  rw [hrange, hlength, reorder_range] at htexts
  rw [hitems, ← htexts, reloadedMembers, List.map_map, List.forall₂_map_left_iff] at h'
  have hperm : (written items).Perm (List.range items.length) := written_perm
  have hmem := (mem_reorder hperm).mpr hitem
  obtain ⟨member, ⟨name, text, hname, htext, rfl⟩, name', text', hname', htext', hsame⟩ :=
    exists_of_forall₂_both (forall₂_reorder h _) h' hmem
  have hreloaded : name' = joinSurrogates name := by
    have hkey : some item.1.reloadedName = some name' := hname'
    rw [PyKey.reloadedName, hname, Option.getD_some, Option.some.injEq] at hkey
    exact hkey.symm
  rw [hreloaded, memberText_joinSurrogates] at hsame
  rw [memberText_inj hsame] at htext
  exact ⟨text', htext, htext'⟩

/-- An array that is written again as it stands has elements of that kind. -/
lemma elements_rewritten {texts texts' : List (List Char)}
    (h : List.Forall₂ (fun value text => dumps value = some text) values texts)
    (h' : List.Forall₂ (fun value text => dumps value = some text) (values.map reload) texts')
    (heq : separate texts = separate texts') :
    ∀ value ∈ values, ∃ text, dumps value = some text ∧ dumps (reload value) = some text := by
  have hreads {values : List (PyValue D)} {texts : List (List Char)}
      (h : List.Forall₂ (fun value text => dumps value = some text) values texts) :
      ∀ text ∈ texts, ∃ x,
        Reads (scanOnce (D := D) ((separate texts).length + 1)) text x := by
    intro text htext
    obtain ⟨value, -, hvalue⟩ := exists_of_forall₂ h htext
    exact ⟨_, reads_dumps hvalue (Nat.lt_succ_iff.mpr (mem_length_le_separate htext))⟩
  have hstarts {values : List (PyValue D)} {texts : List (List Char)}
      (h : List.Forall₂ (fun value text => dumps value = some text) values texts) :
      ∀ text ∈ texts, Starts text := by
    intro text htext
    obtain ⟨value, -, hvalue⟩ := exists_of_forall₂ h htext
    exact dumps_starts hvalue
  have hreads' := hreads h'
  rw [← heq] at hreads'
  rw [← separate_injective (hreads h) hreads' (hstarts h) (hstarts h') heq,
    List.forall₂_map_left_iff] at h'
  intro value hvalue
  exact exists_of_forall₂_both h h' hvalue

/-- Ascending names and values that are written as they were make an object written as it was. -/
lemma rewritten_of_ascend (h : List.Forall₂ Written items members)
    (hascend : ((reloadedMembers items).map Prod.fst).Pairwise (· < ·))
    (hvalues : ∀ item ∈ items, ∀ text, dumps item.2 = some text →
      dumps (reload item.2) = some text) :
    dumps (.dict (fromMembers (reloadedMembers items))) =
      some ('{' :: (separate (reorder (written items) members) ++ ['}'])) := by
  obtain ⟨hitems, hrange⟩ := fromMembers_of_ascend hascend
  have hwritten : List.Forall₂ Written (fromMembers (reloadedMembers items))
      (reorder (written items) members) := by
    rw [hitems, reloadedMembers, List.map_map, List.forall₂_map_left_iff]
    refine (forall₂_mem (forall₂_reorder h (written items))).imp ?_
    rintro item member ⟨⟨name, text, hname, htext, rfl⟩, hitem, -⟩
    have hperm : (written items).Perm (List.range items.length) := written_perm
    have hmem := (mem_reorder hperm).mp hitem
    refine ⟨joinSurrogates name, text, ?_, hvalues item hmem text htext, ?_⟩
    · change some item.1.reloadedName = some _
      rw [PyKey.reloadedName, hname, Option.getD_some]
    · exact (memberText_joinSurrogates name text).symm
  refine dumps_dict_eq_some.mpr ⟨comparable_fromMembers _, _, hwritten, ?_⟩
  have hlength : (reloadedMembers items).length = (reorder (written items) members).length := by
    rw [← hwritten.length_eq, hitems, List.length_map]
  rw [hrange, hlength, reorder_range]

end Rewrite

/-- The text is written again exactly if the names of every dictionary ascend. -/
theorem dumps_reload {value : PyValue D} {text : List Char} (h : dumps value = some text) :
    dumps (reload value) = some text ↔ NamesAscend value := by
  induction value using PyValue.induction generalizing text with
  | none => exact iff_of_true h trivial
  | bool b => exact iff_of_true h trivial
  | int n => exact iff_of_true h trivial
  | float x => exact iff_of_true h trivial
  | str s =>
      refine iff_of_true ?_ trivial
      cases h
      rw [reload, dumps, stringText, escape_joinSurrogates]
      rfl
  | list values ih =>
      obtain ⟨texts, htexts, rfl⟩ := dumps_list_eq_some.mp h
      rw [NamesAscend, namesAscendItems_iff, reload, reloadItems_eq]
      constructor
      · intro hagain value hvalue
        obtain ⟨texts', htexts', heq⟩ := dumps_list_eq_some.mp hagain
        have htail := List.append_cancel_right (List.cons.inj heq).2
        obtain ⟨text, htext, htext'⟩ := elements_rewritten htexts htexts' htail value hvalue
        exact (ih value hvalue htext).mp htext'
      · intro hascend
        refine dumps_list_eq_some.mpr ⟨texts, ?_, rfl⟩
        rw [List.forall₂_map_left_iff]
        refine (forall₂_mem htexts).imp ?_
        rintro value text ⟨htext, hvalue, -⟩
        exact (ih value hvalue htext).mpr (hascend value hvalue)
  | dict items ih =>
      obtain ⟨hcomparable, members, hmembers, rfl⟩ := dumps_dict_eq_some.mp h
      rw [reload_dict, namesAscend_dict]
      constructor
      · intro hagain
        obtain ⟨-, members', hmembers', heq⟩ := dumps_dict_eq_some.mp hagain
        have htail := List.append_cancel_right (List.cons.inj heq).2
        obtain ⟨hascend, hvalues⟩ := ascend_of_rewritten hmembers hmembers' htail
        refine ⟨hascend, fun item hitem => ?_⟩
        obtain ⟨text, htext, htext'⟩ := hvalues item hitem
        exact (ih item hitem htext).mp htext'
      · rintro ⟨hascend, hvalues⟩
        exact rewritten_of_ascend hmembers hascend fun item hitem text htext =>
          (ih item hitem htext).mpr (hvalues item hitem)

/-- Whatever comes back can be written again. -/
theorem exists_dumps_reload {value : PyValue D} {text : List Char} (h : dumps value = some text) :
    ∃ text', dumps (reload value) = some text' := by
  induction value using PyValue.induction generalizing text with
  | none => exact ⟨text, h⟩
  | bool b => exact ⟨text, h⟩
  | int n => exact ⟨text, h⟩
  | float x => exact ⟨text, h⟩
  | str s => exact ⟨_, rfl⟩
  | list values ih =>
      obtain ⟨texts, htexts, -⟩ := dumps_list_eq_some.mp h
      have hall : ∀ value ∈ values.map reload, ∃ text, dumps value = some text := by
        intro value hvalue
        obtain ⟨old, hold, rfl⟩ := List.mem_map.mp hvalue
        obtain ⟨text, -, htext⟩ := exists_of_forall₂ htexts.flip hold
        exact ih old hold htext
      obtain ⟨texts', htexts'⟩ := forall₂_of_exists hall
      rw [reload, reloadItems_eq]
      exact ⟨_, dumps_list_eq_some.mpr ⟨texts', htexts', rfl⟩⟩
  | dict items ih =>
      obtain ⟨-, members, hmembers, -⟩ := dumps_dict_eq_some.mp h
      have hall : ∀ item ∈ fromMembers (reloadedMembers items), ∃ member, Written item member := by
        intro item hitem
        obtain ⟨pair, hpair, rfl⟩ := List.mem_map.mp hitem
        have hmem := PySequence.mem_of_mem_fromPairs hpair
        obtain ⟨old, hold, rfl⟩ := List.mem_map.mp hmem
        have hold' := (mem_reorder written_perm).mp hold
        obtain ⟨member, -, name, text, -, htext, -⟩ := exists_of_forall₂ hmembers.flip hold'
        obtain ⟨text', htext'⟩ := ih old hold' htext
        exact ⟨_, _, text', rfl, htext', rfl⟩
      obtain ⟨members', hmembers'⟩ := forall₂_of_exists hall
      rw [reload_dict]
      exact ⟨_, dumps_dict_eq_some.mpr ⟨comparable_fromMembers _, members', hmembers', rfl⟩⟩

/-- Names that are different texts ascend in the order in which strings are sorted. -/
lemma namesAscend_texts {items : List (String × PyValue D)} (hnodup : (items.map Prod.fst).Nodup) :
    NamesAscend (.dict (items.map fun item => (.str (toPyStr item.1), item.2))) ↔
      ∀ item ∈ items, NamesAscend item.2 := by
  have hkeys : (items.map fun item => ((.str (toPyStr item.1), item.2) : PyKey D × PyValue D)).map
      Prod.fst = (items.map fun item => toPyStr item.1).map .str := by
    simp
  have hnames : (items.map fun item => ((.str (toPyStr item.1), item.2) : PyKey D × PyValue D)).map
      (fun item => item.1.reloadedName) = items.map fun item => toPyStr item.1 := by
    simp [PyKey.reloadedName, PyKey.name, joinSurrogates_toPyStr]
  have hascend : (reorder (Interpreter.order ((items.map fun item => toPyStr item.1).map
      (.str : PyStr → PyKey D))) (items.map fun item => toPyStr item.1)).Pairwise (· < ·) := by
    have hperm := Interpreter.order_perm ((items.map fun item => toPyStr item.1).map
      (.str : PyStr → PyKey D))
    rw [List.length_map] at hperm
    have hdistinct : (reorder (Interpreter.order ((items.map fun item => toPyStr item.1).map
        (.str : PyStr → PyKey D))) (items.map fun item => toPyStr item.1)).Nodup := by
      rw [(reorder_perm hperm).nodup_iff]
      have hmap := hnodup.map toPyStr_injective
      rwa [List.map_map] at hmap
    exact List.Pairwise.imp₂ (fun _ _ hle hne => lt_of_le_of_ne hle hne)
      (Interpreter.order_str _) hdistinct
  rw [NamesAscend, hkeys, hnames, namesAscendMembers_iff, and_iff_right hascend,
    List.forall_mem_map]

/-- A dictionary with texts as keys is serialised if its values are. -/
lemma exists_dumps_texts {items : List (String × PyValue D)}
    (h : ∀ item ∈ items, ∃ text, dumps item.2 = some text) :
    ∃ text, dumps (.dict (items.map fun item => (.str (toPyStr item.1), item.2))) = some text := by
  have hcomparable : comparable ((items.map fun item =>
      ((.str (toPyStr item.1), item.2) : PyKey D × PyValue D)).map Prod.fst) = true := by
    simp [comparable, PyKey.isStr]
  have hwritten : ∀ item ∈ items.map fun item =>
      ((.str (toPyStr item.1), item.2) : PyKey D × PyValue D), ∃ member, Written item member := by
    intro item hitem
    obtain ⟨item, hmem, rfl⟩ := List.mem_map.mp hitem
    obtain ⟨text, htext⟩ := h item hmem
    exact ⟨_, _, text, rfl, htext, rfl⟩
  obtain ⟨members, hmembers⟩ := forall₂_of_exists hwritten
  exact ⟨_, dumps_dict_eq_some.mpr ⟨hcomparable, members, hmembers, rfl⟩⟩

end AgentSystem.Json
