import Mathlib

/-!
# Python sequences and dictionaries

Indexing and slicing with the wrap-around of negative positions, and insertion-ordered
dictionaries as association lists.
-/
namespace AgentSystem.PySequence

variable {α κ ν : Type*}

/-- The position `xs[i]` reads in a list of the given length, `none` for an `IndexError`. -/
def position (length : ℕ) (i : ℤ) : Option ℕ :=
  if 0 ≤ i then if i < length then some i.toNat else none
  else if 0 ≤ length + i then some (length + i).toNat else none

/-- `xs[i]`. -/
def get (xs : List α) (i : ℤ) : Option α :=
  (position xs.length i).bind fun k => xs[k]?

/-- `xs[:stop]`. -/
def sliceTo (xs : List α) (stop : ℤ) : List α :=
  if 0 ≤ stop then xs.take stop.toNat else xs.take (xs.length + stop).toNat

/-- `xs[start:]`. -/
def sliceFrom (xs : List α) (start : ℤ) : List α :=
  if 0 ≤ start then xs.drop start.toNat else xs.drop (xs.length + start).toNat

@[simp] theorem position_natCast (length k : ℕ) :
    position length k = if k < length then some k else none := by
  simp [position]

@[simp] theorem get_natCast (xs : List α) (k : ℕ) : get xs k = xs[k]? := by
  unfold get
  rw [position_natCast]
  split_ifs with h
  · rfl
  · simp only [Option.bind_none]
    exact (List.getElem?_eq_none (by omega)).symm

@[simp] theorem sliceTo_natCast (xs : List α) (k : ℕ) : sliceTo xs k = xs.take k := by
  simp [sliceTo]

@[simp] theorem sliceFrom_natCast (xs : List α) (k : ℕ) : sliceFrom xs k = xs.drop k := by
  simp [sliceFrom]

theorem position_of_le {length : ℕ} {i : ℤ} (h : (length : ℤ) ≤ i) : position length i = none := by
  unfold position
  rw [if_pos (by omega), if_neg (by omega)]

theorem position_lt {length k : ℕ} {i : ℤ} (h : position length i = some k) : k < length := by
  unfold position at h
  split_ifs at h <;> simp only [Option.some.injEq] at h <;> omega

/-- `xs[:i]` ends right before `xs[i]`. -/
theorem sliceTo_of_position {xs : List α} {i : ℤ} {k : ℕ} (h : position xs.length i = some k) :
    sliceTo xs i = xs.take k := by
  unfold position at h
  unfold sliceTo
  split_ifs at h with h₀ <;> simp only [Option.some.injEq] at h
  · rw [if_pos h₀, h]
  · rw [if_neg h₀, h]

theorem getElem?_of_isPrefix {xs ys : List α} (h : xs <+: ys) {k : ℕ} {x : α}
    (hx : xs[k]? = some x) : ys[k]? = some x := by
  obtain ⟨rest, rfl⟩ := h
  obtain ⟨hk, _⟩ := List.getElem?_eq_some_iff.mp hx
  rw [List.getElem?_append_left hk]
  exact hx

/-- `d[key] = value`: an existing key keeps its place, a new one goes last. -/
def setItem [DecidableEq κ] : List (κ × ν) → κ → ν → List (κ × ν)
  | [], key, value => [(key, value)]
  | (k, v) :: rest, key, value =>
      if k = key then (k, value) :: rest else (k, v) :: setItem rest key value

/-- `dict(pairs)`. -/
def fromPairs [DecidableEq κ] (pairs : List (κ × ν)) : List (κ × ν) :=
  pairs.foldl (fun items pair => setItem items pair.1 pair.2) []

lemma setItem_nil [DecidableEq κ] (key : κ) (value : ν) : setItem [] key value = [(key, value)] := rfl

lemma setItem_cons [DecidableEq κ] (k : κ) (v : ν) (rest : List (κ × ν)) (key : κ) (value : ν) :
    setItem ((k, v) :: rest) key value =
      if k = key then (k, value) :: rest else (k, v) :: setItem rest key value := rfl

lemma mem_keys_setItem [DecidableEq κ] {items : List (κ × ν)} {key k : κ} {value : ν} :
    k ∈ (setItem items key value).map Prod.fst ↔ k = key ∨ k ∈ items.map Prod.fst := by
  induction items with
  | nil => simp [setItem_nil]
  | cons item items ih =>
      obtain ⟨first, v⟩ := item
      rw [setItem_cons]
      split_ifs with h
      · subst h
        simp
      · rw [List.map_cons, List.mem_cons, ih, List.map_cons, List.mem_cons]
        tauto

lemma setItem_nodup [DecidableEq κ] {items : List (κ × ν)} (h : (items.map Prod.fst).Nodup)
    (key : κ) (value : ν) : ((setItem items key value).map Prod.fst).Nodup := by
  induction items with
  | nil => simp [setItem_nil]
  | cons item items ih =>
      obtain ⟨first, v⟩ := item
      rw [List.map_cons, List.nodup_cons] at h
      rw [setItem_cons]
      split_ifs with heq
      · exact List.nodup_cons.mpr h
      · rw [List.map_cons, List.nodup_cons, mem_keys_setItem]
        exact ⟨fun hmem => hmem.elim heq h.1, ih h.2⟩

/-- A new key goes last. -/
lemma setItem_of_notMem [DecidableEq κ] {items : List (κ × ν)} {key : κ}
    (h : key ∉ items.map Prod.fst) (value : ν) :
    setItem items key value = items ++ [(key, value)] := by
  induction items with
  | nil => rfl
  | cons item items ih =>
      obtain ⟨first, v⟩ := item
      rw [List.map_cons, List.mem_cons, not_or] at h
      rw [setItem_cons, if_neg (Ne.symm h.1), ih h.2, List.cons_append]

lemma fromPairs_nodup [DecidableEq κ] (pairs : List (κ × ν)) :
    ((fromPairs pairs).map Prod.fst).Nodup := by
  have hfold : ∀ items : List (κ × ν), (items.map Prod.fst).Nodup →
      ((pairs.foldl (fun items pair => setItem items pair.1 pair.2) items).map Prod.fst).Nodup := by
    induction pairs with
    | nil => exact fun items hitems => hitems
    | cons pair pairs ih => exact fun items hitems => ih _ (setItem_nodup hitems _ _)
  exact hfold [] List.nodup_nil

lemma mem_of_mem_setItem [DecidableEq κ] {items : List (κ × ν)} {key : κ} {value : ν}
    {item : κ × ν} (h : item ∈ setItem items key value) : item = (key, value) ∨ item ∈ items := by
  induction items with
  | nil => exact .inl (List.mem_singleton.mp h)
  | cons first items ih =>
      obtain ⟨k, v⟩ := first
      rw [setItem_cons] at h
      split_ifs at h with heq
      · rcases List.mem_cons.mp h with rfl | hmem
        · exact .inl (by rw [heq])
        · exact .inr (List.mem_cons_of_mem _ hmem)
      · rcases List.mem_cons.mp h with rfl | hmem
        · exact .inr List.mem_cons_self
        · exact (ih hmem).imp_right (List.mem_cons_of_mem _)

/-- Every item is one of the pairs. -/
lemma mem_of_mem_fromPairs [DecidableEq κ] {pairs : List (κ × ν)} {item : κ × ν}
    (h : item ∈ fromPairs pairs) : item ∈ pairs := by
  have hfold : ∀ items : List (κ × ν),
      item ∈ pairs.foldl (fun items pair => setItem items pair.1 pair.2) items →
        item ∈ items ∨ item ∈ pairs := by
    clear h
    induction pairs with
    | nil => exact fun items hitem => .inl hitem
    | cons pair pairs ih =>
        intro items hitem
        rcases ih _ hitem with hitems | hpairs
        · rcases mem_of_mem_setItem hitems with rfl | hmem
          · exact .inr List.mem_cons_self
          · exact .inl hmem
        · exact .inr (List.mem_cons_of_mem _ hpairs)
  exact (hfold [] h).resolve_left (by simp)

lemma mem_keys_fromPairs [DecidableEq κ] {pairs : List (κ × ν)} {key : κ} :
    key ∈ (fromPairs pairs).map Prod.fst ↔ key ∈ pairs.map Prod.fst := by
  have hfold : ∀ items : List (κ × ν),
      key ∈ (pairs.foldl (fun items pair => setItem items pair.1 pair.2) items).map Prod.fst ↔
        key ∈ items.map Prod.fst ∨ key ∈ pairs.map Prod.fst := by
    induction pairs with
    | nil => simp
    | cons pair pairs ih =>
        intro items
        rw [List.foldl_cons, ih, mem_keys_setItem, List.map_cons, List.mem_cons]
        tauto
  rw [fromPairs, hfold]
  simp

lemma fromPairs_of_nodup [DecidableEq κ] {pairs : List (κ × ν)} (h : (pairs.map Prod.fst).Nodup) :
    fromPairs pairs = pairs := by
  have hfold : ∀ items : List (κ × ν), ((items ++ pairs).map Prod.fst).Nodup →
      pairs.foldl (fun items pair => setItem items pair.1 pair.2) items = items ++ pairs := by
    clear h
    induction pairs with
    | nil => exact fun items _ => (List.append_nil items).symm
    | cons pair pairs ih =>
        intro items hitems
        have hnew : pair.1 ∉ items.map Prod.fst := by
          rw [List.map_append, List.map_cons, List.nodup_append] at hitems
          exact fun hmem => hitems.2.2 _ hmem _ (by simp) rfl
        have happend : items ++ [pair] ++ pairs = items ++ pair :: pairs := by simp
        rw [List.foldl_cons, setItem_of_notMem hnew, ih _ (by rw [happend]; exact hitems), happend]
  exact hfold [] h

/-! ## Lookups -/

/-- `d.get(key)`; of several items with the key the last one counts. -/
def getItem [DecidableEq κ] (items : List (κ × ν)) (key : κ) : Option ν :=
  (items.findRev? fun item => item.1 = key).map Prod.snd

lemma getItem_nil [DecidableEq κ] (key : κ) : getItem ([] : List (κ × ν)) key = none := rfl

lemma getItem_cons [DecidableEq κ] (k : κ) (value : ν) (items : List (κ × ν)) (key : κ) :
    getItem ((k, value) :: items) key =
      (getItem items key).or (if k = key then some value else none) := by
  unfold getItem
  rw [List.findRev?]
  cases items.findRev? fun item => item.1 = key with
  | some item => rfl
  | none => by_cases h : k = key <;> simp [h]

lemma getItem_append [DecidableEq κ] (items more : List (κ × ν)) (key : κ) :
    getItem (items ++ more) key = (getItem more key).or (getItem items key) := by
  induction items with
  | nil => simp [getItem_nil]
  | cons item items ih =>
      obtain ⟨k, value⟩ := item
      rw [List.cons_append, getItem_cons, getItem_cons, ih, Option.or_assoc]

lemma getItem_eq_none [DecidableEq κ] {items : List (κ × ν)} {key : κ}
    (h : key ∉ items.map Prod.fst) : getItem items key = none := by
  induction items with
  | nil => rfl
  | cons item items ih =>
      obtain ⟨k, value⟩ := item
      rw [List.map_cons, List.mem_cons, not_or] at h
      rw [getItem_cons, ih h.2, if_neg (Ne.symm h.1), Option.or_none]

lemma getItem_mem [DecidableEq κ] {items : List (κ × ν)} {key : κ} {value : ν}
    (h : getItem items key = some value) : (key, value) ∈ items := by
  induction items with
  | nil => cases h
  | cons item items ih =>
      obtain ⟨k, v⟩ := item
      rw [getItem_cons, Option.or_eq_some_iff] at h
      rcases h with h | ⟨-, h⟩
      · exact List.mem_cons_of_mem _ (ih h)
      · split_ifs at h with hk
        rw [hk, Option.some.inj h]
        exact List.mem_cons_self

lemma getItem_of_mem [DecidableEq κ] {items : List (κ × ν)} (hnodup : (items.map Prod.fst).Nodup)
    {key : κ} {value : ν} (h : (key, value) ∈ items) : getItem items key = some value := by
  induction items with
  | nil => cases h
  | cons item items ih =>
      obtain ⟨k, v⟩ := item
      rw [List.map_cons, List.nodup_cons] at hnodup
      rw [getItem_cons]
      rcases List.mem_cons.mp h with heq | hmem
      · cases heq
        rw [getItem_eq_none hnodup.1, if_pos rfl, Option.none_or]
      · rw [ih hnodup.2 hmem, Option.some_or]

/-- With distinct keys the order of the items does not matter. -/
lemma getItem_perm [DecidableEq κ] {items items' : List (κ × ν)} (h : items.Perm items')
    (hnodup : (items.map Prod.fst).Nodup) (key : κ) : getItem items key = getItem items' key := by
  have hnodup' := (h.map Prod.fst).nodup_iff.mp hnodup
  cases hget : getItem items key with
  | some value => exact (getItem_of_mem hnodup' (h.mem_iff.mp (getItem_mem hget))).symm
  | none =>
      cases hget' : getItem items' key with
      | none => rfl
      | some value =>
          rw [getItem_of_mem hnodup (h.mem_iff.mpr (getItem_mem hget'))] at hget
          cases hget

/-- With distinct keys the values decide the items. -/
lemma perm_of_getItem_eq [DecidableEq κ] {items items' : List (κ × ν)}
    (hnodup : (items.map Prod.fst).Nodup) (hnodup' : (items'.map Prod.fst).Nodup)
    (h : ∀ key, getItem items key = getItem items' key) : items.Perm items' := by
  apply (List.perm_ext_iff_of_nodup (hnodup.of_map _) (hnodup'.of_map _)).mpr
  rintro ⟨key, value⟩
  constructor
  · intro hmem
    exact getItem_mem ((h key).symm.trans (getItem_of_mem hnodup hmem))
  · intro hmem
    exact getItem_mem ((h key).trans (getItem_of_mem hnodup' hmem))

/-- Only the item of the key changes. -/
lemma getItem_setItem [DecidableEq κ] {items : List (κ × ν)} (h : (items.map Prod.fst).Nodup)
    (key : κ) (value : ν) (k : κ) :
    getItem (setItem items key value) k = if key = k then some value else getItem items k := by
  induction items with
  | nil => simp [setItem_nil, getItem_cons, getItem_nil]
  | cons item items ih =>
      obtain ⟨first, v⟩ := item
      rw [List.map_cons, List.nodup_cons] at h
      rw [setItem_cons]
      split_ifs with hfirst hkey hkey
      · subst hfirst hkey
        rw [getItem_cons, getItem_eq_none h.1, if_pos rfl, Option.none_or]
      · rw [getItem_cons, getItem_cons, hfirst, if_neg hkey]
        simp [hkey]
      · subst hkey
        rw [getItem_cons, ih h.2, if_pos rfl, Option.some_or]
      · rw [getItem_cons, getItem_cons, ih h.2, if_neg hkey]

lemma getItem_fromPairs [DecidableEq κ] (pairs : List (κ × ν)) (key : κ) :
    getItem (fromPairs pairs) key = getItem pairs key := by
  induction pairs using List.reverseRecOn with
  | nil => rfl
  | append_singleton pairs pair ih =>
      have hfold : fromPairs (pairs ++ [pair]) = setItem (fromPairs pairs) pair.1 pair.2 := by
        rw [fromPairs, List.foldl_append]
        rfl
      rw [hfold, getItem_setItem (fromPairs_nodup pairs), ih, getItem_append, getItem_cons,
        getItem_nil, Option.none_or]
      split_ifs with h
      · rfl
      · rfl

/-! ## Positions that stay -/

lemma getElem?_append_of_some {l l' : List α} {a : α} {n : ℕ} (h : l[n]? = some a) :
    (l ++ l')[n]? = some a := by
  rw [List.getElem?_append_left (List.getElem?_eq_some_iff.mp h).1, h]

lemma getElem?_append_cases {l : List α} {a b : α} {n : ℕ} (h : (l ++ [a])[n]? = some b) :
    l[n]? = some b ∨ (n = l.length ∧ b = a) := by
  rcases lt_trichotomy n l.length with hlt | rfl | hgt
  · exact Or.inl (by rwa [List.getElem?_append_left hlt] at h)
  · exact Or.inr ⟨rfl, by simpa using h.symm⟩
  · rw [List.getElem?_eq_none (by simp; omega)] at h
    cases h

lemma getElem?_set_cases {l : List α} {a b : α} {m n : ℕ} (h : (l.set n a)[m]? = some b) :
    (m = n ∧ b = a) ∨ (m ≠ n ∧ l[m]? = some b) := by
  rw [List.getElem?_set] at h
  split at h
  · split at h
    · exact Or.inl ⟨by omega, (Option.some.inj h).symm⟩
    · cases h
  · exact Or.inr ⟨by omega, h⟩

end AgentSystem.PySequence
