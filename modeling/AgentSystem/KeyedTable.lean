import Mathlib

/-!
# Tables with a key

Lists of rows whose keys are unique, in insertion order, with the statements that keep them so:
an insertion that refuses a key in use and an update of the rows that satisfy a condition.
-/
namespace AgentSystem

section Keys

variable {ρ κ : Type*} [DecidableEq κ] {key : ρ → κ} {rows : List ρ} {row : ρ} {k : κ}

/-- With unique keys, a search for a key finds exactly the row that has it. -/
lemma find?_key_eq_some (hunique : (rows.map key).Nodup) :
    rows.find? (fun row => key row = k) = some row ↔ row ∈ rows ∧ key row = k := by
  induction rows with
  | nil => simp
  | cons head tail ih =>
      obtain ⟨hhead, htail⟩ := List.nodup_cons.mp hunique
      by_cases hk : key head = k
      · -- the head has the key, and no row of the tail has it
        have alone : ∀ other ∈ tail, key other ≠ k := by
          rintro other hother rfl
          exact hhead (hk ▸ List.mem_map_of_mem hother)
        rw [List.find?_cons_of_pos (by simpa using hk), Option.some.injEq, List.mem_cons]
        constructor
        · rintro rfl
          exact ⟨.inl rfl, hk⟩
        · rintro ⟨rfl | hmem, hrow⟩
          · rfl
          · exact absurd hrow (alone row hmem)
      · rw [List.find?_cons_of_neg (by simpa using hk), ih htail, List.mem_cons]
        constructor
        · exact fun h => ⟨.inr h.1, h.2⟩
        · rintro ⟨rfl | hmem, hrow⟩
          · exact absurd hrow hk
          · exact ⟨hmem, hrow⟩

/-- With unique keys the last row of a key is the only one. -/
lemma find?_reverse_key_eq_some (hunique : (rows.map key).Nodup) :
    rows.reverse.find? (fun row => key row = k) = some row ↔ row ∈ rows ∧ key row = k := by
  have hreverse : (rows.reverse.map key).Nodup := by
    rw [List.map_reverse]
    exact List.nodup_reverse.mpr hunique
  rw [find?_key_eq_some hreverse, List.mem_reverse]

end Keys

/-- Rows with unique keys. -/
structure KeyedTable (ρ : Type*) {κ : Type*} (key : ρ → κ) where
  rows : List ρ
  unique : (rows.map key).Nodup

namespace KeyedTable

variable {ρ κ : Type*} [DecidableEq κ] {key : ρ → κ}

def empty : KeyedTable ρ key := ⟨[], List.nodup_nil⟩

/-- The row with this key. -/
def lookup (t : KeyedTable ρ key) (k : κ) : Option ρ := t.rows.find? fun row => key row = k

/-- The table with the row at its end, `none` when its key is in use. -/
def insert (t : KeyedTable ρ key) (row : ρ) : Option (KeyedTable ρ key) :=
  if h : key row ∈ t.rows.map key then none
  else
    some
      { rows := t.rows ++ [row]
        unique := by
          rw [List.map_append, List.map_singleton]
          exact t.unique.append (List.nodup_singleton _) (by simpa using h) }

/-- The table with `f` applied to the rows that satisfy `p`. -/
def update (t : KeyedTable ρ key) (p : ρ → Bool) (f : ρ → ρ) (keeps : ∀ row, key (f row) = key row) :
    KeyedTable ρ key where
  rows := t.rows.map fun row => if p row then f row else row
  unique := by
    have same : (key ∘ fun row => if p row then f row else row) = key := by
      funext row
      simp only [Function.comp_apply]
      split_ifs
      · exact keeps row
      · rfl
    rw [List.map_map, same]
    exact t.unique

/-- The table with the row, or with `merge` applied to the row that has its key. -/
def upsert (t : KeyedTable ρ key) (row : ρ) (merge : ρ → ρ)
    (keeps : ∀ row, key (merge row) = key row) : KeyedTable ρ key :=
  (t.insert row).getD (t.update (fun other => key other = key row) merge keeps)

/-- The table without the rows that satisfy `p`. -/
def delete (t : KeyedTable ρ key) (p : ρ → Bool) : KeyedTable ρ key where
  rows := t.rows.filter fun row => !p row
  unique := t.unique.sublist (List.filter_sublist.map key)

/-- The number of rows that satisfy `p`. -/
def count (t : KeyedTable ρ key) (p : ρ → Bool) : ℕ := t.rows.countP p

variable {t t' : KeyedTable ρ key} {row : ρ} {k : κ}

lemma lookup_eq_some : t.lookup k = some row ↔ row ∈ t.rows ∧ key row = k :=
  find?_key_eq_some t.unique

lemma lookup_eq_none : t.lookup k = none ↔ k ∉ t.rows.map key := by
  simp [lookup]

lemma insert_rows (h : t.insert row = some t') : t'.rows = t.rows ++ [row] := by
  unfold insert at h
  split_ifs at h
  cases h
  rfl

lemma insert_lookup_eq_none (h : t.insert row = some t') : t.lookup (key row) = none := by
  unfold insert at h
  split_ifs at h with hnew
  exact lookup_eq_none.mpr hnew

lemma insert_isSome : (t.insert row).isSome ↔ t.lookup (key row) = none := by
  rw [lookup_eq_none]
  unfold insert
  split_ifs with hnew <;> simp [hnew]

lemma lookup_insert (h : t.insert row = some t') (k : κ) :
    t'.lookup k = if key row = k then some row else t.lookup k := by
  have hnew := insert_lookup_eq_none h
  unfold lookup at hnew ⊢
  rw [insert_rows h, List.find?_append]
  by_cases hk : key row = k
  · subst hk
    simp [hnew]
  · simp [hk]

lemma lookup_update {p : ρ → Bool} {f : ρ → ρ} (keeps : ∀ row, key (f row) = key row) (k : κ) :
    (t.update p f keeps).lookup k = (t.lookup k).map fun row => if p row then f row else row := by
  have same : ((fun row => decide (key row = k)) ∘ fun row => if p row then f row else row) =
      fun row => decide (key row = k) := by
    funext row
    simp only [Function.comp_apply]
    split_ifs
    · rw [keeps row]
    · rfl
  simp only [lookup, update, List.find?_map, same]

lemma lookup_upsert {merge : ρ → ρ} (keeps : ∀ row, key (merge row) = key row) (k : κ) :
    (t.upsert row merge keeps).lookup k =
      if key row = k then some (((t.lookup k).map merge).getD row) else t.lookup k := by
  unfold upsert
  cases hinsert : t.insert row with
  | some t' =>
      rw [Option.getD_some, lookup_insert hinsert]
      by_cases hk : key row = k
      · subst hk
        simp [insert_lookup_eq_none hinsert]
      · rw [if_neg hk, if_neg hk]
  | none =>
      have hused : (t.lookup (key row)).isSome := by
        by_contra hfree
        rw [Bool.not_eq_true, Option.isSome_eq_false_iff, Option.isNone_iff_eq_none] at hfree
        have hinserted := insert_isSome.mpr hfree
        rw [hinsert] at hinserted
        cases hinserted
      rw [Option.getD_none, lookup_update]
      by_cases hk : key row = k
      · subst hk
        obtain ⟨old, hold⟩ := Option.isSome_iff_exists.mp hused
        have hkey := (lookup_eq_some.mp hold).2
        simp [hold, hkey]
      · rw [if_neg hk]
        cases hlookup : t.lookup k with
        | none => rfl
        | some other =>
            have hother : key other ≠ key row := by
              rw [(lookup_eq_some.mp hlookup).2]
              exact Ne.symm hk
            simp [hother]

lemma lookup_delete {p : ρ → Bool} (k : κ) :
    (t.delete p).lookup k = (t.lookup k).filter fun row => !p row := by
  apply Option.ext
  intro row
  rw [lookup_eq_some, Option.filter_eq_some_iff, lookup_eq_some]
  simp only [delete, List.mem_filter]
  tauto

/-- A condition that asks for a key is satisfied once, by the row of that key, or not at all. -/
lemma count_eq_one {p : ρ → Bool} (hp : ∀ row, p row = true → key row = k) :
    t.count p = 1 ↔ ∃ row, t.lookup k = some row ∧ p row = true := by
  constructor
  · intro h
    obtain ⟨row, hrow, hpr⟩ := List.countP_pos_iff.mp (h ▸ Nat.one_pos : 0 < t.count p)
    exact ⟨row, lookup_eq_some.mpr ⟨hrow, hp row hpr⟩, hpr⟩
  · rintro ⟨row, hlookup, hpr⟩
    obtain ⟨hrow, hkey⟩ := lookup_eq_some.mp hlookup
    have hpos : 0 < t.count p := List.countP_pos_iff.mpr ⟨row, hrow, hpr⟩
    have hle : t.count p ≤ (t.rows.map key).count k := by
      rw [List.count_eq_countP, List.countP_map]
      exact List.countP_mono_left fun other _ hother => by simp [hp other hother]
    have := List.nodup_iff_count_le_one.mp t.unique k
    omega

end KeyedTable

end AgentSystem
