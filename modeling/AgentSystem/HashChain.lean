import Mathlib.Data.List.Induction
import Mathlib.Data.List.Nodup
import Mathlib.Data.Set.Function

/-!
# Hash chains

Rows that carry a hash of their own and that of the row before them. A chain is valid when every row
names the hash before it and its own hash is the digest of its contents.
-/
namespace AgentSystem.HashChain

/-- How to read the two hashes of a row and to compute the digest of its contents. -/
structure Format (ρ η : Type) where
  previous : ρ → η
  current : ρ → η
  digest : ρ → η

variable {ρ η : Type} (f : Format ρ η)

/-- Every row names the hash of the row before it, the first one the origin. -/
def Linked (origin : η) : List ρ → Prop
  | [] => True
  | row :: rows => f.previous row = origin ∧ Linked (f.current row) rows

/-- The hash that the next row names. -/
def last (origin : η) (rows : List ρ) : η := (rows.getLast?.map f.current).getD origin

structure Valid (origin : η) (rows : List ρ) : Prop where
  linked : Linked f origin rows
  hashed : ∀ row ∈ rows, f.current row = f.digest row

variable {f} {origin : η} {rows more : List ρ}

@[simp] lemma last_nil : last f origin [] = origin := rfl

@[simp] lemma last_concat (row : ρ) : last f origin (rows ++ [row]) = f.current row := by
  simp [last]

lemma last_cons (row : ρ) : last f origin (row :: rows) = last f (f.current row) rows := by
  unfold last
  rw [List.getLast?_cons]
  cases rows.getLast? with
  | none => rfl
  | some row => rfl

lemma linked_append :
    Linked f origin (rows ++ more) ↔ Linked f origin rows ∧ Linked f (last f origin rows) more := by
  induction rows generalizing origin with
  | nil => simp [Linked]
  | cons row rows ih => rw [List.cons_append, Linked, Linked, ih, last_cons, and_assoc]

lemma valid_append : Valid f origin (rows ++ more) ↔
    Valid f origin rows ∧ Valid f (last f origin rows) more := by
  constructor
  · rintro ⟨hlinked, hhashed⟩
    obtain ⟨hfirst, hsecond⟩ := linked_append.mp hlinked
    exact ⟨⟨hfirst, fun row hrow => hhashed row (List.mem_append_left _ hrow)⟩,
      hsecond, fun row hrow => hhashed row (List.mem_append_right _ hrow)⟩
  · rintro ⟨hfirst, hsecond⟩
    refine ⟨linked_append.mpr ⟨hfirst.linked, hsecond.linked⟩, fun row hrow => ?_⟩
    exact (List.mem_append.mp hrow).elim (hfirst.hashed row) (hsecond.hashed row)

lemma valid_cons {row : ρ} : Valid f origin (row :: rows) ↔
    f.previous row = origin ∧ f.current row = f.digest row ∧ Valid f (f.current row) rows := by
  constructor
  · rintro ⟨⟨hprevious, hlinked⟩, hhashed⟩
    exact ⟨hprevious, hhashed row (by simp), hlinked,
      fun other hother => hhashed other (List.mem_cons_of_mem _ hother)⟩
  · rintro ⟨hprevious, hcurrent, hvalid⟩
    refine ⟨⟨hprevious, hvalid.linked⟩, fun other hother => ?_⟩
    rcases List.mem_cons.mp hother with rfl | hmem
    · exact hcurrent
    · exact hvalid.hashed other hmem

/-- Links only depend on the two hashes of each row. -/
lemma linked_map {g : ρ → ρ} (hprevious : ∀ row ∈ rows, f.previous (g row) = f.previous row)
    (hcurrent : ∀ row ∈ rows, f.current (g row) = f.current row) :
    Linked f origin (rows.map g) ↔ Linked f origin rows := by
  induction rows generalizing origin with
  | nil => rfl
  | cons row rows ih =>
      rw [List.map_cons, Linked, Linked, hprevious row (by simp), hcurrent row (by simp),
        ih (fun other hother => hprevious other (List.mem_cons_of_mem _ hother))
          fun other hother => hcurrent other (List.mem_cons_of_mem _ hother)]

/-- A linked chain whose hashes were computed from the written inputs, with contents changed since:
it is valid when the check computes the hashes from the same inputs. -/
theorem Linked.valid_map_iff {ι : Type} {hash : ι → η} {written checked : ρ → ι} {g : ρ → ρ}
    (h : Linked f origin rows) (hprevious : ∀ row ∈ rows, f.previous (g row) = f.previous row)
    (hkept : ∀ row ∈ rows, f.current (g row) = f.current row)
    (hcurrent : ∀ row ∈ rows, f.current row = hash (written row))
    (hdigest : ∀ row ∈ rows, f.digest (g row) = hash (checked (g row)))
    (hinj : Set.InjOn hash {input | input ∈ rows.map written ++ (rows.map g).map checked}) :
    Valid f origin (rows.map g) ↔ ∀ row ∈ rows, written row = checked (g row) := by
  have hrow : ∀ row ∈ rows,
      (f.current (g row) = f.digest (g row) ↔ written row = checked (g row)) := by
    intro row hmem
    rw [hkept row hmem, hcurrent row hmem, hdigest row hmem]
    refine ⟨fun heq => hinj ?_ ?_ heq, fun heq => by rw [heq]⟩
    · exact List.mem_append_left _ (List.mem_map_of_mem hmem)
    · exact List.mem_append_right _ (List.mem_map_of_mem (List.mem_map_of_mem hmem))
  constructor
  · intro hvalid row hmem
    exact (hrow row hmem).mp (hvalid.hashed _ (List.mem_map_of_mem hmem))
  · intro hsame
    refine ⟨(linked_map hprevious hkept).mpr h, fun row hmem => ?_⟩
    obtain ⟨before, hbefore, rfl⟩ := List.mem_map.mp hmem
    exact (hrow before hbefore).mpr (hsame before hbefore)

lemma Linked.valid_iff {ι : Type} {hash : ι → η} {written checked : ρ → ι}
    (h : Linked f origin rows) (hcurrent : ∀ row ∈ rows, f.current row = hash (written row))
    (hdigest : ∀ row ∈ rows, f.digest row = hash (checked row))
    (hinj : Set.InjOn hash {input | input ∈ rows.map written ++ rows.map checked}) :
    Valid f origin rows ↔ ∀ row ∈ rows, written row = checked row := by
  have hvalid := h.valid_map_iff (g := id) (fun _ _ => rfl) (fun _ _ => rfl) hcurrent hdigest
  rw [List.map_id] at hvalid
  exact hvalid hinj

lemma Linked.first (h : Linked f origin rows) (hrows : 0 < rows.length) :
    f.previous rows[0] = origin := by
  cases rows with
  | nil => cases hrows
  | cons row rows => exact h.1

lemma Linked.next (h : Linked f origin rows) {k : ℕ} (hk : k + 1 < rows.length) :
    f.previous rows[k + 1] = f.current rows[k] := by
  induction rows generalizing origin k with
  | nil => cases hk
  | cons row rows ih =>
      cases k with
      | zero => exact h.2.first (Nat.lt_of_succ_lt_succ hk)
      | succ k => exact ih h.2 (Nat.lt_of_succ_lt_succ hk)

lemma Linked.previous_mem (h : Linked f origin rows) {row : ρ} (hrow : row ∈ rows) :
    f.previous row = origin ∨ ∃ before ∈ rows, f.previous row = f.current before := by
  induction rows generalizing origin with
  | nil => cases hrow
  | cons first rows ih =>
      rcases List.mem_cons.mp hrow with rfl | hmem
      · exact .inl h.1
      · rcases ih h.2 hmem with heq | ⟨before, hbefore, heq⟩
        · exact .inr ⟨first, List.mem_cons_self, heq⟩
        · exact .inr ⟨before, List.mem_cons_of_mem _ hbefore, heq⟩

/-- The hashes of a valid chain are all different, when digests tell the hash before them and none
of them is the origin. -/
theorem Valid.nodup (h : Valid f origin rows)
    (hinj : ∀ row ∈ rows, ∀ other ∈ rows, f.digest row = f.digest other →
      f.previous row = f.previous other)
    (horigin : ∀ row ∈ rows, f.digest row ≠ origin) : (rows.map f.current).Nodup := by
  have hdiffer : ∀ i j, i < j → ∀ hj : j < rows.length, ∀ hi : i < rows.length,
      f.current rows[i] ≠ f.current rows[j] := by
    intro i
    induction i with
    | zero =>
        intro j hij hj hi heq
        obtain ⟨j, rfl⟩ := Nat.exists_eq_succ_of_ne_zero (Nat.ne_of_gt hij)
        have hmem := List.getElem_mem hi
        rw [h.hashed _ hmem, h.hashed _ (List.getElem_mem hj)] at heq
        have hprevious := hinj _ hmem _ (List.getElem_mem hj) heq
        rw [h.linked.first hi, h.linked.next hj] at hprevious
        have hbefore := List.getElem_mem (Nat.lt_of_succ_lt hj)
        rw [h.hashed _ hbefore] at hprevious
        exact horigin _ hbefore hprevious.symm
    | succ i ih =>
        intro j hij hj hi heq
        obtain ⟨j, rfl⟩ := Nat.exists_eq_succ_of_ne_zero (Nat.ne_of_gt (Nat.zero_lt_of_lt hij))
        have hmem := List.getElem_mem hi
        rw [h.hashed _ hmem, h.hashed _ (List.getElem_mem hj)] at heq
        have hprevious := hinj _ hmem _ (List.getElem_mem hj) heq
        rw [h.linked.next hi, h.linked.next hj] at hprevious
        exact ih j (Nat.lt_of_succ_lt_succ hij) _ _ hprevious
  rw [List.nodup_iff_pairwise_ne, List.pairwise_map, List.pairwise_iff_getElem]
  exact fun i j hi hj hij => hdiffer i j hij hj hi

/-- The last hash of a chain commits to all hashes before it. -/
theorem Linked.hashes_eq {rows' : List ρ} (h : Linked f origin rows) (h' : Linked f origin rows')
    (hinj : ∀ row ∈ rows, ∀ row' ∈ rows', f.current row = f.current row' →
      f.previous row = f.previous row')
    (horigin : ∀ row ∈ rows, f.current row ≠ origin)
    (horigin' : ∀ row ∈ rows', f.current row ≠ origin)
    (hlast : last f origin rows = last f origin rows') :
    rows.map f.current = rows'.map f.current := by
  induction rows using List.reverseRecOn generalizing rows' with
  | nil =>
      rcases List.eq_nil_or_concat rows' with rfl | ⟨before, row, rfl⟩
      · rfl
      · rw [last_nil, List.concat_eq_append, last_concat] at hlast
        exact absurd hlast.symm (horigin' row (by simp))
  | append_singleton rows row ih =>
      rcases List.eq_nil_or_concat rows' with rfl | ⟨rows', row', rfl⟩
      · rw [last_nil, last_concat] at hlast
        exact absurd hlast (horigin row (by simp))
      · simp only [List.concat_eq_append] at h' hinj horigin' hlast ⊢
        rw [last_concat, last_concat] at hlast
        rw [linked_append] at h h'
        have hprevious := hinj row (by simp) row' (by simp) hlast
        have hbefore : last f origin rows = last f origin rows' :=
          h.2.1.symm.trans (hprevious.trans h'.2.1)
        rw [List.map_append, List.map_append, ih h.1 h'.1 ?_ ?_ ?_ hbefore, List.map_singleton,
          List.map_singleton, hlast]
        · exact fun x hx y hy =>
            hinj x (List.mem_append_left _ hx) y (List.mem_append_left _ hy)
        · exact fun x hx => horigin x (List.mem_append_left _ hx)
        · exact fun x hx => horigin' x (List.mem_append_left _ hx)

/-- The last hash only depends on the hashes of the rows. -/
lemma last_eq_of_hashes {rows' : List ρ} (h : rows.map f.current = rows'.map f.current) :
    last f origin rows = last f origin rows' := by
  rw [last, last, ← List.getLast?_map, ← List.getLast?_map, h]

lemma last_append : last f origin (rows ++ more) = last f (last f origin rows) more := by
  induction rows generalizing origin with
  | nil => rfl
  | cons row rows ih => rw [List.cons_append, last_cons, ih, last_cons]
end AgentSystem.HashChain
