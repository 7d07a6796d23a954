import Mathlib

/-!
# Following pages

A list that is read page by page. Every page is cut from a window of one row more than fits on it,
whose last row only tells that another page follows.
-/
namespace AgentSystem.Pages

variable {ε α ρ σ : Type}

/-- The items of all pages from a cursor on, `none` when the fuel runs out. -/
def followPages (fetch : σ → Except ε (List α × Option σ)) : ℕ → σ → Option (Except ε (List α))
  | 0, _ => none
  | fuel + 1, cursor =>
    match fetch cursor with
    | .error error => some (.error error)
    | .ok (items, none) => some (.ok items)
    | .ok (items, some next) => (followPages fetch fuel next).map fun rest => rest.map (items ++ ·)

/-- Every row gives one item, in order. -/
def Yields (load : ρ → Except ε α) (rows : List ρ) (items : List α) : Prop :=
  List.Forall₂ (fun row item => load row = .ok item) rows items

lemma mapM_iff {load : ρ → Except ε α} {rows : List ρ} {items : List α} :
    rows.mapM load = .ok items ↔ Yields load rows items := by
  induction rows generalizing items with
  | nil =>
      rw [List.mapM_nil, Yields, List.forall₂_nil_left_iff, eq_comm]
      exact ⟨Except.ok.inj, congrArg Except.ok⟩
  | cons row rows ih =>
      rw [List.mapM_cons]
      cases hload : load row with
      | error error =>
          refine iff_of_false nofun ?_
          rintro (_ | ⟨hitem, -⟩)
          rw [hload] at hitem
          cases hitem
      | ok item =>
          cases hrest : rows.mapM load with
          | error error =>
              refine iff_of_false nofun ?_
              rintro (_ | ⟨-, hrows⟩)
              rw [hrest] at ih
              cases ih.mpr hrows
          | ok rest =>
              rw [hrest] at ih
              constructor
              · intro h
                cases h
                exact .cons hload (ih.mp rfl)
              · rintro (_ | ⟨hitem, hrows⟩)
                rw [hload] at hitem
                cases hitem
                cases ih.mpr hrows
                rfl

lemma Yields.mapM {load : ρ → Except ε α} {rows : List ρ} {items : List α}
    (h : Yields load rows items) : rows.mapM load = .ok items :=
  mapM_iff.mpr h

/-- Rows that can all be loaded give an item each. -/
lemma exists_yields {load : ρ → Except ε α} {rows : List ρ}
    (h : ∀ row ∈ rows, ∃ item, load row = .ok item) : ∃ items, Yields load rows items := by
  induction rows with
  | nil => exact ⟨[], .nil⟩
  | cons row rows ih =>
      obtain ⟨item, hitem⟩ := h row List.mem_cons_self
      obtain ⟨items, hitems⟩ := ih fun other hother => h other (List.mem_cons_of_mem _ hother)
      exact ⟨item :: items, .cons hitem hitems⟩

/-- `LIMIT limit + 1 OFFSET offset`. -/
def window (rows : List ρ) (limit offset : ℕ) : List ρ := (rows.drop offset).take (limit + 1)

/-- The page at an offset, with the offset of the next one when the window is full. -/
def loadPage (load : ρ → Except ε α) (rows : List ρ) (limit offset : ℕ) :
    Except ε (List α × Option ℕ) :=
  (((window rows limit offset).take limit).mapM load).map fun items =>
    (items, if limit < (window rows limit offset).length then some (offset + limit) else none)

lemma window_take (rows : List ρ) (limit offset : ℕ) :
    (window rows limit offset).take limit = (rows.drop offset).take limit := by
  rw [window, List.take_take, min_eq_left (Nat.le_succ limit)]

/-- The window is full exactly if rows are left after the page. -/
lemma lt_length_window (rows : List ρ) (limit offset : ℕ) :
    limit < (window rows limit offset).length ↔ offset + limit < rows.length := by
  rw [window, List.length_take, List.length_drop]
  omega

/-- The last page. -/
lemma loadPage_last {load : ρ → Except ε α} {rows : List ρ} {limit offset : ℕ}
    (hlast : rows.length ≤ offset + limit) :
    loadPage load rows limit offset = ((rows.drop offset).mapM load).map fun items =>
      (items, none) := by
  have hshort : (rows.drop offset).take limit = rows.drop offset := by
    apply List.take_of_length_le
    rw [List.length_drop]
    omega
  rw [loadPage, window_take, hshort]
  simp only [lt_length_window, not_lt.mpr hlast, if_false]

lemma loadPage_more {load : ρ → Except ε α} {rows : List ρ} {limit offset : ℕ}
    (hmore : offset + limit < rows.length) :
    loadPage load rows limit offset = (((rows.drop offset).take limit).mapM load).map fun items =>
      (items, some (offset + limit)) := by
  rw [loadPage, window_take]
  simp only [lt_length_window, hmore, if_true]

/-- The rows from an offset on are those of a page and those after it. -/
lemma mapM_page (load : ρ → Except ε α) (rows : List ρ) (limit offset : ℕ) :
    (rows.drop offset).mapM load =
      ((rows.drop offset).take limit).mapM load >>= fun items =>
        ((rows.drop (offset + limit)).mapM load).map (items ++ ·) := by
  conv_lhs => rw [← List.take_append_drop limit (rows.drop offset), List.mapM_append,
    List.drop_drop]
  rfl

variable {fetch : σ → Except ε (List α × Option σ)} {cursor : ℕ → σ} {load : ρ → Except ε α}
  {rows : List ρ} {limit : ℕ}

/-- Following the pages of a list loads the whole list in order, when a page holds a row at least. -/
theorem followPages_eq (hlimit : 1 ≤ limit)
    (hfetch : ∀ offset, fetch (cursor offset) =
      (loadPage load rows limit offset).map fun page => (page.1, page.2.map cursor))
    {fuel offset : ℕ} (hfuel : rows.length - offset < fuel) :
    followPages fetch fuel (cursor offset) = some ((rows.drop offset).mapM load) := by
  induction fuel generalizing offset with
  | zero => exact absurd hfuel (Nat.not_lt_zero _)
  | succ fuel ih =>
      rw [followPages, hfetch]
      by_cases hmore : offset + limit < rows.length
      · rw [loadPage_more hmore, mapM_page load rows limit offset]
        cases hpage : ((rows.drop offset).take limit).mapM load with
        | error error => rfl
        | ok items =>
            have hrest := @ih (offset + limit) (by omega)
            change (followPages fetch fuel (cursor (offset + limit))).map _ = _
            rw [hrest]
            rfl
      · rw [loadPage_last (not_lt.mp hmore)]
        cases (rows.drop offset).mapM load with
        | error error => rfl
        | ok items => rfl

end AgentSystem.Pages
