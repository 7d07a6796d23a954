import Mathlib

/-!
# Optimistic concurrency

Cells whose values carry a revision, and clients that hold values which they read at some time. A
write replaces the value of a cell by one with the next revision, and only when the revision of
the cell is still that of the value which the write started from.
-/
namespace AgentSystem

structure Cells (ι α : Type*) where
  cell : ι → Option α
  held : Set (ι × α)

namespace Cells

variable {ι α : Type*}

/-- The cell `i` gets the value `a` and every other cell keeps its value. -/
structure Puts (before after : ι → Option α) (i : ι) (a : α) : Prop where
  value : after i = some a
  frame : ∀ j, j ≠ i → after j = before j

inductive Step (revision : α → ℕ) : Cells ι α → Cells ι α → Prop
  | insert {s : Cells ι α} {cell : ι → Option α} {i : ι} {a : α} (absent : s.cell i = none)
      (puts : Puts s.cell cell i a) : Step revision s { s with cell := cell }
  | read {s : Cells ι α} {i : ι} {a : α} (present : s.cell i = some a) :
      Step revision s { s with held := insert (i, a) s.held }
  | write {s : Cells ι α} {cell : ι → Option α} {i : ι} {a b c : α} (holds : (i, a) ∈ s.held)
      (present : s.cell i = some c) (current : revision c = revision a)
      (next : revision b = revision a + 1) (puts : Puts s.cell cell i b) :
      Step revision s { s with cell := cell }

abbrev Steps (revision : α → ℕ) : Cells ι α → Cells ι α → Prop :=
  Relation.ReflTransGen (Step revision)

/-- A held value is older than the value of its cell, or it is that value. -/
def Coherent (revision : α → ℕ) (s : Cells ι α) : Prop :=
  ∀ i a, (i, a) ∈ s.held →
    ∃ c, s.cell i = some c ∧ revision a ≤ revision c ∧ (revision c = revision a → c = a)

/-- No cell has a value, and nothing is held. -/
def empty : Cells ι α := ⟨fun _ => none, ∅⟩

variable {revision : α → ℕ} {s t : Cells ι α} {i : ι} {a c : α}

lemma coherent_empty : (empty : Cells ι α).Coherent revision := by
  intro i a holds
  cases holds

lemma Coherent.step (h : s.Coherent revision) (hstep : Step revision s t) :
    t.Coherent revision := by
  cases hstep with
  | insert absent puts =>
      intro j a holds
      obtain ⟨c, hc, hcoherent⟩ := h j a holds
      refine ⟨c, ?_, hcoherent⟩
      rw [← hc]
      apply puts.frame
      rintro rfl
      rw [absent] at hc
      cases hc
  | @read i b present =>
      intro j a holds
      rcases Set.mem_insert_iff.mp holds with hnew | hold
      · cases hnew
        exact ⟨b, present, le_rfl, fun _ => rfl⟩
      · exact h j a hold
  | @write cell i a₀ b c₀ holds₀ present current next puts =>
      intro j a holds
      obtain ⟨c, hc, hle, hsame⟩ := h j a holds
      by_cases hj : j = i
      · -- the written value is newer than every value held of this cell
        subst hj
        rw [present, Option.some.injEq] at hc
        subst hc
        refine ⟨b, puts.value, by omega, fun heq => ?_⟩
        omega
      · exact ⟨c, (puts.frame j hj).trans hc, hle, hsame⟩

lemma Coherent.steps (h : s.Coherent revision) (hsteps : Steps revision s t) :
    t.Coherent revision := by
  induction hsteps with
  | refl => exact h
  | tail _ hstep ih => exact ih.step hstep

/-- No update is lost: in a state that steps reach from the empty one, a held value whose revision
is the current one is the current value. -/
theorem held_eq_current (hsteps : Steps revision empty s) (holds : (i, a) ∈ s.held)
    (present : s.cell i = some c) (same : revision c = revision a) : c = a := by
  obtain ⟨c', hc', -, hsame⟩ := coherent_empty.steps hsteps i a holds
  rw [present, Option.some.injEq] at hc'
  subst hc'
  exact hsame same

end Cells

end AgentSystem
