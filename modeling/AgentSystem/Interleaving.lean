import Mathlib.Data.Set.Card
import Mathlib.Logic.Function.Basic

/-!
# Processes over a shared store

Processes that take steps in any order. A step reads the store and the state of its own process and
replaces both; the input says which step it is where more than one is possible.
-/
namespace AgentSystem.Interleaving

/-- The store, and where each process is. -/
structure World (ι σ π : Type) where
  store : σ
  proc : ι → π

/-- What an input makes of the store and of the process that takes it, `none` where it has none. -/
abbrev Program (ε σ π : Type) := ε → σ → π → Option (σ × π)

variable {ι σ π ε : Type} [DecidableEq ι] (next : Program ε σ π)

namespace World

variable (s : World ι σ π)

def step (i : ι) (input : ε) : Option (World ι σ π) :=
  (next input s.store (s.proc i)).map fun after => ⟨after.1, Function.update s.proc i after.2⟩

/-- The steps one after the other, `none` if one of them is impossible. -/
def run (s : World ι σ π) : List (ι × ε) → Option (World ι σ π)
  | [] => some s
  | action :: actions => (s.step next action.1 action.2).bind (run · actions)

/-- Every step of the run meets a condition on the world before it. -/
def Throughout (condition : World ι σ π → ι → ε → Prop) (s : World ι σ π) : List (ι × ε) → Prop
  | [] => True
  | action :: actions =>
      condition s action.1 action.2 ∧
        ∀ s', s.step next action.1 action.2 = some s' → Throughout condition s' actions

end World

variable {next} {s s' : World ι σ π} {i : ι} {input : ε}

lemma step_eq_some (h : s.step next i input = some s') :
    ∃ store p, next input s.store (s.proc i) = some (store, p) ∧
      s' = ⟨store, Function.update s.proc i p⟩ := by
  obtain ⟨⟨store, p⟩, hnext, heq⟩ := Option.map_eq_some_iff.mp h
  exact ⟨store, p, hnext, heq.symm⟩

section Processes

variable {store : σ} {proc : ι → π} {p : π} {j : ι}

@[simp] lemma proc_self : (World.mk store (Function.update proc i p)).proc i = p :=
  Function.update_self i p proc

lemma proc_of_ne (h : j ≠ i) : (World.mk store (Function.update proc i p)).proc j = proc j :=
  Function.update_of_ne h p proc

/-- The process that has taken a step, and the others. -/
lemma forall_proc {P : ι → π → Prop} (hself : P i p) (hothers : ∀ j, j ≠ i → P j (proc j)) (j : ι) :
    P j ((World.mk store (Function.update proc i p)).proc j) := by
  by_cases hj : j = i
  · subst hj
    rwa [proc_self]
  · rw [proc_of_ne hj]
    exact hothers j hj

/-- The processes of which something holds. -/
def those (s : World ι σ π) (P : π → Prop) : Set ι := {i | P (s.proc i)}

variable {P : π → Prop} {s : World ι σ π} {n : ℕ}

lemma those_same (h : P p ↔ P (s.proc i)) :
    those ⟨store, Function.update s.proc i p⟩ P = those s P := by
  ext j
  by_cases hj : j = i
  · subst hj
    simpa [those] using h
  · simp [those, hj]

omit [DecidableEq ι] in
lemma those_pos (hbefore : P (s.proc i)) (h : (those s P).encard = n) : 0 < n := by
  rw [Nat.pos_iff_ne_zero]
  rintro rfl
  have hempty := Set.encard_eq_zero.mp h
  exact Set.notMem_empty i (hempty ▸ hbefore : i ∈ (∅ : Set ι))

/-- One process more. -/
lemma those_join (hp : P p) (hbefore : ¬ P (s.proc i)) (h : (those s P).encard = n) :
    (those ⟨store, Function.update s.proc i p⟩ P).encard = (n + 1 : ℕ) := by
  have hinsert : those ⟨store, Function.update s.proc i p⟩ P = insert i (those s P) := by
    ext j
    by_cases hj : j = i
    · subst hj
      simpa [those] using hp
    · simp [those, hj]
  have hnew : i ∉ those s P := hbefore
  rw [hinsert, Set.encard_insert_of_notMem hnew, h]
  rfl

/-- One process less. -/
lemma those_leave (hp : ¬ P p) (hbefore : P (s.proc i)) (h : (those s P).encard = (n + 1 : ℕ)) :
    (those ⟨store, Function.update s.proc i p⟩ P).encard = n := by
  have hremoved : those ⟨store, Function.update s.proc i p⟩ P = those s P \ {i} := by
    ext j
    by_cases hj : j = i
    · subst hj
      simpa [those] using hp
    · simp [those, hj]
  have hold : i ∈ those s P := hbefore
  have hcount := Set.encard_sdiff_singleton_add_one hold
  rw [← hremoved, h, Nat.cast_succ] at hcount
  exact WithTop.add_right_cancel ENat.one_ne_top hcount

end Processes

/-- What one step preserves under a condition holds after every run that meets the condition. -/
theorem run_induction {condition : World ι σ π → ι → ε → Prop} {I : World ι σ π → Prop}
    (hstep : ∀ s i input s', I s → condition s i input → s.step next i input = some s' → I s')
    {actions : List (ι × ε)} (hs : I s) (hrun : s.run next actions = some s')
    (hthroughout : s.Throughout next condition actions) : I s' := by
  induction actions generalizing s with
  | nil =>
      cases hrun
      exact hs
  | cons action actions ih =>
      obtain ⟨middle, hmiddle, hrest⟩ := Option.bind_eq_some_iff.mp hrun
      obtain ⟨hcondition, hafter⟩ := hthroughout
      exact ih (hstep s action.1 action.2 middle hs hcondition hmiddle) hrest
        (hafter middle hmiddle)

/-- What every step preserves holds after every run. -/
theorem run_invariant {I : World ι σ π → Prop}
    (hstep : ∀ s i input s', I s → s.step next i input = some s' → I s')
    {actions : List (ι × ε)} (hs : I s) (hrun : s.run next actions = some s') : I s' := by
  induction actions generalizing s with
  | nil =>
      cases hrun
      exact hs
  | cons action actions ih =>
      obtain ⟨middle, hmiddle, hrest⟩ := Option.bind_eq_some_iff.mp hrun
      exact ih (hstep s action.1 action.2 middle hs hmiddle) hrest

/-- A process that takes no step of a run stays where it is. -/
lemma proc_run {actions : List (ι × ε)} (hrun : s.run next actions = some s') {j : ι}
    (h : ∀ action ∈ actions, action.1 ≠ j) : s'.proc j = s.proc j := by
  induction actions generalizing s with
  | nil =>
      cases hrun
      rfl
  | cons action actions ih =>
      obtain ⟨haction, hactions⟩ := List.forall_mem_cons.mp h
      obtain ⟨middle, hmiddle, hrest⟩ := Option.bind_eq_some_iff.mp hrun
      obtain ⟨store, p, -, rfl⟩ := step_eq_some hmiddle
      rw [ih hrest hactions, proc_of_ne (Ne.symm haction)]

section Conditions

variable {condition : World ι σ π → ι → ε → Prop} {actions later : List (ι × ε)}

lemma throughout_append : s.Throughout next condition (actions ++ later) ↔
    s.Throughout next condition actions ∧
      ∀ s', s.run next actions = some s' → s'.Throughout next condition later := by
  induction actions generalizing s with
  | nil => simp [World.Throughout, World.run]
  | cons action actions ih =>
      simp only [List.cons_append, World.Throughout, World.run, ih, and_assoc, and_congr_right_iff,
        Option.bind_eq_some_iff]
      intro _
      constructor
      · intro h
        refine ⟨fun middle hmiddle => (h middle hmiddle).1, ?_⟩
        rintro s' ⟨middle, hmiddle, hrest⟩
        exact (h middle hmiddle).2 s' hrest
      · rintro ⟨hactions, hlater⟩ middle hmiddle
        exact ⟨hactions middle hmiddle, fun s' hrest => hlater s' ⟨middle, hmiddle, hrest⟩⟩

lemma throughout_of_forall (h : ∀ action ∈ actions, ∀ s, condition s action.1 action.2) :
    s.Throughout next condition actions := by
  induction actions generalizing s with
  | nil => trivial
  | cons action actions ih =>
      obtain ⟨haction, hactions⟩ := List.forall_mem_cons.mp h
      exact ⟨haction s, fun middle _ => ih hactions⟩

lemma throughout_mono {weaker : World ι σ π → ι → ε → Prop}
    (hweaker : ∀ s i input, condition s i input → weaker s i input)
    (h : s.Throughout next condition actions) : s.Throughout next weaker actions := by
  induction actions generalizing s with
  | nil => trivial
  | cons action actions ih => exact ⟨hweaker _ _ _ h.1, fun middle hstep => ih (h.2 middle hstep)⟩

instance decidableThroughout [∀ s i input, Decidable (condition s i input)] :
    ∀ (actions : List (ι × ε)) (s : World ι σ π), Decidable (s.Throughout next condition actions)
  | [], _ => inferInstanceAs (Decidable True)
  | action :: actions, s =>
      let after : Decidable (∀ s', s.step next action.1 action.2 = some s' →
          s'.Throughout next condition actions) :=
        match hstep : s.step next action.1 action.2 with
        | none => .isTrue (by simp)
        | some middle =>
            have := decidableThroughout actions middle
            decidable_of_iff (middle.Throughout next condition actions) (by simp)
      inferInstanceAs (Decidable (_ ∧ _))

end Conditions

end AgentSystem.Interleaving
