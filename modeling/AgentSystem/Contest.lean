import Mathlib

/-!
# Contests

A place goes to the first challenger and then to whoever beats its holder. With a relation that is not
transitive, or leaves some pairs without a winner, the last holder depends on the order of the
challengers, unless one of them beats all the others.
-/
namespace AgentSystem.Contest

variable {α : Type*} (beats : α → α → Prop) [DecidableRel beats]

/-- The holder after this challenger. -/
def hold : Option α → α → α
  | none, a => a
  | some c, a => if beats a c then a else c

/-- The holder after all the challengers. -/
def holder (current : Option α) (challengers : List α) : Option α :=
  challengers.foldl (fun c a => some (hold beats c a)) current

/-- One of them, and it beats the others. -/
def Champion (m : α) (challengers : List α) : Prop :=
  m ∈ challengers ∧ ∀ a ∈ challengers, a ≠ m → beats m a

variable {beats}

@[simp] lemma holder_nil (current : Option α) : holder beats current [] = current := rfl

@[simp] lemma holder_cons (current : Option α) (a : α) (challengers : List α) :
    holder beats current (a :: challengers) =
      holder beats (some (hold beats current a)) challengers := rfl

lemma holder_append (current : Option α) (before after : List α) :
    holder beats current (before ++ after) = holder beats (holder beats current before) after :=
  List.foldl_append

lemma hold_eq (current : Option α) (a : α) :
    hold beats current a = a ∨ current = some (hold beats current a) := by
  cases current with
  | none => exact .inl rfl
  | some c =>
      rw [hold]
      split_ifs
      · exact .inl rfl
      · exact .inr rfl

lemma holder_mem {current : Option α} {challengers : List α} {c : α}
    (h : holder beats current challengers = some c) : current = some c ∨ c ∈ challengers := by
  induction challengers generalizing current with
  | nil => exact .inl h
  | cons a challengers ih =>
      rcases ih h with hhold | hmem
      · rw [Option.some.injEq] at hhold
        have hcases : hold beats current a = a ∨ current = some (hold beats current a) :=
          hold_eq current a
        rcases hcases with heq | heq
        · exact .inr (by rw [← hhold, heq]; exact List.mem_cons_self)
        · exact .inl (by rw [heq, hhold])
      · exact .inr (List.mem_cons_of_mem a hmem)

lemma holder_some (c : α) (challengers : List α) :
    ∃ c', holder beats (some c) challengers = some c' := by
  induction challengers generalizing c with
  | nil => exact ⟨c, rfl⟩
  | cons a challengers ih => exact ih _

/-- Nobody beats the holder. -/
lemma holder_keep {c : α} {challengers : List α}
    (h : ∀ a ∈ challengers, a ≠ c → ¬ beats a c) :
    holder beats (some c) challengers = some c := by
  induction challengers with
  | nil => rfl
  | cons a challengers ih =>
      have hhold : hold beats (some c) a = c := by
        by_cases heq : a = c
        · rw [hold, heq, ite_self]
        · rw [hold, if_neg (h a List.mem_cons_self heq)]
      rw [holder_cons, hhold]
      exact ih fun b hb => h b (List.mem_cons_of_mem a hb)

omit [DecidableRel beats] in
lemma Champion.perm {m : α} {challengers challengers' : List α} (h : Champion beats m challengers)
    (hperm : challengers.Perm challengers') : Champion beats m challengers' :=
  ⟨hperm.mem_iff.mp h.1, fun a ha => h.2 a (hperm.mem_iff.mpr ha)⟩

section Asymmetric

variable (hasymm : ∀ a b, beats a b → ¬ beats b a)
include hasymm

/-- A champion is the last holder. -/
theorem holder_champion {m : α} {challengers : List α} (h : Champion beats m challengers) :
    holder beats none challengers = some m := by
  obtain ⟨before, after, rfl⟩ := List.append_of_mem h.1
  have hafter : ∀ a ∈ after, a ≠ m → ¬ beats a m := by
    intro a ha hne
    apply hasymm
    exact h.2 a (List.mem_append_right before (List.mem_cons_of_mem m ha)) hne
  have hhold : hold beats (holder beats none before) m = m := by
    cases hbefore : holder beats none before with
    | none => rfl
    | some c =>
        by_cases heq : c = m
        · rw [heq, hold, ite_self]
        · have hmem : c ∈ before := (holder_mem hbefore).resolve_left (by simp)
          rw [hold, if_pos (h.2 c (List.mem_append_left _ hmem) heq)]
  rw [holder_append, holder_cons, hhold]
  exact holder_keep hafter

/-- The last holder is the same for every order exactly where there is a champion. -/
theorem holder_perm_iff {challengers : List α} (hne : challengers ≠ []) :
    (∀ xs ys : List α, xs.Perm challengers → ys.Perm challengers →
        holder beats none xs = holder beats none ys) ↔
      ∃ m, Champion beats m challengers := by
  classical
  constructor
  · intro h
    obtain ⟨first, rest, hchallengers⟩ := List.exists_cons_of_ne_nil hne
    obtain ⟨m, hm⟩ : ∃ m, holder beats none challengers = some m := by
      rw [hchallengers, holder_cons]
      exact holder_some _ _
    have hmem : m ∈ challengers := (holder_mem hm).resolve_left (by simp)
    refine ⟨m, hmem, fun a ha hne => ?_⟩
    by_contra hbeats
    -- the order in which `a` comes first, and all the copies of `m` right after it
    have hperm : (a :: ((challengers.erase a).filter (· = m) ++
        (challengers.erase a).filter (fun b => ¬ b = m))).Perm challengers := by
      apply List.Perm.trans _ (List.perm_cons_erase ha).symm
      apply List.Perm.cons
      simpa using List.filter_append_perm (fun b => decide (b = m)) (challengers.erase a)
    have hcopies : holder beats (some a) ((challengers.erase a).filter (· = m)) = some a := by
      apply holder_keep
      intro b hb _
      rw [of_decide_eq_true (List.mem_filter.mp hb).2]
      exact hbeats
    have hlast := h _ _ hperm (List.Perm.refl challengers)
    rw [hm, holder_cons, holder_append] at hlast
    change holder beats (holder beats (some a) _) _ = some m at hlast
    rw [hcopies] at hlast
    rcases holder_mem hlast with heq | hrest
    · exact hne (Option.some.inj heq)
    · exact of_decide_eq_true (List.mem_filter.mp hrest).2 rfl
  · rintro ⟨m, hm⟩ xs ys hxs hys
    rw [holder_champion hasymm (hm.perm hxs.symm), holder_champion hasymm (hm.perm hys.symm)]

/-- Two holders that challenge each other end up equal exactly where one of them wins. -/
lemma hold_comm_iff {a b : α} :
    hold beats (some a) b = hold beats (some b) a ↔ a = b ∨ beats a b ∨ beats b a := by
  have hab := hasymm a b
  simp only [hold]
  split_ifs with hba hab'
  · exact absurd hba (hab hab')
  · simp [hba]
  · simp [*]
  · simp [*]

end Asymmetric

end AgentSystem.Contest
