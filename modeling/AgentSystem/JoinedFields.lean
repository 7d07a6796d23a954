import Mathlib

/-!
# Joined fields

Fields that are joined by a separator which they may contain themselves. The joined text tells the parts between
the separators, and it tells the fields once it is known how many separators each of them has.
-/
namespace AgentSystem.JoinedFields

variable {α : Type} [DecidableEq α] {sep : α} {fields fields' : List (List α)} {last last' : List α}

/-- `sep.join(fields)`. -/
def join (sep : α) : List (List α) → List α
  | [] => []
  | [field] => field
  | field :: fields => field ++ sep :: join sep fields

/-- What stands between the separators. -/
def parts (sep : α) (fields : List (List α)) : List (List α) := fields.flatMap (List.splitOn sep)

omit [DecidableEq α] in
lemma join_cons (field : List α) (h : fields ≠ []) : join sep (field :: fields) = field ++ sep :: join sep fields := by
  cases fields with
  | nil => exact absurd rfl h
  | cons next fields => rfl

lemma splitOn_join (h : fields ≠ []) : (join sep fields).splitOn sep = parts sep fields := by
  induction fields with
  | nil => exact absurd rfl h
  | cons field fields ih =>
    cases fields with
    | nil => exact (List.flatMap_singleton _ _).symm
    | cons next fields =>
      rw [join_cons field (List.cons_ne_nil _ _), List.splitOn_append_cons_self, ih (List.cons_ne_nil _ _)]
      rfl

/-- The texts are equal exactly if the parts are. -/
theorem join_eq_iff (h : fields ≠ []) (h' : fields' ≠ []) :
    join sep fields = join sep fields' ↔ parts sep fields = parts sep fields' := by
  rw [← splitOn_join h, ← splitOn_join h']
  refine ⟨fun heq => by rw [heq], fun heq => ?_⟩
  have htexts := congrArg [sep].intercalate heq
  rwa [List.intercalate_splitOn, List.intercalate_splitOn] at htexts

/-- The separator after a field is told by the number of separators in the field. -/
lemma append_sep_inj {a b r s : List α} (h : a ++ sep :: r = b ++ sep :: s) (hcount : a.count sep = b.count sep) :
    a = b ∧ r = s := by
  induction a generalizing b with
  | nil =>
    cases b with
    | nil => exact ⟨rfl, (List.cons.inj h).2⟩
    | cons c b =>
      rw [← (List.cons.inj h).1, List.count_nil, List.count_cons_self] at hcount
      omega
  | cons c a ih =>
    cases b with
    | nil =>
      rw [(List.cons.inj h).1, List.count_nil, List.count_cons_self] at hcount
      omega
    | cons d b =>
      obtain ⟨rfl, htail⟩ := List.cons.inj h
      rw [List.count_cons, List.count_cons, Nat.add_right_cancel_iff] at hcount
      obtain ⟨rfl, hrest⟩ := ih htail hcount
      exact ⟨rfl, hrest⟩

/-- The text tells the fields that have a known number of separators, and the last field. -/
theorem join_inj (h : join sep (fields ++ [last]) = join sep (fields' ++ [last']))
    (hcounts : fields.map (List.count sep) = fields'.map (List.count sep)) : fields = fields' ∧ last = last' := by
  induction fields generalizing fields' with
  | nil =>
    obtain rfl := List.map_eq_nil_iff.mp hcounts.symm
    exact ⟨rfl, h⟩
  | cons field fields ih =>
    cases fields' with
    | nil => simp at hcounts
    | cons field' fields' =>
      rw [List.map_cons, List.map_cons] at hcounts
      obtain ⟨hcount, hrest⟩ := List.cons.inj hcounts
      rw [List.cons_append, List.cons_append, join_cons field (by simp), join_cons field' (by simp)] at h
      obtain ⟨rfl, htail⟩ := append_sep_inj h hcount
      obtain ⟨rfl, rfl⟩ := ih htail hrest
      exact ⟨rfl, rfl⟩

end AgentSystem.JoinedFields
