import Mathlib

/-!
# Hash trees over strings

A binary tree of hashes over a list, in which each level pairs the hashes below it and an unpaired
last one with itself. Paths of siblings lead from any element to the root, and nothing else does as
long as no two of the hashed strings collide.
-/
namespace AgentSystem.HashTree

variable (hash : String → String)

/-- The strings that are hashed for the next level. -/
def pairInputs : List String → List String
  | [] => []
  | [x] => [x ++ x]
  | x :: y :: xs => (x ++ y) :: pairInputs xs

def nextLevel (xs : List String) : List String := (pairInputs xs).map hash

/-- The levels from these hashes up to a single one, at most so many more. -/
def levels : ℕ → List String → List (List String)
  | 0, xs => [xs]
  | n + 1, xs => if xs.length ≤ 1 then [xs] else xs :: levels n (nextLevel hash xs)

/-- The last level. -/
def top : ℕ → List String → List String
  | 0, xs => xs
  | n + 1, xs => if xs.length ≤ 1 then xs else top n (nextLevel hash xs)

/-- The strings that are hashed for all levels above these hashes. -/
def nodeInputs : ℕ → List String → List String
  | 0, _ => []
  | n + 1, xs =>
      if xs.length ≤ 1 then [] else pairInputs xs ++ nodeInputs n (nextLevel hash xs)

/-- The strings of a tree: its leaves, and what is hashed for its nodes. -/
def treeInputs (leaves : List String) : List String :=
  leaves ++ nodeInputs hash leaves.length (leaves.map hash)

/-- The root over a list of leaves. -/
def root (leaves : List String) : String :=
  (top hash leaves.length (leaves.map hash)).getD 0 ""

inductive Side
  | left
  | right
  deriving DecidableEq

/-- A sibling and the side on which it stands. -/
structure Step where
  sibling : String
  side : Side
  deriving DecidableEq

def Step.combine (s : Step) (current : String) : String :=
  match s.side with
  | .left => s.sibling ++ current
  | .right => current ++ s.sibling

def climb (current : String) : List Step → String
  | [] => current
  | s :: steps => climb (hash (s.combine current)) steps

/-- The strings that are hashed on the way up. -/
def climbInputs (current : String) : List Step → List String
  | [] => []
  | s :: steps => s.combine current :: climbInputs (hash (s.combine current)) steps

/-- The step from a position of a level, where an unpaired last hash is its own sibling. -/
def siblingStep (level : List String) (i : ℕ) : Step :=
  if i % 2 = 0 then ⟨level.getD (i + 1) (level.getD i ""), .right⟩
  else ⟨level.getD (i - 1) "", .left⟩

/-- The steps from a position through these levels. -/
def path : List (List String) → ℕ → List Step
  | [], _ => []
  | level :: levels, i => siblingStep level i :: path levels (i / 2)

variable {hash}

/-! ## Levels -/

lemma pairInputs_length (xs : List String) : (pairInputs xs).length = (xs.length + 1) / 2 := by
  fun_induction pairInputs xs with
  | case1 => rfl
  | case2 x => simp
  | case3 x y xs ih =>
      simp only [List.length_cons, ih]
      omega

lemma nextLevel_length (xs : List String) : (nextLevel hash xs).length = (xs.length + 1) / 2 := by
  rw [nextLevel, List.length_map, pairInputs_length]

lemma pairInputs_getD (xs : List String) (k : ℕ) (hk : 2 * k < xs.length) :
    (pairInputs xs).getD k "" = xs.getD (2 * k) "" ++ xs.getD (2 * k + 1) (xs.getD (2 * k) "") := by
  induction xs using pairInputs.induct generalizing k with
  | case1 => simp at hk
  | case2 x =>
      have hk0 : k = 0 := by
        simp only [List.length_singleton] at hk
        omega
      subst hk0
      simp [pairInputs]
  | case3 x y xs ih =>
      cases k with
      | zero => simp [pairInputs]
      | succ k =>
          simp only [List.length_cons] at hk
          have := ih k (by omega)
          rw [pairInputs, List.getD_cons_succ, this]
          simp only [Nat.mul_add, Nat.mul_one, List.getD_cons_succ]

/-- One step of a path leads from a hash to the hash above it. -/
lemma combine_siblingStep {xs : List String} {i : ℕ} (hi : i < xs.length) :
    (siblingStep xs i).combine (xs.getD i "") = (pairInputs xs).getD (i / 2) "" := by
  rw [pairInputs_getD xs (i / 2) (by omega)]
  unfold siblingStep
  split_ifs with hpar
  · have hi2 : 2 * (i / 2) = i := by omega
    rw [hi2]
    rfl
  · have hi2 : 2 * (i / 2) = i - 1 := by omega
    have hi1 : i - 1 + 1 = i := by omega
    rw [hi2, hi1, Step.combine, List.getD_eq_getElem _ _ hi, List.getD_eq_getElem _ _ hi]

lemma levels_ne_nil (n : ℕ) (xs : List String) : levels hash n xs ≠ [] := by
  cases n with
  | zero => exact List.cons_ne_nil _ _
  | succ n =>
      rw [levels]
      split_ifs
      · exact List.cons_ne_nil _ _
      · exact List.cons_ne_nil _ _

lemma levels_getLast (n : ℕ) (xs : List String) :
    (levels hash n xs).getLast? = some (top hash n xs) := by
  induction n generalizing xs with
  | zero => rfl
  | succ n ih =>
      rw [levels, top]
      split_ifs
      · rfl
      · rw [List.getLast?_cons, ih, Option.getD_some]

/-- With enough fuel the last level is a single hash. -/
lemma top_length {n : ℕ} {xs : List String} (hn : xs.length ≤ n) (hxs : xs ≠ []) :
    (top hash n xs).length = 1 := by
  induction n generalizing xs with
  | zero => exact absurd (List.length_eq_zero_iff.mp (Nat.le_zero.mp hn)) hxs
  | succ n ih =>
      have hpos := List.length_pos_iff.mpr hxs
      rw [top]
      split_ifs with hlen
      · omega
      · have hnext : (nextLevel hash xs).length = (xs.length + 1) / 2 := nextLevel_length xs
        refine ih (by omega) ?_
        rw [← List.length_pos_iff]
        omega

/-! ## Paths lead to the root -/

/-- The path from any element leads to the last level. -/
theorem climb_path {n : ℕ} {xs : List String} (hn : xs.length ≤ n) {i : ℕ} (hi : i < xs.length) :
    climb hash (xs.getD i "") (path (levels hash n xs).dropLast i) = (top hash n xs).getD 0 "" := by
  induction n generalizing xs i with
  | zero => omega
  | succ n ih =>
      rw [levels, top]
      split_ifs with hlen
      · have hi0 : i = 0 := by omega
        subst hi0
        rfl
      · have hnext : (nextLevel hash xs).length = (xs.length + 1) / 2 := nextLevel_length xs
        have hrest := @ih (nextLevel hash xs) (by omega) (i / 2) (by omega)
        have hstep : hash ((siblingStep xs i).combine (xs.getD i "")) =
            (nextLevel hash xs).getD (i / 2) "" := by
          have hlt : i / 2 < (pairInputs xs).length := by
            rw [pairInputs_length]
            omega
          rw [combine_siblingStep hi, nextLevel, List.getD_eq_getElem _ _ hlt,
            List.getD_eq_getElem _ _ (by rwa [List.length_map]), List.getElem_map]
        rw [List.dropLast_cons_of_ne_nil (levels_ne_nil n _), path, climb, hstep, hrest]

lemma siblingStep_mem {xs : List String} {i : ℕ} (hi : i < xs.length) :
    (siblingStep xs i).sibling ∈ xs := by
  have hmem {j : ℕ} (hj : j < xs.length) : xs.getD j "" ∈ xs := by
    rw [List.getD_eq_getElem _ _ hj]
    exact List.getElem_mem hj
  unfold siblingStep
  split_ifs with hpar
  · change xs.getD (i + 1) (xs.getD i "") ∈ xs
    by_cases hnext : i + 1 < xs.length
    · rw [List.getD_eq_getElem _ _ hnext]
      exact List.getElem_mem hnext
    · rw [List.getD_eq_default _ _ (not_lt.mp hnext)]
      exact hmem hi
  · exact hmem (by omega)

/-- Every hash of a tree climbs to the root through inputs of the tree. -/
lemma exists_climb {n : ℕ} {xs : List String} (hn : xs.length ≤ n) {x : String}
    (hx : x ∈ xs ++ (nodeInputs hash n xs).map hash) :
    ∃ steps : List Step, climb hash x steps = (top hash n xs).getD 0 "" ∧
      (∀ input ∈ climbInputs hash x steps, input ∈ nodeInputs hash n xs) ∧
      ∀ s ∈ steps, s.sibling ∈ xs ++ (nodeInputs hash n xs).map hash := by
  induction n generalizing xs x with
  | zero =>
      rw [List.length_eq_zero_iff.mp (Nat.le_zero.mp hn)] at hx
      cases hx
  | succ n ih =>
      rw [nodeInputs] at hx
      rw [top, nodeInputs]
      split_ifs at hx ⊢ with hlen
      · refine ⟨[], ?_, by simp [climbInputs], by simp⟩
        obtain ⟨y, rfl⟩ : ∃ y, xs = [y] := by
          rw [← List.length_eq_one_iff]
          have := List.length_pos_of_mem hx
          simp only [List.map_nil, List.append_nil] at this
          omega
        simpa [climb, eq_comm] using hx
      · have hnext : (nextLevel hash xs).length = (xs.length + 1) / 2 := nextLevel_length xs
        have habove : nextLevel hash xs ++ (nodeInputs hash n (nextLevel hash xs)).map hash =
            (pairInputs xs ++ nodeInputs hash n (nextLevel hash xs)).map hash := by
          rw [List.map_append, nextLevel]
        rcases List.mem_append.mp hx with hlevel | hnode
        · obtain ⟨i, hi, rfl⟩ := List.getElem_of_mem hlevel
          have hinput : (siblingStep xs i).combine xs[i] ∈ pairInputs xs := by
            have hlt : i / 2 < (pairInputs xs).length := by
              rw [pairInputs_length]
              omega
            have hcombine := combine_siblingStep hi
            rw [List.getD_eq_getElem _ _ hi, List.getD_eq_getElem _ _ hlt] at hcombine
            rw [hcombine]
            exact List.getElem_mem hlt
          obtain ⟨steps, hclimb, hinputs, hsiblings⟩ := @ih (nextLevel hash xs) (by omega)
            (hash ((siblingStep xs i).combine xs[i]))
            (List.mem_append_left _ (List.mem_map_of_mem hinput))
          refine ⟨siblingStep xs i :: steps, hclimb, fun input hmem => ?_, fun s hs => ?_⟩
          · rcases List.mem_cons.mp hmem with rfl | hmem
            · exact List.mem_append_left _ hinput
            · exact List.mem_append_right _ (hinputs input hmem)
          · rcases List.mem_cons.mp hs with rfl | hs
            · exact List.mem_append_left _ (siblingStep_mem hi)
            · rw [← habove]
              exact List.mem_append_right _ (hsiblings s hs)
        · rw [← habove] at hnode
          obtain ⟨steps, hclimb, hinputs, hsiblings⟩ := @ih (nextLevel hash xs) (by omega) x hnode
          refine ⟨steps, hclimb, fun input hmem => ?_, fun s hs => ?_⟩
          · exact List.mem_append_right _ (hinputs input hmem)
          · rw [← habove]
            exact List.mem_append_right _ (hsiblings s hs)

/-! ## Nothing else leads to the root -/

/-- An input of a level pairs two of its hashes. -/
lemma mem_pairInputs {xs : List String} {input : String} (h : input ∈ pairInputs xs) :
    ∃ x ∈ xs, ∃ y ∈ xs, input = x ++ y := by
  induction xs using pairInputs.induct with
  | case1 => cases h
  | case2 x => exact ⟨x, by simp, x, by simp, List.mem_singleton.mp h⟩
  | case3 x y xs ih =>
      rcases List.mem_cons.mp h with rfl | hmem
      · exact ⟨x, by simp, y, by simp, rfl⟩
      · obtain ⟨x', hx', y', hy', heq⟩ := ih hmem
        exact ⟨x', by simp [hx'], y', by simp [hy'], heq⟩

/-- An input of a tree pairs two hashes of the tree. -/
lemma mem_nodeInputs {n : ℕ} {xs : List String} {input : String}
    (h : input ∈ nodeInputs hash n xs) :
    ∃ x ∈ xs ++ (nodeInputs hash n xs).map hash, ∃ y ∈ xs ++ (nodeInputs hash n xs).map hash,
      input = x ++ y := by
  induction n generalizing xs with
  | zero => cases h
  | succ n ih =>
      rw [nodeInputs] at h ⊢
      split_ifs at h ⊢ with hlen
      · cases h
      · rcases List.mem_append.mp h with hpair | hnode
        · obtain ⟨x, hx, y, hy, heq⟩ := mem_pairInputs hpair
          exact ⟨x, by simp [hx], y, by simp [hy], heq⟩
        · obtain ⟨x, hx, y, hy, heq⟩ := ih hnode
          have hsub : nextLevel hash xs ++ (nodeInputs hash n (nextLevel hash xs)).map hash =
              (pairInputs xs ++ nodeInputs hash n (nextLevel hash xs)).map hash := by
            rw [List.map_append, nextLevel]
          rw [hsub] at hx hy
          exact ⟨x, List.mem_append_right _ hx, y, List.mem_append_right _ hy, heq⟩

lemma top_subset (n : ℕ) (xs : List String) :
    top hash n xs ⊆ xs ++ (nodeInputs hash n xs).map hash := by
  induction n generalizing xs with
  | zero => exact List.subset_append_left _ _
  | succ n ih =>
      rw [top, nodeInputs]
      split_ifs
      · exact List.subset_append_left _ _
      · intro x hx
        rw [List.map_append]
        exact List.mem_append_right _ (ih (nextLevel hash xs) hx)

lemma climb_append (current : String) (steps more : List Step) :
    climb hash current (steps ++ more) = climb hash (climb hash current steps) more := by
  induction steps generalizing current with
  | nil => rfl
  | cons s steps ih => exact ih _

lemma mem_climbInputs_append {current input : String} {steps more : List Step} :
    input ∈ climbInputs hash current (steps ++ more) ↔
      input ∈ climbInputs hash current steps ∨
        input ∈ climbInputs hash (climb hash current steps) more := by
  induction steps generalizing current with
  | nil => simp [climbInputs, climb]
  | cons s steps ih =>
      rw [List.cons_append, climbInputs, climbInputs, List.mem_cons, List.mem_cons, ih, or_assoc]
      rfl

section Sound

variable {width : ℕ} {leaves : List String} {current : String}

lemma climb_length (hwidth : ∀ s, (hash s).length = width) (hcurrent : current.length = width)
    (steps : List Step) : (climb hash current steps).length = width := by
  induction steps generalizing current with
  | nil => exact hcurrent
  | cons s steps ih => exact ih (hwidth _)

lemma combine_length (s : Step) (current : String) :
    (s.combine current).length = s.sibling.length + current.length := by
  unfold Step.combine
  split
  · exact String.length_append _ _
  · rw [String.length_append, Nat.add_comm]

/-- Combining a hash with a sibling to a pair of hashes takes one of the two. -/
lemma combine_eq_append {s : Step} {x y : String} (hcurrent : current.length = width)
    (hx : x.length = width) (hy : y.length = width) (h : s.combine current = x ++ y) :
    current = x ∨ current = y := by
  have hlists := congrArg String.toList h
  unfold Step.combine at hlists
  rw [← String.length_toList] at hcurrent hx hy
  split at hlists
  · rw [String.toList_append, String.toList_append] at hlists
    exact .inr (String.toList_injective
      (List.append_inj_right' hlists (by rw [hcurrent, hy])))
  · rw [String.toList_append, String.toList_append] at hlists
    exact .inl (String.toList_injective (List.append_inj_left hlists (by rw [hcurrent, hx])))

/-- A hash that climbs to a hash of the tree is itself one of the tree. -/
theorem mem_of_climb (hwidth : ∀ s, (hash s).length = width)
    (hleaves : ∀ leaf ∈ leaves, leaf.length = width) (hcurrent : current.length = width)
    {steps : List Step} (hsteps : ∀ s ∈ steps, s.sibling ≠ "")
    (hinj : Set.InjOn hash
      {input | input ∈ treeInputs hash leaves ++ climbInputs hash current steps})
    (h : climb hash current steps ∈ (treeInputs hash leaves).map hash) :
    current ∈ (treeInputs hash leaves).map hash := by
  induction steps using List.reverseRecOn with
  | nil => exact h
  | append_singleton steps s ih =>
      have hclimb := climb_length hwidth hcurrent steps
      refine ih (fun t ht => hsteps t (by simp [ht])) (hinj.mono fun input hinput => ?_) ?_
      · rcases List.mem_append.mp hinput with htree | hsteps
        · exact List.mem_append_left _ htree
        · exact List.mem_append_right _ (mem_climbInputs_append.mpr (.inl hsteps))
      · rw [climb_append] at h
        obtain ⟨input, hinput, heq⟩ := List.mem_map.mp h
        have hcombined : s.combine (climb hash current steps) ∈
            treeInputs hash leaves ++ climbInputs hash current (steps ++ [s]) :=
          List.mem_append_right _ (mem_climbInputs_append.mpr (.inr (by simp [climbInputs])))
        have hsame := hinj (List.mem_append_left _ hinput) hcombined heq
        rcases List.mem_append.mp hinput with hleaf | hnode
        · -- a leaf is too short to be a hash next to a sibling
          have hlength := hleaves input hleaf
          rw [hsame, combine_length, hclimb] at hlength
          exact absurd (String.length_eq_zero_iff.mp (by omega)) (hsteps s (by simp))
        · obtain ⟨x, hx, y, hy, rfl⟩ := mem_nodeInputs hnode
          rw [← List.map_append] at hx hy
          have hdigest {z : String} (hz : z ∈ (treeInputs hash leaves).map hash) :
              z.length = width := by
            obtain ⟨_, -, rfl⟩ := List.mem_map.mp hz
            exact hwidth _
          rcases combine_eq_append hclimb (hdigest hx) (hdigest hy) hsame.symm with heq | heq
          · rw [heq]
            exact hx
          · rw [heq]
            exact hy

end Sound

/-! ## The root determines the list -/

section Injective

variable {width : ℕ}

lemma append_inj_of_length {a b c d : String} (hb : b.length = width) (hd : d.length = width)
    (h : a ++ b = c ++ d) : a = c ∧ b = d := by
  have hlists := congrArg String.toList h
  rw [String.toList_append, String.toList_append] at hlists
  rw [← String.length_toList] at hb hd
  obtain ⟨hleft, hright⟩ := List.append_inj' hlists (by rw [hb, hd])
  exact ⟨String.toList_injective hleft, String.toList_injective hright⟩

lemma pairInputs_injective {xs ys : List String} (hxs : ∀ x ∈ xs, x.length = width)
    (hys : ∀ y ∈ ys, y.length = width) (hlength : xs.length = ys.length)
    (h : pairInputs xs = pairInputs ys) : xs = ys := by
  induction xs using pairInputs.induct generalizing ys with
  | case1 => exact (List.length_eq_zero_iff.mp hlength.symm).symm
  | case2 x =>
      obtain ⟨y, rfl⟩ := List.length_eq_one_iff.mp hlength.symm
      have hheads := (List.cons.inj h).1
      rw [(append_inj_of_length (hxs x (by simp)) (hys y (by simp)) hheads).2]
  | case3 x x' xs ih =>
      cases ys with
      | nil => cases hlength
      | cons y ys =>
          cases ys with
          | nil => simp at hlength
          | cons y' ys =>
              obtain ⟨hheads, htails⟩ := List.cons.inj h
              obtain ⟨rfl, rfl⟩ :=
                append_inj_of_length (hxs x' (by simp)) (hys y' (by simp)) hheads
              rw [ih (fun z hz => hxs z (by simp [hz])) (fun z hz => hys z (by simp [hz]))
                (by simpa using hlength) htails]

lemma eq_of_map_eq {xs ys : List String}
    (hinj : ∀ x ∈ xs, ∀ y ∈ ys, hash x = hash y → x = y) (h : xs.map hash = ys.map hash) :
    xs = ys := by
  induction xs generalizing ys with
  | nil => exact (List.map_eq_nil_iff.mp h.symm).symm
  | cons x xs ih =>
      cases ys with
      | nil => cases h
      | cons y ys =>
          obtain ⟨hhead, htail⟩ := List.cons.inj h
          rw [hinj x (by simp) y (by simp) hhead,
            ih (fun x hx y hy => hinj x (by simp [hx]) y (by simp [hy])) htail]

/-- Lists of one length with one root are equal. -/
lemma eq_of_top_eq {n : ℕ} {xs ys : List String} (hwidth : ∀ s, (hash s).length = width)
    (hxs : ∀ x ∈ xs, x.length = width) (hys : ∀ y ∈ ys, y.length = width)
    (hlength : xs.length = ys.length) (hn : xs.length ≤ n)
    (hinj : Set.InjOn hash {input | input ∈ nodeInputs hash n xs ++ nodeInputs hash n ys})
    (h : top hash n xs = top hash n ys) : xs = ys := by
  induction n generalizing xs ys with
  | zero => exact h
  | succ n ih =>
      rw [top, top, ← hlength] at h
      rw [nodeInputs, nodeInputs, ← hlength] at hinj
      split_ifs at h hinj with hlen
      · exact h
      · have hdigest (zs : List String) : ∀ z ∈ nextLevel hash zs, z.length = width := by
          intro z hz
          obtain ⟨_, -, rfl⟩ := List.mem_map.mp hz
          exact hwidth _
        have hnext (zs : List String) : (nextLevel hash zs).length = (zs.length + 1) / 2 :=
          nextLevel_length zs
        have hlevels := ih (hdigest xs) (hdigest ys) (by rw [hnext, hnext, hlength])
          (by rw [hnext]; omega) (hinj.mono fun input hinput => by
            rcases List.mem_append.mp hinput with hmem | hmem <;> simp [hmem]) h
        refine pairInputs_injective hxs hys hlength ?_
        refine eq_of_map_eq (fun input hinput input' hinput' heq => hinj ?_ ?_ heq) hlevels
        · exact List.mem_append_left _ (List.mem_append_left _ hinput)
        · exact List.mem_append_right _ (List.mem_append_left _ hinput')

variable {leaves leaves' : List String}

/-- The last level is the root alone. -/
lemma top_eq_root (hne : leaves ≠ []) :
    top hash leaves.length (leaves.map hash) = [root hash leaves] := by
  have hone : (top hash leaves.length (leaves.map hash)).length = 1 :=
    top_length (List.length_map hash).le fun h => hne (List.map_eq_nil_iff.mp h)
  obtain ⟨x, hx⟩ := List.length_eq_one_iff.mp hone
  rw [root, hx]
  rfl

lemma root_mem (hne : leaves ≠ []) : root hash leaves ∈ (treeInputs hash leaves).map hash := by
  have hmem : root hash leaves ∈ top hash leaves.length (leaves.map hash) := by
    rw [top_eq_root hne]
    exact List.mem_singleton_self _
  have htree := top_subset _ _ hmem
  rwa [← List.map_append] at htree

lemma nodeInputs_length {n : ℕ} {xs : List String} {input : String}
    (hwidth : ∀ s, (hash s).length = width) (hxs : ∀ x ∈ xs, x.length = width)
    (h : input ∈ nodeInputs hash n xs) : input.length = width + width := by
  have hdigest {z : String} (hz : z ∈ xs ++ (nodeInputs hash n xs).map hash) :
      z.length = width := by
    rcases List.mem_append.mp hz with hmem | hmem
    · exact hxs z hmem
    · obtain ⟨_, -, rfl⟩ := List.mem_map.mp hmem
      exact hwidth _
  obtain ⟨x, hx, y, hy, rfl⟩ := mem_nodeInputs h
  rw [String.length_append, hdigest hx, hdigest hy]

/-- Of the strings of a tree only its leaves have the length of a leaf. -/
lemma mem_leaves {leaf : String} (hwidth : ∀ s, (hash s).length = width) (hpos : 0 < width)
    (hleaf : leaf.length = width) (h : leaf ∈ treeInputs hash leaves) : leaf ∈ leaves := by
  refine (List.mem_append.mp h).resolve_right fun hnode => ?_
  have hlength := nodeInputs_length hwidth (fun x hx => by
    obtain ⟨_, -, rfl⟩ := List.mem_map.mp hx
    exact hwidth _) hnode
  omega

/-- Every string of a tree is led to the root by some path of non-empty siblings, through strings
of the tree. -/
lemma exists_path (hwidth : ∀ s, (hash s).length = width) (hpos : 0 < width) {input : String}
    (h : input ∈ treeInputs hash leaves) :
    ∃ steps : List Step, climb hash (hash input) steps = root hash leaves ∧
      (∀ combined ∈ climbInputs hash (hash input) steps, combined ∈ treeInputs hash leaves) ∧
      ∀ s ∈ steps, s.sibling ≠ "" := by
  have hmem : hash input ∈ leaves.map hash ++
      (nodeInputs hash leaves.length (leaves.map hash)).map hash := by
    rw [← List.map_append]
    exact List.mem_map_of_mem h
  obtain ⟨steps, hclimb, hinputs, hsiblings⟩ := exists_climb (List.length_map hash).le hmem
  refine ⟨steps, hclimb, fun input hinput => List.mem_append_right _ (hinputs input hinput), ?_⟩
  intro s hs hempty
  have hsibling := hsiblings s hs
  rw [← List.map_append] at hsibling
  obtain ⟨_, -, hdigest⟩ := List.mem_map.mp hsibling
  have hlength := hwidth ‹String›
  rw [hdigest, hempty] at hlength
  exact hpos.ne hlength

/-- A leaf of one tree is a leaf of any tree with the same root. -/
lemma leaf_of_root_eq (hwidth : ∀ s, (hash s).length = width) (hpos : 0 < width)
    (hleaves : ∀ leaf ∈ leaves, leaf.length = width)
    (hleaves' : ∀ leaf ∈ leaves', leaf.length = width) (hne' : leaves' ≠ [])
    (hinj : Set.InjOn hash {input | input ∈ treeInputs hash leaves ++ treeInputs hash leaves'})
    (h : root hash leaves = root hash leaves') {leaf : String} (hleaf : leaf ∈ leaves) :
    leaf ∈ leaves' := by
  have htree : leaf ∈ treeInputs hash leaves := List.mem_append_left _ hleaf
  obtain ⟨steps, hclimb, hinputs, hsiblings⟩ := exists_path hwidth hpos htree
  have hmem : hash leaf ∈ (treeInputs hash leaves').map hash := by
    refine mem_of_climb hwidth hleaves' (hwidth _) hsiblings (hinj.mono fun input hinput => ?_) ?_
    · rcases List.mem_append.mp hinput with hother | hclimbed
      · exact List.mem_append_right _ hother
      · exact List.mem_append_left _ (hinputs input hclimbed)
    · rw [hclimb, h]
      exact root_mem hne'
  obtain ⟨input, hinput, heq⟩ := List.mem_map.mp hmem
  rw [hinj (List.mem_append_right _ hinput) (List.mem_append_left _ htree) heq] at hinput
  exact mem_leaves hwidth hpos (hleaves leaf hleaf) hinput

/-- Lists without repetitions that have the same root are equal. -/
theorem leaves_eq_of_root_eq (hwidth : ∀ s, (hash s).length = width) (hpos : 0 < width)
    (hleaves : ∀ leaf ∈ leaves, leaf.length = width)
    (hleaves' : ∀ leaf ∈ leaves', leaf.length = width) (hne : leaves ≠ []) (hne' : leaves' ≠ [])
    (hnodup : leaves.Nodup) (hnodup' : leaves'.Nodup)
    (hinj : Set.InjOn hash {input | input ∈ treeInputs hash leaves ++ treeInputs hash leaves'})
    (h : root hash leaves = root hash leaves') : leaves = leaves' := by
  have hsymm : Set.InjOn hash
      {input | input ∈ treeInputs hash leaves' ++ treeInputs hash leaves} :=
    hinj.mono fun input hinput => List.mem_append.mpr (List.mem_append.mp hinput).symm
  have hperm : leaves.Perm leaves' := (List.perm_ext_iff_of_nodup hnodup hnodup').mpr fun leaf =>
    ⟨fun hleaf => leaf_of_root_eq hwidth hpos hleaves hleaves' hne' hinj h hleaf,
      fun hleaf => leaf_of_root_eq hwidth hpos hleaves' hleaves hne hsymm h.symm hleaf⟩
  have hlength := hperm.length_eq
  have htops : top hash leaves.length (leaves.map hash) =
      top hash leaves.length (leaves'.map hash) := by
    rw [top_eq_root hne, h, ← top_eq_root hne', hlength]
  have hdigest (zs : List String) : ∀ z ∈ zs.map hash, z.length = width := by
    intro z hz
    obtain ⟨_, -, rfl⟩ := List.mem_map.mp hz
    exact hwidth _
  refine eq_of_map_eq (fun x hx y hy heq => ?_) (eq_of_top_eq hwidth (hdigest leaves)
    (hdigest leaves') (by simpa using hlength) (List.length_map hash).le (hinj.mono ?_) htops)
  · exact hinj (List.mem_append_left _ (List.mem_append_left _ hx))
      (List.mem_append_right _ (List.mem_append_left _ hy)) heq
  · intro input hinput
    rcases List.mem_append.mp hinput with hmem | hmem
    · exact List.mem_append_left _ (List.mem_append_right _ hmem)
    · rw [hlength] at hmem
      exact List.mem_append_right _ (List.mem_append_right _ hmem)

end Injective

end AgentSystem.HashTree
