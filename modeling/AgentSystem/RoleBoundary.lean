import AgentSystem.PipelineManager
import AgentSystem.ScopeGuard

/-!
# Role boundaries and the files behind a path

The checks of a role compare the text of a path with prefixes. The file that is written is the one
that the path denotes in the worktree, when its segments have been followed.
-/
namespace AgentSystem.Executor

open Json Audit PolicyGate

/-! ## Paths in a worktree -/

/-- One segment of a path is followed from a directory. -/
def follow (directory : FilePath) (segment : PyStr) : FilePath :=
  if segment = [] ∨ segment = toPyStr "." then directory
  else if segment = toPyStr ".." then directory.dropLast
  else directory ++ [segment]

/-- `(worktree_path / path).resolve()` where no directory on the way is a symbolic link. -/
def followPath (root : FilePath) (path : PyStr) : FilePath :=
  (path.splitOn slash).foldl follow root

/-- The file in the worktree that a path denotes, relative to the root, `none` for one outside. -/
def denotes (root : FilePath) (path : PyStr) : Option PyStr :=
  let target := followPath root (cleanPath path)
  if root.isPrefixOf target then some (relativeName root target) else none

/-- If both checks of the role accept a path, it denotes no file under a prefix that is forbidden to
the role. -/
def RespectsRole (root : FilePath) (role path : String) : Prop :=
  Pipeline.validateRoleScope role [path] = none → validateScopeCompliance role [path] = none →
    ∀ file, denotes root (toPyStr path) = some file → forbiddenPrefix role file = none

/-- A segment that is followed to a directory of its name. -/
def PlainSegment (segment : PyStr) : Prop :=
  segment ≠ [] ∧ segment ≠ toPyStr "." ∧ segment ≠ toPyStr ".."

/-- A path that reaches a directory forbidden to the role only when its segments are followed, and
that no protected pattern matches. -/
structure Detour (root : FilePath) (role path : String) : Prop where
  segments : ∃ segment ∈ (cleanPath (toPyStr path)).splitOn slash, ¬PlainSegment segment
  reaches : ∃ file, denotes root (toPyStr path) = some file ∧ forbiddenPrefix role file ≠ none
  hidden : forbiddenPrefix role (cleanPath (toPyStr path)) = none
  unprotected : ∀ pattern ∈ defaultProtectedPatterns, protectedTarget path pattern = none

lemma foldl_follow {segments : List PyStr} (h : ∀ segment ∈ segments, PlainSegment segment)
    (root : FilePath) : segments.foldl follow root = root ++ segments := by
  induction segments generalizing root with
  | nil => simp
  | cons segment segments ih =>
      obtain ⟨hempty, hdot, hdots⟩ := h segment List.mem_cons_self
      rw [List.foldl_cons, ih fun other hmem => h other (List.mem_cons_of_mem _ hmem), follow,
        if_neg (not_or.mpr ⟨hempty, hdot⟩), if_neg hdots, List.append_assoc, List.singleton_append]

/-- A path with plain segments denotes the file that it says. -/
lemma denotes_plain {root : FilePath} {path : PyStr}
    (h : ∀ segment ∈ (cleanPath path).splitOn slash, PlainSegment segment) :
    denotes root path = some (cleanPath path) := by
  have htarget : followPath root (cleanPath path) = root ++ (cleanPath path).splitOn slash :=
    foldl_follow h root
  have hprefix : root.isPrefixOf (root ++ (cleanPath path).splitOn slash) = true := by
    rw [List.isPrefixOf_iff_prefix]
    exact List.prefix_append _ _
  rw [denotes, htarget, if_pos hprefix, relativeName, List.drop_left, asPosix,
    if_neg (List.splitOn_ne_nil _ _), List.intercalate_splitOn]

/-! ## The two checks of a role -/

section Checks

/-- A text of a directory: no slash or blank at its start, no blank at its end. -/
structure Solid (text : PyStr) : Prop where
  ne_nil : text ≠ []
  start : ∀ c ∈ text.head?, isSpace c = false ∧ c ≠ slash
  finish : ∀ c ∈ text.getLast?, isSpace c = false

lemma isSpace_slash : isSpace slash = false := by decide

lemma dropWhile_of_head {α : Type} {p : α → Bool} {xs : List α}
    (h : ∀ x ∈ xs.head?, p x = false) : xs.dropWhile p = xs := by
  cases xs with
  | nil => rfl
  | cons x xs => rw [List.dropWhile_cons, if_neg (by simp [h x rfl])]

lemma takeWhile_all {α : Type} {p : α → Bool} {xs : List α} :
    ∀ x ∈ xs.takeWhile p, p x = true := fun _ => List.mem_takeWhile_imp

/-- What follows the slashes at the start of a text is still there when blanks are stripped. -/
lemma isPrefix_strip {start text : PyStr} (hsolid : Solid start)
    (h : start <+: text.dropWhile (· = slash)) :
    start <+: (strip text).dropWhile (· = slash) := by
  obtain ⟨rest, hrest⟩ := h
  set slashes := text.takeWhile (· = slash) with hslashes
  have hall : ∀ c ∈ slashes, c = slash := fun c hc => by simpa using takeWhile_all c hc
  have htext : text = slashes ++ start ++ rest := by
    rw [List.append_assoc, hrest, List.takeWhile_append_dropWhile]
  have hhead : ∀ c ∈ text.head?, isSpace c = false := by
    intro c hc
    rw [htext, List.append_assoc] at hc
    cases hcase : slashes with
    | nil =>
        obtain ⟨d, tail, hstart⟩ := List.exists_cons_of_ne_nil hsolid.ne_nil
        rw [hcase, List.nil_append, hstart, List.cons_append, List.head?_cons] at hc
        exact (hsolid.start c (by rw [hstart]; exact hc)).1
    | cons d tail =>
        rw [hcase, List.cons_append, List.head?_cons, Option.mem_some_iff] at hc
        rw [← hc, hall d (by rw [hcase]; exact List.mem_cons_self)]
        exact isSpace_slash
  obtain ⟨tail, htail⟩ : ∃ tail, strip text = slashes ++ start ++ tail := by
    have hfinish : ∀ c ∈ (slashes ++ start).reverse.head?, isSpace c = false := by
      intro c hc
      rw [List.head?_reverse, List.getLast?_append_of_ne_nil _ hsolid.ne_nil] at hc
      exact hsolid.finish c hc
    rw [strip, dropWhile_of_head hhead, htext, List.reverse_append, List.dropWhile_append]
    split_ifs
    · exact ⟨[], by rw [dropWhile_of_head hfinish, List.reverse_reverse, List.append_nil]⟩
    · exact ⟨_, by rw [List.reverse_append, List.reverse_reverse]⟩
  have hdrop : (slashes ++ (start ++ tail)).dropWhile (· = slash) = start ++ tail := by
    rw [List.dropWhile_append_of_pos (by simpa using hall)]
    apply dropWhile_of_head
    intro c hc
    rw [List.head?_append_of_ne_nil _ hsolid.ne_nil] at hc
    simpa using (hsolid.start c hc).2
  rw [htail, List.append_assoc, hdrop]
  exact List.prefix_append _ _

lemma codePoint_injective {c d : Char} (h : codePoint c = codePoint d) : c = d := by
  have hval : c.toNat = d.toNat := by rw [← codePoint_val, ← codePoint_val, h]
  exact Char.ext (UInt32.toNat_inj.mp hval)

lemma forwardSlashes_toPyStr (path : String) :
    toPyStr (Pipeline.forwardSlashes path) =
      (toPyStr path).map fun c => if c = codePoint '\\' then slash else c := by
  rw [toPyStr, Pipeline.forwardSlashes, String.toList_map, List.map_map, toPyStr, List.map_map]
  refine List.map_congr_left fun c _ => ?_
  by_cases h : c = '\\'
  · simp [h, slash]
  · have hcode : codePoint c ≠ codePoint '\\' := fun heq => h (codePoint_injective heq)
    simp [h, hcode]

/-- The text that the manager compares, before blanks are stripped. -/
lemma toPyStr_cleanPath (path : String) :
    toPyStr (Pipeline.cleanPath path) =
      ((toPyStr path).map fun c => if c = codePoint '\\' then slash else c).dropWhile
        (· = slash) := by
  rw [← forwardSlashes_toPyStr, Pipeline.cleanPath, toPyStr, String.toList_ofList, toPyStr,
    List.dropWhile_map]
  have hslash : ((fun c => decide (c = slash)) ∘ codePoint) = fun c => decide (c = '/') := by
    funext c
    exact Bool.decide_congr ⟨fun h => codePoint_injective h, fun h => by rw [h, slash]⟩
  rw [hslash]

/-- The prefixes of the roles are texts of directories as they stand. -/
lemma forbiddenPrefixes_solid {rule : String × RoleRule} (hrule : rule ∈ roleScopeRestrictions)
    {forbidden : String} (h : forbidden ∈ rule.2.forbiddenPrefixes) :
    Pipeline.cleanPath forbidden = forbidden ∧ cleanPath (toPyStr forbidden) = toPyStr forbidden ∧
      Solid (toPyStr forbidden) := by
  have hcases : forbidden ∈ ["agent_workspace/", "spec/", "migrations/", "viewer/",
      "agent_workspace/core/"] := by
    revert forbidden
    revert rule
    decide
  simp only [List.mem_cons, List.not_mem_nil, or_false] at hcases
  have hsolid : Solid (toPyStr forbidden) := by
    rcases hcases with rfl | rfl | rfl | rfl | rfl <;>
      exact ⟨nofun, fun c hc => by cases hc; decide, fun c hc => by cases hc; decide⟩
  refine ⟨?_, ?_, hsolid⟩
  · rcases hcases with rfl | rfl | rfl | rfl | rfl <;>
      simp [Pipeline.cleanPath, Pipeline.forwardSlashes, String.toList_map]
  · rcases hcases with rfl | rfl | rfl | rfl | rfl <;> rfl

lemma readOnly_forbiddenPrefixes {rule : String × RoleRule} (hrule : rule ∈ roleScopeRestrictions)
    (h : rule.2.readOnly = true) : rule.2.forbiddenPrefixes = [] := by
  revert rule
  decide

lemma mem_of_lookup {role : String} {rule : RoleRule}
    (h : roleScopeRestrictions.lookup role = some rule) : (role, rule) ∈ roleScopeRestrictions := by
  obtain ⟨before, after, heq, -⟩ := List.lookup_eq_some_iff.mp h
  rw [heq]
  exact List.mem_append_right _ List.mem_cons_self

/-- A role with a forbidden prefix may write. -/
lemma readOnly_of_forbiddenPrefix {role : String} {path : PyStr}
    (h : forbiddenPrefix role path ≠ none) : (roleRule role).readOnly = false := by
  by_contra hreadOnly
  apply h
  cases hrule : roleScopeRestrictions.lookup role with
  | none =>
      rw [forbiddenPrefix, roleRule, hrule]
      rfl
  | some rule =>
      have heq : roleRule role = rule := by rw [roleRule, hrule, Option.getD_some]
      rw [heq, Bool.not_eq_false] at hreadOnly
      rw [forbiddenPrefix, heq, readOnly_forbiddenPrefixes (mem_of_lookup hrule) hreadOnly]
      rfl

/-- Where the manager sees a forbidden prefix, the executor sees it too. -/
lemma startsWith_cleanPath {role : String} {rule : RoleRule} {path forbidden : String}
    (hrule : (role, rule) ∈ roleScopeRestrictions) (hmem : forbidden ∈ rule.forbiddenPrefixes)
    (h : Pipeline.startsWith (Pipeline.cleanPath path) (Pipeline.cleanPath forbidden) = true) :
    startsWith (cleanPath (toPyStr path)) (cleanPath (toPyStr forbidden)) = true := by
  obtain ⟨hsame, hclean, hsolid⟩ := forbiddenPrefixes_solid hrule hmem
  rw [hsame, Pipeline.startsWith, List.isPrefixOf_iff_prefix] at h
  rw [hclean, startsWith, List.isPrefixOf_iff_prefix]
  apply isPrefix_strip hsolid
  rw [← toPyStr_cleanPath]
  exact h.map codePoint

/-- The manager accepts every path that the executor's test for the role accepts. -/
lemma validateRoleScope_of_forbiddenPrefix {role path : String}
    (hreadOnly : (roleRule role).readOnly = false)
    (h : forbiddenPrefix role (cleanPath (toPyStr path)) = none) :
    Pipeline.validateRoleScope role [path] = none := by
  rw [Pipeline.validateRoleScope]
  cases hrule : roleScopeRestrictions.lookup role with
  | none => rfl
  | some rule =>
      have heq : roleRule role = rule := by rw [roleRule, hrule, Option.getD_some]
      rw [heq] at hreadOnly
      rw [forbiddenPrefix, heq, List.find?_eq_none] at h
      have hnone : (rule.forbiddenPrefixes.find? fun forbidden =>
          Pipeline.startsWith (Pipeline.cleanPath path) (Pipeline.cleanPath forbidden)) = none :=
        List.find?_eq_none.mpr fun forbidden hforbidden hstarts =>
          h forbidden hforbidden (startsWith_cleanPath (mem_of_lookup hrule) hforbidden hstarts)
      simp [hreadOnly, hnone]

lemma validateScopeCompliance_single (role path : String) :
    validateScopeCompliance role [path] = none ↔
      (roleRule role).readOnly = false ∧ forbiddenPrefix role (cleanPath (toPyStr path)) = none ∧
        ∀ pattern ∈ defaultProtectedPatterns, protectedTarget path pattern = none := by
  rw [validateScopeCompliance]
  cases hreadOnly : (roleRule role).readOnly with
  | true => simp
  | false =>
      cases hforbidden : forbiddenPrefix role (cleanPath (toPyStr path)) with
      | some forbidden => simp [hforbidden]
      | none => simp [hforbidden, List.findSome?_eq_none_iff]

end Checks

/-! ## Detours -/

/-- Both checks accept a detour. -/
lemma Detour.not_respectsRole {root : FilePath} {role path : String} (h : Detour root role path) :
    ¬RespectsRole root role path := by
  intro hrespects
  obtain ⟨file, hfile, hforbidden⟩ := h.reaches
  have hreadOnly := readOnly_of_forbiddenPrefix hforbidden
  have hmanager := validateRoleScope_of_forbiddenPrefix hreadOnly h.hidden
  have hexecutor := (validateScopeCompliance_single role path).mpr
    ⟨hreadOnly, h.hidden, h.unprotected⟩
  exact hforbidden (hrespects hmanager hexecutor file hfile)

/-- Both checks keep a role out of its forbidden directories exactly on the paths that are no
detour into them. -/
theorem respectsRole_iff (root : FilePath) (role path : String) :
    RespectsRole root role path ↔ ¬Detour root role path := by
  refine ⟨fun hrespects hdetour => hdetour.not_respectsRole hrespects, ?_⟩
  intro hdetour _ hcompliance file hfile
  obtain ⟨-, hhidden, hunprotected⟩ := (validateScopeCompliance_single role path).mp hcompliance
  by_contra hforbidden
  refine hdetour ⟨?_, ⟨file, hfile, hforbidden⟩, hhidden, hunprotected⟩
  -- With plain segments only, the file is the text that was compared.
  by_contra hplain
  push Not at hplain
  rw [denotes_plain hplain, Option.some_inj] at hfile
  rw [hfile] at hhidden
  exact hforbidden hhidden

/-- A dot in front of the directory is enough. -/
theorem dot_viewer_accepted :
    denotes (["srv", "wt"].map toPyStr) (toPyStr "./viewer/app.ts") =
      some (toPyStr "viewer/app.ts") ∧
    forbiddenPrefix "BACKEND_INFRA_AGENT" (toPyStr "viewer/app.ts") = some "viewer/" ∧
    ¬RespectsRole (["srv", "wt"].map toPyStr) "BACKEND_INFRA_AGENT" "./viewer/app.ts" := by
  have hfile : denotes (["srv", "wt"].map toPyStr) (toPyStr "./viewer/app.ts") =
      some (toPyStr "viewer/app.ts") := by rfl
  have hforbidden : forbiddenPrefix "BACKEND_INFRA_AGENT" (toPyStr "viewer/app.ts") =
      some "viewer/" := by rfl
  refine ⟨hfile, hforbidden, Detour.not_respectsRole ⟨?_, ⟨_, hfile, ?_⟩, by rfl, by decide⟩⟩
  · refine ⟨toPyStr ".", ?_, fun hplain => hplain.2.1 rfl⟩
    decide
  · rw [hforbidden]
    exact Option.some_ne_none _

end AgentSystem.Executor
