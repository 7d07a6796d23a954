import AgentSystem.PyData
import AgentSystem.RepairConformance

/-!
# Repair of a valid call

When a dictionary that conforms to the schema comes back equal: no alias of a property without a value holds
one, and every integer that becomes a float keeps its value.
-/
namespace AgentSystem.Executor

open Json PySequence Programs

variable {D : Type} [RealDoubles D]

/-- A value, or an integer and the float equal to it. -/
def SameValue (value value' : PyValue D) : Prop :=
  value = value' ∨ ∃ n x, value = .int n ∧ value' = .float x ∧ x.part = .finite n

/-- Equal dictionaries: the same keys, with equal values. -/
def SameArguments (args args' : Arguments D) : Prop :=
  ∀ key, Option.Rel SameValue (getItem args.items key) (getItem args'.items key)

lemma sameValue_refl (value : Option (PyValue D)) : Option.Rel SameValue value value := by
  cases value with
  | none => exact .none
  | some value => exact .some (.inl rfl)

lemma SameArguments.isNull_get {args args' : Arguments D} (h : SameArguments args args') (key : String) :
    isNull (args'.get key) = isNull (args.get key) := by
  have hkey := h (toPyStr key)
  unfold Arguments.get Arguments.find
  generalize getItem args.items (toPyStr key) = before at hkey ⊢
  generalize getItem args'.items (toPyStr key) = after at hkey ⊢
  cases hkey with
  | none => rfl
  | some hvalue =>
    rcases hvalue with rfl | ⟨n, x, rfl, rfl, -⟩
    · rfl
    · rfl

/-- No property or required parameter without a value has an alias with one. -/
def Unfilled (schema : Schema) (given : Arguments D) : Prop :=
  ∀ prop ∈ schema.names, filler given prop = none

/-- Every integer of a property that holds a number is a double. -/
def NumbersExact (texts : Texts D) (schema : Schema) (given : Arguments D) : Prop :=
  ∀ prop ∈ schema.properties, prop.2 = "number" ∨ prop.2 = "float" → ∀ n,
    given.find prop.1 = some (.int n) → ∃ x, texts.float (.int n) = some x ∧ x.part = .finite n

/-! ## One property -/

namespace Resolved

omit [RealDoubles D] in
/-- An integer of a property that holds a number becomes a float. -/
lemma coerceTo_int {texts : Texts D} {r : Resolved D} {prop type : String} {n : ℤ}
    (htype : type = "number" ∨ type = "float") (hfind : r.args.find prop = some (.int n)) :
    r.coerceTo texts prop type =
      (texts.float (.int n)).map fun x => { r with args := r.args.set prop (.float x) } := by
  unfold coerceTo
  rw [r.args.get_of_find hfind]
  dsimp only
  have hinteger : ¬ (type = "integer" ∨ type = "int") := by
    rcases htype with rfl | rfl <;> decide
  have hboolean : type ≠ "boolean" := by
    rcases htype with rfl | rfl <;> decide
  rw [if_neg hinteger, if_neg hboolean, if_pos htype]
  rfl

omit [RealDoubles D] in
/-- Any other value that has the declared type is left alone. -/
lemma coerceTo_typed {texts : Texts D} {r : Resolved D} {prop type : String}
    (htyped : ∀ value, r.args.find prop = some value → hasType type value = true)
    (hnumber : type = "number" ∨ type = "float" → ∀ n, r.args.find prop ≠ some (.int n)) :
    r.coerceTo texts prop type = some r := by
  by_cases hsame : type ∉ coercedTypes ∨ isNull (r.args.get prop) = true
  · exact coerceTo_same hsame
  · obtain ⟨htype, hnull⟩ := not_or.mp hsame
    rw [not_not] at htype
    cases hfind : r.args.find prop with
    | none =>
      refine absurd ?_ hnull
      unfold Arguments.get
      rw [hfind]
      rfl
    | some value =>
      have hvalue := htyped value hfind
      rw [hfind] at hnumber
      unfold coerceTo
      rw [r.args.get_of_find hfind] at hnull ⊢
      simp only [coercedTypes, List.mem_cons, List.not_mem_nil, or_false] at htype
      rcases htype with rfl | rfl | rfl | rfl | rfl | rfl <;> cases value <;>
        simp_all [hasType, isNull, coerceInteger, coerceBoolean, coerceNumber, coerceString]

omit [RealDoubles D] in
/-- A coercion changes one property, and only one that is there. -/
lemma coerceTo_others {texts : Texts D} {r r' : Resolved D} {prop type : String}
    (h : r.coerceTo texts prop type = some r') {key : String}
    (hkey : key ≠ prop ∨ r.args.find prop = none) : r'.args.find key = r.args.find key := by
  by_cases hsame : type ∉ coercedTypes ∨ isNull (r.args.get prop) = true
  · rw [coerceTo_same hsame, Option.some.injEq] at h
    rw [h]
  · obtain ⟨htype, hnull⟩ := not_or.mp hsame
    rw [not_not] at htype
    cases hfind : r.args.find prop with
    | none =>
      refine absurd ?_ hnull
      unfold Arguments.get
      rw [hfind]
      rfl
    | some value =>
      rw [r.args.get_of_find hfind, Bool.not_eq_true] at hnull
      refine (coerceTo_coerced htype hfind hnull h).others key (hkey.resolve_right ?_)
      simp [hfind]

/-! ## All properties -/

variable {texts : Texts D} {props : List (String × String)}

omit [RealDoubles D] in
lemma foldlM_others {r r' : Resolved D}
    (h : props.foldlM (fun r prop => r.coerceTo texts prop.1 prop.2) r = some r') {key : String}
    (hkey : key ∉ props.map Prod.fst ∨ r.args.find key = none) : r'.args.find key = r.args.find key := by
  induction props generalizing r with
  | nil => rw [Option.some.inj h]
  | cons first props ih =>
    rw [List.foldlM_cons, Option.bind_eq_bind, Option.bind_eq_some_iff] at h
    obtain ⟨next, hfirst, hrest⟩ := h
    have hnext : next.args.find key = r.args.find key := by
      refine coerceTo_others hfirst ?_
      rcases hkey with hmem | hmissing
      · exact .inl fun heq => hmem (heq ▸ List.mem_cons_self)
      · by_cases heq : key = first.1
        · exact .inr (heq ▸ hmissing)
        · exact .inl heq
    rw [← hnext] at hkey ⊢
    exact ih hrest (hkey.imp_left fun hmem => mt (List.mem_cons_of_mem _) hmem)

omit [RealDoubles D] in
/-- The integers of number properties become floats. -/
lemma foldlM_int (hnodup : (props.map Prod.fst).Nodup) {r r' : Resolved D}
    (h : props.foldlM (fun r prop => r.coerceTo texts prop.1 prop.2) r = some r')
    {prop : String × String} (hmem : prop ∈ props) (htype : prop.2 = "number" ∨ prop.2 = "float") {n : ℤ}
    (hfind : r.args.find prop.1 = some (.int n)) :
    ∃ x, texts.float (.int n) = some x ∧ r'.args.find prop.1 = some (.float x) := by
  induction props generalizing r with
  | nil => cases hmem
  | cons first props ih =>
    rw [List.map_cons, List.nodup_cons] at hnodup
    rw [List.foldlM_cons, Option.bind_eq_bind, Option.bind_eq_some_iff] at h
    obtain ⟨next, hfirst, hrest⟩ := h
    rcases List.mem_cons.mp hmem with rfl | hmem
    · rw [coerceTo_int htype hfind] at hfirst
      obtain ⟨x, hx, rfl⟩ := Option.map_eq_some_iff.mp hfirst
      refine ⟨x, hx, ?_⟩
      rw [foldlM_others hrest (.inl hnodup.1), Arguments.find_set, if_pos rfl]
    · have hne : prop.1 ≠ first.1 := by
        intro heq
        exact hnodup.1 (heq ▸ List.mem_map_of_mem hmem)
      exact ih hnodup.2 hrest hmem (by rw [coerceTo_others hfirst (.inl hne), hfind])

/-- Typed properties with exact numbers are coerced to equal values. -/
lemma foldlM_same (hnodup : (props.map Prod.fst).Nodup) {r : Resolved D}
    (htyped : ∀ prop ∈ props, ∀ value, r.args.find prop.1 = some value → hasType prop.2 value = true)
    (hexact : ∀ prop ∈ props, prop.2 = "number" ∨ prop.2 = "float" → ∀ n,
      r.args.find prop.1 = some (.int n) → ∃ x, texts.float (.int n) = some x ∧ x.part = .finite n) :
    ∃ r', props.foldlM (fun r prop => r.coerceTo texts prop.1 prop.2) r = some r' ∧
      r'.errors = r.errors ∧ SameArguments r.args r'.args := by
  induction props generalizing r with
  | nil => exact ⟨r, rfl, rfl, fun key => sameValue_refl _⟩
  | cons first props ih =>
    rw [List.map_cons, List.nodup_cons] at hnodup
    have hne : ∀ prop ∈ props, prop.1 ≠ first.1 := by
      intro prop hprop heq
      exact hnodup.1 (heq ▸ List.mem_map_of_mem hprop)
    by_cases hint : (first.2 = "number" ∨ first.2 = "float") ∧ ∃ n, r.args.find first.1 = some (.int n)
    · obtain ⟨htype, n, hfind⟩ := hint
      obtain ⟨x, hx, hequal⟩ := hexact first List.mem_cons_self htype n hfind
      have hfirst := @coerceTo_int D texts r first.1 first.2 n htype hfind
      rw [hx, Option.map_some] at hfirst
      have hfindNext : ∀ prop ∈ props,
          (r.args.set first.1 (.float x)).find prop.1 = r.args.find prop.1 := by
        intro prop hprop
        rw [Arguments.find_set, if_neg (hne prop hprop).symm]
      obtain ⟨r', hfold, herrors, hsame⟩ := ih (r := { r with args := r.args.set first.1 (.float x) }) hnodup.2
        (fun prop hprop value hvalue => htyped prop (List.mem_cons_of_mem _ hprop) value (by
          rw [← hfindNext prop hprop]
          exact hvalue))
        (fun prop hprop htype n hn => hexact prop (List.mem_cons_of_mem _ hprop) htype n (by
          rw [← hfindNext prop hprop]
          exact hn))
      refine ⟨r', ?_, herrors, fun key => ?_⟩
      · rw [List.foldlM_cons, hfirst]
        exact hfold
      · have hlater := hsame key
        by_cases hkey : toPyStr first.1 = key
        · subst hkey
          have hlast : r'.args.find first.1 = some (.float x) := by
            rw [foldlM_others hfold (.inl hnodup.1), Arguments.find_set, if_pos rfl]
          unfold Arguments.find at hlast hfind
          rw [hlast, hfind]
          exact .some (.inr ⟨n, x, rfl, rfl, hequal⟩)
        · unfold Arguments.set at hlater
          rw [getItem_setItem r.args.nodup, if_neg hkey] at hlater
          exact hlater
    · have hfirst : r.coerceTo texts first.1 first.2 = some r :=
        coerceTo_typed (htyped first List.mem_cons_self) fun htype n hn => hint ⟨htype, n, hn⟩
      obtain ⟨r', hfold, herrors, hsame⟩ := ih hnodup.2
        (fun prop hprop => htyped prop (List.mem_cons_of_mem _ hprop))
        (fun prop hprop => hexact prop (List.mem_cons_of_mem _ hprop))
      refine ⟨r', ?_, herrors, hsame⟩
      rw [List.foldlM_cons, hfirst]
      exact hfold

end Resolved

/-! ## The check -/

variable {texts : Texts D} {schema : Schema} {given : Arguments D}

/-- What an alias has filled is gone from the dictionary. -/
lemma unfilled_of_same {resolved : Resolved D}
    (h : validateAgainstSchema texts given schema = some resolved)
    (hsame : SameArguments given resolved.args) : Unfilled schema given := by
  intro prop hprop
  rw [validateAgainstSchema_eq] at h
  obtain ⟨coerced, hcoerced, rfl⟩ := Option.map_eq_some_iff.mp h
  rw [(foldl_required schema.required coerced).1] at hsame
  by_contra hfilled
  obtain ⟨name, hname⟩ := Option.ne_none_iff_exists'.mp hfilled
  obtain ⟨halias, -, hfull⟩ := filler_mem hname
  have hgone : resolvedFind given schema.names name = none := by
    rw [resolvedFind_alias halias, if_pos ⟨prop, hprop, hname⟩]
  rw [← find_resolveAliases { args := given }] at hgone
  have hlast := Resolved.foldlM_others hcoerced (.inr hgone)
  rw [hgone] at hlast
  have hrel := hsame (toPyStr name)
  unfold Arguments.find at hlast
  have hfound := given.find_of_get hfull
  unfold Arguments.find at hfound
  rw [hfound, hlast] at hrel
  cases hrel

/-- A dictionary that conforms is valid and comes back equal exactly if nothing is filled and the numbers
are exact. -/
theorem validateAgainstSchema_same_iff (hnodup : (schema.properties.map Prod.fst).Nodup)
    (hconforms : Conforms schema given) :
    (∃ resolved, validateAgainstSchema texts given schema = some resolved ∧ resolved.errors = [] ∧
        SameArguments given resolved.args) ↔
      Unfilled schema given ∧ NumbersExact texts schema given := by
  constructor
  · rintro ⟨resolved, hvalidate, -, hsame⟩
    have hunfilled := unfilled_of_same hvalidate hsame
    refine ⟨hunfilled, fun prop hprop htype n hfind => ?_⟩
    rw [validateAgainstSchema_eq, resolveAliases_of_unfilled { args := given } hunfilled] at hvalidate
    obtain ⟨coerced, hcoerced, rfl⟩ := Option.map_eq_some_iff.mp hvalidate
    rw [(foldl_required schema.required coerced).1] at hsame
    obtain ⟨x, hx, hlast⟩ := Resolved.foldlM_int hnodup hcoerced hprop htype hfind
    have hrel := hsame (toPyStr prop.1)
    unfold Arguments.find at hlast hfind
    rw [hlast, hfind] at hrel
    cases hrel with
    | some hvalue =>
      rcases hvalue with heq | ⟨m, y, hm, hy, hequal⟩
      · cases heq
      · cases hm
        cases hy
        exact ⟨x, hx, hequal⟩
  · rintro ⟨hunfilled, hexact⟩
    obtain ⟨coerced, hcoerced, herrors, hsame⟩ :=
      @Resolved.foldlM_same D _ texts schema.properties hnodup { args := given } hconforms.typed hexact
    have hnone : coerced.errors = [] := herrors
    obtain ⟨hargs, hvalid⟩ := foldl_required schema.required coerced
    refine ⟨schema.required.foldl checkRequired coerced, ?_, hvalid.mpr ⟨hnone, ?_⟩, ?_⟩
    · rw [validateAgainstSchema_eq, resolveAliases_of_unfilled { args := given } hunfilled, hcoerced]
      rfl
    · intro req hreq
      rw [hsame.isNull_get]
      exact hconforms.required req hreq
    · rw [hargs]
      exact hsame

/-! ## The repair -/

omit [RealDoubles D] in
lemma conforms_of_all (hrequired : ∀ req ∈ schema.required, isNull (given.get req) = false)
    (htyped : ∀ prop ∈ schema.properties, (given.find prop.1).all (hasType prop.2) = true) :
    Conforms schema given where
  required := hrequired
  typed prop hprop value hfind := by
    have hall := htyped prop hprop
    rw [hfind] at hall
    exact hall

def writeCall : Arguments Empty :=
  .ofPairs [("file_path", .str (toPyStr "a.md")), ("content", .str (toPyStr "x")), ("note", .int 5)]

/-- An empty file with a text beside it. -/
def emptyWrite : Arguments Empty :=
  .ofPairs [("file_path", .str (toPyStr "a.md")), ("content", .str []), ("text", .str (toPyStr "x"))]

def filledWrite : Arguments Empty :=
  .ofPairs [("file_path", .str (toPyStr "a.md")), ("content", .str (toPyStr "x"))]

end AgentSystem.Executor
