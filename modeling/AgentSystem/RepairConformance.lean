import AgentSystem.ArgumentAliases

/-!
# Repaired arguments and their schema

What a successful repair says about the arguments it returns. A property of a type that has a coercion is
checked; a null, an array and an object are not.
-/
namespace AgentSystem.Executor

open Json PySequence Programs

variable {D : Type}

/-- The value has the declared type; other types than these declare nothing. -/
def hasType (type : String) : PyValue D → Bool
  | .none => type ∉ ["string", "integer", "int", "number", "float", "boolean", "array", "object"]
  | .bool _ => type ∉ ["string", "integer", "int", "number", "float", "array", "object"]
  | .int _ => type ∉ ["string", "boolean", "array", "object"]
  | .float _ => type ∉ ["string", "integer", "int", "boolean", "array", "object"]
  | .str _ => type ∉ ["integer", "int", "number", "float", "boolean", "array", "object"]
  | .list _ => type ∉ ["string", "integer", "int", "number", "float", "boolean", "object"]
  | .dict _ => type ∉ ["string", "integer", "int", "number", "float", "boolean", "array"]

def isNull : PyValue D → Bool
  | .none => true
  | _ => false

/-- Every required parameter has a value that is not null, and every declared property that is present has
its type. -/
structure Conforms (schema : Schema) (args : Arguments D) : Prop where
  required : ∀ req ∈ schema.required, isNull (args.get req) = false
  typed : ∀ prop ∈ schema.properties, ∀ value, args.find prop.1 = some value → hasType prop.2 value = true

/-- The names whose aliases are resolved. -/
def Schema.names (schema : Schema) : List String := schema.properties.map Prod.fst ++ schema.required

/-- A value that no coercion looks at: a null, and the value of an array or an object. -/
def Uncoerced (type : String) (value : PyValue D) : Prop :=
  isNull value = true ∨ type = "array" ∨ type = "object"

/-- After its aliases are resolved the dictionary has the declared type where no coercion looks. -/
def Sound (schema : Schema) (given : Arguments D) : Prop :=
  ∀ prop ∈ schema.properties, ∀ value, resolvedFind given schema.names prop.1 = some value →
    Uncoerced prop.2 value → hasType prop.2 value = true

/-! ## One property -/

namespace Resolved

variable {texts : Texts D} {r r' : Resolved D} {prop type : String} {value : PyValue D}

/-- The property has a value of its type now, or the coercion has failed; the rest is as it was. -/
structure Coerced (r r' : Resolved D) (prop type : String) : Prop where
  typed : r'.errors = [] → ∃ value, r'.args.find prop = some value ∧ hasType type value = true
  errors : r'.errors = [] → r.errors = []
  others : ∀ key, key ≠ prop → r'.args.find key = r.args.find key

lemma coerced_coerce (h : hasType type value = true) : Coerced r (r.coerce prop value) prop type where
  typed _ := by
    refine ⟨value, ?_, h⟩
    unfold coerce
    rw [use_args, Arguments.find_set, if_pos rfl]
  errors hnone := by
    unfold coerce at hnone
    rw [use_errors] at hnone
    exact hnone
  others key hkey := by
    unfold coerce
    rw [use_args, Arguments.find_set, if_neg (Ne.symm hkey)]

lemma coerced_set (h : hasType type value = true) :
    Coerced r { r with args := r.args.set prop value } prop type where
  typed _ := ⟨value, by rw [Arguments.find_set, if_pos rfl], h⟩
  errors hnone := hnone
  others key hkey := by rw [Arguments.find_set, if_neg (Ne.symm hkey)]

lemma coerced_fail (error : PyStr) : Coerced r (r.fail error) prop type where
  typed hnone := absurd hnone (by simp [fail])
  errors hnone := absurd hnone (by simp [fail])
  others _ _ := rfl

lemma coerced_same (hfind : r.args.find prop = some value) (h : hasType type value = true) :
    Coerced r r prop type where
  typed _ := ⟨value, hfind, h⟩
  errors hnone := hnone
  others _ _ := rfl

lemma coerceInteger_coerced (htype : type = "integer" ∨ type = "int") (hfind : r.args.find prop = some value)
    (h : r.coerceInteger texts prop value = some r') : Coerced r r' prop type := by
  have hint : ∀ n : ℤ, hasType type (.int n : PyValue D) = true := by
    intro n
    rcases htype with rfl | rfl <;> simp [hasType]
  unfold coerceInteger at h
  split at h
  · rw [← Option.some.inj h]
    exact coerced_same hfind (hint _)
  · split_ifs at h
    · obtain ⟨n, -, rfl⟩ := Option.map_eq_some_iff.mp h
      exact coerced_coerce (hint n)
    · rw [← Option.some.inj h]
      exact coerced_fail _
  · obtain ⟨text, -, rfl⟩ := Option.map_eq_some_iff.mp h
    exact coerced_fail _

lemma coerceBoolean_coerced (hfind : r.args.find prop = some value)
    (h : r.coerceBoolean texts prop value = some r') : Coerced r r' prop "boolean" := by
  have hbool : ∀ b : Bool, hasType "boolean" (.bool b : PyValue D) = true := by
    intro b
    simp [hasType]
  unfold coerceBoolean at h
  split at h
  · rw [← Option.some.inj h]
    exact coerced_same hfind (hbool _)
  · dsimp only at h
    split_ifs at h
    · rw [← Option.some.inj h]
      exact coerced_coerce (hbool true)
    · rw [← Option.some.inj h]
      exact coerced_coerce (hbool false)
    · rw [← Option.some.inj h]
      exact coerced_fail _
  · rw [← Option.some.inj h]
    exact coerced_fail _

lemma coerceNumber_coerced (htype : type = "number" ∨ type = "float") (hfind : r.args.find prop = some value)
    (h : r.coerceNumber texts prop value = some r') : Coerced r r' prop type := by
  have hfloat : ∀ x : PyFloat D, hasType type (.float x : PyValue D) = true := by
    intro x
    rcases htype with rfl | rfl <;> simp [hasType]
  unfold coerceNumber at h
  split at h
  · rw [← Option.some.inj h]
    exact coerced_same hfind (hfloat _)
  · split at h
    · rw [← Option.some.inj h]
      exact coerced_coerce (hfloat _)
    · rw [← Option.some.inj h]
      exact coerced_fail _
  · obtain ⟨x, -, rfl⟩ := Option.map_eq_some_iff.mp h
    exact coerced_set (hfloat x)
  · obtain ⟨x, -, rfl⟩ := Option.map_eq_some_iff.mp h
    exact coerced_set (hfloat x)
  · rw [← Option.some.inj h]
    exact coerced_fail _

lemma coerceString_coerced (hfind : r.args.find prop = some value)
    (h : r.coerceString texts prop value = some r') : Coerced r r' prop "string" := by
  have hstr : ∀ s : PyStr, hasType "string" (.str s : PyValue D) = true := by
    intro s
    simp [hasType]
  unfold coerceString at h
  split at h
  · rw [← Option.some.inj h]
    exact coerced_same hfind (hstr _)
  · rw [← Option.some.inj h]
    exact coerced_fail _
  · rw [← Option.some.inj h]
    exact coerced_fail _
  · obtain ⟨text, -, rfl⟩ := Option.map_eq_some_iff.mp h
    exact coerced_coerce (hstr text)

/-- A type that has a coercion. -/
def coercedTypes : List String := ["integer", "int", "boolean", "number", "float", "string"]

/-- A value that is not null is coerced to the type of its property. -/
lemma coerceTo_coerced (htype : type ∈ coercedTypes) (hfind : r.args.find prop = some value)
    (hnull : isNull value = false) (h : r.coerceTo texts prop type = some r') : Coerced r r' prop type := by
  unfold coerceTo at h
  rw [r.args.get_of_find hfind] at h
  split at h
  · cases hnull
  · split_ifs at h with hinteger hboolean hnumber hstring
    · exact coerceInteger_coerced hinteger hfind h
    · subst hboolean
      exact coerceBoolean_coerced hfind h
    · exact coerceNumber_coerced hnumber hfind h
    · subst hstring
      exact coerceString_coerced hfind h
    · simp only [coercedTypes, List.mem_cons, List.not_mem_nil] at htype
      tauto

/-- A missing property, a null and a value of another type are left alone. -/
lemma coerceTo_same (h : type ∉ coercedTypes ∨ isNull (r.args.get prop) = true) :
    r.coerceTo texts prop type = some r := by
  unfold coerceTo
  split
  · rfl
  next value hget =>
    rcases h with htype | hnull
    · simp only [coercedTypes, List.mem_cons, List.not_mem_nil, or_false, not_or] at htype
      obtain ⟨hinteger, hint, hboolean, hnumber, hfloat, hstring⟩ := htype
      rw [if_neg (not_or.mpr ⟨hinteger, hint⟩), if_neg hboolean, if_neg (not_or.mpr ⟨hnumber, hfloat⟩),
        if_neg hstring]
    · exact absurd hnull (by cases value <;> simp_all [isNull])

lemma hasType_of_uncoerced {type : String} (htype : type ∉ coercedTypes) (value : PyValue D)
    (h : Uncoerced type value → hasType type value = true) : hasType type value = true := by
  by_cases hbracket : type = "array" ∨ type = "object"
  · exact h (.inr hbracket)
  · simp only [coercedTypes, List.mem_cons, List.not_mem_nil, or_false, not_or] at htype
    obtain ⟨harray, hobject⟩ := not_or.mp hbracket
    cases value <;> simp_all [hasType]

/-- A property that is coerced without an error has its type exactly if it had it where no coercion looks. -/
lemma coerceTo_spec (h : r.coerceTo texts prop type = some r') (hnone : r'.errors = []) :
    r.errors = [] ∧ (∀ key, key ≠ prop → r'.args.find key = r.args.find key) ∧
      ((∀ value, r'.args.find prop = some value → hasType type value = true) ↔
        ∀ value, r.args.find prop = some value → Uncoerced type value → hasType type value = true) := by
  by_cases hsame : type ∉ coercedTypes ∨ isNull (r.args.get prop) = true
  · rw [coerceTo_same hsame, Option.some.injEq] at h
    subst h
    refine ⟨hnone, fun _ _ => rfl, fun htyped value hfind _ => htyped value hfind, ?_⟩
    intro huncoerced value hfind
    rcases hsame with htype | hnull
    · exact hasType_of_uncoerced htype value (huncoerced value hfind)
    · rw [r.args.get_of_find hfind] at hnull
      exact huncoerced value hfind (.inl hnull)
  · obtain ⟨htype, hnull⟩ := not_or.mp hsame
    rw [not_not] at htype
    cases hfind : r.args.find prop with
    | none =>
      refine absurd ?_ hnull
      unfold Arguments.get
      rw [hfind]
      rfl
    | some value =>
      rw [r.args.get_of_find hfind, Bool.not_eq_true] at hnull
      have hcoerced := coerceTo_coerced htype hfind hnull h
      refine ⟨hcoerced.errors hnone, hcoerced.others, iff_of_true ?_ ?_⟩
      · obtain ⟨result, hresult, htyped⟩ := hcoerced.typed hnone
        intro other hother
        rw [← Option.some.inj (hresult.symm.trans hother)]
        exact htyped
      · intro other hother huncoerced
        rw [← Option.some.inj hother] at huncoerced ⊢
        rcases huncoerced with hother | rfl | rfl
        · rw [hother] at hnull
          cases hnull
        · exact absurd htype (by decide)
        · exact absurd htype (by decide)

/-- Properties with different names are coerced one by one. -/
lemma foldlM_coerceTo {props : List (String × String)} (hnodup : (props.map Prod.fst).Nodup)
    (h : props.foldlM (fun r prop => r.coerceTo texts prop.1 prop.2) r = some r') (hnone : r'.errors = []) :
    r.errors = [] ∧ (∀ key, key ∉ props.map Prod.fst → r'.args.find key = r.args.find key) ∧
      ∀ prop ∈ props, (∀ value, r'.args.find prop.1 = some value → hasType prop.2 value = true) ↔
        ∀ value, r.args.find prop.1 = some value → Uncoerced prop.2 value → hasType prop.2 value = true := by
  induction props generalizing r with
  | nil =>
    have hsame : r = r' := Option.some.inj h
    subst hsame
    exact ⟨hnone, fun _ _ => rfl, fun prop hprop => absurd hprop List.not_mem_nil⟩
  | cons first props ih =>
    rw [List.map_cons, List.nodup_cons] at hnodup
    rw [List.foldlM_cons, Option.bind_eq_bind, Option.bind_eq_some_iff] at h
    obtain ⟨next, hfirst, hrest⟩ := h
    obtain ⟨hnext, hothers, htyped⟩ := ih hnodup.2 hrest
    obtain ⟨herrors, hkept, hiff⟩ := coerceTo_spec hfirst hnext
    refine ⟨herrors, fun key hkey => ?_, fun prop hprop => ?_⟩
    · rw [List.map_cons, List.mem_cons, not_or] at hkey
      rw [hothers key hkey.2, hkept key hkey.1]
    · rcases List.mem_cons.mp hprop with rfl | hmem
      · rw [hothers prop.1 hnodup.1]
        exact hiff
      · have hne : prop.1 ≠ first.1 := by
          rintro heq
          exact hnodup.1 (heq ▸ List.mem_map_of_mem hmem)
        rw [htyped prop hmem, hkept prop.1 hne]

end Resolved

/-! ## The whole check -/

variable {texts : Texts D} {schema : Schema}

/-- The check of one required parameter. -/
def checkRequired (r : Resolved D) (req : String) : Resolved D :=
  match r.args.get req with
  | .none => r.fail (toPyStr s!"Missing required parameter '{req}'")
  | _ => r

lemma checkRequired_eq (r : Resolved D) (req : String) : checkRequired r req =
    if isNull (r.args.get req) then r.fail (toPyStr s!"Missing required parameter '{req}'") else r := by
  unfold checkRequired
  cases r.args.get req <;> rfl

/-- Without an error every required parameter has a value. -/
lemma foldl_required (required : List String) (r : Resolved D) :
    (required.foldl checkRequired r).args = r.args ∧ ((required.foldl checkRequired r).errors = [] ↔
      r.errors = [] ∧ ∀ req ∈ required, isNull (r.args.get req) = false) := by
  induction required generalizing r with
  | nil => simp
  | cons req required ih =>
    obtain ⟨hargs, hrest⟩ := ih (checkRequired r req)
    rw [List.foldl_cons, hargs, hrest, checkRequired_eq]
    cases hnull : isNull (r.args.get req) with
    | true => simp [Resolved.fail, hnull]
    | false => simp [hnull]

lemma validateAgainstSchema_eq (args : Arguments D) : validateAgainstSchema texts args schema =
    (schema.properties.foldlM (fun (r : Resolved D) prop => r.coerceTo texts prop.1 prop.2)
      (({ args := args } : Resolved D).resolveAliases schema.names)).map
        fun coerced => schema.required.foldl checkRequired coerced := by
  unfold validateAgainstSchema
  rw [Option.map_eq_bind]
  rfl

/-- What a dictionary became that was found valid. -/
theorem validateAgainstSchema_conforms (hnodup : (schema.properties.map Prod.fst).Nodup)
    {given : Arguments D} {resolved : Resolved D}
    (h : validateAgainstSchema texts given schema = some resolved) (hvalid : resolved.errors = []) :
    Conforms schema resolved.args ↔ Sound schema given := by
  rw [validateAgainstSchema_eq] at h
  obtain ⟨coerced, hcoerced, rfl⟩ := Option.map_eq_some_iff.mp h
  obtain ⟨hargs, herrors⟩ := foldl_required schema.required coerced
  obtain ⟨hnone, hrequired⟩ := herrors.mp hvalid
  obtain ⟨-, -, htyped⟩ := Resolved.foldlM_coerceTo hnodup hcoerced hnone
  simp only [find_resolveAliases] at htyped
  rw [hargs]
  constructor
  · intro hconforms prop hprop
    exact (htyped prop hprop).mp (hconforms.typed prop hprop)
  · intro hsound
    exact ⟨hrequired, fun prop hprop => (htyped prop hprop).mpr (hsound prop hprop)⟩

/-! ## The repair -/

variable {L E : Type}

/-- The dictionary was read from this input, found valid and became these arguments. -/
def Accepts (texts : Texts D) (schema : Schema) (raw : RawArguments D) (given args : Arguments D) : Prop :=
  parseRawArguments texts raw = .ok given ∧ ∃ resolved,
    validateAgainstSchema texts given schema = some resolved ∧ resolved.errors = [] ∧ resolved.args = args

lemma checkArguments_valid {raw : RawArguments D} {resolved : Resolved D}
    (h : checkArguments texts schema raw = some (.valid resolved)) :
    ∃ given, Accepts texts schema raw given resolved.args := by
  unfold checkArguments at h
  split at h
  · cases Option.some.inj h
  next given hparse =>
    obtain ⟨result, hresult, hvalid⟩ := Option.map_eq_some_iff.mp h
    by_cases herrors : result.errors = []
    · rw [if_pos herrors] at hvalid
      cases hvalid
      exact ⟨given, hparse, resolved, hresult, herrors, rfl⟩
    · rw [if_neg herrors] at hvalid
      cases hvalid

/-- The rounds succeed with a dictionary that the model answered. -/
lemma repairRounds_success {caller : RepairPrompt D → Program L E (RawArguments D)} {toolName : String}
    {conversionError : E} {rounds phases : ℕ} {raw : RawArguments D} {errors : List PyStr} {s s' : L}
    {args : Arguments D} {strategy : RepairStrategy}
    (h : repairRounds texts caller toolName schema conversionError rounds phases raw errors s =
      (.ok (.success args strategy), s')) :
    ∃ reply given, Accepts texts schema reply given args := by
  induction rounds generalizing phases raw errors s with
  | zero =>
    cases h
  | succ rounds ih =>
    unfold repairRounds at h
    obtain ⟨output, s₁, -, hnext⟩ := Program.bind_eq_ok h
    cases output with
    | none => cases hnext
    | some reply =>
      dsimp only at hnext
      cases hcheck : checkArguments texts schema reply with
      | none =>
        rw [hcheck] at hnext
        cases hnext
      | some checked =>
        rw [hcheck] at hnext
        cases checked with
        | valid resolved =>
          obtain ⟨given, haccepts⟩ := checkArguments_valid hcheck
          cases hnext
          exact ⟨reply, given, haccepts⟩
        | invalid raw errors => exact ih hnext

/-- Every success is that of a dictionary: the one of the raw arguments, or one that the model answered. -/
lemma validateAndRepair_success {caller : Option (RepairPrompt D → Program L E (RawArguments D))}
    {conversionError : E} {toolName : String} {raw : RawArguments D} {passed : Option Schema} {maxTurns : ℕ}
    {s s' : L} {args : Arguments D} {strategy : RepairStrategy}
    (h : validateAndRepair texts caller conversionError toolName raw passed maxTurns s =
      (.ok (.success args strategy), s')) :
    ∃ source given, Accepts texts (passed.getD (getToolSchema toolName)) source given args := by
  unfold validateAndRepair at h
  cases hcheck : checkArguments texts (passed.getD (getToolSchema toolName)) raw with
  | none =>
    rw [hcheck] at h
    cases h
  | some checked =>
    rw [hcheck] at h
    cases checked with
    | valid resolved =>
      obtain ⟨given, haccepts⟩ := checkArguments_valid hcheck
      cases h
      exact ⟨raw, given, haccepts⟩
    | invalid raw errors =>
      cases caller with
      | none => cases h
      | some caller => exact repairRounds_success h

/-- No text is read and no value converted. -/
def bareTexts : Texts Empty where
  parse _ := .error (toPyStr "Failed to parse raw arguments as JSON")
  isDigit _ := false
  int _ := none
  float _ := none
  lower := id
  str _ := none

def readCall : Arguments Empty := .ofPairs [("file_path", .str (toPyStr "a.md"))]

lemma readCall_accepted : validateAndRepair bareTexts
    (none : Option (RepairPrompt Empty → Program Unit Unit (RawArguments Empty))) () "filesystem.read"
      (.dict readCall) none 2 () = (.ok (.success readCall .noop), ()) := rfl

def tagSchema : Schema where
  properties := [("tags", "array")]
  required := ["tags"]

def tagCall : Arguments Empty := .ofPairs [("tags", .int 5)]

end AgentSystem.Executor
