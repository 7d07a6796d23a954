import AgentSystem.RawToolArguments

/-!
# Repairs that raise

`validate_and_repair` on any Python value, with the built-in conversions that may raise inside it and the
model that may answer any text or raise.
-/
namespace AgentSystem.ProtocolRepair

open Json CheckpointFile Executor

variable {D : Type}

/-! ## Built-ins -/

/-- The conversions, `none` when they raise, and the keys that the result model takes, with what it makes of
them. The text of a value is only asked for where it has one. -/
structure Builtins (D : Type) extends ArgumentParsers D where
  isDigit : PyStr → Bool
  int : PyStr → Option ℤ
  floatOfText : PyStr → Option (PyFloat D)
  floatOfInt : ℤ → Option (PyFloat D)
  floatOfBool : Bool → PyFloat D
  lower : PyStr → PyStr
  str : PyData D → PyStr
  equal : PyData D → PyData D → Bool
  resultKey : PyData D → Option (PyData D)

mutual

/-- An integer with too many digits for a text is in the value. -/
def hasHuge : PyData D → Bool
  | .number (.int n) => maxStrDigits < (intLiteral n).whole.length
  | .list items => hasHugeItems items
  | .tuple items => hasHugeItems items
  | .set items => hasHugeItems items
  | .dict items => hasHugeMembers items
  | _ => false

def hasHugeItems : List (PyData D) → Bool
  | [] => false
  | value :: items => hasHuge value || hasHugeItems items

def hasHugeMembers : List (PyData D × PyData D) → Bool
  | [] => false
  | (key, value) :: items => hasHuge key || hasHuge value || hasHugeMembers items

end

namespace Builtins

variable (builtins : Builtins D)

/-- `str(value)`, `none` when it raises. -/
def text (value : PyData D) : Option PyStr := if hasHuge value then none else some (builtins.str value)

end Builtins

/-! ## Dictionaries -/

abbrev Dictionary (D : Type) := List (PyData D × PyData D)

def field (args : Dictionary D) (name : String) : Option (PyData D) :=
  (args.find? fun item => item.1.text = some (toPyStr name)).map Prod.snd

def setField (args : Dictionary D) (name : String) (value : PyData D) : Dictionary D :=
  if (field args name).isSome then
    args.map fun item => if item.1.text = some (toPyStr name) then (item.1, value) else item
  else args ++ [(.str (toPyStr name), value)]

def popField (args : Dictionary D) (name : String) : Dictionary D :=
  args.filter fun item => item.1.text ≠ some (toPyStr name)

/-- Missing, null or an empty string. -/
def isBlank : Option (PyData D) → Bool
  | none => true
  | some .none => true
  | some (.str s) => s.isEmpty
  | some _ => false

/-- The first alias with a value takes the place of a missing key. -/
def resolveAlias (args : Dictionary D) (prop : String) : Option (Dictionary D) :=
  if isBlank (field args prop) then
    (((paramAliases.lookup prop).getD []).find? fun name => !isBlank (field args name)).map fun name =>
      setField (popField args name) prop ((field args name).getD .none)
  else none

/-! ## The check of a dictionary -/

structure Resolved (D : Type) where
  args : Dictionary D
  strategies : List RepairStrategy := []
  errors : List PyStr := []

namespace Resolved

def use (r : Resolved D) (strategy : RepairStrategy) : Resolved D :=
  if strategy ∈ r.strategies then r else { r with strategies := r.strategies ++ [strategy] }

def fail (r : Resolved D) (error : PyStr) : Resolved D := { r with errors := r.errors ++ [error] }

def resolveAliases (r : Resolved D) (props : List String) : Resolved D :=
  props.foldl (fun r prop =>
    match resolveAlias r.args prop with
    | some args => { r with args := args }.use .aliasMapping
    | none => r) r

def set (r : Resolved D) (prop : String) (value : PyData D) : Resolved D :=
  { r with args := setField r.args prop value }

def coerce (r : Resolved D) (prop : String) (value : PyData D) : Resolved D := (r.set prop value).use .typeCoercion

variable (builtins : Builtins D) (r : Resolved D) (prop : String)

def coerceInteger : PyData D → Option (Resolved D)
  | .number (.int _) => some r
  | .str s =>
      if builtins.isDigit ((strip s).dropWhile (· = codePoint '-')) then
        (builtins.int (strip s)).map fun n => r.coerce prop (.number (.int n))
      else
        some (r.fail (toPyStr s!"Property '{prop}' expected integer, got str (" ++ s ++ toPyStr ")"))
  | value =>
      (builtins.text value).map fun text =>
        r.fail (toPyStr s!"Property '{prop}' expected integer, got {dataTypeName value} (" ++ text ++
          toPyStr ")")

def coerceBoolean : PyData D → Resolved D
  | .number (.bool _) => r
  | .str s =>
      let clean := builtins.lower (strip s)
      if clean ∈ ["true", "1", "yes"].map toPyStr then r.coerce prop (.number (.bool true))
      else if clean ∈ ["false", "0", "no"].map toPyStr then r.coerce prop (.number (.bool false))
      else r.fail (toPyStr s!"Property '{prop}' cannot be coerced to boolean from '" ++ s ++ toPyStr "'")
  | value => r.fail (toPyStr s!"Property '{prop}' expected boolean, got {dataTypeName value}")

def coerceNumber : PyData D → Option (Resolved D)
  | .number (.float _) => some r
  | .number (.int n) => (builtins.floatOfInt n).map fun x => r.set prop (.number (.float x))
  | .number (.bool b) => some (r.set prop (.number (.float (builtins.floatOfBool b))))
  | .str s =>
      match builtins.floatOfText s with
      | some x => some (r.coerce prop (.number (.float x)))
      | none => some (r.fail (toPyStr s!"Property '{prop}' expected number, got '" ++ s ++ toPyStr "'"))
  | value => some (r.fail (toPyStr s!"Property '{prop}' expected number, got {dataTypeName value}"))

def coerceString : PyData D → Option (Resolved D)
  | .str _ => some r
  | .number (.complex _ _) => some (r.fail (toPyStr s!"Property '{prop}' expected string, got complex"))
  | .number x => (builtins.text (.number x)).map fun text => r.coerce prop (.str text)
  | value => some (r.fail (toPyStr s!"Property '{prop}' expected string, got {dataTypeName value}"))

/-- The coercion of one property to its type, `none` when a conversion raises. -/
def coerceTo (type : String) : Option (Resolved D) :=
  match field r.args prop with
  | none => some r
  | some .none => some r
  | some value =>
      if type = "integer" ∨ type = "int" then r.coerceInteger builtins prop value
      else if type = "boolean" then some (r.coerceBoolean builtins prop value)
      else if type = "number" ∨ type = "float" then r.coerceNumber builtins prop value
      else if type = "string" then r.coerceString builtins prop value
      else some r

def checkRequired (req : String) : Resolved D :=
  match field r.args req with
  | none => r.fail (toPyStr s!"Missing required parameter '{req}'")
  | some .none => r.fail (toPyStr s!"Missing required parameter '{req}'")
  | some _ => r

end Resolved

/-- The dictionary after its aliases are resolved. -/
def aliased (schema : Schema) (args : Dictionary D) : Resolved D :=
  ({ args } : Resolved D).resolveAliases (schema.properties.map Prod.fst ++ schema.required)

/-- `validate_against_schema`, `none` when a conversion raises. -/
def validateAgainstSchema (builtins : Builtins D) (args : Dictionary D) (schema : Schema) :
    Option (Resolved D) :=
  (schema.properties.foldlM (fun (r : Resolved D) prop => r.coerceTo builtins prop.1 prop.2)
    (aliased schema args)).map fun coerced => schema.required.foldl Resolved.checkRequired coerced

/-! ## The repair -/

/-- A check of raw arguments: a valid dictionary, one with errors beside what it was coerced to, or none. -/
inductive Checked (D : Type)
  | valid (resolved : Resolved D)
  | invalid (args : Dictionary D) (resolved : Resolved D)
  | unparsed (error : PyStr)

/-- Parse and validate, `none` when an exception goes through. -/
def check [Doubles D] (builtins : Builtins D) (schema : Schema) (raw : PyData D) : Option (Checked D) :=
  match parseRawArguments builtins.toArgumentParsers raw with
  | none => none
  | some { ok := true, value := .dict args, .. } =>
      (validateAgainstSchema builtins args schema).map fun resolved =>
        if resolved.errors = [] then .valid resolved else .invalid args resolved
  | some parsed => some (.unparsed (parsed.error.getD (toPyStr "JSON parsing failed")))

/-- An entry of the history; those of the rounds have a turn. -/
structure HistoryEntry where
  turn : Option ℕ := none
  errors : List PyStr := []
  note : PyStr

/-- The fields of a result; a strategy is missing where it is `FAILED`. -/
structure RepairResult (D : Type) where
  success : Bool
  repairedArguments : Dictionary D := []
  strategy : Option RepairStrategy
  turnsUsed : ℕ := 0
  error : Option PyStr := none
  originalArguments : PyData D
  repairHistory : List HistoryEntry := []

section Repair

variable (builtins : Builtins D)

/-- A key that comes again has its last value. -/
def insertItem (args : Dictionary D) (item : PyData D × PyData D) : Dictionary D :=
  if args.any fun old => builtins.equal old.1 item.1 then
    args.map fun old => if builtins.equal old.1 item.1 then (old.1, item.2) else old
  else args ++ [item]

/-- `RepairResult(...)`, `none` when a key of the arguments is refused. -/
def build (result : RepairResult D) : Option (RepairResult D) :=
  (result.repairedArguments.mapM fun item => (builtins.resultKey item.1).map fun key => (key, item.2)).map
    fun items => { result with repairedArguments := items.foldl (insertItem builtins) [] }

/-- The failure with this history. -/
def failed (original : PyData D) (errors : List PyStr) (history : List HistoryEntry) : RepairResult D where
  success := false
  strategy := none
  turnsUsed := history.countP fun entry => entry.turn.isSome
  error := some (toPyStr s!"Protocol repair failed after {history.length} attempt(s): " ++
    (toPyStr "; ").intercalate errors)
  originalArguments := original
  repairHistory := history

variable [Doubles D]

/-- The rounds: a prompt has the text of what is to be repaired, and the model answers or raises. -/
def repairRounds (schema : Schema) (original : PyData D) (replies : ℕ → Except PyStr PyStr) :
    ℕ → ℕ → PyData D → List PyStr → List HistoryEntry → Option (RepairResult D)
  | 0, _, _, errors, history => build builtins (failed original errors history)
  | rounds + 1, turn, raw, errors, history => do
      let _ ← builtins.text raw
      match replies turn with
      | .error raised =>
          build builtins (failed original errors (history ++ [{ turn := some turn, note := raised }]))
      | .ok reply =>
          match ← check builtins schema (.str reply) with
          | .valid resolved =>
              build builtins
                { success := true
                  repairedArguments := resolved.args
                  strategy := some .llmReflection
                  turnsUsed := turn
                  originalArguments := original
                  repairHistory := history }
          | .invalid args resolved =>
              repairRounds schema original replies rounds (turn + 1) (.dict args) resolved.errors
                (history ++ [{ turn := some turn, errors := resolved.errors, note := reply.take 200 }])
          | .unparsed error =>
              repairRounds schema original replies rounds (turn + 1) (.str reply) [error]
                (history ++ [{ turn := some turn, errors := [error], note := reply.take 200 }])

/-- The strategy of arguments that needed no model. -/
def deterministicStrategy (raw : PyData D) (resolved : Resolved D) : RepairStrategy :=
  match resolved.strategies with
  | strategy :: _ => strategy
  | [] =>
      match raw with
      | .dict args => if builtins.equal (.dict args) (.dict resolved.args) then .noop else .deterministicJson
      | _ => .deterministicJson

/-- What goes on when the raw arguments are not valid. -/
def repairInvalid (schema : Schema) (raw : PyData D) (replies : Option (ℕ → Except PyStr PyStr)) (maxTurns : ℤ)
    (candidate : PyData D) (errors : List PyStr) : Option (RepairResult D) := do
  let text ← builtins.text candidate
  let history : List HistoryEntry := [{ errors, note := text.take 200 }]
  match replies with
  | none => build builtins (failed raw errors history)
  | some replies =>
      repairRounds builtins schema raw replies (min (max 1 maxTurns) 2).toNat 1 raw errors history

/-- `validate_and_repair`, `none` when it raises. -/
def validateAndRepair (toolName : String) (raw : PyData D) (passed : Option Schema)
    (replies : Option (ℕ → Except PyStr PyStr)) (maxTurns : ℤ) : Option (RepairResult D) := do
  let schema := passed.getD (getToolSchema toolName)
  match ← check builtins schema raw with
  | .valid resolved =>
      build builtins
        { success := true
          repairedArguments := resolved.args
          strategy := some (deterministicStrategy builtins raw resolved)
          originalArguments := raw }
  | .invalid _ resolved =>
      repairInvalid builtins schema raw replies maxTurns (.dict resolved.args) resolved.errors
  | .unparsed error => repairInvalid builtins schema raw replies maxTurns raw [error]

end Repair

/-! ## When the check raises -/

lemma find?_setField_map {name key : String} (hname : name ≠ key) (value : PyData D) (args : Dictionary D) :
    field (args.map fun item => if item.1.text = some (toPyStr name) then (item.1, value) else item) key =
      field args key := by
  have hother : ¬ toPyStr name = toPyStr key := fun h => hname (toPyStr_injective h)
  unfold field
  induction args with
  | nil => rfl
  | cons item args ih =>
    rw [List.map_cons, List.find?_cons, List.find?_cons]
    by_cases hitem : item.1.text = some (toPyStr name)
    · rw [if_pos hitem]
      simpa [hitem, hother] using ih
    · rw [if_neg hitem]
      by_cases hkey : item.1.text = some (toPyStr key)
      · simp [hkey]
      · simp only [hkey, decide_false]
        exact ih

/-- A property that is set leaves the others as they are. -/
lemma field_setField_of_ne {name key : String} (hname : key ≠ name) (value : PyData D) (args : Dictionary D) :
    field (setField args name value) key = field args key := by
  unfold setField
  split_ifs
  · exact find?_setField_map (Ne.symm hname) value args
  · have hother : ¬ toPyStr name = toPyStr key := fun h => hname (toPyStr_injective h).symm
    unfold field
    rw [List.find?_append]
    simp [PyData.text, hother]

namespace Resolved

variable {builtins : Builtins D} {r r' : Resolved D} {prop type : String}

@[simp] lemma fail_args (error : PyStr) : (r.fail error).args = r.args := rfl

@[simp] lemma set_args (value : PyData D) : (r.set prop value).args = setField r.args prop value := rfl

@[simp] lemma coerce_args (value : PyData D) : (r.coerce prop value).args = setField r.args prop value := by
  unfold coerce use
  split_ifs <;> rfl

/-- The result has the arguments as they were, or with another value of one property. -/
def Changes (r r' : Resolved D) (prop : String) : Prop :=
  r'.args = r.args ∨ ∃ value, r'.args = setField r.args prop value

lemma coerceInteger_changes {value : PyData D} (h : r.coerceInteger builtins prop value = some r') :
    Changes r r' prop := by
  unfold coerceInteger at h
  split at h
  · cases h
    exact .inl rfl
  · split_ifs at h
    · obtain ⟨n, -, rfl⟩ := Option.map_eq_some_iff.mp h
      exact .inr ⟨_, coerce_args _⟩
    · cases h
      exact .inl rfl
  · obtain ⟨text, -, rfl⟩ := Option.map_eq_some_iff.mp h
    exact .inl rfl

lemma coerceBoolean_changes (value : PyData D) : Changes r (r.coerceBoolean builtins prop value) prop := by
  unfold coerceBoolean
  split
  · exact .inl rfl
  · dsimp only
    split_ifs
    · exact .inr ⟨_, coerce_args _⟩
    · exact .inr ⟨_, coerce_args _⟩
    · exact .inl rfl
  · exact .inl rfl

lemma coerceNumber_changes {value : PyData D} (h : r.coerceNumber builtins prop value = some r') :
    Changes r r' prop := by
  unfold coerceNumber at h
  split at h
  · cases h
    exact .inl rfl
  · obtain ⟨x, -, rfl⟩ := Option.map_eq_some_iff.mp h
    exact .inr ⟨_, rfl⟩
  · cases h
    exact .inr ⟨_, rfl⟩
  · split at h
    · cases h
      exact .inr ⟨_, coerce_args _⟩
    · cases h
      exact .inl rfl
  · cases h
    exact .inl rfl

lemma coerceString_changes {value : PyData D} (h : r.coerceString builtins prop value = some r') :
    Changes r r' prop := by
  unfold coerceString at h
  split at h
  · cases h
    exact .inl rfl
  · cases h
    exact .inl rfl
  · obtain ⟨text, -, rfl⟩ := Option.map_eq_some_iff.mp h
    exact .inr ⟨_, coerce_args _⟩
  · cases h
    exact .inl rfl

lemma coerceTo_others (h : r.coerceTo builtins prop type = some r') {key : String} (hkey : key ≠ prop) :
    field r'.args key = field r.args key := by
  have hchanges : Changes r r' prop := by
    unfold coerceTo at h
    split at h
    · cases h
      exact .inl rfl
    · cases h
      exact .inl rfl
    · split_ifs at h
      · exact coerceInteger_changes h
      · cases h
        exact coerceBoolean_changes _
      · exact coerceNumber_changes h
      · exact coerceString_changes h
      · cases h
        exact .inl rfl
  rcases hchanges with hsame | ⟨value, hset⟩
  · rw [hsame]
  · rw [hset, field_setField_of_ne hkey]

end Resolved

section Converts

variable (builtins : Builtins D)

/-- `int` takes the text if `isdigit` does without its signs; another value has a text. -/
def convertsInteger : PyData D → Bool
  | .number (.int _) => true
  | .str s => !builtins.isDigit ((strip s).dropWhile (· = codePoint '-')) || (builtins.int (strip s)).isSome
  | value => !hasHuge value

/-- An integer is not too large for a float. -/
def convertsNumber : PyData D → Bool
  | .number (.int n) => (builtins.floatOfInt n).isSome
  | _ => true

/-- An integer is not too long for a text. -/
def convertsString : PyData D → Bool
  | .number (.int n) => !hasHuge (.number (.int n) : PyData D)
  | _ => true

/-- No conversion of the value to the type of its property raises. -/
def Converts (type : String) (value : PyData D) : Prop :=
  (type = "integer" ∨ type = "int" → convertsInteger builtins value = true) ∧
    (type = "number" ∨ type = "float" → convertsNumber builtins value = true) ∧
      (type = "string" → convertsString value = true)

end Converts

namespace Resolved

variable {builtins : Builtins D} {r : Resolved D} {prop type : String}

lemma text_isSome (value : PyData D) : (builtins.text value).isSome = !hasHuge value := by
  unfold Builtins.text
  cases hasHuge value <;> rfl

lemma coerceInteger_isSome (value : PyData D) :
    (r.coerceInteger builtins prop value).isSome = convertsInteger builtins value := by
  unfold coerceInteger convertsInteger
  split
  · rfl
  next s =>
    by_cases hdigit : builtins.isDigit ((strip s).dropWhile (· = codePoint '-')) = true
    · simp [hdigit]
    · simp [hdigit]
  · rw [Option.isSome_map, text_isSome]

lemma coerceNumber_isSome (value : PyData D) :
    (r.coerceNumber builtins prop value).isSome = convertsNumber builtins value := by
  unfold coerceNumber convertsNumber
  split
  · rfl
  · rw [Option.isSome_map]
  · rfl
  · split <;> rfl
  next hint _ _ =>
    split
    · exact absurd rfl (hint _)
    · rfl

lemma coerceString_isSome (value : PyData D) :
    (r.coerceString builtins prop value).isSome = convertsString value := by
  unfold coerceString convertsString
  split
  · rfl
  · rfl
  next x hcomplex =>
    rw [Option.isSome_map, text_isSome]
    cases x with
    | int n => rfl
    | bool b => rfl
    | float y => rfl
    | complex re im => exact absurd rfl (hcomplex re im)
  next hnumber =>
    split
    · exact absurd rfl (hnumber _)
    · rfl

/-- The coercion of a property raises exactly if a conversion of its value does. -/
lemma coerceTo_isSome : (r.coerceTo builtins prop type).isSome = true ↔
    ∀ value, field r.args prop = some value → value = .none ∨ Converts builtins type value := by
  unfold coerceTo
  cases hfield : field r.args prop with
  | none => simp
  | some value =>
    simp only [Option.some.injEq, forall_eq']
    by_cases hnone : value = .none
    · subst hnone
      simp
    · have hmatch : ∀ {rest : PyData D → Option (Resolved D)},
          (match some value with
            | none => some r
            | some .none => some r
            | some value => rest value) = rest value := by
        intro rest
        cases value <;> first | rfl | exact absurd rfl hnone
      rw [hmatch, or_iff_right hnone]
      unfold Converts
      split_ifs with hinteger hboolean hnumber hstring
      · have hother : ¬ (type = "number" ∨ type = "float") ∧ type ≠ "string" := by
          rcases hinteger with rfl | rfl <;> decide
        simp [coerceInteger_isSome, hinteger, hother]
      · subst hboolean
        simp
      · have hother : type ≠ "string" := by
          rcases hnumber with rfl | rfl <;> decide
        simp [coerceNumber_isSome, hinteger, hnumber, hother]
      · simp [coerceString_isSome, hstring]
      · simp [hinteger, hnumber, hstring]

variable {props : List (String × String)}

/-- Properties with different names are coerced without an exception exactly if each of them is. -/
lemma foldlM_isSome (hnodup : (props.map Prod.fst).Nodup) :
    (props.foldlM (fun (r : Resolved D) prop => r.coerceTo builtins prop.1 prop.2) r).isSome = true ↔
      ∀ prop ∈ props, ∀ value, field r.args prop.1 = some value →
        value = .none ∨ Converts builtins prop.2 value := by
  induction props generalizing r with
  | nil => simp
  | cons first props ih =>
    rw [List.map_cons, List.nodup_cons] at hnodup
    rw [List.foldlM_cons, Option.bind_eq_bind, List.forall_mem_cons, ← coerceTo_isSome]
    cases hfirst : r.coerceTo builtins first.1 first.2 with
    | none => simp
    | some next =>
      have hsame : ∀ prop ∈ props, field next.args prop.1 = field r.args prop.1 := by
        intro prop hprop
        refine coerceTo_others hfirst ?_
        intro heq
        exact hnodup.1 (heq ▸ List.mem_map_of_mem hprop)
      rw [Option.bind_some, ih hnodup.2, Option.isSome_some, eq_self_iff_true, true_and]
      exact forall₂_congr fun prop hprop => by rw [hsame prop hprop]

end Resolved

/-! ## When the repair raises -/

section Repair

variable [Doubles D] (builtins : Builtins D) (schema : Schema)

/-- The input can be read as this dictionary. -/
def Reads (raw : PyData D) (args : Dictionary D) : Prop :=
  ∃ error, parseRawArguments builtins.toArgumentParsers raw =
    some { ok := true, value := .dict args, error := error }

/-- The check of the input raises nothing: `json.loads` meets no integer with too many digits, and in the
dictionary that is read no conversion of a declared property raises after the aliases are resolved. -/
def Harmless (raw : PyData D) : Prop :=
  (∀ text, raw = .str text → jsonLoads builtins.toParsers (clean text) = none →
    builtins.tooManyDigits (clean text) = false) ∧
  ∀ args, Reads builtins raw args → ∀ prop ∈ schema.properties, ∀ value,
    field (aliased schema args).args prop.1 = some value → value = .none ∨ Converts builtins prop.2 value

variable {builtins schema}

omit [Doubles D] in
lemma validateAgainstSchema_isSome (hnodup : (schema.properties.map Prod.fst).Nodup) (args : Dictionary D) :
    (validateAgainstSchema builtins args schema).isSome = true ↔ ∀ prop ∈ schema.properties, ∀ value,
      field (aliased schema args).args prop.1 = some value → value = .none ∨ Converts builtins prop.2 value := by
  unfold validateAgainstSchema
  rw [Option.isSome_map]
  exact Resolved.foldlM_isSome hnodup

lemma parse_isSome (raw : PyData D) : (parseRawArguments builtins.toArgumentParsers raw).isSome = true ↔
    ∀ text, raw = .str text → jsonLoads builtins.toParsers (clean text) = none →
      builtins.tooManyDigits (clean text) = false := by
  cases raw with
  | str text =>
    simp only [PyData.str.injEq, forall_eq']
    unfold parseRawArguments parseText
    dsimp only
    cases hloads : jsonLoads builtins.toParsers (clean text) with
    | none => cases builtins.tooManyDigits (clean text) <;> simp
    | some value => cases value <;> simp
  | _ => simp [parseRawArguments]

/-- A check raises exactly if the input is not harmless. -/
lemma check_isSome_iff (hnodup : (schema.properties.map Prod.fst).Nodup) (raw : PyData D) :
    (check builtins schema raw).isSome = true ↔ Harmless builtins schema raw := by
  unfold Harmless Reads
  rw [← parse_isSome]
  unfold check
  split
  next hparse => simp [hparse]
  next args error hparse =>
    rw [Option.isSome_map, validateAgainstSchema_isSome hnodup]
    simp [hparse]
  next parsed hother hparse =>
    refine iff_of_true rfl ⟨by rw [hparse]; rfl, ?_⟩
    rintro args ⟨error, hreads⟩
    rw [hparse] at hreads
    exact absurd (Option.some.inj hreads) (hother args error)

variable (builtins schema)

/-- The result model takes the keys of the arguments. -/
def Accepted (args : Dictionary D) : Prop := ∀ item ∈ args, (builtins.resultKey item.1).isSome = true

/-- No round raises: what is to be repaired has a text, and the answer of the model, if it does not raise, is
harmless, with keys that are accepted if it is valid, and leaves rounds that do not raise if it is not. -/
def RoundsHarmless (replies : ℕ → Except PyStr PyStr) : ℕ → ℕ → PyData D → Prop
  | 0, _, _ => True
  | rounds + 1, turn, raw =>
      hasHuge raw = false ∧ ∀ reply, replies turn = .ok reply →
        Harmless builtins schema (.str reply) ∧
        (∀ resolved, check builtins schema (.str reply) = some (.valid resolved) →
          Accepted builtins resolved.args) ∧
        (∀ args resolved, check builtins schema (.str reply) = some (.invalid args resolved) →
          RoundsHarmless replies rounds (turn + 1) (.dict args)) ∧
        ∀ error, check builtins schema (.str reply) = some (.unparsed error) →
          RoundsHarmless replies rounds (turn + 1) (.str reply)

/-- Arguments that are not valid do not raise later on. -/
def InvalidHarmless (raw : PyData D) (replies : Option (ℕ → Except PyStr PyStr)) (maxTurns : ℤ)
    (candidate : PyData D) : Prop :=
  hasHuge candidate = false ∧ ∀ caller, replies = some caller →
    RoundsHarmless builtins schema caller (min (max 1 maxTurns) 2).toNat 1 raw

/-- Nothing in the repair raises. -/
def RepairHarmless (raw : PyData D) (replies : Option (ℕ → Except PyStr PyStr)) (maxTurns : ℤ) : Prop :=
  Harmless builtins schema raw ∧
    (∀ resolved, check builtins schema raw = some (.valid resolved) → Accepted builtins resolved.args) ∧
    (∀ args resolved, check builtins schema raw = some (.invalid args resolved) →
      InvalidHarmless builtins schema raw replies maxTurns (.dict resolved.args)) ∧
    ∀ error, check builtins schema raw = some (.unparsed error) →
      InvalidHarmless builtins schema raw replies maxTurns raw

variable {builtins schema}

omit [Doubles D] in
lemma mapM_isSome {α β : Type} (f : α → Option β) (items : List α) :
    (items.mapM f).isSome = true ↔ ∀ item ∈ items, (f item).isSome = true := by
  induction items with
  | nil => simp
  | cons item items ih =>
    rw [List.mapM_cons, List.forall_mem_cons, ← ih]
    cases f item with
    | none => simp
    | some value => cases items.mapM f <;> simp

omit [Doubles D] in
lemma build_isSome (result : RepairResult D) :
    (build builtins result).isSome = true ↔ Accepted builtins result.repairedArguments := by
  unfold build Accepted
  rw [Option.isSome_map, mapM_isSome]
  simp

omit [Doubles D] in
/-- A failure has no arguments that could be refused. -/
lemma build_failed_isSome (original : PyData D) (errors : List PyStr) (history : List HistoryEntry) :
    (build builtins (failed original errors history)).isSome = true :=
  (build_isSome _).mpr (List.forall_mem_nil _)

omit [Doubles D] in
lemma build_turnsUsed {result built : RepairResult D} (h : build builtins result = some built) :
    built.turnsUsed = result.turnsUsed := by
  obtain ⟨items, -, rfl⟩ := Option.map_eq_some_iff.mp h
  rfl

lemma repairRounds_isSome (hnodup : (schema.properties.map Prod.fst).Nodup) (original : PyData D)
    (replies : ℕ → Except PyStr PyStr) (rounds turn : ℕ) (raw : PyData D) (errors : List PyStr)
    (history : List HistoryEntry) :
    (repairRounds builtins schema original replies rounds turn raw errors history).isSome = true ↔
      RoundsHarmless builtins schema replies rounds turn raw := by
  induction rounds generalizing turn raw errors history with
  | zero => exact iff_of_true (build_failed_isSome original errors history) trivial
  | succ rounds ih =>
    unfold repairRounds RoundsHarmless
    rw [Builtins.text]
    cases hhuge : hasHuge raw with
    | true => simp
    | false =>
      simp only [Bool.false_eq_true, if_false, Option.bind_eq_bind, Option.bind_some, true_and]
      cases hreply : replies turn with
      | error raised => simpa using build_failed_isSome original errors _
      | ok reply =>
        simp only [Except.ok.injEq, forall_eq', ← check_isSome_iff hnodup]
        cases hcheck : check builtins schema (.str reply) with
        | none => simp
        | some checked =>
          cases checked with
          | valid resolved => simp [build_isSome]
          | invalid args resolved => simp [ih]
          | unparsed error => simp [ih]

/-- With so many rounds left, the turns used are at most those before and the rounds. -/
lemma repairRounds_turnsUsed (original : PyData D) (replies : ℕ → Except PyStr PyStr) {rounds turn : ℕ}
    {raw : PyData D} {errors : List PyStr} {history : List HistoryEntry} {result : RepairResult D}
    (hhistory : history.countP (fun entry => entry.turn.isSome) ≤ turn)
    (h : repairRounds builtins schema original replies rounds (turn + 1) raw errors history = some result) :
    result.turnsUsed ≤ turn + rounds := by
  induction rounds generalizing turn raw errors history with
  | zero => exact (build_turnsUsed h).le.trans hhistory
  | succ rounds ih =>
    unfold repairRounds at h
    obtain ⟨text, -, h⟩ := Option.bind_eq_some_iff.mp h
    split at h
    · have hturns := build_turnsUsed h
      simp only [failed, List.countP_append, List.countP_singleton, Option.isSome_some, if_true] at hturns
      omega
    · obtain ⟨checked, -, h⟩ := Option.bind_eq_some_iff.mp h
      cases checked with
      | valid resolved =>
        have hturns := build_turnsUsed h
        dsimp only at hturns
        omega
      | invalid args resolved =>
        have hnext := ih (by simpa using hhistory) h
        omega
      | unparsed error =>
        have hnext := ih (by simpa using hhistory) h
        omega

lemma repairInvalid_isSome (hnodup : (schema.properties.map Prod.fst).Nodup) (raw : PyData D)
    (replies : Option (ℕ → Except PyStr PyStr)) (maxTurns : ℤ) (candidate : PyData D) (errors : List PyStr) :
    (repairInvalid builtins schema raw replies maxTurns candidate errors).isSome = true ↔
      InvalidHarmless builtins schema raw replies maxTurns candidate := by
  unfold repairInvalid InvalidHarmless
  rw [Builtins.text]
  cases hhuge : hasHuge candidate with
  | true => simp
  | false =>
    cases replies with
    | none => simpa using build_failed_isSome raw errors _
    | some caller => simp [repairRounds_isSome hnodup]

lemma repairInvalid_turnsUsed {raw candidate : PyData D} {replies : Option (ℕ → Except PyStr PyStr)}
    {maxTurns : ℤ} {errors : List PyStr} {result : RepairResult D}
    (h : repairInvalid builtins schema raw replies maxTurns candidate errors = some result) :
    result.turnsUsed ≤ 2 := by
  unfold repairInvalid at h
  obtain ⟨text, -, h⟩ := Option.bind_eq_some_iff.mp h
  cases replies with
  | none => exact (build_turnsUsed h).le.trans (by simp [failed])
  | some caller =>
    have hstart : [({ errors, note := text.take 200 } : HistoryEntry)].countP
        (fun entry => entry.turn.isSome) ≤ 0 := by simp
    have hturns := repairRounds_turnsUsed raw caller hstart h
    omega

/-- The result used two turns at most. -/
lemma validateAndRepair_turnsUsed {toolName : String} {raw : PyData D} {passed : Option Schema}
    {replies : Option (ℕ → Except PyStr PyStr)} {maxTurns : ℤ} {result : RepairResult D}
    (h : validateAndRepair builtins toolName raw passed replies maxTurns = some result) :
    result.turnsUsed ≤ 2 := by
  unfold validateAndRepair at h
  obtain ⟨checked, -, h⟩ := Option.bind_eq_some_iff.mp h
  cases checked with
  | valid resolved => exact (build_turnsUsed h).le.trans (Nat.zero_le 2)
  | invalid args resolved => exact repairInvalid_turnsUsed h
  | unparsed error => exact repairInvalid_turnsUsed h

lemma getToolSchema_nodup (toolName : String) :
    ((getToolSchema toolName).properties.map Prod.fst).Nodup := by
  unfold getToolSchema
  cases hlookup : governedToolSchemas.lookup toolName with
  | none => exact List.nodup_nil
  | some schema =>
    have hall : ∀ tool ∈ governedToolSchemas, (tool.2.properties.map Prod.fst).Nodup := by decide
    obtain ⟨before, after, htools, -⟩ := List.lookup_eq_some_iff.mp hlookup
    exact hall (toolName, schema) (htools ▸ List.mem_append_right before List.mem_cons_self)

end Repair

/-! ## Calls -/

def isDigits (s : PyStr) : Bool := !s.isEmpty && s.all fun c => 48 ≤ c.val && c.val ≤ 57

def digitsValue (s : PyStr) : Option ℤ :=
  if isDigits s then some (s.foldl (fun n c => 10 * n + ((c.val : ℤ) - 48)) 0) else none

/-- The conversions of ASCII texts; no text is a float. -/
def plainBuiltins : Builtins Empty where
  toArgumentParsers := jsonParsers
  isDigit := isDigits
  int s := if s.head? = some (codePoint '-') then (digitsValue s.tail).map Neg.neg else digitsValue s
  floatOfText _ := none
  floatOfInt _ := none
  floatOfBool _ := .nan
  lower := id
  str _ := []
  equal value other := value.text = other.text
  resultKey key := key.text.map .str

def readArguments (startLine : String) : PyData Empty :=
  .dict [(.str (toPyStr "file_path"), .str (toPyStr "a.md")),
    (.str (toPyStr "start_line"), .str (toPyStr startLine))]

end AgentSystem.ProtocolRepair
