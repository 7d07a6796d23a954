import AgentSystem.Programs
import AgentSystem.TaskEnvironment

/-!
# Repair of tool arguments

`ProtocolRepairManager`: the check of arguments against the schema of a tool, with aliases and
coercions, and the bounded rounds in which a model may correct them.
-/
namespace AgentSystem.Executor

open Json Audit PySequence Programs

variable {D : Type}

/-- A dictionary of arguments. -/
structure Arguments (D : Type) where
  items : List (PyStr × PyValue D)
  nodup : (items.map Prod.fst).Nodup

namespace Arguments

def ofPairs (pairs : List (String × PyValue D)) : Arguments D where
  items := fromPairs (pairs.map fun pair => (toPyStr pair.1, pair.2))
  nodup := fromPairs_nodup _

variable (args : Arguments D)

def find (key : String) : Option (PyValue D) := getItem args.items (toPyStr key)

/-- `args.get(key)`. -/
def get (key : String) : PyValue D := (args.find key).getD .none

def set (key : String) (value : PyValue D) : Arguments D where
  items := setItem args.items (toPyStr key) value
  nodup := setItem_nodup args.nodup _ _

def pop (key : String) : Arguments D where
  items := args.items.filter fun item => item.1 ≠ toPyStr key
  nodup := args.nodup.sublist (List.filter_sublist.map Prod.fst)

lemma find_ofPairs (pairs : List (String × PyValue D)) (key : String) :
    (ofPairs pairs).find key = getItem pairs key := by
  unfold find ofPairs
  rw [getItem_fromPairs]
  induction pairs with
  | nil => rfl
  | cons pair pairs ih =>
      rw [List.map_cons, getItem_cons, ih, getItem_cons]
      simp only [toPyStr_injective.eq_iff]

end Arguments

/-- What a caller passes as arguments. -/
inductive RawArguments (D : Type)
  | dict (args : Arguments D)
  | text (text : PyStr)
  | other (value : PyValue D)

inductive RepairStrategy
  | noop
  | deterministicJson
  | aliasMapping
  | typeCoercion
  | llmReflection
  deriving DecidableEq

/-- The properties of a schema with their types, and the required ones. -/
structure Schema where
  properties : List (String × String) := []
  required : List String := []

def paramAliases : List (String × List String) :=
  [("file_path", ["path", "filepath", "filename", "file", "target_file", "file_name"]),
   ("content", ["text", "code", "body", "data", "file_content"]),
   ("command", ["cmd", "shell_cmd", "exec", "script", "command_line"]),
   ("start_line", ["start", "from_line", "line_start", "startline"]),
   ("end_line", ["end", "to_line", "line_end", "endline"]),
   ("append", ["is_append", "mode_append"]),
   ("timeout_seconds", ["timeout", "timeout_sec", "timeout_s"])]

def governedToolSchemas : List (String × Schema) :=
  [("filesystem.read",
    { properties := [("file_path", "string"), ("start_line", "integer"), ("end_line", "integer")]
      required := ["file_path"] }),
   ("filesystem.write",
    { properties := [("file_path", "string"), ("content", "string"), ("append", "boolean")]
      required := ["file_path", "content"] }),
   ("shell.exec",
    { properties := [("command", "string"), ("timeout_seconds", "number")]
      required := ["command"] }),
   ("git.diff", {})]

/-- `get_tool_schema`. -/
def getToolSchema (toolName : String) : Schema := (governedToolSchemas.lookup toolName).getD {}

/-- The parsing of texts: arguments in JSON, code fences or tags, with the error, and the built-in
conversions, `none` when they raise. -/
structure Texts (D : Type) where
  parse : PyStr → Except PyStr (Arguments D)
  isDigit : PyStr → Bool
  int : PyStr → Option ℤ
  float : PyValue D → Option (PyFloat D)
  lower : PyStr → PyStr
  str : PyValue D → Option PyStr

/-- `type(value).__name__`. -/
def typeName : PyValue D → String
  | .none => "NoneType"
  | .bool _ => "bool"
  | .int _ => "int"
  | .float _ => "float"
  | .str _ => "str"
  | .list _ => "list"
  | .dict _ => "dict"

/-- A value that counts as missing. -/
def isBlank : PyValue D → Bool
  | .none => true
  | .str s => s.isEmpty
  | _ => false

/-- The first alias with a value takes the place of a missing key. -/
def resolveAlias (args : Arguments D) (prop : String) : Option (Arguments D) :=
  if isBlank (args.get prop) then
    (((paramAliases.lookup prop).getD []).find? fun name => !isBlank (args.get name)).map fun name =>
      (args.pop name).set prop (args.get name)
  else none

/-- The arguments with the strategies applied so far. -/
structure Resolved (D : Type) where
  args : Arguments D
  strategies : List RepairStrategy := []
  errors : List PyStr := []

namespace Resolved

def use (r : Resolved D) (strategy : RepairStrategy) : Resolved D :=
  if strategy ∈ r.strategies then r else { r with strategies := r.strategies ++ [strategy] }

def fail (r : Resolved D) (error : PyStr) : Resolved D := { r with errors := r.errors ++ [error] }

def resolveAliases (r : Resolved D) (props : List String) : Resolved D :=
  props.foldl (fun r prop =>
    match resolveAlias r.args prop with
    | some args => { r with args := args }.use .aliasMapping
    | none => r) r

/-- A coerced value; one that was a text counts as a coercion. -/
def coerce (r : Resolved D) (prop : String) (value : PyValue D) : Resolved D :=
  { r with args := r.args.set prop value }.use .typeCoercion

variable (texts : Texts D) (r : Resolved D) (prop : String)

def coerceInteger : PyValue D → Option (Resolved D)
  | .int _ => some r
  | .str s =>
      if texts.isDigit ((strip s).dropWhile (· = codePoint '-')) then
        (texts.int (strip s)).map fun n => r.coerce prop (.int n)
      else
        some (r.fail (toPyStr s!"Property '{prop}' expected integer, got str (" ++ s ++ toPyStr ")"))
  | value =>
      (texts.str value).map fun text =>
        r.fail (toPyStr s!"Property '{prop}' expected integer, got {typeName value} (" ++ text ++
          toPyStr ")")

def coerceBoolean : PyValue D → Option (Resolved D)
  | .bool _ => some r
  | .str s =>
      let clean := texts.lower (strip s)
      if clean ∈ ["true", "1", "yes"].map toPyStr then some (r.coerce prop (.bool true))
      else if clean ∈ ["false", "0", "no"].map toPyStr then some (r.coerce prop (.bool false))
      else
        some (r.fail
          (toPyStr s!"Property '{prop}' cannot be coerced to boolean from '" ++ s ++ toPyStr "'"))
  | value =>
      some (r.fail (toPyStr s!"Property '{prop}' expected boolean, got {typeName value}"))

def coerceNumber : PyValue D → Option (Resolved D)
  | .float _ => some r
  | .str s =>
      match texts.float (.str s) with
      | some x => some (r.coerce prop (.float x))
      | none => some (r.fail (toPyStr s!"Property '{prop}' expected number, got '" ++ s ++
          toPyStr "'"))
  | .int n => (texts.float (.int n)).map fun x => { r with args := r.args.set prop (.float x) }
  | .bool b => (texts.float (.bool b)).map fun x => { r with args := r.args.set prop (.float x) }
  | value =>
      some (r.fail (toPyStr s!"Property '{prop}' expected number, got {typeName value}"))

def coerceString : PyValue D → Option (Resolved D)
  | .str _ => some r
  | .list _ => some (r.fail (toPyStr s!"Property '{prop}' expected string, got list"))
  | .dict _ => some (r.fail (toPyStr s!"Property '{prop}' expected string, got dict"))
  | value => (texts.str value).map fun text => r.coerce prop (.str text)

/-- The coercion of one property to its type, `none` when a conversion raises. -/
def coerceTo (type : String) : Option (Resolved D) :=
  match r.args.get prop with
  | .none => some r
  | value =>
      if type = "integer" ∨ type = "int" then r.coerceInteger texts prop value
      else if type = "boolean" then r.coerceBoolean texts prop value
      else if type = "number" ∨ type = "float" then r.coerceNumber texts prop value
      else if type = "string" then r.coerceString texts prop value
      else some r

end Resolved

/-- `validate_against_schema`, `none` when a conversion raises. -/
def validateAgainstSchema (texts : Texts D) (args : Arguments D) (schema : Schema) :
    Option (Resolved D) := do
  let aliased := ({ args := args } : Resolved D).resolveAliases
    (schema.properties.map Prod.fst ++ schema.required)
  let coerced ← schema.properties.foldlM (fun r prop => r.coerceTo texts prop.1 prop.2) aliased
  pure (schema.required.foldl (fun r req =>
    match r.args.get req with
    | .none => r.fail (toPyStr s!"Missing required parameter '{req}'")
    | _ => r) coerced)

/-- `parse_raw_arguments`. -/
def parseRawArguments (texts : Texts D) : RawArguments D → Except PyStr (Arguments D)
  | .dict args => .ok args
  | .text text => texts.parse text
  | .other value => .error (toPyStr s!"Expected dict or str arguments, got {typeName value}")

/-- The outcome of a repair: the arguments with the strategy, or the error. -/
inductive RepairResult (D : Type)
  | success (args : Arguments D) (strategy : RepairStrategy)
  | failure (error : PyStr)

/-- What a repair prompt is made of. -/
structure RepairPrompt (D : Type) where
  toolName : String
  rawArguments : RawArguments D
  errors : List PyStr
  schema : Schema

/-- A check of raw arguments: valid ones, or what to go on with and the errors. -/
inductive Checked (D : Type)
  | valid (resolved : Resolved D)
  | invalid (raw : RawArguments D) (errors : List PyStr)

/-- Parse and validate, `none` when a conversion raises. -/
def checkArguments (texts : Texts D) (schema : Schema) (raw : RawArguments D) :
    Option (Checked D) :=
  match parseRawArguments texts raw with
  | .error error => some (.invalid raw [error])
  | .ok args =>
      (validateAgainstSchema texts args schema).map fun resolved =>
        if resolved.errors = [] then .valid resolved else .invalid (.dict args) resolved.errors

/-- `"; ".join(errors)`. -/
def joinErrors (errors : List PyStr) : PyStr := (toPyStr "; ").intercalate errors

/-- The failure after the phases of a history. -/
def repairFailure (phases : ℕ) (errors : List PyStr) : RepairResult D :=
  .failure (toPyStr s!"Protocol repair failed after {phases} attempt(s): " ++ joinErrors errors)

variable {L E : Type}

/-- The rounds with the model; an exception of the model ends them. -/
def repairRounds (texts : Texts D) (caller : RepairPrompt D → Program L E (RawArguments D))
    (toolName : String) (schema : Schema) (conversionError : E) :
    ℕ → ℕ → RawArguments D → List PyStr → Program L E (RepairResult D)
  | 0, phases, _, errors => pure (repairFailure phases errors)
  | rounds + 1, phases, raw, errors => do
      match ← Program.attempt (caller ⟨toolName, raw, errors, schema⟩) with
      | none => pure (repairFailure (phases + 1) errors)
      | some output =>
          match checkArguments texts schema output with
          | none => .raise conversionError
          | some (.valid resolved) => pure (.success resolved.args .llmReflection)
          | some (.invalid raw errors) =>
              repairRounds texts caller toolName schema conversionError rounds (phases + 1) raw errors

/-- The strategy of arguments that needed no model. -/
def deterministicStrategy (raw : RawArguments D) (resolved : Resolved D) : RepairStrategy :=
  match resolved.strategies, raw with
  | strategy :: _, _ => strategy
  | [], .dict _ => .noop
  | [], _ => .deterministicJson

/-- `validate_and_repair` with its ceiling. -/
def validateAndRepair (texts : Texts D)
    (caller : Option (RepairPrompt D → Program L E (RawArguments D))) (conversionError : E)
    (toolName : String) (raw : RawArguments D) (schema : Option Schema) (maxTurns : ℕ) :
    Program L E (RepairResult D) :=
  let effectiveSchema := schema.getD (getToolSchema toolName)
  match checkArguments texts effectiveSchema raw with
  | none => .raise conversionError
  | some (.valid resolved) =>
      pure (.success resolved.args (deterministicStrategy raw resolved))
  | some (.invalid _ errors) =>
      match caller with
      | none => pure (repairFailure 1 errors)
      | some caller =>
          repairRounds texts caller toolName effectiveSchema conversionError
            (min (max 1 maxTurns) 2) 1 raw errors

end AgentSystem.Executor
