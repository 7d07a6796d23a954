import AgentSystem.PipelineModels
import AgentSystem.PolicyGate

/-!
# Task environments

The scopes and tools that a task environment allocates to an agent, and what a role must not touch.
Paths are Python strings.
-/
namespace AgentSystem.Executor

open Json Audit Pipeline PolicyGate

/-! ## Paths -/

def slash : CodePoint := codePoint '/'

/-- `str.isspace` of a character. -/
def isSpace (c : CodePoint) : Bool :=
  (9 ≤ c.val && c.val ≤ 13) || (28 ≤ c.val && c.val ≤ 32) || c.val = 0x85 || c.val = 0xA0 ||
    c.val = 0x1680 || (0x2000 ≤ c.val && c.val ≤ 0x200A) || c.val = 0x2028 || c.val = 0x2029 ||
    c.val = 0x202F || c.val = 0x205F || c.val = 0x3000

def strip (text : PyStr) : PyStr :=
  ((text.dropWhile isSpace).reverse.dropWhile isSpace).reverse

def startsWith (text start : PyStr) : Bool := start.isPrefixOf text

def endsWith (text tail : PyStr) : Bool := tail.isSuffixOf text

/-- `path.replace("\\", "/").strip().lstrip("/")`. -/
def cleanPath (path : PyStr) : PyStr :=
  (strip (path.map fun c => if c = codePoint '\\' then slash else c)).dropWhile (· = slash)

/-- The components of a relative path. -/
def components (path : PyStr) : List PyStr :=
  (path.splitOn slash).filter fun part => part ≠ [] && part ≠ toPyStr "."

/-- `Path(path).name`. -/
def pathName (path : PyStr) : PyStr := (components path).getLast?.getD []

/-! ## Environments -/

def defaultProtectedPatterns : List String :=
  [".env*", ".git/", ".git", ".github/workflows/", "id_rsa*", "*.pem", "*.key", "credentials.json",
   "secrets.yaml"]

def minimalGovernedTools : List String :=
  ["filesystem.read", "filesystem.write", "shell.exec", "git.diff"]

variable {D : Type}

/-- `max_execution_seconds` is the one field of the sandbox policy that a tool reads. -/
structure TaskEnvironment (D : Type) where
  agentRole : String
  mutableScope : List String := []
  protectedScope : List String := defaultProtectedPatterns
  availableGovernedTools : List String := minimalGovernedTools
  maxExecutionSeconds : PyValue D := .int 60
  executionEnvironment : Option WorktreeSessionConfig := none
  stopCondition : List (String × PyValue D) :=
    [("max_turns", .int 3), ("loop_limit", .int 3), ("hitl_gate_required", .bool true)]

/-- `f"{names}"` of a list of strings. -/
def listText (D : Type) [Coercion D] (names : List String) : PyStr :=
  (Coercion.repr (D := D) (.list (names.map strValue))).getD []

/-- Why a pattern protects a path. -/
def protectedReason (filePath : PyStr) (pattern : String) : Option PyStr :=
  let cleanPath' := cleanPath filePath
  let cleanPat := cleanPath (toPyStr pattern)
  if endsWith cleanPat (toPyStr "*") then
    if startsWith cleanPath' cleanPat.dropLast || startsWith (pathName cleanPath') cleanPat.dropLast
    then
      some (toPyStr "Path '" ++ filePath ++ toPyStr s!"' matches protected pattern '{pattern}'")
    else none
  else if endsWith cleanPat [slash] then
    if startsWith cleanPath' cleanPat || decide (slash :: cleanPat <:+: slash :: cleanPath') then
      some (toPyStr "Path '" ++ filePath ++
        toPyStr s!"' resides inside protected directory '{pattern}'")
    else none
  else if cleanPath' = cleanPat || endsWith cleanPath' (slash :: cleanPat) ||
      pathName cleanPath' = cleanPat then
    some (toPyStr "Path '" ++ filePath ++ toPyStr s!"' matches protected path '{pattern}'")
  else none

/-- An entry of the mutable scope covers a path. -/
def allows (filePath : PyStr) (allowed : String) : Bool :=
  let cleanAllowed := cleanPath (toPyStr allowed)
  if endsWith cleanAllowed [slash] then startsWith (cleanPath filePath) cleanAllowed
  else cleanPath filePath = cleanAllowed

namespace TaskEnvironment

variable (env : TaskEnvironment D)

/-- `is_path_mutable`: the reason against a path, `none` when it is mutable. -/
def isPathMutable [Coercion D] (filePath : PyStr) : Option PyStr :=
  match env.protectedScope.findSome? (protectedReason filePath) with
  | some reason => some reason
  | none =>
      if env.mutableScope ≠ [] ∧ env.mutableScope.any (allows filePath) = false then
        some (toPyStr "Path '" ++ filePath ++ toPyStr "' is outside designated mutable scope: " ++
          listText D env.mutableScope)
      else none

def validateToolAllowed (toolName : String) : Bool := toolName ∈ env.availableGovernedTools

end TaskEnvironment

/-! ## Roles -/

/-- `ROLE_SCOPE_RESTRICTIONS.get(role, {})`. -/
def roleRule (role : String) : RoleRule :=
  (roleScopeRestrictions.lookup role).getD { description := "" }

/-- The first prefix of a role that a path lies under. -/
def forbiddenPrefix (role : String) (path : PyStr) : Option String :=
  (roleRule role).forbiddenPrefixes.find? fun forbidden =>
    startsWith path (cleanPath (toPyStr forbidden))

/-- A role may change the file with this path. -/
def roleAllows (role : String) (path : PyStr) : Bool :=
  !(roleRule role).readOnly && (forbiddenPrefix role path).isNone

/-- Why a protected pattern stands against a file of a plan. -/
def protectedTarget (file pattern : String) : Option PyStr :=
  let clean := cleanPath (toPyStr file)
  let cleanPat := cleanPath (toPyStr pattern)
  if endsWith cleanPat (toPyStr "*") &&
      (startsWith clean cleanPat.dropLast || startsWith (pathName clean) cleanPat.dropLast) then
    some (toPyStr s!"Target file '{file}' matches protected pattern '{pattern}'.")
  else if clean = cleanPat || endsWith clean (slash :: cleanPat) then
    some (toPyStr s!"Target file '{file}' matches protected file '{pattern}'.")
  else none

/-- `validate_scope_compliance`: the error, `none` for files that comply. -/
def validateScopeCompliance (role : String) (targetFiles : List String) : Option PyStr :=
  if (roleRule role).readOnly && targetFiles ≠ [] then
    some (toPyStr s!"Role '{role}' is strictly read-only and cannot mutate files.")
  else
    targetFiles.findSome? fun file =>
      match forbiddenPrefix role (cleanPath (toPyStr file)) with
      | some forbidden =>
          some (toPyStr
            s!"Role '{role}' is forbidden from modifying '{file}' (violates '{forbidden}').")
      | none => defaultProtectedPatterns.findSome? (protectedTarget file)

end AgentSystem.Executor
