import AgentSystem.ProtocolRepair

/-!
# The scope guard and its tools

`ScopeGuard` checks the calls of the four governed tools of `GovernedToolRegistry`. The disk and the
shell are parameters; what the tools do to them is kept in a list of effects.
-/
namespace AgentSystem.Executor

open Json Audit Programs PolicyGate Pipeline

/-- The components of an absolute path. -/
abbrev FilePath := List PyStr

inductive Fault
  | scopeExpansionRequest (role : String) (attemptedPath : PyStr) (allowedScope : List String)
      (reason : PyStr)
  | securityViolation (message : PyStr)
  | other (kind : String) (message : PyStr)

/-- `str(exc)`. -/
def Fault.message (D : Type) [Coercion D] : Fault → PyStr
  | scopeExpansionRequest role attemptedPath allowedScope reason =>
      toPyStr s!"ScopeExpansionRequest: Role '{role}' attempted unauthorized mutation of '" ++
        attemptedPath ++ toPyStr "'. Reason: " ++ reason ++ toPyStr ". Current mutable scope: " ++
        listText D allowedScope ++ toPyStr ". Human approval required."
  | securityViolation message => message
  | other _ message => message

variable {D W G α β : Type}

inductive Effect (D : Type)
  | read (path : FilePath)
  | write (path : FilePath) (content : PyValue D) (append : Bool)
  | delete (path : FilePath)
  | command (command : PyStr)
  | diff

/-- The file that an effect changes. -/
def Effect.target : Effect D → Option FilePath
  | write path _ _ => some path
  | delete path => some path
  | _ => none

structure CompletedProcess where
  returncode : ℤ
  stdout : PyStr
  stderr : PyStr

/-- The search for a regular expression in any case, the file system with the paths that it
resolves, the shell, and the integers that a model takes. A write creates the directories above the
file; a value that is no text makes it raise after the file is opened. -/
structure Platform (D W : Type) where
  search : String → PyStr → Bool
  resolveRoot : String → FilePath
  resolve : FilePath → PyStr → W → Except Fault FilePath
  isFile : FilePath → W → Bool
  exists_ : FilePath → W → Bool
  readText : FilePath → W → Except Fault PyStr
  splitlines : PyStr → List PyStr
  slice : List PyStr → PyValue D → PyValue D → Except Fault (List PyStr)
  write : FilePath → PyValue D → Bool → Program W Fault Unit
  unlink : FilePath → Program W Fault Unit
  run : PyStr → PyValue D → Program W Fault CompletedProcess
  gitDiff : Program W Fault PyStr
  asInt : PyValue D → Option ℤ

/-- The disk, the state of the policy gate, and what was done. -/
structure Host (D W G : Type) where
  disk : W
  gate : G
  effects : List (Effect D) := []

namespace Host

def query (f : W → Except Fault α) : Program (Host D W G) Fault α := fun h => (f h.disk, h)

def onDisk (x : Program W Fault α) : Program (Host D W G) Fault α :=
  .within Host.disk (fun disk h => { h with disk := disk }) x

def onGate (x : Program G Fault α) : Program (Host D W G) Fault α :=
  .within Host.gate (fun gate h => { h with gate := gate }) x

def perform (effect : Effect D) : Program (Host D W G) Fault Unit :=
  .update fun h => { h with effects := h.effects ++ [effect] }

lemma query_ok {f : W → Except Fault α} {host : Host D W G} {a : α} (h : f host.disk = .ok a) :
    query f host = (.ok a, host) := Prod.ext h rfl

lemma query_error {f : W → Except Fault α} {host : Host D W G} {fault : Fault}
    (h : f host.disk = .error fault) : query f host = (.error fault, host) := Prod.ext h rfl

lemma perform_apply (effect : Effect D) (host : Host D W G) :
    perform effect host = (.ok (), { host with effects := host.effects ++ [effect] }) := rfl

lemma onDisk_effects (p : Program W Fault α) (host : Host D W G) :
    (onDisk p host).2.effects = host.effects := rfl

/-- What follows a program that is done with the effects does not change them. -/
lemma bind_effects {p : Program (Host D W G) Fault α} {f : α → Program (Host D W G) Fault β}
    {host : Host D W G} {effects : List (Effect D)} (hp : (p host).2.effects = effects)
    (hf : ∀ a host', (f a host').2.effects = host'.effects) :
    ((p >>= f) host).2.effects = effects := by
  rw [Program.bind_apply]
  generalize p host = result at hp
  obtain ⟨⟨fault⟩ | ⟨a⟩, host'⟩ := result
  · exact hp
  · exact (hf a host').trans hp

end Host

/-! ## The guard -/

structure ScopeGuard (D W G : Type) where
  platform : Platform D W
  taskEnv : TaskEnvironment D
  worktreePath : FilePath
  policyGate : Option (PolicyGateRequest D → Program G Fault PolicyGateDecision)

/-- `"/".join(parts)`, `"."` for none. -/
def asPosix (parts : List PyStr) : PyStr :=
  if parts = [] then toPyStr "." else [slash].intercalate parts

/-- The path relative to the root of a worktree. -/
def relativeName (root path : FilePath) : PyStr := asPosix (path.drop root.length)

/-- `str(path)` of an absolute path. -/
def pathText (path : FilePath) : PyStr := slash :: [slash].intercalate path

/-- A value as a text, whose method is called. -/
def asText (method : String) : PyValue D → Except Fault PyStr
  | .str s => .ok s
  | value =>
      .error (.other "AttributeError"
        (toPyStr s!"'{typeName value}' object has no attribute '{method}'"))

/-- The tools whose names are actions of the policy gate. -/
def policyAction (toolName : String) : Option PolicyAction :=
  [PolicyAction.ultraMode, .browserUse, .computerUse, .safetyScan, .externalApi, .fileMutation,
    .toolExecution].find? fun action => action.value = toolName

lemma encode_injOn {s t : PyStr} {text : String} (hs : encode s = some text)
    (ht : encode t = some text) : s = t := by
  have hval : ∀ {s : PyStr} {text : String}, encode s = some text →
      text.toList.map Char.toNat = s.map Fin.val := by
    intro s text h
    unfold encode at h
    split_ifs at h with hany
    rw [Option.some.injEq] at h
    rw [← h, String.toList_ofList, List.map_map]
    refine List.map_congr_left fun c hc => ?_
    have hnone := List.any_eq_false.mp ((Bool.not_eq_true _).mp hany) c hc
    have hscalar := Bool.or_eq_false_iff.mp ((Bool.not_eq_true _).mp hnone)
    have hvalid : c.val.isValidChar := by
      have hlt := c.isLt
      simp only [CodePoint.isHigh, CodePoint.isLow, Bool.and_eq_false_iff,
        decide_eq_false_iff_not] at hscalar
      simp only [Nat.isValidChar]
      omega
    simp [Char.ofNat, hvalid, Char.toNat, Char.ofNatAux]
  exact List.map_injective_iff.mpr Fin.val_injective ((hval hs).symm.trans (hval ht))

/-- The items with keys as texts, `none` when one is no Unicode text. -/
def encodeKeys : List (PyStr × PyValue D) → Option (List (String × PyValue D))
  | [] => some []
  | (key, value) :: items =>
      match encode key, encodeKeys items with
      | some key, some items => some ((key, value) :: items)
      | _, _ => none

lemma mem_encodeKeys {items : List (PyStr × PyValue D)} {encoded : List (String × PyValue D)}
    (h : encodeKeys items = some encoded) {key : String} (hkey : key ∈ encoded.map Prod.fst) :
    ∃ original ∈ items.map Prod.fst, encode original = some key := by
  induction items generalizing encoded with
  | nil =>
      cases h
      exact absurd hkey (by simp)
  | cons item items ih =>
      obtain ⟨original, value⟩ := item
      simp only [encodeKeys] at h
      split at h
      · rename_i first rest hfirst hrest
        cases h
        rcases List.mem_cons.mp hkey with rfl | hkey
        · exact ⟨original, List.mem_cons_self, hfirst⟩
        · obtain ⟨original', hmem, heq⟩ := ih hrest hkey
          exact ⟨original', List.mem_cons_of_mem _ hmem, heq⟩
      · cases h

lemma encodeKeys_nodup {items : List (PyStr × PyValue D)} {encoded : List (String × PyValue D)}
    (hnodup : (items.map Prod.fst).Nodup) (h : encodeKeys items = some encoded) :
    (encoded.map Prod.fst).Nodup := by
  induction items generalizing encoded with
  | nil =>
      cases h
      exact List.nodup_nil
  | cons item items ih =>
      obtain ⟨original, value⟩ := item
      rw [List.map_cons, List.nodup_cons] at hnodup
      simp only [encodeKeys] at h
      split at h
      · rename_i first rest hfirst hrest
        cases h
        refine List.nodup_cons.mpr ⟨fun hmem => ?_, ih hnodup.2 hrest⟩
        obtain ⟨original', hmem', heq⟩ := mem_encodeKeys hrest hmem
        exact hnodup.1 (encode_injOn heq hfirst ▸ hmem')
      · cases h

/-- The resource of a request, `none` for one that is no text. -/
def requestResource [Doubles D] (toolName : String) (args : Arguments D) : Option String :=
  match orElse (orElse (args.get "file_path") (args.get "command")) (strValue toolName) with
  | .str s => encode s
  | _ => none

lemma payloadHash_none : ∀ hash ∈ (none : Option String), isPayloadHash hash = true := by simp

/-- The request about a call, `none` when its model does not validate. -/
def policyGateRequest [Doubles D] (env : TaskEnvironment D) (toolName : String)
    (args : Arguments D) : Option (PolicyGateRequest D) :=
  match policyAction toolName, requestResource toolName args, hmeta : encodeKeys args.items with
  | some action, some resource, some metadata =>
      let sessionId := (env.executionEnvironment.map (·.sessionId)).getD "session-unknown"
      if hsession : sessionId ≠ "" then
        some
          { action := action
            scope := .session
            sessionId := sessionId
            resource := some resource
            metadata := metadata
            sessionId_nonempty := hsession
            payloadHash_pattern := payloadHash_none
            metadata_nodup := encodeKeys_nodup args.nodup hmeta }
      else none
  | _, _, _ => none

namespace ScopeGuard

variable [Interpreter D] [Coercion D] (guard : ScopeGuard D W G)

/-- `resolve_and_verify_path`. -/
def resolveAndVerifyPath (relativePath : PyValue D) (disk : W) : Except Fault FilePath :=
  match asText "replace" relativePath with
  | .error fault => .error fault
  | .ok text =>
      match guard.platform.resolve guard.worktreePath (cleanPath text) disk with
      | .error fault => .error fault
      | .ok path =>
          if guard.worktreePath.isPrefixOf path then .ok path
          else
            .error (.securityViolation (toPyStr "Path traversal escape detected: '" ++ text ++
              toPyStr "' resolves to '" ++ pathText path ++
              toPyStr "', outside worktree boundary '" ++ pathText guard.worktreePath ++
              toPyStr "'."))

/-- The path of a file in the worktree. -/
def relPath (path : FilePath) : PyStr := relativeName guard.worktreePath path

/-- The scope of the role and the environment at a path. -/
def checkScope (path : PyStr) : Except Fault Unit :=
  let role := guard.taskEnv.agentRole
  match guard.taskEnv.isPathMutable path with
  | some reason =>
      .error (.scopeExpansionRequest role path guard.taskEnv.mutableScope reason)
  | none =>
      if (roleRule role).readOnly then
        .error (.scopeExpansionRequest role path [] (toPyStr "Role is strictly read-only"))
      else
        match forbiddenPrefix role path with
        | some forbidden =>
            .error (.scopeExpansionRequest role path guard.taskEnv.mutableScope
              (toPyStr s!"Violates role boundary prefix '{forbidden}'"))
        | none => .ok ()

/-- The first violation in the code that is written to a path. -/
def codeViolation (content : PyValue D) (path : PyStr) : Option String :=
  match content with
  | .str text =>
      if text ≠ [] ∧ [".py", ".ts", ".js"].any fun suffix => endsWith path (toPyStr suffix) then
        (checkSevenAntiCorruption text).head?
      else none
  | _ => none

/-- The checks of a write. -/
def checkWrite (args : Arguments D) (disk : W) : Except Fault (Option PyStr) :=
  let filePath := (args.find "file_path").getD (.str [])
  if truthy filePath then do
    let path ← guard.resolveAndVerifyPath filePath disk
    guard.checkScope (guard.relPath path)
    match codeViolation (args.get "content") (guard.relPath path) with
    | some violation =>
        .error (.securityViolation (toPyStr "Anti-Corruption violation intercepted by ScopeGuard in '"
          ++ guard.relPath path ++ toPyStr s!"': {violation}"))
    | none => .ok none
  else .ok (some (toPyStr "filesystem.write requires non-empty 'file_path'."))

/-- The checks of a shell command. -/
def checkCommand (args : Arguments D) : Except Fault (Option PyStr) := do
  let command ← asText "strip" ((args.find "command").getD (.str []))
  if destructiveCommandPatterns.any (guard.platform.search · (strip command)) then
    .error (.securityViolation
      (toPyStr "Destructive shell command intercepted by ScopeGuard: '" ++ strip command ++
        toPyStr "'"))
  else .ok none

/-- What follows the policy gate: the whitelist, and the checks of the tool. -/
def checkTool (toolName : String) (args : Arguments D) (disk : W) : Except Fault (Option PyStr) :=
  if guard.taskEnv.validateToolAllowed toolName = false then
    .ok (some (toPyStr s!"Tool '{toolName}' is not in the allocated governed toolchain: " ++
      listText D guard.taskEnv.availableGovernedTools))
  else if toolName = "filesystem.write" then guard.checkWrite args disk
  else if toolName = "shell.exec" then guard.checkCommand args
  else .ok none

/-- The error of the policy gate. -/
def consultGate (toolName : String) (args : Arguments D) :
    Program (Host D W G) Fault (Option PyStr) :=
  match guard.policyGate with
  | none => pure none
  | some evaluate =>
      match policyGateRequest guard.taskEnv toolName args with
      | none => .raise (.other "ValidationError" [])
      | some request => do
          let decision ← Host.onGate (evaluate request)
          pure (if decision.allowed then none
            else some (toPyStr "PolicyGate rejection: " ++ decision.reason))

/-- `validate_tool_call`: the error of a refusal that is returned, `none` for an accepted call. -/
def validateToolCall (toolName : String) (args : Arguments D) :
    Program (Host D W G) Fault (Option PyStr) := do
  match ← guard.consultGate toolName args with
  | some error => pure (some error)
  | none => Host.query (guard.checkTool toolName args)

/-! ## The governed tools -/

/-- `validate_tool_call` inside a tool, where a refusal raises. -/
def revalidate (toolName : String) (args : Arguments D) : Program (Host D W G) Fault Unit := do
  match ← guard.validateToolCall toolName args with
  | some error => .raise (.securityViolation error)
  | none => pure ()

/-- A line number, with what stands for a missing one; `none` for a value that is no integer. -/
def lineNumber (value : PyValue D) (missing : ℤ) : Option ℤ :=
  match value with
  | .none => some missing
  | .bool b => some (if b then 1 else missing)
  | .int n => some (if n = 0 then missing else n)
  | _ => none

/-- `lines[max(1, start or 1) - 1 : min(len(lines), end or len(lines))]`. -/
def selectLines (lines : List PyStr) (startLine endLine : PyValue D) :
    Except Fault (List PyStr) :=
  match lineNumber startLine 1, lineNumber endLine lines.length with
  | some first, some last =>
      .ok (PySequence.sliceTo lines (min lines.length last) |>.drop (max 1 first - 1).toNat)
  | _, _ => guard.platform.slice lines startLine endLine

def filesystemRead (filePath startLine endLine : PyValue D) :
    Program (Host D W G) Fault PyStr := do
  let path ← Host.query (guard.resolveAndVerifyPath filePath)
  if ← .read fun h => guard.platform.isFile path h.disk then
    Host.perform (.read path)
    let content ← Host.query (guard.platform.readText path)
    match startLine, endLine with
    | .none, .none => pure content
    | _, _ => do
        let lines ← Host.query fun _ =>
          guard.selectLines (guard.platform.splitlines content) startLine endLine
        pure ((toPyStr "
").intercalate lines)
  else
    .raise (.other "FileNotFoundError"
      (toPyStr "File '" ++ (formatValue filePath).getD [] ++
        toPyStr "' does not exist inside worktree."))

/-- `len(content.encode("utf-8"))`. -/
def byteCount (content : PyValue D) : ℕ :=
  match content with
  | .str text => ((encode text).map String.utf8ByteSize).getD 0
  | _ => 0

/-- The arguments that a write is validated with. -/
def writeArguments (filePath content : PyValue D) : Arguments D :=
  .ofPairs [("file_path", filePath), ("content", content)]

/-- The relative path, with the number of bytes written. -/
def filesystemWrite (filePath content append : PyValue D) :
    Program (Host D W G) Fault (PyStr × ℕ) := do
  guard.revalidate "filesystem.write" (writeArguments filePath content)
  let path ← Host.query (guard.resolveAndVerifyPath filePath)
  Host.perform (.write path content (truthy append))
  Host.onDisk (guard.platform.write path content (truthy append))
  pure (guard.relPath path, byteCount content)

def shellExec (command timeoutSeconds : PyValue D) :
    Program (Host D W G) Fault CompletedProcess := do
  guard.revalidate "shell.exec" (.ofPairs [("command", command)])
  let text ← Host.query fun _ => asText "strip" command
  Host.perform (.command text)
  Host.onDisk (guard.platform.run text (orElse timeoutSeconds guard.taskEnv.maxExecutionSeconds))

def gitDiff : Program (Host D W G) Fault PyStr := do
  Host.perform .diff
  Host.onDisk guard.platform.gitDiff

end ScopeGuard

end AgentSystem.Executor
