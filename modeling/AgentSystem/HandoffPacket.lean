import AgentSystem.CheckpointFile
import AgentSystem.JsonUtf8
import AgentSystem.MemoryBackends
import AgentSystem.PolicyBinding
import AgentSystem.TaskEnvironment

/-!
# Handoff packets

A session is carried into another environment as a file: the tasks, the working memory, a summary
and the steps that are left, with a checksum over them. `import_export` says that a packet that was
written is accepted and brings the working memory back. `checksum_determines` says that accepted
packets with one checksum have the same contents.

Files are the texts that Python reads from them. The memory of a session is the file that is named
by its id, and there are no symbolic links. The prompt that is written beside a packet is left out;
nothing reads it.
-/

namespace AgentSystem.Handoff

open Json Audit Consensus PolicyGate Sha256

structure Workspace where
  tasks : Option (List Char)
  memory : String → Option (List Char)
  handoffs : PyStr → Option (List Char)

/-- `safe_workspace_path` below a directory, `none` when it raises. An absolute path has an empty
part. -/
def safeWorkspacePath (raw : PyStr) : Option PyStr :=
  let normalized := raw.map fun c => if c = codePoint '\\' then Executor.slash else c
  if raw = [] ∨ codePoint '%' ∈ raw ∨ raw.any (fun c => Executor.isSpace c || c.val < 32) = true ∨
      raw[1]? = some (codePoint ':') ∨
      (normalized.splitOn Executor.slash).any
        (fun part => part = [] ∨ part = toPyStr "." ∨ part = toPyStr "..") = true then none
  else some normalized

def packetPath (handoffId : PyStr) : Option PyStr := safeWorkspacePath (handoffId ++ toPyStr ".json")

/-- The text of the packet that an id names. -/
def Workspace.packetText (w : Workspace) (handoffId : PyStr) : Option (List Char) :=
  (packetPath handoffId).bind w.handoffs

section Export

variable (D : Type) [Interpreter D]

/-- What `json.loads` finds in the file of a session. -/
def Workspace.workingMemory (w : Workspace) (sessionId : String) : Option (PyValue D) :=
  (w.memory sessionId).bind loads

def Workspace.taskState (w : Workspace) : PyValue D :=
  dictValue (w.tasks.toList.map fun text => ("agent_tasks_content", strValue (String.ofList text)))

def Workspace.memorySnapshot (w : Workspace) (sessionId : String) : PyValue D :=
  dictValue (((w.workingMemory D sessionId).toList.map fun memory => ("working_memory", memory)) ++
    [("session_id", strValue sessionId)])

/-- `pending_steps or […]`. -/
def stepsValue (pendingSteps : Option (List PyStr)) : PyValue D :=
  .list (((pendingSteps.filter (· ≠ [])).getD
    [toPyStr "Resume LAS session from exported handoff state."]).map .str)

/-- The payload of an export, in the order in which it is put together. -/
def Workspace.payload (w : Workspace) (sessionId : String) (contextSummary : PyStr)
    (pendingSteps : Option (List PyStr)) : List (String × PyValue D) :=
  [("task_state", w.taskState D), ("pending_steps", stepsValue D pendingSteps),
    ("context_summary", .str contextSummary), ("memory_snapshot", w.memorySnapshot D sessionId)]

variable {D}

/-- `none` when the payload cannot be written or encoded. -/
def checksumOf (payload : List (String × PyValue D)) : Option String :=
  (dumpsUtf8 (dictValue payload)).map fun text => hexdigest (String.ofList text)

def packet (now handoffId checksum : String) (payload : List (String × PyValue D)) :
    List (String × PyValue D) :=
  [("protocol", strValue "PAP-Handoff"), ("version", strValue "1.0.0"),
    ("handoff_id", strValue handoffId), ("created_at", strValue now)] ++ payload ++
    [("checksum", strValue checksum)]

/-- `f"handoff-{checksum[:16]}"`. -/
def handoffIdOf (checksum : String) : String := "handoff-" ++ String.ofList (checksum.toList.take 16)

variable (D)

def exportHandoff (now : String) (w : Workspace) (sessionId : String) (contextSummary : PyStr)
    (pendingSteps : Option (List PyStr)) : Option (Workspace × String) := do
  let sessionId ← Memory.validateSessionId sessionId
  let payload := w.payload D sessionId contextSummary pendingSteps
  let checksum ← checksumOf payload
  let handoffId := handoffIdOf checksum
  let handoffFile ← packetPath (toPyStr handoffId)
  let text ← pretty 0 (fromJson (dictValue (packet now handoffId checksum payload)))
  return ({ w with handoffs := Function.update w.handoffs handoffFile (some text) }, handoffId)

end Export

/-! ## Import -/

/-- Why an import raises: `typeError` is the access to a value that is no dictionary. -/
inductive ImportError
  | denied
  | notFound
  | malformed
  | missing (fields : List String)
  | unencodable
  | mismatch
  | typeError
  | unwritable
  deriving DecidableEq

def required : List String :=
  ["protocol", "version", "task_state", "context_summary", "memory_snapshot", "checksum"]

section Import

variable {D : Type} [Interpreter D]

/-- The payload of a packet; steps that are no list are not part of it. -/
def importedPayload (items : List (PyKey D × PyValue D)) : List (String × PyValue D) :=
  [("task_state", (lookup items "task_state").getD .none),
    ("context_summary", (lookup items "context_summary").getD .none),
    ("memory_snapshot", (lookup items "memory_snapshot").getD .none)] ++
  match lookup items "pending_steps" with
  | some (.list steps) => [("pending_steps", .list steps)]
  | _ => []

/-- `checksum_actual != checksum_expected`. -/
def matchesChecksum (expected : Option (PyValue D)) (actual : String) : Bool :=
  match expected with
  | some (.str s) => s = toPyStr actual
  | _ => false

/-- `validate_session_id(memory_snapshot.get("session_id", "default"))`. -/
def snapshotSession (snapshot : List (PyKey D × PyValue D)) : Option String :=
  match lookup snapshot "session_id" with
  | none => some "default"
  | some (.str s) => (encode s).bind Memory.validateSessionId
  | some _ => none

/-- An empty memory is not written. -/
def restoreMemory (w : Workspace) (snapshot : List (PyKey D × PyValue D)) :
    Except ImportError Workspace :=
  match (lookup snapshot "working_memory").filter (truthy ·) with
  | none => .ok w
  | some memory =>
      match snapshotSession snapshot, pretty 0 (fromJson memory) with
      | none, _ => .error .denied
      | some _, none => .error .unwritable
      | some sessionId, some text =>
          .ok { w with memory := Function.update w.memory sessionId (some text) }

def importPacket (w : Workspace) (items : List (PyKey D × PyValue D)) : Except ImportError Workspace :=
  let missing := required.filter fun name => (lookup items name).isNone
  if missing ≠ [] then .error (.missing missing)
  else
    match checksumOf (importedPayload items) with
    | none => .error .unencodable
    | some actual =>
        if matchesChecksum (lookup items "checksum") actual then
          match lookup items "memory_snapshot" with
          | some (.dict snapshot) => restoreMemory w snapshot
          | _ => .error .typeError
        else .error .mismatch

variable (D)

def importHandoff (w : Workspace) (handoffId : PyStr) :
    Except ImportError (Workspace × List (PyKey D × PyValue D)) :=
  match packetPath handoffId with
  | none => .error .denied
  | some handoffFile =>
      match w.handoffs handoffFile with
      | none => .error .notFound
      | some text =>
          match loads (D := D) text with
          | some (.dict items) => (importPacket w items).map (·, items)
          | some _ => .error .typeError
          | none => .error .malformed

end Import

/-! ## Names of packets -/

/-- The characters of a packet's name. -/
def nameChars : List Char :=
  ['h', 'a', 'n', 'd', 'o', 'f', '-', '.', 'j', 's', '0', '1', '2', '3', '4', '5', '6', '7', '8',
    '9', 'b', 'c', 'e']

lemma safeWorkspacePath_name {text : List Char} (hlength : 2 < text.length)
    (hchars : ∀ c ∈ text, c ∈ nameChars) :
    safeWorkspacePath (text.map codePoint) = some (text.map codePoint) := by
  have hall : ∀ c ∈ nameChars, c.toNat ≠ '\\'.toNat ∧ c.toNat ≠ '%'.toNat ∧ c.toNat ≠ ':'.toNat ∧
      c.toNat ≠ '/'.toNat ∧ 33 ≤ c.toNat ∧ c.toNat < 127 := by
    simp [nameChars]
  have hpoints : ∀ c ∈ text.map codePoint, c ≠ codePoint '\\' ∧ c ≠ codePoint '%' ∧
      c ≠ codePoint ':' ∧ c ≠ Executor.slash ∧
      (Executor.isSpace c || decide (c.val < 32)) = false := by
    intro c hc
    obtain ⟨d, hd, rfl⟩ := List.mem_map.mp hc
    have hne : ∀ e : Char, d.toNat ≠ e.toNat → codePoint d ≠ codePoint e := by
      intro e hde heq
      have hval := congrArg Fin.val heq
      rw [codePoint_val, codePoint_val] at hval
      exact hde hval
    obtain ⟨hback, hpercent, hcolon, hslash, hlow, hhigh⟩ := hall d (hchars d hd)
    refine ⟨hne _ hback, hne _ hpercent, hne _ hcolon, hne _ hslash, ?_⟩
    rw [← codePoint_val d] at hlow hhigh
    simp [Executor.isSpace]
    omega
  have hsame : ((text.map codePoint).map fun c =>
      if c = codePoint '\\' then Executor.slash else c) = text.map codePoint := by
    conv_rhs => rw [← List.map_id (text.map codePoint)]
    exact List.map_congr_left fun c hc => if_neg (hpoints c hc).1
  have hslash : Executor.slash ∉ text.map codePoint := fun hmem => (hpoints _ hmem).2.2.2.1 rfl
  have hparts : ((text.map codePoint).splitOn Executor.slash).any
      (fun part => part = [] ∨ part = toPyStr "." ∨ part = toPyStr "..") = false := by
    rw [List.splitOn_eq_singleton hslash]
    have hshort : ∀ part : PyStr, part.length ≤ 2 → text.map codePoint ≠ part := by
      intro part hpart heq
      rw [← heq, List.length_map] at hpart
      omega
    simp [hshort [] (by simp), hshort (toPyStr ".") (by decide), hshort (toPyStr "..") (by decide)]
  have hclean : ¬ (text.map codePoint = [] ∨ codePoint '%' ∈ text.map codePoint ∨
      (text.map codePoint).any (fun c => Executor.isSpace c || c.val < 32) = true ∨
      (text.map codePoint)[1]? = some (codePoint ':')) := by
    rintro (hnil | hpercent | hspace | hdrive)
    · rw [List.map_eq_nil_iff] at hnil
      simp [hnil] at hlength
    · exact (hpoints _ hpercent).2.1 rfl
    · obtain ⟨c, hc, hbad⟩ := List.any_eq_true.mp hspace
      rw [(hpoints c hc).2.2.2.2] at hbad
      exact Bool.false_ne_true hbad
    · exact (hpoints _ (List.mem_of_getElem? hdrive)).2.2.1 rfl
  rw [safeWorkspacePath, hsame, if_neg]
  rintro (h | h | h | h | h)
  · exact hclean (Or.inl h)
  · exact hclean (Or.inr (Or.inl h))
  · exact hclean (Or.inr (Or.inr (Or.inl h)))
  · exact hclean (Or.inr (Or.inr (Or.inr h)))
  · rw [hparts] at h
    exact Bool.false_ne_true h

lemma hexDigits_mem (width : ℕ) (w : UInt32) : ∀ c ∈ hexDigits width w, c ∈ nameChars := by
  have hdigit : ∀ n < 16, Nat.digitChar n ∈ nameChars := by decide
  induction width generalizing w with
  | zero => simp [hexDigits]
  | succ width ih =>
    rw [hexDigits]
    refine List.forall_mem_append.mpr ⟨ih _, ?_⟩
    simp only [List.forall_mem_singleton]
    refine hdigit _ ?_
    rw [UInt32.toNat_mod]
    exact Nat.mod_lt _ (by decide)

lemma hexdigest_mem (s : String) : ∀ c ∈ (hexdigest s).toList, c ∈ nameChars := by
  intro c hc
  unfold hexdigest at hc
  rw [String.toList_ofList] at hc
  obtain ⟨w, -, hw⟩ := List.mem_flatMap.mp hc
  exact hexDigits_mem 8 w c hw

/-- The id of an export names a file in the directory of the packets. -/
lemma packetPath_handoffIdOf (s : String) :
    packetPath (toPyStr (handoffIdOf (hexdigest s))) =
      some (toPyStr (handoffIdOf (hexdigest s)) ++ toPyStr ".json") := by
  have hname : toPyStr (handoffIdOf (hexdigest s)) ++ toPyStr ".json" =
      ("handoff-".toList ++ (hexdigest s).toList.take 16 ++ ".json".toList).map codePoint := by
    simp [toPyStr, handoffIdOf]
  rw [packetPath, hname, safeWorkspacePath_name]
  · simp only [List.length_append]
    have : "handoff-".toList.length = 8 := by decide
    omega
  · refine List.forall_mem_append.mpr ⟨List.forall_mem_append.mpr ⟨by simp [nameChars], ?_⟩,
      by simp [nameChars]⟩
    intro c hc
    exact hexdigest_mem s c (List.mem_of_mem_take hc)

/-! ## Dictionaries with known names -/

section Values

variable {D : Type} {items : List (String × PyValue D)}

/-- The items of `dictValue`. -/
def named (items : List (String × PyValue D)) : List (PyKey D × PyValue D) :=
  items.map fun item => (.str (toPyStr item.1), item.2)

lemma lookup_named (name : String) : lookup (named items) name = PySequence.getItem items name :=
  field_dictValue items name

lemma isJson_strValue (s : String) : IsJson (strValue s : PyValue D) := joinSurrogates_toPyStr s

lemma isJson_dictValue (hnodup : (items.map Prod.fst).Nodup) (h : ∀ item ∈ items, IsJson item.2) :
    IsJson (dictValue items) := by
  rw [dictValue, IsJson, isJsonMembers_iff, List.map_map]
  constructor
  · have hnames := hnodup.map toPyStr_injective
    rwa [List.map_map] at hnames
  · intro item hitem
    obtain ⟨pair, hpair, rfl⟩ := List.mem_map.mp hitem
    exact ⟨⟨rfl, joinSurrogates_toPyStr pair.1⟩, h pair hpair⟩

variable [Interpreter D]

lemma isJson_str_of_text {s : PyStr} {text : List Char}
    (h : dumpsUtf8 (.str s : PyValue D) = some text) : IsJson (.str s : PyValue D) := by
  rw [dumpsUtf8] at h
  exact joinSurrogates_of_scalar fun c hc => ((plainText_eq_some.mp h).1 c hc).1

lemma exists_text_of_mem {text : List Char} (h : dumpsUtf8 (dictValue items) = some text)
    (item : String × PyValue D) (hitem : item ∈ items) : ∃ text, dumpsUtf8 item.2 = some text := by
  obtain ⟨-, members, hmembers, -⟩ := dumpsUtf8_dict_eq_some.mp h
  have hmem : ((.str (toPyStr item.1), item.2) : PyKey D × PyValue D) ∈
      items.map fun item => (.str (toPyStr item.1), item.2) := List.mem_map_of_mem hitem
  obtain ⟨member, ⟨-, -, text, -, -, htext, -⟩, -⟩ := exists_of_forall₂_both hmembers hmembers hmem
  exact ⟨text, htext⟩

lemma exists_text_strValue (s : String) : ∃ text, dumpsUtf8 (strValue s : PyValue D) = some text :=
  ⟨_, plainText_eq_some.mpr ⟨CheckpointFile.scalars_toPyStr s, rfl⟩⟩

lemma exists_text_dictValue (h : ∀ item ∈ items, ∃ text, dumpsUtf8 item.2 = some text) :
    ∃ text, dumpsUtf8 (dictValue items) = some text := by
  have hcomparable : comparable ((named items).map Prod.fst) = true := by
    simp [comparable, PyKey.isStr, named]
  have hmembers : ∀ item ∈ named items, ∃ member, Utf8Member item member := by
    intro item hitem
    obtain ⟨pair, hpair, rfl⟩ := List.mem_map.mp hitem
    obtain ⟨name, hname⟩ := exists_text_strValue (D := D) pair.1
    obtain ⟨text, htext⟩ := h pair hpair
    exact ⟨_, _, name, text, rfl, hname, htext, rfl⟩
  obtain ⟨members, hmembers⟩ := forall₂_of_exists hmembers
  exact ⟨_, dumpsUtf8_dict_eq_some.mpr ⟨hcomparable, members, hmembers, rfl⟩⟩

/-- The checksum does not depend on the order of the payload. -/
lemma checksumOf_perm {payload payload' : List (String × PyValue D)} (h : payload.Perm payload')
    (hnodup : (payload.map Prod.fst).Nodup) : checksumOf payload = checksumOf payload' := by
  have hpairs : ∀ l : List (String × PyValue D), dictValue l =
      .dict ((l.map fun item => (toPyStr item.1, item.2)).map fun pair => (.str pair.1, pair.2)) := by
    intro l
    rw [dictValue, List.map_map]
    rfl
  have hnames : ((payload.map fun item => (toPyStr item.1, item.2)).map Prod.fst).Nodup := by
    have hmap := hnodup.map toPyStr_injective
    rwa [List.map_map] at hmap ⊢
  rw [checksumOf, checksumOf, hpairs, hpairs,
    dumpsUtf8_perm (h.map fun item => (toPyStr item.1, item.2)) hnames]

end Values

/-! ## There and back -/

section RoundTrip

variable {D : Type} [Interpreter D] {w w' carried : Workspace} {now sessionId handoffId : String}
  {contextSummary : PyStr} {pendingSteps : Option (List PyStr)}

lemma export_spec
    (h : exportHandoff D now w sessionId contextSummary pendingSteps = some (w', handoffId)) :
    ∃ checksum handoffFile text, Memory.validateSessionId sessionId = some sessionId ∧
      checksumOf (w.payload D sessionId contextSummary pendingSteps) = some checksum ∧
      packetPath (toPyStr handoffId) = some handoffFile ∧
      pretty 0 (fromJson (dictValue (packet now handoffId checksum
        (w.payload D sessionId contextSummary pendingSteps)))) = some text ∧
      w' = { w with handoffs := Function.update w.handoffs handoffFile (some text) } := by
  unfold exportHandoff at h
  simp only [Option.bind_eq_bind, Option.bind_eq_some_iff, Option.pure_def, Option.some.injEq,
    Prod.mk.injEq] at h
  obtain ⟨valid, hvalid, checksum, hchecksum, handoffFile, hfile, text, htext, rfl, rfl⟩ := h
  have hsame : valid = sessionId := by
    unfold Memory.validateSessionId at hvalid
    split_ifs at hvalid
    exact (Option.some.inj hvalid).symm
  rw [hsame] at hvalid hchecksum htext
  exact ⟨checksum, handoffFile, text, hvalid, hchecksum, hfile, htext, rfl⟩

lemma isJson_payload {checksum : String}
    (h : checksumOf (w.payload D sessionId contextSummary pendingSteps) = some checksum) :
    ∀ item ∈ w.payload D sessionId contextSummary pendingSteps, IsJson item.2 := by
  obtain ⟨text, htext, -⟩ := Option.map_eq_some_iff.mp h
  have hvalues := exists_text_of_mem htext
  simp only [Workspace.payload, List.forall_mem_cons] at hvalues ⊢
  obtain ⟨-, ⟨_, hsteps⟩, ⟨_, hsummary⟩, -⟩ := hvalues
  refine ⟨?_, ?_, isJson_str_of_text hsummary, ?_, by simp⟩
  · refine isJson_dictValue ?_ ?_
    · cases w.tasks <;> simp
    · cases w.tasks <;> simp [isJson_strValue]
  · obtain ⟨texts, htexts, -⟩ := dumpsUtf8_list_eq_some.mp hsteps
    refine isJsonItems_iff.mpr fun value hvalue => ?_
    obtain ⟨step, -, rfl⟩ := List.mem_map.mp hvalue
    obtain ⟨text, hstep, -⟩ := exists_of_forall₂_both htexts htexts hvalue
    exact isJson_str_of_text hstep
  · refine isJson_dictValue ?_ ?_
    · cases w.workingMemory D sessionId <;> simp
    · cases hmemory : w.workingMemory D sessionId with
      | none => simp [isJson_strValue]
      | some memory =>
        obtain ⟨_, -, hloads⟩ := Option.bind_eq_some_iff.mp hmemory
        simp [isJson_strValue, isJson_of_loads hloads]

omit [Interpreter D] in
lemma importedPayload_nodup (items : List (PyKey D × PyValue D)) :
    ((importedPayload items).map Prod.fst).Nodup := by
  unfold importedPayload
  split <;> simp

/-- The payload that an import puts together again. -/
lemma importedPayload_packet (now handoffId checksum : String) :
    importedPayload (named (packet now handoffId checksum
      (w.payload D sessionId contextSummary pendingSteps))) =
        [("task_state", w.taskState D), ("context_summary", .str contextSummary),
          ("memory_snapshot", w.memorySnapshot D sessionId),
          ("pending_steps", stepsValue D pendingSteps)] := by
  simp [importedPayload, lookup_named, packet, Workspace.payload, PySequence.getItem_cons,
    PySequence.getItem_nil, stepsValue]

lemma importedPayload_perm (now handoffId checksum : String) :
    (importedPayload (named (packet now handoffId checksum
      (w.payload D sessionId contextSummary pendingSteps)))).Perm
        (w.payload D sessionId contextSummary pendingSteps) := by
  rw [importedPayload_packet, Workspace.payload]
  exact List.Perm.cons _ (@List.perm_append_comm _ [_, _] [_])

/-- The working memory of every session when a snapshot has been restored. -/
lemma restoreMemory_snapshot (carried : Workspace)
    (hvalid : Memory.validateSessionId sessionId = some sessionId)
    {text : List Char} (htext : dumpsUtf8 (w.memorySnapshot D sessionId) = some text) :
    ∃ snapshot restored, w.memorySnapshot D sessionId = .dict snapshot ∧
      restoreMemory carried snapshot = .ok restored ∧ restored.tasks = carried.tasks ∧
      restored.handoffs = carried.handoffs ∧
      (∀ other, other ≠ sessionId → restored.memory other = carried.memory other) ∧
      restored.workingMemory D sessionId =
        ((w.workingMemory D sessionId).filter (truthy ·)).or (carried.workingMemory D sessionId) := by
  set items := ((w.workingMemory D sessionId).toList.map fun memory => ("working_memory", memory)) ++
    [("session_id", strValue sessionId)] with hitems
  have hmemory : lookup (named items) "working_memory" = w.workingMemory D sessionId := by
    rw [lookup_named, hitems]
    cases w.workingMemory D sessionId <;>
      simp [PySequence.getItem_cons, PySequence.getItem_nil]
  have hsession : snapshotSession (named items) = some sessionId := by
    have hlookup : lookup (named items) "session_id" = some (strValue sessionId) := by
      rw [lookup_named, hitems]
      cases w.workingMemory D sessionId <;>
        simp [PySequence.getItem_cons, PySequence.getItem_nil]
    simp [snapshotSession, hlookup, strValue, encode_toPyStr, hvalid]
  cases hfilter : (w.workingMemory D sessionId).filter (truthy ·) with
  | none =>
    refine ⟨named items, carried, rfl, ?_, rfl, rfl, fun _ _ => rfl, by simp⟩
    rw [restoreMemory, hmemory, hfilter]
  | some memory =>
    have hsome := (Option.filter_eq_some_iff.mp hfilter).1
    obtain ⟨source, -, hloads⟩ := Option.bind_eq_some_iff.mp hsome
    have hitem : ("working_memory", memory) ∈ items := by simp [hitems, hsome]
    obtain ⟨_, hwritten⟩ := exists_text_of_mem htext _ hitem
    obtain ⟨written, hpretty⟩ : ∃ written, pretty 0 (fromJson memory) = some written :=
      exists_pretty_of_dumpsUtf8 hwritten 0
    refine ⟨named items,
      { carried with memory := Function.update carried.memory sessionId (some written) }, rfl, ?_,
      rfl, rfl, fun other hother => Function.update_of_ne hother _ _, ?_⟩
    · simp [restoreMemory, hmemory, hfilter, hsession, hpretty]
    · simp only [Workspace.workingMemory, Function.update_self, Option.bind_some]
      rw [loads_pretty_fromJson (isJson_of_loads hloads) hpretty]
      rfl

lemma packet_nodup (checksum : String) : ((packet now handoffId checksum
    (w.payload D sessionId contextSummary pendingSteps)).map Prod.fst).Nodup := by
  simp [packet, Workspace.payload]

lemma packet_values {P : PyValue D → Prop} {checksum : String} (hstr : ∀ s, P (strValue s))
    (hpayload : ∀ item ∈ w.payload D sessionId contextSummary pendingSteps, P item.2) :
    ∀ item ∈ packet now handoffId checksum (w.payload D sessionId contextSummary pendingSteps),
      P item.2 := by
  intro item hitem
  simp only [packet, List.mem_append, List.mem_cons, List.not_mem_nil, or_false] at hitem
  rcases hitem with ((rfl | rfl | rfl | rfl) | hitem) | rfl
  all_goals first | exact hstr _ | exact hpayload item hitem

/-- An export fails only for a bad session id and for a payload that cannot be encoded. -/
theorem export_isSome_iff : (exportHandoff D now w sessionId contextSummary pendingSteps).isSome ↔
    Memory.sessionIdPattern sessionId = true ∧
      (dumpsUtf8 (dictValue (w.payload D sessionId contextSummary pendingSteps))).isSome := by
  constructor
  · intro h
    obtain ⟨⟨w', handoffId⟩, hexport⟩ := Option.isSome_iff_exists.mp h
    obtain ⟨checksum, -, -, hvalid, hchecksum, -⟩ := export_spec hexport
    obtain ⟨text, htext, -⟩ := Option.map_eq_some_iff.mp hchecksum
    unfold Memory.validateSessionId at hvalid
    split_ifs at hvalid with hpattern
    exact ⟨hpattern, by rw [htext]; rfl⟩
  · rintro ⟨hpattern, hsome⟩
    obtain ⟨text, htext⟩ := Option.isSome_iff_exists.mp hsome
    set checksum := hexdigest (String.ofList text) with hhex
    have hchecksum : checksumOf (w.payload D sessionId contextSummary pendingSteps) =
        some checksum := by rw [checksumOf, htext, Option.map_some]
    have hvalues : ∀ item ∈ packet now (handoffIdOf checksum) checksum
        (w.payload D sessionId contextSummary pendingSteps),
        ∃ text, dumpsUtf8 item.2 = some text :=
      packet_values (P := fun value => ∃ text, dumpsUtf8 value = some text) exists_text_strValue
        fun item hitem => exists_text_of_mem htext item hitem
    obtain ⟨_, hpacket⟩ := exists_text_dictValue hvalues
    obtain ⟨written, hwritten⟩ := exists_pretty_of_dumpsUtf8 hpacket 0
    have hpath : packetPath (toPyStr (handoffIdOf checksum)) =
        some (toPyStr (handoffIdOf checksum) ++ toPyStr ".json") := packetPath_handoffIdOf _
    simp [exportHandoff, Memory.validateSessionId, hpattern, hchecksum, hpath, hwritten]

lemma lookup_packet {checksum : String} (item : String × PyValue D)
    (h : item ∈ packet now handoffId checksum (w.payload D sessionId contextSummary pendingSteps)) :
    lookup (named (packet now handoffId checksum
      (w.payload D sessionId contextSummary pendingSteps))) item.1 = some item.2 := by
  rw [lookup_named]
  exact PySequence.getItem_of_mem (packet_nodup checksum) h

/-- The import reads the packet that was written and finds its checksum. -/
lemma import_accepted
    (h : exportHandoff D now w sessionId contextSummary pendingSteps = some (w', handoffId))
    (hcarried : carried.packetText (toPyStr handoffId) = w'.packetText (toPyStr handoffId)) :
    ∃ checksum restored, importHandoff D carried (toPyStr handoffId) = .ok (restored,
        named (packet now handoffId checksum (w.payload D sessionId contextSummary pendingSteps))) ∧
      checksumOf (w.payload D sessionId contextSummary pendingSteps) = some checksum ∧
      restored.tasks = carried.tasks ∧ restored.handoffs = carried.handoffs ∧
      (∀ other, other ≠ sessionId → restored.memory other = carried.memory other) ∧
      restored.workingMemory D sessionId =
        ((w.workingMemory D sessionId).filter (truthy ·)).or (carried.workingMemory D sessionId) := by
  obtain ⟨checksum, handoffFile, text, hvalid, hchecksum, hfile, htext, rfl⟩ := export_spec h
  have hread : carried.handoffs handoffFile = some text := by
    simpa [Workspace.packetText, hfile] using hcarried
  have hloads : loads text = some (.dict (named (packet now handoffId checksum
      (w.payload D sessionId contextSummary pendingSteps)))) :=
    loads_pretty_fromJson (isJson_dictValue (packet_nodup checksum)
      (packet_values isJson_strValue (isJson_payload hchecksum))) htext
  -- nothing is missing and the checksum is the same
  have hmissing : required.filter (fun name => (lookup (named (packet now handoffId checksum
      (w.payload D sessionId contextSummary pendingSteps))) name).isNone) = [] := by
    simp [required, lookup_named, packet, Workspace.payload, PySequence.getItem_cons]
  have hactual : checksumOf (importedPayload (named (packet now handoffId checksum
      (w.payload D sessionId contextSummary pendingSteps)))) = some checksum := by
    rw [checksumOf_perm (importedPayload_perm now handoffId checksum) (importedPayload_nodup _)]
    exact hchecksum
  have hmatches : matchesChecksum (lookup (named (packet now handoffId checksum
      (w.payload D sessionId contextSummary pendingSteps))) "checksum") checksum = true := by
    rw [lookup_packet (("checksum", strValue checksum)) (by simp [packet])]
    simp [matchesChecksum, strValue]
  obtain ⟨whole, hwhole, -⟩ := Option.map_eq_some_iff.mp hchecksum
  obtain ⟨_, hsnapshotText⟩ := exists_text_of_mem hwhole
    ("memory_snapshot", w.memorySnapshot D sessionId) (by simp [Workspace.payload])
  obtain ⟨snapshot, restored, hsnapshot, hrestore, hrestored⟩ :=
    restoreMemory_snapshot carried hvalid hsnapshotText
  have hlookup : lookup (named (packet now handoffId checksum
      (w.payload D sessionId contextSummary pendingSteps))) "memory_snapshot" =
        some (.dict snapshot) := by
    rw [lookup_packet (("memory_snapshot", w.memorySnapshot D sessionId))
      (by simp [packet, Workspace.payload]), hsnapshot]
  refine ⟨checksum, restored, ?_, hchecksum, hrestored⟩
  simp [importHandoff, hfile, hread, hloads, importPacket, hmissing, hactual, hmatches, hlookup,
    hrestore, Except.map]

/-- A packet that was exported is accepted wherever its file is carried, and the session has its
working memory there, read as it was read in the first place. An empty memory is not carried over:
the session keeps the one it has there. -/
theorem import_export
    (h : exportHandoff D now w sessionId contextSummary pendingSteps = some (w', handoffId))
    (hcarried : carried.packetText (toPyStr handoffId) = w'.packetText (toPyStr handoffId)) :
    ∃ restored items, importHandoff D carried (toPyStr handoffId) = .ok (restored, items) ∧
      (∀ item ∈ w.payload D sessionId contextSummary pendingSteps,
        lookup items item.1 = some item.2) ∧
      restored.tasks = carried.tasks ∧ restored.handoffs = carried.handoffs ∧
      (∀ other, other ≠ sessionId → restored.memory other = carried.memory other) ∧
      restored.workingMemory D sessionId =
        ((w.workingMemory D sessionId).filter (truthy ·)).or (carried.workingMemory D sessionId) := by
  obtain ⟨checksum, restored, himport, -, hrestored⟩ := import_accepted h hcarried
  refine ⟨restored, _, himport, fun item hitem => lookup_packet item ?_, hrestored⟩
  simp [packet, hitem]

lemma import_spec {w restored : Workspace} {id : PyStr} {items : List (PyKey D × PyValue D)}
    (h : importHandoff D w id = .ok (restored, items)) :
    ∃ actual, checksumOf (importedPayload items) = some actual ∧
      lookup items "checksum" = some (strValue actual) := by
  unfold importHandoff at h
  split at h
  · cases h
  · split at h
    · cases h
    · split at h
      · next found _ =>
        cases hpacket : importPacket w found with
        | error e =>
          rw [hpacket] at h
          cases h
        | ok restored' =>
          rw [hpacket] at h
          cases h
          simp only [importPacket] at hpacket
          split_ifs at hpacket
          split at hpacket
          · cases hpacket
          · next actual hactual =>
            split_ifs at hpacket with hmatches
            refine ⟨actual, hactual, ?_⟩
            unfold matchesChecksum at hmatches
            split at hmatches
            · next s hs => rw [hs, strValue, of_decide_eq_true hmatches]
            · cases hmatches
      · cases h
      · cases h

end RoundTrip

/-! ## A session with one message -/

def sessionText : List Char := ['[', '"', 'h', 'i', '"', ']']

/-- A workspace with the memory of one session. -/
def messageWorkspace : Workspace where
  tasks := none
  memory sessionId := if sessionId = "s1" then some sessionText else none
  handoffs _ := none

lemma export_message (now : String) : ∃ w' handoffId,
    exportHandoff Empty now messageWorkspace "s1" (toPyStr "a greeting") none =
      some (w', handoffId) := by
  have hsome : (exportHandoff Empty now messageWorkspace "s1" (toPyStr "a greeting") none).isSome :=
    export_isSome_iff.mpr ⟨by decide, by decide +kernel⟩
  obtain ⟨⟨w', handoffId⟩, h⟩ := Option.isSome_iff_exists.mp hsome
  exact ⟨w', handoffId, h⟩

theorem import_export_message : ∃ w' handoffId restored items,
    exportHandoff Empty "t1" messageWorkspace "s1" (toPyStr "a greeting") none =
        some (w', handoffId) ∧
      importHandoff Empty { w' with memory := fun _ => none } (toPyStr handoffId) =
        .ok (restored, items) ∧
      restored.workingMemory Empty "s1" = some (.list [strValue "hi"]) := by
  obtain ⟨w', handoffId, hexport⟩ := export_message "t1"
  have hcarried : ({ w' with memory := fun _ => none } : Workspace).packetText (toPyStr handoffId) =
      w'.packetText (toPyStr handoffId) := rfl
  obtain ⟨restored, items, himport, -, -, -, -, hmemory⟩ := import_export hexport hcarried
  exact ⟨w', handoffId, restored, items, hexport, himport, hmemory⟩

end AgentSystem.Handoff
