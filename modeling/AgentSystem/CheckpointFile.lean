import AgentSystem.Pages
import AgentSystem.PrettyJson

/-!
# The file of a workflow run

The run state with all its fields, `save_state`, `load_state` and the output that a step keeps of
the answer of its tool. A state is loaded as it was saved exactly if JSON keeps everything in it;
`ast.literal_eval` also gives values that JSON does not keep.
-/
namespace AgentSystem.CheckpointFile

open Json Pages PySequence

variable {D : Type}

/-- `StepState`. Nothing checks the types of the fields. -/
structure StepState (D : Type) where
  stepId : PyData D
  status : PyData D
  output : PyData D := .none
  error : PyData D := .none
  startedAt : PyData D := .none
  completedAt : PyData D := .none

/-- `WorkflowRunState`; every step stands under its own id. -/
structure WorkflowRunState (D : Type) where
  workflowId : PyData D
  sessionId : PyStr
  status : PyData D
  currentStepId : PyData D
  steps : List (StepState D)
  payload : PyData D
  createdAt : PyData D
  updatedAt : PyData D

def textValue (s : String) : PyData D := .str (toPyStr s)

/-- A dictionary with these keys. -/
def record (fields : List (String × PyData D)) : PyData D :=
  .dict (fields.map fun pair => (textValue pair.1, pair.2))

/-! ## Saving -/

/-- `asdict(step)`. -/
def StepState.fields (step : StepState D) : List (String × PyData D) :=
  [("step_id", step.stepId), ("status", step.status), ("output", step.output),
   ("error", step.error), ("started_at", step.startedAt), ("completed_at", step.completedAt)]

def stepsData (steps : List (StepState D)) : PyData D :=
  .dict (steps.map fun step => (step.stepId, record step.fields))

/-- The dictionary that is serialised. -/
def WorkflowRunState.fields (state : WorkflowRunState D) : List (String × PyData D) :=
  [("workflow_id", state.workflowId), ("session_id", .str state.sessionId),
   ("status", state.status), ("current_step_id", state.currentStepId),
   ("created_at", state.createdAt), ("updated_at", state.updatedAt), ("payload", state.payload),
   ("steps", stepsData state.steps)]

/-- `save_state` at this time: the state afterwards and the text of the file, `none` when
`json.dumps` or the encoding raises. -/
def saveState [Doubles D] (now : String) (state : WorkflowRunState D) :
    WorkflowRunState D × Option (List Char) :=
  let state := { state with updatedAt := textValue now }
  (state, pretty 0 (record state.fields))

/-! ## Loading -/

/-- The exceptions behind `Invalid workflow checkpoint for session …`. -/
inductive LoadError
  | json
  | rootNotObject
  | missingFields (names : List String)
  | otherSession
  | stepsNotObject
  | stepKeyMismatch
  | keyError (name : String)
  deriving DecidableEq

/-- `sorted(required)`. -/
def required : List String :=
  ["created_at", "current_step_id", "session_id", "status", "steps", "updated_at", "workflow_id"]

section Load

variable [RealDoubles D]

/-- `data[name]`, `none` for a `KeyError`. -/
def item (data : List (PyData D × PyData D)) (name : String) : Option (PyData D) :=
  (data.find? fun pair => pair.1.eq (textValue name)).map Prod.snd

/-- `data.get(name)`. -/
def get (data : List (PyData D × PyData D)) (name : String) : PyData D :=
  (item data name).getD .none

/-- The body of the loop over the steps. -/
def loadStep (entry : PyData D × PyData D) : Except LoadError (StepState D) :=
  match entry.2 with
  | .dict stepData =>
      if (get stepData "step_id").eq entry.1 then
        match item stepData "step_id", item stepData "status" with
        | some stepId, some status =>
            .ok
              { stepId := stepId
                status := status
                output := get stepData "output"
                error := get stepData "error"
                startedAt := get stepData "started_at"
                completedAt := get stepData "completed_at" }
        | none, _ => .error (.keyError "step_id")
        | _, none => .error (.keyError "status")
      else .error .stepKeyMismatch
  | _ => .error .stepKeyMismatch

/-- `load_state` once the file is parsed. -/
def loadData (sessionId : PyStr) : PyData D → Except LoadError (WorkflowRunState D)
  | .dict data =>
      let missing := required.filter fun name => (item data name).isNone
      if missing ≠ [] then .error (.missingFields missing)
      else if (get data "session_id").eq (.str sessionId) = false then .error .otherSession
      else
        match get data "steps" with
        | .dict entries => do
            let steps ← entries.mapM loadStep
            return {
              workflowId := get data "workflow_id"
              sessionId := sessionId
              status := get data "status"
              currentStepId := get data "current_step_id"
              createdAt := get data "created_at"
              updatedAt := get data "updated_at"
              payload := (item data "payload").getD (.dict [])
              steps := steps }
        | _ => .error .stepsNotObject
  | _ => .error .rootNotObject

/-- `load_state` of a session that has a file. -/
def loadState (sessionId : PyStr) (text : List Char) : Except LoadError (WorkflowRunState D) :=
  match loads text with
  | none => .error .json
  | some data => loadData sessionId (fromJson data)

/-! ## Comparing -/

def StepState.eq (step other : StepState D) : Bool :=
  step.stepId.eq other.stepId && step.status.eq other.status && step.output.eq other.output &&
    step.error.eq other.error && step.startedAt.eq other.startedAt &&
      step.completedAt.eq other.completedAt

/-- `==` of the dictionaries of the steps. -/
def eqSteps (steps others : List (StepState D)) : Bool :=
  decide (steps.length = others.length) &&
    steps.all fun step => others.any fun other => step.stepId.eq other.stepId && step.eq other

/-- `==` in all fields but `updated_at`. -/
def WorkflowRunState.eq (state other : WorkflowRunState D) : Bool :=
  state.workflowId.eq other.workflowId && decide (state.sessionId = other.sessionId) &&
    state.status.eq other.status && state.currentStepId.eq other.currentStepId &&
      eqSteps state.steps other.steps && state.payload.eq other.payload &&
        state.createdAt.eq other.createdAt

/-- The state is saved, and `load_state` returns an equal one. -/
def RoundTrips (now : String) (state : WorkflowRunState D) : Prop :=
  ∃ text loaded, (saveState now state).2 = some text ∧
    loadState state.sessionId text = .ok loaded ∧ (saveState now state).1.eq loaded = true

end Load

/-! ## The output of a step -/

/-- `json.loads` and `ast.literal_eval` of the answer of a tool. What `json.loads` makes of a string
with half of a surrogate pair, and `ast.literal_eval` of any string, is left open. -/
structure Parsers (D : Type) where
  loadsHalves : PyStr → Option (PyValue D)
  literalEval : PyStr → Option (PyData D)

section Output

variable [Doubles D]

def jsonLoads (parsers : Parsers D) (raw : PyStr) : Option (PyValue D) :=
  match encode raw with
  | some text => loads text.toList
  | none => parsers.loadsHalves raw

/-- The output that a step keeps of the answer of its tool. -/
def parseOutput (parsers : Parsers D) (raw : PyStr) : PyData D :=
  match jsonLoads parsers raw with
  | some value => fromJson value
  | none => (parsers.literalEval raw).getD (.str raw)

end Output

/-- The step has succeeded with this output. -/
def WorkflowRunState.succeed [RealDoubles D] (state : WorkflowRunState D) (stepId output : PyData D)
    (completedAt : String) : WorkflowRunState D :=
  { state with
    steps := state.steps.map fun step =>
      if step.stepId.eq stepId then
        { step with
          status := textValue "success"
          output := output
          error := .none
          completedAt := textValue completedAt }
      else step }

/-! ## What JSON keeps of a state -/

structure StepState.Kept (step : StepState D) : Prop where
  stepId : ∃ name, step.stepId = .str name ∧ Scalars name
  status : step.status.Kept
  output : step.output.Kept
  error : step.error.Kept
  startedAt : step.startedAt.Kept
  completedAt : step.completedAt.Kept

/-- The fields and the outputs are values that JSON keeps, and the ids of the steps are different
strings. -/
structure WorkflowRunState.Kept (state : WorkflowRunState D) : Prop where
  workflowId : state.workflowId.Kept
  sessionId : Scalars state.sessionId
  status : state.status.Kept
  currentStepId : state.currentStepId.Kept
  createdAt : state.createdAt.Kept
  payload : state.payload.Kept
  steps : ∀ step ∈ state.steps, step.Kept
  unique : (state.steps.map fun step => step.stepId.text).Nodup

/-! ## Records -/

section Records

variable {fields : List (String × PyData D)}

lemma scalars_toPyStr (s : String) : Scalars (toPyStr s) := by
  intro c hc
  obtain ⟨c, -, rfl⟩ := List.mem_map.mp hc
  have hvalid : c.toNat < 0xD800 ∨ 0xDFFF < c.toNat ∧ c.toNat < 0x110000 := c.valid
  simp only [CodePoint.isHigh, CodePoint.isLow, codePoint_val, Bool.and_eq_false_iff,
    decide_eq_false_iff_not]
  omega

lemma kept_textValue (s : String) : (textValue s : PyData D).Kept := scalars_toPyStr s

lemma record_kept (hnodup : (fields.map Prod.fst).Nodup) :
    (record fields).Kept ↔ ∀ pair ∈ fields, pair.2.Kept := by
  have hnames : ((fields.map fun pair => ((textValue pair.1 : PyData D), pair.2)).map fun item =>
      item.1.text).Nodup := by
    rw [List.map_map]
    have hmap := hnodup.map ((Option.some_injective _).comp toPyStr_injective)
    rwa [List.map_map] at hmap
  rw [record, PyData.Kept, and_iff_right hnames, keptMembers_iff, List.forall_mem_map]
  refine forall₂_congr fun pair _ => and_iff_right ?_
  exact ⟨_, rfl, scalars_toPyStr pair.1⟩

lemma record_back [Doubles D] (hnodup : (fields.map Prod.fst).Nodup) :
    (record fields).back = record (fields.map (Prod.map id PyData.back)) := by
  have hnames : ((fields.map fun pair => ((textValue pair.1 : PyData D), pair.2)).map fun item =>
      item.1.name.getD []).Nodup := by
    rw [List.map_map]
    have hmap := hnodup.map toPyStr_injective
    rwa [List.map_map] at hmap
  rw [record, back_dict_of_nodup hnames, record, List.map_map, List.map_map]
  rfl

variable [RealDoubles D]

lemma eq_textValue {name name' : String} :
    (textValue name : PyData D).eq (textValue name') = decide (name = name') := by
  rw [Bool.eq_iff_iff, textValue, textValue, eq_str_iff, decide_eq_true_eq]
  exact ⟨fun h => toPyStr_injective (PyData.str.inj h), fun h => h ▸ rfl⟩

/-- A field of a record is found under its name. -/
lemma item_record (name : String) :
    item (fields.map fun pair => (textValue pair.1, pair.2)) name =
      (fields.find? fun pair => pair.1 = name).map Prod.snd := by
  induction fields with
  | nil => rfl
  | cons pair fields ih =>
      unfold item at ih ⊢
      rw [List.map_cons, List.find?_cons, List.find?_cons, eq_textValue]
      by_cases h : pair.1 = name
      · simp [h]
      · simpa [h] using ih

end Records

/-! ## Steps -/

section Steps

variable [RealDoubles D] {step : StepState D} {steps : List (StepState D)}

omit [RealDoubles D] in
lemma StepState.fields_nodup (step : StepState D) : (step.fields.map Prod.fst).Nodup := by
  simp [StepState.fields]

omit [RealDoubles D] in
lemma WorkflowRunState.fields_nodup (state : WorkflowRunState D) :
    (state.fields.map Prod.fst).Nodup := by
  simp [WorkflowRunState.fields]

/-- The fields after they were written and read. -/
def StepState.back (step : StepState D) : StepState D where
  stepId := step.stepId.back
  status := step.status.back
  output := step.output.back
  error := step.error.back
  startedAt := step.startedAt.back
  completedAt := step.completedAt.back

lemma StepState.back_fields (step : StepState D) :
    step.fields.map (Prod.map id PyData.back) = step.back.fields := rfl

/-- A step that stands under its id is loaded as it is. -/
lemma loadStep_record (step : StepState D) (key : PyData D) :
    loadStep (key, record step.fields) =
      if step.stepId.eq key then .ok step else .error .stepKeyMismatch := by
  simp only [loadStep, record, get, item_record]
  simp [StepState.fields]

lemma StepState.Kept.eq_self (h : step.Kept) : step.eq step = true := by
  obtain ⟨name, hname, hscalars⟩ := h.stepId
  have hid : step.stepId.Kept := by
    rw [hname]
    exact hscalars
  simp [StepState.eq, hid.eq_self, h.status.eq_self, h.output.eq_self, h.error.eq_self,
    h.startedAt.eq_self, h.completedAt.eq_self]

omit [RealDoubles D] in
lemma StepState.Kept.record (h : step.Kept) : (record step.fields).Kept := by
  obtain ⟨name, hname, hscalars⟩ := h.stepId
  rw [record_kept step.fields_nodup]
  simp only [StepState.fields, List.forall_mem_cons]
  refine ⟨?_, h.status, h.output, h.error, h.startedAt, h.completedAt, nofun⟩
  rw [hname]
  exact hscalars

/-- The fields of a step that is written and comes back equal are kept. -/
lemma kept_of_step {level : ℕ} {text : List Char} (hpretty : pretty level (record step.fields) = some text)
    {name : PyStr} (hid : step.stepId = .str name) (heq : step.eq step.back = true) : step.Kept := by
  have hwritten : ∀ pair ∈ step.fields, ∃ text, pretty (level + 1) pair.2 = some text := by
    intro pair hpair
    exact (pretty_dict_items hpretty _ (List.mem_map_of_mem hpair)).2
  simp only [StepState.fields, List.forall_mem_cons] at hwritten
  obtain ⟨⟨_, h₁⟩, ⟨_, h₂⟩, ⟨_, h₃⟩, ⟨_, h₄⟩, ⟨_, h₅⟩, ⟨_, h₆⟩, -⟩ := hwritten
  simp only [StepState.eq, StepState.back, Bool.and_eq_true] at heq
  obtain ⟨⟨⟨⟨⟨-, hstatus⟩, houtput⟩, herror⟩, hstarted⟩, hcompleted⟩ := heq
  rw [hid, pretty_str] at h₁
  exact ⟨⟨name, hid, (plainText_eq_some.mp h₁).1⟩, (eq_back_iff h₂).mp hstatus,
    (eq_back_iff h₃).mp houtput, (eq_back_iff h₄).mp herror, (eq_back_iff h₅).mp hstarted,
    (eq_back_iff h₆).mp hcompleted⟩

/-- Kept steps are loaded as they are. -/
lemma mapM_loadStep (h : ∀ step ∈ steps, step.Kept) :
    (steps.map fun step => (step.stepId, record step.fields)).mapM loadStep = .ok steps := by
  refine mapM_iff.mpr ?_
  rw [Yields, List.forall₂_map_left_iff, List.forall₂_same]
  intro step hstep
  obtain ⟨name, hname, -⟩ := (h step hstep).stepId
  rw [loadStep_record, if_pos]
  rw [hname]
  exact eq_str_iff.mpr rfl

lemma eqSteps_self (h : ∀ step ∈ steps, step.Kept) : eqSteps steps steps = true := by
  rw [eqSteps, Bool.and_eq_true, List.all_eq_true]
  refine ⟨by simp, fun step hstep => List.any_eq_true.mpr ⟨step, hstep, ?_⟩⟩
  obtain ⟨name, hname, -⟩ := (h step hstep).stepId
  rw [Bool.and_eq_true]
  refine ⟨?_, (h step hstep).eq_self⟩
  rw [hname]
  exact eq_str_iff.mpr rfl

omit [RealDoubles D] in
/-- The dictionary of the steps is kept if the steps are and their ids differ. -/
lemma stepsData_kept (h : ∀ step ∈ steps, step.Kept)
    (hunique : (steps.map fun step => step.stepId.text).Nodup) : (stepsData steps).Kept := by
  rw [stepsData, PyData.Kept, List.map_map, keptMembers_iff, List.forall_mem_map]
  refine ⟨hunique, fun step hstep => ⟨?_, (h step hstep).record⟩⟩
  obtain ⟨name, hname, hscalars⟩ := (h step hstep).stepId
  exact ⟨name, text_eq_some.mpr hname, hscalars⟩

/-- Steps that are loaded equal are kept, and their ids differ. -/
lemma kept_of_steps {level : ℕ} {text : List Char} {entries : List (PyData D × PyData D)}
    {loaded : List (StepState D)} (hpretty : pretty level (stepsData steps) = some text)
    (hback : (stepsData steps).back = .dict entries) (hload : entries.mapM loadStep = .ok loaded)
    (heq : eqSteps steps loaded = true) :
    (∀ step ∈ steps, step.Kept) ∧ (steps.map fun step => step.stepId.text).Nodup := by
  rw [eqSteps, Bool.and_eq_true, decide_eq_true_eq, List.all_eq_true] at heq
  obtain ⟨hlength, hfound⟩ := heq
  have hyields := mapM_iff.mp hload
  rw [stepsData, back_dict, PyData.dict.injEq] at hback
  -- no entry was lost, so the names of the ids differ
  have hnames : (steps.map fun step => step.stepId.name.getD []).Nodup := by
    have hentries := hyields.length_eq
    rw [← hback, ← hlength, List.length_map, List.map_map] at hentries
    have hnodup := nodup_of_length (hentries.trans (List.length_map _).symm)
    rwa [List.map_map] at hnodup
  have hitems : entries = steps.map fun step =>
      (.str (step.stepId.name.getD []), record step.back.fields) := by
    have hdistinct : ((steps.map fun step => (step.stepId, record step.fields)).map fun item =>
        item.1.name.getD []).Nodup := by
      rw [List.map_map]
      exact hnames
    have hdict := back_dict_of_nodup hdistinct
    rw [back_dict, PyData.dict.injEq, hback, List.map_map] at hdict
    rw [hdict]
    refine List.map_congr_left fun step _ => ?_
    rw [Function.comp_apply, record_back step.fields_nodup, step.back_fields]
  rw [hitems, Yields, List.forall₂_map_left_iff] at hyields
  have hsteps : ∀ step ∈ steps, step.Kept ∧ ∃ name, step.stepId = .str name := by
    intro step hstep
    obtain ⟨found, hmem, hsame⟩ := List.any_eq_true.mp (hfound step hstep)
    obtain ⟨hkey, hequal⟩ := (Bool.and_eq_true _ _).mp hsame
    obtain ⟨other, hother, hloaded⟩ := exists_of_forall₂ hyields hmem
    rw [loadStep_record] at hloaded
    split_ifs at hloaded with hid
    cases hloaded
    have hback : other.stepId.back = .str (other.stepId.name.getD []) := eq_str_iff.mp hid
    have hname : step.stepId = .str (other.stepId.name.getD []) := by
      change step.stepId.eq other.stepId.back = true at hkey
      rw [hback] at hkey
      exact eq_str_iff.mp hkey
    have hequalStep : step = other := by
      refine List.inj_on_of_nodup_map hnames hstep hother ?_
      rw [hname]
      rfl
    subst hequalStep
    obtain ⟨-, text, htext⟩ := pretty_dict_items hpretty _ (List.mem_map_of_mem hstep)
    exact ⟨kept_of_step htext hname hequal, _, hname⟩
  refine ⟨fun step hstep => (hsteps step hstep).1, ?_⟩
  have htexts : (steps.map fun step => step.stepId.text) =
      (steps.map fun step => step.stepId.name.getD []).map some := by
    rw [List.map_map]
    refine List.map_congr_left fun step hstep => ?_
    obtain ⟨name, hname⟩ := (hsteps step hstep).2
    rw [Function.comp_apply, hname]
    rfl
  rw [htexts]
  exact hnames.map (Option.some_injective _)

end Steps

/-! ## States -/

section States

variable [RealDoubles D] {state : WorkflowRunState D} {now : String}

/-- A state with these fields, and with the steps that are loaded. -/
lemma loadData_record (workflowId session status currentStepId createdAt updatedAt payload : PyData D)
    (entries : List (PyData D × PyData D)) (sessionId : PyStr) :
    loadData sessionId (record
      [("workflow_id", workflowId), ("session_id", session), ("status", status),
       ("current_step_id", currentStepId), ("created_at", createdAt), ("updated_at", updatedAt),
       ("payload", payload), ("steps", .dict entries)]) =
      if session.eq (.str sessionId) then
        (entries.mapM loadStep).map fun steps =>
          { workflowId := workflowId
            sessionId := sessionId
            status := status
            currentStepId := currentStepId
            createdAt := createdAt
            updatedAt := updatedAt
            payload := payload
            steps := steps }
      else .error .otherSession := by
  simp only [loadData, record, get, item_record]
  by_cases hsession : session.eq (.str sessionId) = true
  · simp [required, hsession]
    rfl
  · simp [required, hsession]

omit [RealDoubles D] in
lemma WorkflowRunState.Kept.record (h : state.Kept) (hupdated : state.updatedAt.Kept) :
    (record state.fields).Kept := by
  rw [record_kept state.fields_nodup]
  simp only [WorkflowRunState.fields, List.forall_mem_cons]
  exact ⟨h.workflowId, h.sessionId, h.status, h.currentStepId, h.createdAt, hupdated, h.payload,
    stepsData_kept h.steps h.unique, nofun⟩

lemma WorkflowRunState.Kept.eq_self (h : state.Kept) : state.eq state = true := by
  simp [WorkflowRunState.eq, h.workflowId.eq_self, h.status.eq_self, h.currentStepId.eq_self,
    h.payload.eq_self, h.createdAt.eq_self, eqSteps_self h.steps]

/-- Loading reads the fields as they come back. -/
lemma loadState_of_text {text : List Char} (h : pretty 0 (record state.fields) = some text)
    (sessionId : PyStr) : loadState sessionId text =
      loadData sessionId (record (state.fields.map (Prod.map id PyData.back))) := by
  rw [loadState, loads_pretty h]
  exact congrArg (loadData sessionId) (record_back state.fields_nodup)

/-- A kept state is written, and loaded as it is. -/
lemma WorkflowRunState.Kept.loads (h : state.Kept) (hupdated : state.updatedAt.Kept) :
    ∃ text, pretty 0 (CheckpointFile.record state.fields) = some text ∧
      loadState state.sessionId text = .ok state := by
  have hrecord := h.record hupdated
  obtain ⟨text, htext⟩ := hrecord.written 0
  refine ⟨text, htext, ?_⟩
  rw [loadState_of_text htext, ← record_back state.fields_nodup, hrecord.back_eq,
    WorkflowRunState.fields, stepsData, loadData_record, if_pos (eq_str_iff.mpr rfl),
    mapM_loadStep h.steps]
  rfl

lemma WorkflowRunState.Kept.roundTrips (h : state.Kept) : RoundTrips now state := by
  have hsaved : (saveState now state).1.Kept := ⟨h.workflowId, h.sessionId, h.status,
    h.currentStepId, h.createdAt, h.payload, h.steps, h.unique⟩
  obtain ⟨text, htext, hload⟩ := hsaved.loads (kept_textValue now)
  exact ⟨text, _, htext, hload, hsaved.eq_self⟩

/-- A state that is loaded equal is kept. -/
lemma kept_of_roundTrips (h : RoundTrips now state) : state.Kept := by
  obtain ⟨text, loaded, htext, hload, heq⟩ := h
  have hwritten : ∀ pair ∈ (saveState now state).1.fields,
      ∃ text, pretty 1 pair.2 = some text := by
    intro pair hpair
    exact (pretty_dict_items htext _ (List.mem_map_of_mem hpair)).2
  simp only [saveState, WorkflowRunState.fields, List.forall_mem_cons] at hwritten
  obtain ⟨⟨_, h₁⟩, ⟨_, h₂⟩, ⟨_, h₃⟩, ⟨_, h₄⟩, ⟨_, h₅⟩, -, ⟨_, h₇⟩, ⟨_, h₈⟩, -⟩ := hwritten
  obtain ⟨entries, hentries⟩ : ∃ entries, (stepsData state.steps).back = .dict entries :=
    ⟨_, back_dict _⟩
  rw [loadState_of_text htext] at hload
  simp only [WorkflowRunState.fields, List.map_cons, List.map_nil, Prod.map_apply, id_eq,
    hentries] at hload
  rw [loadData_record] at hload
  split_ifs at hload
  cases hsteps : entries.mapM loadStep with
  | error error =>
      rw [hsteps] at hload
      cases hload
  | ok steps =>
      rw [hsteps] at hload
      cases hload
      simp only [saveState, WorkflowRunState.eq, Bool.and_eq_true] at heq
      obtain ⟨⟨⟨⟨⟨⟨hworkflow, -⟩, hstatus⟩, hcurrent⟩, hequal⟩, hpayload⟩, hcreated⟩ := heq
      obtain ⟨hkept, hunique⟩ := kept_of_steps h₈ hentries hsteps hequal
      rw [pretty_str] at h₂
      exact ⟨(eq_back_iff h₁).mp hworkflow, (plainText_eq_some.mp h₂).1, (eq_back_iff h₃).mp hstatus,
        (eq_back_iff h₄).mp hcurrent, (eq_back_iff h₅).mp hcreated, (eq_back_iff h₇).mp hpayload,
        hkept, hunique⟩

lemma roundTrips_iff : RoundTrips now state ↔ state.Kept :=
  ⟨kept_of_roundTrips, WorkflowRunState.Kept.roundTrips⟩

end States

/-- After a step has succeeded the state is loaded as it was saved exactly if JSON keeps everything
in it, the value that the answer of the tool was parsed to included. -/
theorem step_round_trip_iff [RealDoubles D] (parsers : Parsers D) (state : WorkflowRunState D)
    (stepId : PyData D) (raw : PyStr) (completedAt now : String) :
    RoundTrips now (state.succeed stepId (parseOutput parsers raw) completedAt) ↔
      (state.succeed stepId (parseOutput parsers raw) completedAt).Kept :=
  roundTrips_iff

/-! ## A tuple -/

/-- `ast.literal_eval` on one text. -/
def tupleParsers : Parsers Empty where
  loadsHalves _ := none
  literalEval raw :=
    if raw = toPyStr "(1, 2)" then some (.tuple [.number (.int 1), .number (.int 2)]) else none

/-- A run whose only step is running. -/
def runningState : WorkflowRunState Empty where
  workflowId := textValue "tuples"
  sessionId := toPyStr "s"
  status := textValue "running"
  currentStepId := textValue "a"
  steps := [{ stepId := textValue "a", status := textValue "running" }]
  payload := .dict []
  createdAt := textValue "2026-01-01T00:00:00+00:00"
  updatedAt := textValue "2026-01-01T00:00:00+00:00"

/-- The output of the step is a tuple, which the file has as a list. -/
theorem tuple_comes_back_changed :
    parseOutput tupleParsers (toPyStr "(1, 2)") = .tuple [.number (.int 1), .number (.int 2)] ∧
      (PyData.tuple [.number (.int 1), .number (.int 2)] : PyData Empty).back =
        .list [.number (.int 1), .number (.int 2)] ∧
      ¬RoundTrips "2026-01-01T00:00:01+00:00" (runningState.succeed (textValue "a")
        (parseOutput tupleParsers (toPyStr "(1, 2)")) "2026-01-01T00:00:01+00:00") := by
  have hloads : loads (D := Empty) "(1, 2)".toList = none := by decide +kernel
  have hparse : parseOutput tupleParsers (toPyStr "(1, 2)") =
      .tuple [.number (.int 1), .number (.int 2)] := by
    rw [parseOutput, jsonLoads, encode_toPyStr]
    simp only [hloads]
    rfl
  refine ⟨hparse, rfl, fun h => ?_⟩
  have hkept := (kept_of_roundTrips h).steps _ List.mem_cons_self
  have houtput := hkept.output
  rw [hparse] at houtput
  simp [eq_textValue, PyData.Kept] at houtput

end AgentSystem.CheckpointFile
