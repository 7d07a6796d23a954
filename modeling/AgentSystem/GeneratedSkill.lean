import AgentSystem.SyntaxTree

/-!
# Generated skills

`validate_generated_skill` on the syntax tree of a module, and how a module that it accepts comes to a blocked
function.
-/
namespace AgentSystem.GeneratedSkill

open SyntaxTree

/-- What is read of a node; any other node has its class. A name or attribute is loaded, or else stored. -/
inductive Kind
  | name (id : String) (loaded : Bool)
  | attribute (attr : String) (loaded : Bool)
  | call
  | constant (text : Option String)
  | importNames (names : List String)
  | importFrom (module : Option String) (names : List String)
  | classDef (name : String)
  | functionDef (name : String)
  | arg (name : String)
  | other (kind : String)
  deriving DecidableEq

abbrev Tree := Node Kind

/-- The module with these statements. -/
def moduleNode (body : List Tree) : Tree := .node (.other "Module") (body.map fun node => ("body", node))

/-! ## The validator -/

inductive SkillError
  | restrictedImport
  | privateImport
  | unsafeCall (name : String)
  | privateAttribute
  | privateName
  | noModel
  | noFunction
  deriving DecidableEq

def allowedImports : List String := ["pydantic", "typing", "typing_extensions"]

def blockedCalls : List String := ["eval", "exec", "compile", "system", "popen", "run", "__import__"]

/-- `name.startswith("_")`. -/
def isPrivate (name : String) : Bool := name.toList.head? = some '_'

/-- `name.startswith("__")`. -/
def isDunder (name : String) : Bool := name.toList.take 2 = ['_', '_']

/-- `root.split(".")[0] in allowed_imports`. -/
def isAllowed (root : String) : Bool :=
  allowedImports.any fun allowed => allowed.toList = root.toList.takeWhile (· ≠ '.')

def checkImport (module : Option String) (names : List String) : Except SkillError Unit :=
  let roots := if module.getD "" = "" then names else module.toList
  if roots.any fun root => root ≠ "" && !isAllowed root then .error .restrictedImport
  else if names.any isPrivate then .error .privateImport
  else .ok ()

/-- `call_name`. -/
def callName (node : Tree) : String :=
  match (node.field "func").map Node.kind with
  | some (.name id _) => id
  | some (.attribute attr _) => attr
  | _ => ""

/-- The checks on one node of the walk. -/
def checkNode (node : Tree) : Except SkillError Unit :=
  match node.kind with
  | .importNames names => checkImport none names
  | .importFrom module names => checkImport module names
  | .call => if callName node ∈ blockedCalls then .error (.unsafeCall (callName node)) else .ok ()
  | .attribute attr _ => if isPrivate attr then .error .privateAttribute else .ok ()
  | .name id _ => if isDunder id then .error .privateName else .ok ()
  | _ => .ok ()

def checkNodes : List Tree → Except SkillError Unit
  | [] => .ok ()
  | node :: nodes => do
      checkNode node
      checkNodes nodes

def isName (id : String) (node : Tree) : Bool :=
  match node.kind with
  | .name other _ => other = id
  | _ => false

/-- The annotation of the first parameter. -/
def annotationOf (node : Tree) : Option Tree :=
  ((node.field "args").bind (Node.field · "args")).bind (Node.field · "annotation")

structure Found where
  modelName : String := ""
  hasFunction : Bool := false

/-- The turn of a statement in the second loop. -/
def Found.inspect (found : Found) (node : Tree) : Found :=
  match node.kind with
  | .classDef name =>
      if (node.fields "bases").any (isName "BaseModel") then { found with modelName := name } else found
  | .functionDef name =>
      if !isPrivate name && (annotationOf node).any (isName found.modelName) then
        { found with hasFunction := true }
      else found
  | _ => found

/-- `validate_generated_skill` on the statements of the module, with the name of the model. -/
def validateGeneratedSkill (body : List Tree) : Except SkillError String := do
  checkNodes (walk (moduleNode body))
  let found := body.foldl Found.inspect {}
  if found.modelName = "" then .error .noModel
  else if !found.hasFunction then .error .noFunction
  else .ok found.modelName

/-! ## Functions that a module may come to -/

def blockedFunctions : List String := ["eval", "exec", "compile", "__import__"]

/-- `getattr` with the name of the function in a string. -/
def GetsFunction (node : Tree) (f : String) : Prop :=
  node.kind = .call ∧ callName node = "getattr" ∧
    (node.fields "args")[1]?.map Node.kind = some (.constant (some f))

/-- The node itself names the function. -/
def NamesFunction (node : Tree) (f : String) : Prop :=
  node.kind = .name f true ∨ node.kind = .attribute f true ∨ GetsFunction node f

/-- The node gives values to this name: it defines it, or stores to it in one of its parts. -/
def Binds (binder : Tree) (x : String) : Prop :=
  binder.kind = .functionDef x ∨ binder.kind = .classDef x ∨
    ∃ target ∈ walk binder, target.kind = .name x false ∨ target.kind = .attribute x false ∨ target.kind = .arg x

/-- The value of the node may be the function, or be built of it: the node names it, or one of its parts may be
the function, or the node reads what a binder stores or a call passes. -/
inductive MayDenote (root : Tree) : Tree → String → Prop
  | named {node : Tree} {f : String} (h : NamesFunction node f) : MayDenote root node f
  | part {node child : Tree} {f : String} (hchild : child ∈ node.childNodes) (h : MayDenote root child f) :
      MayDenote root node f
  | bound {node binder value : Tree} {x f : String} (hbinder : binder ∈ walk root) (hbinds : Binds binder x)
      (hvalue : value ∈ binder.childNodes) (h : MayDenote root value f)
      (hnode : node.kind = .name x true ∨ node.kind = .attribute x true) : MayDenote root node f
  | passed {node call value param : Tree} {x f : String} (hcall : call ∈ walk root) (hkind : call.kind = .call)
      (hvalue : value ∈ call.childNodes) (h : MayDenote root value f) (hparam : param ∈ walk root)
      (hx : param.kind = .arg x) (hnode : node.kind = .name x true) : MayDenote root node f

/-- `eval`, `exec` and `compile` are read nowhere but as the function of a call, and no string of a `getattr` is
the name of a blocked function. -/
structure OnlyCalled (root : Tree) : Prop where
  names : ∀ parent ∈ walk root, ∀ child ∈ parent.childNodes,
    ¬ (parent.kind = .call ∧ parent.field "func" = some child) →
      ∀ f ∈ ["eval", "exec", "compile"], child.kind ≠ .name f true ∧ child.kind ≠ .attribute f true
  strings : ∀ node ∈ walk root, ∀ f ∈ blockedFunctions, ¬ GetsFunction node f

variable {root node : Tree} {f : String}

/-- What may be the function comes from a node that names it. -/
lemma MayDenote.exists_named (h : MayDenote root node f) (hnode : node ∈ walk root) :
    ∃ source ∈ walk root, NamesFunction source f := by
  induction h with
  | named hnames => exact ⟨_, hnode, hnames⟩
  | part hchild _ ih => exact ih (mem_walk_child hnode hchild)
  | bound hbinder _ hvalue _ _ ih => exact ih (mem_walk_child hbinder hvalue)
  | passed hcall _ hvalue _ _ _ _ ih => exact ih (mem_walk_child hcall hvalue)

lemma checkNodes_ok {nodes : List Tree} (h : checkNodes nodes = .ok ()) : ∀ node ∈ nodes, checkNode node = .ok () := by
  induction nodes with
  | nil => nofun
  | cons node nodes ih =>
    rw [checkNodes] at h
    cases hfirst : checkNode node with
    | error error =>
      rw [hfirst] at h
      cases h
    | ok _ =>
      rw [hfirst] at h
      exact List.forall_mem_cons.mpr ⟨hfirst, ih h⟩

lemma accepted_checked {body : List Tree} {modelName : String}
    (h : validateGeneratedSkill body = .ok modelName) :
    ∀ node ∈ walk (moduleNode body), checkNode node = .ok () := by
  rw [validateGeneratedSkill] at h
  cases hchecks : checkNodes (walk (moduleNode body)) with
  | error error =>
    rw [hchecks] at h
    cases h
  | ok _ => exact checkNodes_ok hchecks

/-- A call that passes its check has no blocked function. -/
lemma callName_of_checked (hkind : node.kind = .call) (h : checkNode node = .ok ()) :
    callName node ∉ blockedCalls := by
  intro hblocked
  rw [checkNode, hkind] at h
  dsimp only at h
  rw [if_pos hblocked] at h
  cases h

lemma not_import_of_checked (h : checkNode node = .ok ()) (loaded : Bool) :
    node.kind ≠ .name "__import__" loaded ∧ node.kind ≠ .attribute "__import__" loaded := by
  constructor
  · intro hkind
    rw [checkNode, hkind] at h
    cases h
  · intro hkind
    rw [checkNode, hkind] at h
    cases h

/-- The function of a call is no blocked function, and a module that is accepted names none elsewhere. -/
lemma not_named_outside {body : List Tree} {modelName : String}
    (h : validateGeneratedSkill body = .ok modelName)
    (hnames : ∀ parent ∈ walk (moduleNode body), ∀ child ∈ parent.childNodes,
      ¬ (parent.kind = .call ∧ parent.field "func" = some child) →
        ∀ f ∈ ["eval", "exec", "compile"], child.kind ≠ .name f true ∧ child.kind ≠ .attribute f true)
    {source : Tree} (hsource : source ∈ walk (moduleNode body)) (hf : f ∈ blockedFunctions)
    (hkind : source.kind = .name f true ∨ source.kind = .attribute f true) : False := by
  have hchecked := accepted_checked h
  have hne : source ≠ moduleNode body := by
    rintro rfl
    rcases hkind with hname | hattribute
    · cases hname
    · cases hattribute
  obtain ⟨parent, hparent, hchild⟩ := exists_parent hsource hne
  by_cases hcallee : parent.kind = .call ∧ parent.field "func" = some source
  · have hcall : callName parent = f := by
      unfold callName
      rw [hcallee.2, Option.map_some]
      rcases hkind with hname | hattribute
      · rw [hname]
      · rw [hattribute]
    apply callName_of_checked hcallee.1 (hchecked parent hparent)
    rw [hcall]
    revert hf
    simp only [blockedFunctions, blockedCalls, List.mem_cons]
    tauto
  · have himport : f ≠ "__import__" := by
      rintro rfl
      obtain ⟨hname, hattribute⟩ := not_import_of_checked (hchecked source hsource) true
      exact hkind.elim hname hattribute
    have hothers : f ∈ ["eval", "exec", "compile"] := by
      revert hf himport
      simp only [blockedFunctions, List.mem_cons]
      tauto
    obtain ⟨hname, hattribute⟩ := hnames parent hparent source hchild hcallee f hothers
    exact hkind.elim hname hattribute

def nameNode (id : String) (loaded : Bool) : Tree := .node (.name id loaded) []

/-- `class Args(BaseModel): pass`. -/
def modelClass : Tree :=
  .node (.classDef "Args") [("bases", nameNode "BaseModel" true), ("body", .node (.other "Pass") [])]

/-- `def skill(args: Args): return value`. -/
def skillFunction (value : Tree) : Tree :=
  .node (.functionDef "skill")
    [("args", .node (.other "arguments") [("args", .node (.arg "args") [("annotation", nameNode "Args" true)])]),
     ("body", .node (.other "Return") [("value", value)])]

/-- A module without calls that reads no blocked function. -/
lemma onlyCalled_of_unread (h : ∀ node ∈ walk root, node.kind ≠ .call ∧
    ∀ f ∈ blockedFunctions, node.kind ≠ .name f true ∧ node.kind ≠ .attribute f true) : OnlyCalled root where
  names parent hparent child hchild _ f hf := by
    refine (h child (mem_walk_child hparent hchild)).2 f ?_
    revert hf
    simp only [blockedFunctions, List.mem_cons]
    tauto
  strings node hnode _ _ hgets := (h node hnode).1 hgets.1

def plainSkill : List Tree := [modelClass, skillFunction (nameNode "args" true)]

/-- `e = eval`. -/
def evalAlias : Tree :=
  .node (.other "Assign") [("targets", nameNode "e" false), ("value", nameNode "eval" true)]

/-- `e(args)`. -/
def aliasCall : Tree := .node .call [("func", nameNode "e" true), ("args", nameNode "args" true)]

def aliasSkill : List Tree := [modelClass, evalAlias, skillFunction aliasCall]

end AgentSystem.GeneratedSkill
