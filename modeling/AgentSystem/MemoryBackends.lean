import AgentSystem.KeyedTable
import AgentSystem.RaftEntry
import AgentSystem.StoreContract

/-!
# Memory backends

`SQLiteBackend` and `FileBackend`: what they write, read and delete. The table has the session in
its key. The files have not: a file is named by the key alone, in a directory for the domain of the
value.
-/
namespace AgentSystem.Memory

open StoreContract Raft

/-- Dictionaries that `json.loads` gives back from what `json.dumps` makes of them. -/
abbrev Value := List (String × Json)

/-! ## Session ids and keys -/

/-- `_SESSION_ID_PATTERN.fullmatch`. -/
def sessionIdPattern (sessionId : String) : Bool :=
  decide (1 ≤ sessionId.length ∧ sessionId.length ≤ 128) &&
    sessionId.toList.all fun c => c.isAlphanum || c == '_' || c == '-'

/-- `validate_session_id`, `none` when it raises. -/
def validateSessionId (sessionId : String) : Option String :=
  if sessionIdPattern sessionId then some sessionId else none

@[ext] structure SessionId where
  text : String
  valid : sessionIdPattern text = true
  deriving DecidableEq

lemma SessionId.validated (sessionId : SessionId) :
    validateSessionId sessionId.text = some sessionId.text :=
  if_pos sessionId.valid

/-- A key that is the name of one file: no separator, and no pattern that matches other names. -/
@[ext] structure Key where
  text : String
  plain : (text.toList.all fun c => !(['/', '\x00', '*', '?', '['].contains c)) = true
  deriving DecidableEq

/-! ## The table -/

/-- The columns of `memory_records` that the calls read. -/
structure MemoryRecord where
  sessionId : String
  key : String
  value : Value

/-- `PRIMARY KEY (session_id, key)`. -/
abbrev MemoryRecords := KeyedTable MemoryRecord fun record => (record.sessionId, record.key)

namespace SQLiteBackend

def write (records : MemoryRecords) (sessionId key : String) (value : Value) :
    Option MemoryRecords :=
  (validateSessionId sessionId).map fun sessionId =>
    records.upsert ⟨sessionId, key, value⟩ (fun old => { old with value := value }) fun _ => rfl

def read (records : MemoryRecords) (sessionId key : String) : Option (Option Value) :=
  (validateSessionId sessionId).map fun sessionId =>
    (records.lookup (sessionId, key)).map MemoryRecord.value

def delete (records : MemoryRecords) (sessionId key : String) : Option (MemoryRecords × Bool) :=
  (validateSessionId sessionId).map fun sessionId =>
    let found (record : MemoryRecord) := decide (record.sessionId = sessionId ∧ record.key = key)
    (records.delete found, decide (0 < records.count found))

def store : Store (SessionId × Key) Value MemoryRecords where
  write records at' value := write records at'.1.text at'.2.text value
  read records at' := read records at'.1.text at'.2.text
  delete records at' := delete records at'.1.text at'.2.text

/-- The table holds what the map says. -/
def Holds (records : MemoryRecords) (map : SessionId × Key → Option Value) : Prop :=
  ∀ at', (records.lookup (at'.1.text, at'.2.text)).map MemoryRecord.value = map at'

variable {records : MemoryRecords} {map : SessionId × Key → Option Value}

lemma holds_empty : Holds KeyedTable.empty fun _ => none := fun _ => rfl

lemma text_inj {a b : SessionId × Key} :
    (a.1.text, a.2.text) = (b.1.text, b.2.text) ↔ a = b := by
  rw [Prod.ext_iff, Prod.ext_iff, SessionId.ext_iff, Key.ext_iff]

lemma deleted_iff (h : Holds records map) (at' : SessionId × Key) :
    0 < records.count (fun record =>
      decide (record.sessionId = at'.1.text ∧ record.key = at'.2.text)) ↔
      (map at').isSome := by
  rw [← h at', Option.isSome_map, Option.isSome_iff_exists, KeyedTable.count, List.countP_pos_iff]
  simp only [KeyedTable.lookup_eq_some, decide_eq_true_eq, Prod.mk.injEq]

/-- Every call leaves a table that holds what the contract says, and replies the same. -/
lemma step_contract (call : Call (SessionId × Key) Value) (h : Holds records map) :
    (store.step records call).2 = (contract.step map call).2 ∧
      Holds (store.step records call).1 (contract.step map call).1 := by
  cases call with
  | write at' value =>
      simp only [Store.step, store, write, SessionId.validated, Option.map_some, contract, true_and]
      intro other
      rw [KeyedTable.lookup_upsert]
      by_cases hother : at' = other
      · subst hother
        rw [if_pos rfl, Function.update_self]
        cases records.lookup (at'.1.text, at'.2.text) <;> rfl
      · rw [if_neg (mt text_inj.mp hother), Function.update_of_ne (Ne.symm hother), h other]
  | read at' =>
      refine ⟨?_, h⟩
      simp only [Store.step, store, read, SessionId.validated, Option.map_some, contract, h at']
  | delete at' =>
      simp only [Store.step, store, delete, SessionId.validated, Option.map_some, contract]
      constructor
      · have hexisted := decide_eq_true_iff.trans (deleted_iff h at')
        exact congrArg Reply.deleted (Bool.eq_iff_iff.mpr hexisted)
      · intro other
        rw [KeyedTable.lookup_delete]
        by_cases hother : at' = other
        · subst hother
          rw [Function.update_self]
          cases hlookup : records.lookup (at'.1.text, at'.2.text) with
          | none => rfl
          | some record =>
              have hkey := (KeyedTable.lookup_eq_some.mp hlookup).2
              rw [Prod.mk.injEq] at hkey
              simp [hkey]
        · rw [Function.update_of_ne (Ne.symm hother), ← h other]
          cases hlookup : records.lookup (other.1.text, other.2.text) with
          | none => rfl
          | some record =>
              have hkey := (KeyedTable.lookup_eq_some.mp hlookup).2
              rw [Prod.mk.injEq] at hkey
              have hne : ¬ (other.1.text = at'.1.text ∧ other.2.text = at'.2.text) := by
                rw [← Prod.mk.injEq]
                exact mt text_inj.mp (Ne.symm hother)
              rw [not_and_or] at hne
              simpa [hkey] using hne

end SQLiteBackend

/-! ## The files -/

inductive Directory
  | memory
  | episodic
  | semantic
  | handoff
  deriving DecidableEq

/-- The directory for the domain of a value. -/
def targetDir (value : Value) : Directory :=
  match (value.lookup "domain").getD (.str "episodic") with
  | .str domain =>
      if domain = "episodic" then .episodic
      else if domain = "semantic" ∨ domain = "preference" then .semantic
      else if domain = "handoff" then .handoff
      else .memory
  | _ => .memory

/-- The dictionary in the file of a key, for each directory. -/
abbrev Files := Directory → Key → Option Value

/-- The order in which `rglob` comes to the directories. -/
structure ScanOrder where
  dirs : List Directory
  complete : ∀ dir, dir ∈ dirs

namespace FileBackend

variable (scan : Files → ScanOrder)

def write (files : Files) (_sessionId : SessionId) (key : Key) (value : Value) : Files :=
  Function.update files (targetDir value)
    (Function.update (files (targetDir value)) key (some value))

def read (files : Files) (_sessionId : SessionId) (key : Key) : Option Value :=
  (scan files).dirs.findSome? fun dir => files dir key

def delete (files : Files) (_sessionId : SessionId) (key : Key) : Files × Bool :=
  (fun dir => Function.update (files dir) key none,
    (scan files).dirs.any fun dir => (files dir key).isSome)

def store : Store (SessionId × Key) Value Files where
  write files at' value := some (write files at'.1 at'.2 value)
  read files at' := some (read scan files at'.1 at'.2)
  delete files at' := some (delete scan files at'.1 at'.2)

/-- A key has at most one file, and that is the one of the only session with a value. -/
def Mirrors (file : Directory → Option Value) (stored : SessionId → Option Value) : Prop :=
  ((∀ dir, file dir = none) ∧ ∀ sessionId, stored sessionId = none) ∨
    ∃ owner value, stored owner = some value ∧
      (∀ sessionId, sessionId ≠ owner → stored sessionId = none) ∧
      ∀ dir, file dir = if dir = targetDir value then some value else none

def Holds (files : Files) (map : SessionId × Key → Option Value) : Prop :=
  ∀ key, Mirrors (files · key) fun sessionId => map (sessionId, key)

/-- No other session has a value under the key, and a value stays in its directory. -/
def Undisturbed (map : SessionId × Key → Option Value) (call : Call (SessionId × Key) Value) :
    Prop :=
  (∀ sessionId, sessionId ≠ call.key.1 → map (sessionId, call.key.2) = none) ∧
    ∀ at' value, call = .write at' value → ∀ old, map at' = some old →
      targetDir old = targetDir value

variable {scan} {files : Files} {map : SessionId × Key → Option Value}

lemma holds_empty : Holds (fun _ _ => none) fun _ => none :=
  fun _ => .inl ⟨fun _ => rfl, fun _ => rfl⟩

/-- What a session that is not disturbed finds is its own value. -/
lemma Mirrors.read_eq {file : Directory → Option Value} {stored : SessionId → Option Value}
    (h : Mirrors file stored) {sessionId : SessionId}
    (hothers : ∀ other, other ≠ sessionId → stored other = none) (order : ScanOrder) :
    order.dirs.findSome? file = stored sessionId := by
  rcases h with ⟨hfile, hstored⟩ | ⟨owner, value, howner, -, hfile⟩
  · rw [hstored, List.findSome?_eq_none_iff]
    exact fun dir _ => hfile dir
  · have hsame : owner = sessionId := by
      by_contra hne
      rw [hothers owner hne] at howner
      cases howner
    subst hsame
    have hfound : (order.dirs.findSome? file).isSome := by
      rw [List.findSome?_isSome_iff]
      exact ⟨targetDir value, order.complete _, by rw [hfile, if_pos rfl]; rfl⟩
    obtain ⟨found, hsearch⟩ := Option.isSome_iff_exists.mp hfound
    obtain ⟨dir, -, hdir⟩ := List.exists_of_findSome?_eq_some hsearch
    rw [hfile] at hdir
    split_ifs at hdir
    rw [hsearch, howner, hdir]

/-- A session that is not disturbed finds out whether it has a value. -/
lemma Mirrors.any_eq {file : Directory → Option Value} {stored : SessionId → Option Value}
    (h : Mirrors file stored) {sessionId : SessionId}
    (hothers : ∀ other, other ≠ sessionId → stored other = none) (order : ScanOrder) :
    (order.dirs.any fun dir => (file dir).isSome) = (stored sessionId).isSome := by
  rw [← h.read_eq hothers order, Bool.eq_iff_iff, List.any_eq_true, List.findSome?_isSome_iff]

lemma write_apply (sessionId : SessionId) (key other : Key) (value : Value) (dir : Directory) :
    write files sessionId key value dir other =
      if other = key ∧ dir = targetDir value then some value else files dir other := by
  unfold write
  by_cases hdir : dir = targetDir value
  · subst hdir
    by_cases hkey : other = key
    · simp [hkey]
    · simp [hkey]
  · simp [hdir]

/-- A value that stays in its directory replaces the one before. -/
lemma Mirrors.write {file : Directory → Option Value} {stored : SessionId → Option Value}
    (h : Mirrors file stored) {sessionId : SessionId}
    (hothers : ∀ other, other ≠ sessionId → stored other = none) {value : Value}
    (hstays : ∀ old, stored sessionId = some old → targetDir old = targetDir value) :
    Mirrors (fun dir => if dir = targetDir value then some value else file dir)
      (Function.update stored sessionId (some value)) := by
  refine .inr ⟨sessionId, value, Function.update_self .., fun other hother => ?_, fun dir => ?_⟩
  · rw [Function.update_of_ne hother, hothers other hother]
  · dsimp only
    by_cases hdir : dir = targetDir value
    · rw [if_pos hdir, if_pos hdir]
    · rw [if_neg hdir, if_neg hdir]
      rcases h with ⟨hfile, -⟩ | ⟨owner, old, howner, -, hfile⟩
      · exact hfile dir
      · have hsame : owner = sessionId := by
          by_contra hne
          rw [hothers owner hne] at howner
          cases howner
        rw [hfile, hstays old (hsame ▸ howner), if_neg hdir]

/-- A call of a session that is not disturbed leaves files that hold what the contract says, and
replies the same. -/
lemma step_contract (call : Call (SessionId × Key) Value) (h : Holds files map)
    (hcall : Undisturbed map call) :
    ((store scan).step files call).2 = (contract.step map call).2 ∧
      Holds ((store scan).step files call).1 (contract.step map call).1 := by
  obtain ⟨hothers, hstays⟩ := hcall
  cases call with
  | write at' value =>
      refine ⟨rfl, fun key => ?_⟩
      by_cases hkey : key = at'.2
      · subst hkey
        have hwritten := (h at'.2).write hothers (hstays at' value rfl)
        convert hwritten using 1
        · funext dir
          simp [Store.step, store, write_apply]
        · funext other
          simp [Store.step, contract, Call.key, Function.update_apply, Prod.ext_iff]
      · have hother (sessionId : SessionId) : (sessionId, key) ≠ at' := fun h => hkey (h ▸ rfl)
        convert h key using 1
        · funext dir
          simp [Store.step, store, write_apply, hkey]
        · funext sessionId
          exact Function.update_of_ne (hother sessionId) _ _
  | read at' =>
      refine ⟨?_, h⟩
      simp only [Store.step, store, read, contract, (h at'.2).read_eq hothers]
      rfl
  | delete at' =>
      constructor
      · exact congrArg Reply.deleted ((h at'.2).any_eq hothers (scan files))
      · intro key
        by_cases hkey : key = at'.2
        · subst hkey
          refine .inl ⟨fun dir => Function.update_self .., fun other => ?_⟩
          by_cases hsame : other = at'.1
          · subst hsame
            exact Function.update_self ..
          · refine (Function.update_of_ne (fun h => hsame ?_) _ _).trans (hothers other hsame)
            rw [← h]
        · have hother (sessionId : SessionId) : (sessionId, key) ≠ at' :=
            fun h => hkey (h ▸ rfl)
          convert h key using 1
          · funext dir
            exact Function.update_of_ne hkey _ _
          · funext sessionId
            exact Function.update_of_ne (hother sessionId) _ _

end FileBackend

/-! ## Both backends -/

section Runs

variable (scan : Files → ScanOrder) (calls : List (Call (SessionId × Key) Value))

/-- The table replies what the contract says to all calls, and the files do if no session uses a key
under which another one has a value and no value changes its directory. -/
theorem backends_contract :
    SQLiteBackend.store.replies KeyedTable.empty calls = contract.replies (fun _ => none) calls ∧
      (contract.Throughout FileBackend.Undisturbed (fun _ => none) calls →
        (FileBackend.store scan).replies (fun _ _ => none) calls =
          contract.replies (fun _ => none) calls) := by
  constructor
  · have hcalls : contract.Throughout (fun _ _ => True) (fun _ => none) calls :=
      Store.throughout_true
    apply Store.replies_eq _ SQLiteBackend.holds_empty hcalls
    exact fun _ _ call h _ => SQLiteBackend.step_contract call h
  · apply Store.replies_eq _ FileBackend.holds_empty
    exact fun _ _ call h hcall => FileBackend.step_contract call h hcall

end Runs

/-! ## A key of two sessions -/

def alice : SessionId := ⟨"alice", by decide +kernel⟩

def bob : SessionId := ⟨"bob", by decide +kernel⟩

def semanticKey : Key := ⟨"sem-0123456789abcdef", by decide +kernel⟩

def topDown : ScanOrder where
  dirs := [.memory, .episodic, .semantic, .handoff]
  complete dir := by cases dir <;> decide

def knowledge : Value := [("session_id", .str "alice"), ("domain", .str "semantic")]

/-- A session that writes, reads and deletes under a key of its own. -/
theorem own_key_replies :
    (FileBackend.store fun _ => topDown).replies (fun _ _ => none)
        [.write (alice, semanticKey) knowledge, .read (alice, semanticKey),
          .delete (alice, semanticKey), .read (bob, semanticKey)] =
      contract.replies (fun _ => none)
        [.write (alice, semanticKey) knowledge, .read (alice, semanticKey),
          .delete (alice, semanticKey), .read (bob, semanticKey)] := by
  apply (backends_contract (fun _ => topDown) _).2
  simp +contextual [Store.Throughout, contract, Store.step, FileBackend.Undisturbed, Call.key,
    Function.update_apply, Prod.ext_iff]

/-- The files know nothing of sessions: what one session wrote is read by another one. -/
theorem other_session_read :
    (FileBackend.store fun _ => topDown).replies (fun _ _ => none)
        [.write (alice, semanticKey) knowledge, .read (bob, semanticKey)] ≠
      contract.replies (fun _ => none)
        [.write (alice, semanticKey) knowledge, .read (bob, semanticKey)] := by
  have hfiles : (FileBackend.store fun _ => topDown).replies (fun _ _ => none)
      [.write (alice, semanticKey) knowledge, .read (bob, semanticKey)] =
      [.written, .found (some knowledge)] := by
    rfl
  have hcontract : contract.replies (fun _ => none)
      [.write (alice, semanticKey) knowledge, .read (bob, semanticKey)] =
      [.written, .found none] := by
    rfl
  rw [hfiles, hcontract]
  simp

end AgentSystem.Memory
