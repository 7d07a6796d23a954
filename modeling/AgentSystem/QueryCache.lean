import AgentSystem.Interleaving
import AgentSystem.MemoryBackends

/-!
# The query cache

`LongTermMemoryStore` over any backend. A query looks into the cache, searches the backend and
stores what it found in three steps; the operations change the backend first and clear the cache
after that. The callers may take their steps in any order.
-/
namespace AgentSystem.Memory

open Interleaving Raft PySequence

/-- The methods of a backend, as functions of what it keeps: `none` where they raise. A deletion that
finds no record changes nothing. -/
structure Backend (β : Type) where
  read : β → String → String → Option (Option Value)
  /-- What is kept afterwards, and whether the method returns. -/
  write : β → String → String → Value → β × Bool
  delete : β → String → String → β × Option Bool
  allRecords : β → Option (List Value)
  search : β → String → Option String → ℕ → Option (List Value)
  /-- `isinstance(backend, VectorMemoryStore)` and no `sqlite_fallback`. -/
  isVector : β → Bool
  delete_missing : ∀ b sessionId key, (delete b sessionId key).2 = some false →
    search (delete b sessionId key).1 = search b ∧
      isVector (delete b sessionId key).1 = isVector b

/-! ## Queries -/

/-- The arguments of `query`. With a limit below one it raises at once. -/
structure Query where
  queryText : String
  sessionId : Option String
  limit : ℕ
  domain : Option String
  oversample : Bool
  positive : 1 ≤ limit

namespace Query

variable (q : Query)

/-- `if domain`. -/
def hasDomain : Bool := decide (q.domain.getD "" ≠ "")

def resultLimit : ℕ := min q.limit 100

def backendFetchLimit : ℕ :=
  min (q.resultLimit * if q.hasDomain || q.oversample then 3 else 1) 300

def cacheKey : String :=
  q.queryText ++ ":" ++ q.sessionId.getD "None" ++ ":" ++ toString q.resultLimit ++ ":" ++
    q.domain.getD "None" ++ ":" ++ if q.oversample then "True" else "False"

end Query

/-- `record.get("domain", "episodic") == domain`. -/
def inDomain (domain : String) (record : Value) : Bool :=
  match (record.lookup "domain").getD (.str "episodic") with
  | .str found => found = domain
  | _ => false

section Fetch

variable {β : Type} (parseQuery : String → String) (backend : Backend β)

/-- What a query finds without the cache. -/
def fetch (b : β) (q : Query) : List Value :=
  let ftsQuery :=
    if backend.isVector b then q.queryText
    else if parseQuery q.queryText = "" then q.queryText
    else parseQuery q.queryText
  let results :=
    match backend.search b ftsQuery q.sessionId q.backendFetchLimit with
    | some results => results
    | none => (backend.search b q.queryText q.sessionId q.backendFetchLimit).getD []
  let results :=
    if q.hasDomain then results.filter (inDomain (q.domain.getD "")) else results
  results.take q.resultLimit

end Fetch

/-! ## The cache -/

/-- The dictionary of `FTS5QueryCache`. -/
abbrev Cache := List (String × List Value)

namespace Cache

def maxsize : ℕ := 128

/-- `get` for a key that is in the cache: its item becomes the newest one. -/
def touch (cache : Cache) (key : String) (results : List Value) : Cache :=
  cache.filter (fun item => item.1 ≠ key) ++ [(key, results)]

def set (cache : Cache) (key : String) (results : List Value) : Cache :=
  setItem (if maxsize ≤ cache.length then cache.tail else cache) key results

end Cache

/-! ## Callers -/

/-- What `batch_move` has still to do, and whether it has moved a record. -/
structure Moves where
  items : List (String × String)
  edit : Value → Value
  moved : Bool

/-- The methods. The four that add a record under an id made from its content are one: they leave a
record that is there as it is. -/
inductive Request
  | query (q : Query)
  | add (sessionId key : String) (record : Value)
  | addRouteOutcome (sessionId key : String) (record : Value)
  | updateRecord (sessionId key : String) (edit : Value → Value)
  | batchMove (items : List (String × String)) (edit : Value → Value)
  | deleteRecord (sessionId key : String)
  | pruneExpired (now : String)

/-- Where a caller is. -/
inductive Caller
  | idle
  | answered (q : Query) (results : List Value)
  | missed (q : Query)
  | searched (q : Query) (results : List Value)
  | reading (sessionId key : String) (make : Option Value → Option Value) (moves : Option Moves)
  | writing (sessionId key : String) (record : Value) (moves : Option Moves)
  | changed (moves : Option Moves)
  | tidying
  | deleting (sessionId key : String)
  | pruning (records : List Value) (now : String) (deleted : Bool)

inductive Input
  | call (request : Request)
  | advance

structure Shared (β : Type) where
  backend : β
  cache : Cache

/-- The next item of a move that names a record, or the end of the move. -/
def nextMove (edit : Value → Value) (moved : Bool) : List (String × String) → Caller
  | [] => if moved then .tidying else .idle
  | (sessionId, key) :: items =>
      if sessionId = "" ∨ key = "" then nextMove edit moved items
      else .reading sessionId key (Option.map edit) (some ⟨items, edit, moved⟩)

def goOn : Option Moves → Caller
  | none => .idle
  | some moves => nextMove moves.edit moves.moved moves.items

/-- `record.get(name, "")`, `none` where that is no string. -/
def textOf (record : Value) (name : String) : Option String :=
  match record.lookup name with
  | none => some ""
  | some (.str text) => some text
  | some _ => none

/-- The session and the id of a record that has expired, `none` where the comparison raises. -/
def expired (now : String) (record : Value) : Option (Option (String × String)) :=
  match record.lookup "expires_at" with
  | none | some .null | some (.bool false) | some (.arr []) | some (.obj []) => some none
  | some (.num n) => if n = 0 then some none else none
  | some (.str expires) =>
      if expires ≠ "" ∧ expires < now then
        match textOf record "session_id", textOf record "id" with
        | some sessionId, some key => some (some (sessionId, key))
        | _, _ => none
      else some none
  | some _ => none

section Steps

variable {β : Type} (parseQuery : String → String) (backend : Backend β)

/-- The first step of a call. -/
def start (store : Shared β) : Request → Shared β × Caller
  | .query q =>
      match getItem store.cache q.cacheKey with
      | some results =>
          ({ store with cache := store.cache.touch q.cacheKey results }, .answered q results)
      | none => (store, .missed q)
  | .add sessionId key record =>
      (store, .reading sessionId key (fun existing => if existing.isNone then some record else none)
        none)
  | .addRouteOutcome sessionId key record => (store, .writing sessionId key record none)
  | .updateRecord sessionId key edit => (store, .reading sessionId key (Option.map edit) none)
  | .batchMove items edit => (store, nextMove edit false items)
  | .deleteRecord sessionId key => (store, .deleting sessionId key)
  | .pruneExpired now =>
      match backend.allRecords store.backend with
      | some records => (store, .pruning records now false)
      | none => (store, .idle)

/-- The next step of a call that is under way; a call that raises is over. -/
def advance (store : Shared β) : Caller → Option (Shared β × Caller)
  | .idle | .answered _ _ => none
  | .missed q => some (store, .searched q (fetch parseQuery backend store.backend q))
  | .searched q results =>
      some ({ store with cache := store.cache.set q.cacheKey results }, .answered q results)
  | .reading sessionId key make moves =>
      match backend.read store.backend sessionId key with
      | none => some (store, .idle)
      | some existing =>
          match make existing with
          | some record => some (store, .writing sessionId key record moves)
          | none => some (store, goOn moves)
  | .writing sessionId key record moves =>
      let written := backend.write store.backend sessionId key record
      some ({ store with backend := written.1 }, if written.2 then .changed moves else .idle)
  | .changed moves =>
      some ({ store with cache := [] },
        goOn (moves.map fun moves => { moves with moved := true }))
  | .tidying => some ({ store with cache := [] }, .idle)
  | .deleting sessionId key =>
      let deleted := backend.delete store.backend sessionId key
      some ({ store with backend := deleted.1 },
        if deleted.2 = some true then .changed none else .idle)
  | .pruning [] _ deleted => some (store, if deleted then .changed none else .idle)
  | .pruning (record :: records) now deleted =>
      match expired now record with
      | none => some (store, .idle)
      | some none => some (store, .pruning records now deleted)
      | some (some (sessionId, key)) =>
          let removed := backend.delete store.backend sessionId key
          some ({ store with backend := removed.1 },
            match removed.2 with
            | some existed => .pruning records now (deleted || existed)
            | none => .idle)

def next : Program Input (Shared β) Caller
  | .call request, store, .idle => some (start backend store request)
  | .call request, store, .answered _ _ => some (start backend store request)
  | .call _, _, _ => none
  | .advance, store, caller => advance parseQuery backend store caller

end Steps

end AgentSystem.Memory
