import AgentSystem.CheckpointFile

/-!
# The working memory of a session

`MemoryManager` keeps the last twenty exchanges of a session in a JSON file. When the window rolls,
the end of an agent loop hands what is in it to the long-term memory.
-/
namespace AgentSystem.WorkingMemory

open Json PySequence CheckpointFile

variable {D : Type} [Doubles D]

/-! ## The memory manager -/

/-- `items.get(key)` of a dictionary, whose keys are strings. -/
def get (items : List (PyData D × PyData D)) (key : String) : Option (PyData D) :=
  items.findSome? fun item =>
    match item.1 with
    | .str s => if s = toPyStr key then some item.2 else none
    | _ => none

/-- `items[key] = value`. -/
def set (items : List (PyData D × PyData D)) (key : String) (value : PyData D) :
    List (PyData D × PyData D) :=
  if (get items key).isSome then
    items.map fun item =>
      match item.1 with
      | .str s => if s = toPyStr key then (item.1, value) else item
      | _ => item
  else items ++ [(textValue key, value)]

/-- `load`: what stands in the file, `{}` when it is no JSON. -/
def load (file : List Char) : PyData D :=
  match loads file with
  | some value => fromJson value
  | none => .dict []

structure Exchange where
  timestamp : PyStr
  user : PyStr
  assistant : PyStr
  deriving DecidableEq

def Exchange.data (e : Exchange) : PyData D :=
  record [("timestamp", .str e.timestamp), ("user", .str e.user), ("assistant", .str e.assistant)]

/-- `memory.get("conversations", [])`; `none` raises for a value that is no list. -/
def conversations (items : List (PyData D × PyData D)) : Option (List (PyData D)) :=
  match get items "conversations" with
  | none => some []
  | some (.list entries) => some entries
  | some _ => none

/-- `append_conversation`: whether the window rolled, and the file; `none` when it raises. -/
def appendConversation (e : Exchange) (file : List Char) : Option (Bool × List Char) :=
  match load (D := D) file with
  | .dict items =>
      (conversations items).bind fun entries =>
        let appended := entries ++ [e.data]
        let limitReached := decide (20 < appended.length)
        let kept := if limitReached then sliceFrom appended (-20) else appended
        (pretty 0 (.dict (set items "conversations" (.list kept)))).map (limitReached, ·)
  | _ => none

/-- `get_recent_context`. -/
def getRecentContext (n : ℕ) (file : List Char) : Option (List (PyData D)) :=
  match load file with
  | .dict items => (conversations items).map fun entries => sliceFrom entries (-n)
  | _ => none

/-! ## The end of an agent loop -/

/-- The file of a session, and the messages of the calls of `add_session_summary`. -/
structure Session (D : Type) where
  file : List Char
  passed : List (List (PyData D))

/-- A new session, whose file is written as `{}`. -/
def newSession : Session D where
  file := ['\x7b', '\x7d']
  passed := []

/-- `_on_memory_limit_reached`; an exception of the long-term memory is logged. -/
def onMemoryLimitReached (longTermMemory : Bool) (messages : List (PyData D)) (s : Session D) :
    Session D :=
  if longTermMemory then { s with passed := s.passed ++ [messages] } else s

/-- The memory part of the `finally` block of a loop; `none` when it raises. -/
def finishLoop (longTermMemory : Bool) (s : Session D) (e : Exchange) : Option (Session D) :=
  (appendConversation (D := D) e s.file).bind fun result =>
    if result.1 then
      (getRecentContext 20 result.2).map fun messages =>
        onMemoryLimitReached longTermMemory messages { s with file := result.2 }
    else some { s with file := result.2 }

/-- The session after its agent loops, one at a time. -/
def finishLoops (longTermMemory : Bool) (es : List Exchange) : Option (Session D) :=
  es.foldlM (finishLoop longTermMemory) newSession

/-! ## What the file holds -/

/-- The memory with these entries. -/
def memoryOf (entries : List (PyData D)) : PyData D := record [("conversations", .list entries)]

/-- What a new file holds, or one that was written with these entries. -/
def Holds (file : List Char) (entries : List (PyData D)) : Prop :=
  load (D := D) file = .dict [] ∧ entries = [] ∨ load file = memoryOf entries

lemma data_back (e : Exchange) : (e.data (D := D)).back = e.data :=
  record_back (by decide : ["timestamp", "user", "assistant"].Nodup)

/-- What is written of exchanges is read as it was. -/
lemma load_memoryOf {es : List Exchange} {text : List Char}
    (h : pretty 0 (memoryOf (D := D) (es.map Exchange.data)) = some text) :
    load text = memoryOf (D := D) (es.map Exchange.data) := by
  have hentries : (PyData.list (es.map (Exchange.data (D := D)))).back =
      .list (es.map Exchange.data) := by
    rw [back_list, List.map_map]
    exact congrArg PyData.list (List.map_congr_left fun e _ => data_back e)
  unfold load
  rw [loads_pretty h]
  change (memoryOf (D := D) (es.map Exchange.data)).back = _
  unfold memoryOf
  rw [record_back (by simp)]
  exact congrArg (fun value => record [("conversations", value)]) hentries

/-- The last twenty entries. -/
def window {α : Type*} (xs : List α) : List α := xs.drop (xs.length - 20)

omit [Doubles D] in
lemma window_eq (xs : List (PyData D)) :
    (if decide (20 < xs.length) = true then sliceFrom xs (-20) else xs) = window xs := by
  unfold window
  by_cases h : 20 < xs.length
  · rw [if_pos (decide_eq_true h), sliceFrom, if_neg (by decide)]
    congr 1
    omega
  · rw [if_neg (by simpa using h), Nat.sub_eq_zero_of_le (not_lt.mp h), List.drop_zero]

lemma window_map {α β : Type*} (f : α → β) (xs : List α) : window (xs.map f) = (window xs).map f := by
  unfold window
  rw [List.length_map, List.map_drop]

/-- The window over a longer list is the window over what it kept. -/
lemma window_append {α : Type*} (xs : List α) (x : α) : window (window xs ++ [x]) = window (xs ++ [x]) := by
  unfold window
  simp only [List.length_append, List.length_drop, List.length_singleton]
  rw [List.drop_append_of_le_length (by simp), List.drop_append_of_le_length (by omega),
    List.drop_drop]
  congr 2
  omega

lemma length_window {α : Type*} (xs : List α) : (window xs).length = min xs.length 20 := by
  unfold window
  rw [List.length_drop]
  omega

/-- The entries of a file, and how it is written with others. -/
lemma Holds.entries {file : List Char} {entries : List (PyData D)} (h : Holds file entries) :
    ∃ items, load file = .dict items ∧ conversations items = some entries ∧
      ∀ others, PyData.dict (set items "conversations" (.list others)) = memoryOf others := by
  rcases h with ⟨hload, rfl⟩ | hload
  · exact ⟨[], hload, rfl, fun _ => rfl⟩
  · refine ⟨_, hload, ?_, fun others => ?_⟩
    · simp [conversations, get, textValue]
    · simp [set, get, textValue, memoryOf, record]

/-- One append: the window rolls from the twenty-first exchange on. -/
lemma appendConversation_spec {es : List Exchange} {e : Exchange} {file file' : List Char}
    {limitReached : Bool} (hfile : Holds (D := D) file ((window es).map Exchange.data))
    (h : appendConversation (D := D) e file = some (limitReached, file')) :
    limitReached = decide (20 ≤ es.length) ∧
      load file' = memoryOf (D := D) ((window (es ++ [e])).map Exchange.data) := by
  obtain ⟨items, hload, hentries, hset⟩ := hfile.entries
  have happended : (window es).map Exchange.data ++ [e.data (D := D)] =
      (window es ++ [e]).map Exchange.data := by
    rw [List.map_append]
    rfl
  unfold appendConversation at h
  rw [hload] at h
  dsimp only at h
  rw [hentries, Option.bind_some, happended, window_eq, window_map, window_append, hset,
    Option.map_eq_some_iff] at h
  obtain ⟨text, htext, heq⟩ := h
  rw [Prod.mk.injEq] at heq
  obtain ⟨rfl, rfl⟩ := heq
  refine ⟨?_, load_memoryOf htext⟩
  simp only [List.length_map, List.length_append, length_window, List.length_singleton,
    decide_eq_decide]
  omega

lemma getRecentContext_spec {file : List Char} {entries : List (PyData D)}
    (h : load file = memoryOf entries) (hlength : entries.length ≤ 20) :
    getRecentContext 20 file = some entries := by
  obtain ⟨items, hload, hentries, -⟩ := Holds.entries (.inr h)
  unfold getRecentContext
  rw [hload]
  dsimp only
  rw [hentries, Option.map_some, sliceFrom, if_neg (by decide)]
  have hall : (entries.length + -((20 : ℕ) : ℤ)).toNat = 0 := by omega
  rw [hall, List.drop_zero]

/-! ## All loops of a session -/

/-- What a session holds and has handed on after its loops. -/
structure Reached (longTermMemory : Bool) (es : List Exchange) (s : Session D) : Prop where
  holds : Holds (D := D) s.file ((window es).map Exchange.data)
  passed : ∀ value, (∃ messages ∈ s.passed, value ∈ messages) ↔
    longTermMemory = true ∧ 20 < es.length ∧ value ∈ es.tail.map Exchange.data

/-- Behind twenty exchanges, the window is what the exchanges behind the first end with. -/
lemma window_append_tail {es : List Exchange} (h : 20 ≤ es.length) (e : Exchange) :
    window (es ++ [e]) = (es.tail ++ [e]).drop (es.length - 20) := by
  have hne : es ≠ [] := by
    rintro rfl
    exact absurd h (by decide)
  unfold window
  rw [← List.tail_append_of_ne_nil hne, List.drop_tail, List.length_append, List.length_singleton]
  congr 1
  omega

omit [Doubles D] in
/-- The messages of the twenty-first and of later loops cover all exchanges behind the first. -/
lemma mem_covered {es : List Exchange} (h : 20 ≤ es.length) (e : Exchange) (value : PyData D) :
    (20 < es.length ∧ value ∈ es.tail.map Exchange.data) ∨
        value ∈ (window (es ++ [e])).map Exchange.data ↔
      value ∈ (es ++ [e]).tail.map Exchange.data := by
  have hne : es ≠ [] := by
    rintro rfl
    exact absurd h (by decide)
  rw [window_append_tail h, List.tail_append_of_ne_nil hne]
  constructor
  · rintro (⟨-, hmem⟩ | hmem)
    · rw [List.map_append]
      exact List.mem_append_left _ hmem
    · exact List.map_subset _ (List.drop_subset _ _) hmem
  · intro hmem
    rcases h.lt_or_eq with hmore | hexact
    · rw [List.map_append, List.mem_append] at hmem
      rcases hmem with hmem | hmem
      · exact .inl ⟨hmore, hmem⟩
      · refine .inr ?_
        rw [List.drop_append_of_le_length (by rw [List.length_tail]; omega), List.map_append]
        exact List.mem_append_right _ hmem
    · refine .inr ?_
      rwa [← hexact, Nat.sub_self, List.drop_zero]

lemma Reached.finishLoop {longTermMemory : Bool} {es : List Exchange} {s s' : Session D}
    {e : Exchange} (h : Reached longTermMemory es s)
    (hfinish : finishLoop longTermMemory s e = some s') :
    Reached longTermMemory (es ++ [e]) s' := by
  unfold WorkingMemory.finishLoop at hfinish
  obtain ⟨⟨limitReached, file⟩, happend, hrest⟩ := Option.bind_eq_some_iff.mp hfinish
  obtain ⟨hlimit, hload⟩ := appendConversation_spec h.holds happend
  have hlength : (es ++ [e]).length = es.length + 1 := by simp
  by_cases hroll : 20 ≤ es.length
  · rw [decide_eq_true hroll] at hlimit
    cases hlimit
    have hrecent := getRecentContext_spec hload (by
      rw [List.length_map, length_window]
      exact min_le_right _ _)
    rw [if_pos rfl, hrecent, Option.map_some, Option.some.injEq] at hrest
    cases longTermMemory with
    | false =>
        cases hrest
        refine ⟨.inr hload, fun value => (h.passed value).trans ?_⟩
        exact iff_of_false (fun h => nomatch h.1) fun h => nomatch h.1
    | true =>
        cases hrest
        refine ⟨.inr hload, fun value => ?_⟩
        have hsplit : (∃ messages ∈ s.passed ++ [(window (es ++ [e])).map Exchange.data],
            value ∈ messages) ↔ (∃ messages ∈ s.passed, value ∈ messages) ∨
              value ∈ (window (es ++ [e])).map Exchange.data := by
          simp only [List.mem_append, List.mem_singleton, or_and_right, exists_or, exists_eq_left]
        refine hsplit.trans ?_
        rw [h.passed, hlength, ← mem_covered hroll]
        simp only [true_and, Nat.lt_succ_iff.mpr hroll]
  · rw [decide_eq_false hroll] at hlimit
    cases hlimit
    cases hrest
    refine ⟨.inr hload, fun value => ?_⟩
    rw [h.passed, hlength]
    exact iff_of_false (fun h => by omega) fun h => by omega

lemma finishLoops_reached {longTermMemory : Bool} {es : List Exchange} {s : Session D}
    (h : finishLoops longTermMemory es = some s) : Reached longTermMemory es s := by
  induction es using List.reverseRecOn generalizing s with
  | nil =>
      cases h
      exact ⟨.inl ⟨rfl, rfl⟩, fun value => by simp [newSession]⟩
  | append_singleton es e ih =>
      unfold finishLoops at h ih
      rw [List.foldlM_append] at h
      obtain ⟨before, hbefore, hlast⟩ := Option.bind_eq_some_iff.mp h
      obtain ⟨s', hfinish, hpure⟩ := Option.bind_eq_some_iff.mp hlast
      cases hpure
      exact (ih hbefore).finishLoop hfinish

/-- The entries of the working memory. -/
def workingMemory (file : List Char) : Option (List (PyData D)) :=
  match load file with
  | .dict items => conversations items
  | _ => none

/-- The working memory holds the last exchanges in order, and those that left it were handed on. -/
structure NothingLost (es : List Exchange) (s : Session D) : Prop where
  recent : workingMemory s.file =
    some ((es.drop (es.length - min es.length 20)).map (Exchange.data (D := D)))
  handedOn : ∀ e ∈ es.take (es.length - min es.length 20),
    ∃ messages ∈ s.passed, e.data ∈ messages

omit [Doubles D] in
lemma data_injective : Function.Injective (Exchange.data (D := D)) := by
  rintro ⟨t, u, a⟩ ⟨t', u', a'⟩ h
  simp only [Exchange.data, record, List.map_cons, List.map_nil, PyData.dict.injEq,
    List.cons.injEq, Prod.mk.injEq, PyData.str.injEq, true_and, and_true] at h
  obtain ⟨rfl, rfl, rfl⟩ := h
  rfl

lemma Reached.recent {longTermMemory : Bool} {es : List Exchange} {s : Session D}
    (h : Reached longTermMemory es s) : workingMemory s.file =
      some ((es.drop (es.length - min es.length 20)).map (Exchange.data (D := D))) := by
  obtain ⟨items, hload, hentries, -⟩ := h.holds.entries
  have hdrop : es.length - min es.length 20 = es.length - 20 := by omega
  unfold workingMemory
  rw [hload, hdrop]
  exact hentries

/-- The first exchange leaves the window before the messages are taken. -/
lemma NothingLost.again {longTermMemory : Bool} {es : List Exchange} {s : Session D}
    (hkept : NothingLost es s) (hreached : Reached longTermMemory es s) (hmany : 20 < es.length) :
    longTermMemory = true ∧ ∃ first rest, es = first :: rest ∧ first ∈ rest := by
  cases es with
  | nil => exact absurd hmany (Nat.not_lt_zero 20)
  | cons first rest =>
      have hgone : first ∈ (first :: rest).take ((first :: rest).length -
          min (first :: rest).length 20) := by
        have hpos : (first :: rest).length - min (first :: rest).length 20 =
            (first :: rest).length - 21 + 1 := by omega
        rw [hpos, List.take_succ_cons]
        exact List.mem_cons_self
      obtain ⟨hlongTerm, -, hmem⟩ := (hreached.passed _).mp (hkept.handedOn first hgone)
      exact ⟨hlongTerm, first, rest, rfl, (List.mem_map_of_injective data_injective).mp hmem⟩

/-- After any number of loops nothing is lost exactly if the window has not rolled yet, or the first
exchange came a second time and there is a long-term memory. -/
theorem nothingLost_iff {longTermMemory : Bool} {es : List Exchange} {s : Session D}
    (h : finishLoops longTermMemory es = some s) :
    NothingLost es s ↔ es.length ≤ 20 ∨
      longTermMemory = true ∧ ∃ first rest, es = first :: rest ∧ first ∈ rest := by
  have hreached := finishLoops_reached h
  constructor
  · exact fun hkept => or_iff_not_imp_left.mpr fun hmany =>
      hkept.again hreached (not_le.mp hmany)
  · intro hcondition
    refine ⟨hreached.recent, fun e he => (hreached.passed _).mpr ?_⟩
    rcases hcondition with hfew | ⟨hlongTerm, first, rest, rfl, hagain⟩
    · rw [Nat.min_eq_left hfew, Nat.sub_self, List.take_zero] at he
      exact absurd he List.not_mem_nil
    · refine ⟨hlongTerm, ?_, List.mem_map_of_mem ?_⟩
      · by_contra hfew
        rw [Nat.min_eq_left (not_lt.mp hfew), Nat.sub_self, List.take_zero] at he
        exact absurd he List.not_mem_nil
      · rcases List.mem_cons.mp (List.mem_of_mem_take he) with rfl | hrest
        · exact hagain
        · exact hrest

/-! ## Sessions whose texts can be written -/

structure Exchange.Encodable (e : Exchange) : Prop where
  timestamp : Scalars e.timestamp
  user : Scalars e.user
  assistant : Scalars e.assistant

omit [Doubles D] in
lemma Exchange.Encodable.kept {e : Exchange} (h : e.Encodable) : (e.data (D := D)).Kept := by
  unfold Exchange.data
  rw [record_kept (by simp)]
  intro pair hpair
  simp only [List.mem_cons, List.not_mem_nil, or_false] at hpair
  rcases hpair with rfl | rfl | rfl
  · exact h.timestamp
  · exact h.user
  · exact h.assistant

lemma memoryOf_written {es : List Exchange} (h : ∀ e ∈ es, e.Encodable) :
    ∃ text, pretty 0 (memoryOf (D := D) (es.map Exchange.data)) = some text := by
  refine PyData.Kept.written ?_ 0
  unfold memoryOf
  rw [record_kept (by simp)]
  intro pair hpair
  rw [List.mem_singleton.mp hpair]
  refine keptItems_iff.mpr fun value hvalue => ?_
  obtain ⟨e, he, rfl⟩ := List.mem_map.mp hvalue
  exact (h e he).kept

lemma appendConversation_encodable {es : List Exchange} {e : Exchange} {file : List Char}
    (hfile : Holds (D := D) file ((window es).map Exchange.data))
    (h : ∀ e' ∈ es ++ [e], e'.Encodable) :
    ∃ result, appendConversation (D := D) e file = some result := by
  obtain ⟨items, hload, hentries, hset⟩ := hfile.entries
  have happended : (window es).map Exchange.data ++ [e.data (D := D)] =
      (window es ++ [e]).map Exchange.data := by
    rw [List.map_append]
    rfl
  obtain ⟨text, htext⟩ := @memoryOf_written D _ (window (es ++ [e])) fun e' he' =>
    h e' (List.mem_of_mem_drop he')
  unfold appendConversation
  rw [hload]
  dsimp only
  rw [hentries, Option.bind_some, happended, window_eq, window_map, window_append, hset, htext]
  exact ⟨_, rfl⟩

lemma finishLoop_encodable {longTermMemory : Bool} {es : List Exchange} {s : Session D}
    {e : Exchange} (hreached : Reached longTermMemory es s) (h : ∀ e' ∈ es ++ [e], e'.Encodable) :
    ∃ s', finishLoop longTermMemory s e = some s' := by
  obtain ⟨⟨limitReached, file⟩, happend⟩ := appendConversation_encodable hreached.holds h
  obtain ⟨-, hload⟩ := appendConversation_spec hreached.holds happend
  have hrecent := getRecentContext_spec hload (by
    rw [List.length_map, length_window]
    exact min_le_right _ _)
  unfold finishLoop
  rw [happend, Option.bind_some, hrecent]
  cases limitReached <;> exact ⟨_, rfl⟩

/-- The loops of texts without halves of surrogate pairs do not raise. -/
lemma finishLoops_encodable (longTermMemory : Bool) {es : List Exchange}
    (h : ∀ e ∈ es, e.Encodable) : ∃ s, finishLoops (D := D) longTermMemory es = some s := by
  induction es using List.reverseRecOn with
  | nil => exact ⟨_, rfl⟩
  | append_singleton es e ih =>
      obtain ⟨s, hs⟩ := ih fun e' he' => h e' (List.mem_append_left _ he')
      obtain ⟨s', hs'⟩ := finishLoop_encodable (finishLoops_reached hs) h
      refine ⟨s', ?_⟩
      unfold finishLoops at hs ⊢
      rw [List.foldlM_append, hs]
      exact Option.bind_eq_some_iff.mpr ⟨s, rfl, Option.bind_eq_some_iff.mpr ⟨s', hs', rfl⟩⟩

/-! ## A session with a first exchange that is lost -/

/-- Exchanges at different times. -/
def exchanges (n : ℕ) : List Exchange :=
  (List.range n).map fun i => ⟨toPyStr (toString i), toPyStr "ping", toPyStr "pong"⟩

lemma exchanges_encodable (n : ℕ) : ∀ e ∈ exchanges n, e.Encodable := by
  intro e he
  obtain ⟨i, -, rfl⟩ := List.mem_map.mp he
  exact ⟨scalars_toPyStr _, scalars_toPyStr _, scalars_toPyStr _⟩

/-- Twenty loops lose nothing. -/
theorem twenty_loops_kept :
    ∃ s : Session Empty, finishLoops true (exchanges 20) = some s ∧ NothingLost (exchanges 20) s := by
  obtain ⟨s, hs⟩ := finishLoops_encodable (D := Empty) true (exchanges_encodable 20)
  exact ⟨s, hs, (nothingLost_iff hs).mpr (.inl (by decide))⟩

/-- The twenty-first loop drops the first exchange, which no summary has seen. -/
theorem first_exchange_lost :
    ¬ ∀ (n : ℕ) (s : Session Empty), finishLoops true (exchanges n) = some s →
      NothingLost (exchanges n) s := by
  intro h
  obtain ⟨s, hs⟩ := finishLoops_encodable (D := Empty) true (exchanges_encodable 21)
  obtain ⟨-, first, rest, heq, hmem⟩ := (h 21 s hs).again (finishLoops_reached hs) (by decide)
  have hnodup : (exchanges 21).Nodup := by decide
  rw [heq] at hnodup
  exact (List.nodup_cons.mp hnodup).1 hmem

end AgentSystem.WorkingMemory
