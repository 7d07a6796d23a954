import AgentSystem.QueryCache

/-!
# Transparency of the query cache

When a query that starts while no operation is under way finds what it would find without the cache.
Results that were found before a change of the backend and stored after the cache was cleared stay
there, and different queries can have one key.
-/
namespace AgentSystem.Memory

open Interleaving Raft PySequence

/-- The operation has changed the backend and has still to clear the cache. -/
def Caller.Dirty : Caller → Prop
  | .changed _ => True
  | .pruning _ _ deleted => deleted = true
  | _ => False

/-- A caller that is not in the middle of a query and has no cache to clear. -/
def Caller.Plain (p : Caller) : Prop :=
  ¬ p.Dirty ∧ (∀ q, p ≠ .missed q) ∧ ∀ q results, p ≠ .searched q results

lemma nextMove_plain (edit : Value → Value) (moved : Bool) (items : List (String × String)) :
    (nextMove edit moved items).Plain := by
  induction items with
  | nil => cases moved <;> simp [nextMove, Caller.Plain, Caller.Dirty]
  | cons item items ih =>
      rw [nextMove]
      split_ifs
      · exact ih
      · simp [Caller.Plain, Caller.Dirty]

lemma goOn_plain (moves : Option Moves) : (goOn moves).Plain := by
  cases moves with
  | none => simp [goOn, Caller.Plain, Caller.Dirty]
  | some moves => exact nextMove_plain ..

/-- What a query depends on. -/
def Query.Same (q q' : Query) : Prop :=
  q.queryText = q'.queryText ∧ q.sessionId = q'.sessionId ∧ q.resultLimit = q'.resultLimit ∧
    q.domain = q'.domain ∧ q.oversample = q'.oversample

/-- Queries with the same key have the same arguments. -/
def Apart (queries : Set Query) : Prop :=
  ∀ q ∈ queries, ∀ q' ∈ queries, q.cacheKey = q'.cacheKey → q.Same q'

/-! ## Keys -/

/-- The session and the domain are no text that the key could take for something else. -/
def Query.Unambiguous (q : Query) : Prop :=
  ∀ text, q.sessionId = some text ∨ q.domain = some text → ':' ∉ text.toList ∧ text ≠ "None"

lemma append_colon_inj {xs ys xs' ys' : List Char} (hys : ':' ∉ ys) (hys' : ':' ∉ ys')
    (h : xs ++ ':' :: ys = xs' ++ ':' :: ys') : xs = xs' ∧ ys = ys' := by
  induction xs generalizing xs' with
  | nil =>
      cases xs' with
      | nil => simpa using h
      | cons x xs' =>
          rw [List.nil_append, List.cons_append, List.cons.injEq] at h
          exact absurd (h.2 ▸ List.mem_append_right xs' List.mem_cons_self) hys
  | cons x xs ih =>
      cases xs' with
      | nil =>
          rw [List.nil_append, List.cons_append, List.cons.injEq] at h
          exact absurd (h.2.symm ▸ List.mem_append_right xs List.mem_cons_self) hys'
      | cons x' xs' =>
          rw [List.cons_append, List.cons_append, List.cons.injEq] at h
          obtain ⟨rfl, hrest⟩ := h
          obtain ⟨rfl, rfl⟩ := ih hrest
          exact ⟨rfl, rfl⟩

/-- The last part of a text that is joined with colons. -/
lemma join_inj {s t s' t' : String} (ht : ':' ∉ t.toList) (ht' : ':' ∉ t'.toList)
    (h : s ++ ":" ++ t = s' ++ ":" ++ t') : s = s' ∧ t = t' := by
  have hlist := congrArg String.toList h
  simp only [String.toList_append, List.append_assoc] at hlist
  obtain ⟨hs, ht⟩ := append_colon_inj ht ht' hlist
  exact ⟨String.toList_injective hs, String.toList_injective ht⟩

lemma getD_none_inj {text text' : Option String} (h : ∀ s, text = some s → s ≠ "None")
    (h' : ∀ s, text' = some s → s ≠ "None") (heq : text.getD "None" = text'.getD "None") :
    text = text' := by
  cases text with
  | none =>
      cases text' with
      | none => rfl
      | some s' => exact absurd heq.symm (h' s' rfl)
  | some s =>
      cases text' with
      | none => exact absurd heq (h s rfl)
      | some s' => exact congrArg some heq

lemma getD_none_plain {text : Option String} (h : ∀ s, text = some s → ':' ∉ s.toList) :
    ':' ∉ (text.getD "None").toList := by
  cases text with
  | none => decide +kernel
  | some s => exact h s rfl

lemma toString_plain (n : ℕ) : ':' ∉ (toString n).toList := by
  intro h
  have hdigit : (':' : Char).isDigit :=
    Nat.isDigit_of_mem_toDigits (b := 10) (n := n) (by decide) (by decide) (by simpa using h)
  exact absurd hdigit (by decide)

/-- Unambiguous queries with one key are the same. -/
theorem apart_unambiguous : Apart {q | q.Unambiguous} := by
  intro q hq q' hq' h
  have hsession (s : String) (hs : q.sessionId = some s) := hq s (.inl hs)
  have hsession' (s : String) (hs : q'.sessionId = some s) := hq' s (.inl hs)
  have hdomain (s : String) (hs : q.domain = some s) := hq s (.inr hs)
  have hdomain' (s : String) (hs : q'.domain = some s) := hq' s (.inr hs)
  unfold Query.cacheKey at h
  obtain ⟨h, hoversample⟩ := join_inj (by split_ifs <;> decide) (by split_ifs <;> decide) h
  obtain ⟨h, hd⟩ := join_inj (getD_none_plain fun s hs => (hdomain s hs).1)
    (getD_none_plain fun s hs => (hdomain' s hs).1) h
  obtain ⟨h, hlimit⟩ := join_inj (toString_plain _) (toString_plain _) h
  obtain ⟨htext, hs⟩ := join_inj (getD_none_plain fun s hs => (hsession s hs).1)
    (getD_none_plain fun s hs => (hsession' s hs).1) h
  refine ⟨htext, getD_none_inj (fun s hs => (hsession s hs).2) (fun s hs => (hsession' s hs).2) hs,
    Nat.repr_injective hlimit, getD_none_inj (fun s hs => (hdomain s hs).2)
      (fun s hs => (hdomain' s hs).2) hd, ?_⟩
  cases ho : q.oversample <;> cases ho' : q'.oversample <;> simp_all

section Cache

variable {β ι : Type} {parseQuery : String → String} {backend : Backend β}

lemma fetch_same {q q' : Query} (h : q.Same q') (b : β) :
    fetch parseQuery backend b q = fetch parseQuery backend b q' := by
  obtain ⟨htext, hsession, hlimit, hdomain, hoversample⟩ := h
  have hhas : q.hasDomain = q'.hasDomain := by rw [Query.hasDomain, hdomain, Query.hasDomain]
  have hfetch : q.backendFetchLimit = q'.backendFetchLimit := by
    rw [Query.backendFetchLimit, Query.backendFetchLimit, hlimit, hhas, hoversample]
  simp only [fetch, htext, hsession, hlimit, hdomain, hhas, hfetch]

lemma mem_touch {cache : Cache} {key : String} {results : List Value}
    (hhit : getItem cache key = some results) {item : String × List Value}
    (h : item ∈ cache.touch key results) : item ∈ cache := by
  rcases List.mem_append.mp h with h | h
  · exact (List.mem_filter.mp h).1
  · rw [List.mem_singleton.mp h]
    exact getItem_mem hhit

lemma mem_set {cache : Cache} {key : String} {results : List Value} {item : String × List Value}
    (h : item ∈ cache.set key results) : item = (key, results) ∨ item ∈ cache := by
  apply (mem_of_mem_setItem h).imp_right
  intro hmem
  split_ifs at hmem
  · exact List.mem_of_mem_tail hmem
  · exact hmem

end Cache

section Runs

variable {β ι : Type} [DecidableEq ι] (parseQuery : String → String) (backend : Backend β)
  (queries : Set Query) (s : World ι (Shared β) Caller)

/-- No operation is between its change of the backend and the clearing of the cache. -/
def Quiet : Prop := ∀ i, ¬ (s.proc i).Dirty

/-- The results that queries have found and not yet stored are what they would find now. -/
def Pending : Prop :=
  ∀ i q results, s.proc i = .searched q results →
    results = fetch parseQuery backend s.store.backend q

/-- And so are those in the cache. -/
def Current : Prop :=
  (∀ item ∈ s.store.cache, ∀ q ∈ queries, q.cacheKey = item.1 →
    item.2 = fetch parseQuery backend s.store.backend q) ∧ Pending parseQuery backend s

/-- The queries that are under way are among these. -/
def Asked : Prop :=
  ∀ i q, (s.proc i = .missed q → q ∈ queries) ∧
    ∀ results, s.proc i = .searched q results → q ∈ queries

/-- What a method of the backend leaves that raises in the next step of the caller, or a comparison
before it. -/
def failed (b : β) : Caller → Option β
  | .writing sessionId key record _ =>
      let written := backend.write b sessionId key record
      if written.2 then none else some written.1
  | .deleting sessionId key =>
      let deleted := backend.delete b sessionId key
      if deleted.2 = none then some deleted.1 else none
  | .pruning (record :: _) now _ =>
      match expired now record with
      | none => some b
      | some none => none
      | some (some (sessionId, key)) =>
          let deleted := backend.delete b sessionId key
          if deleted.2 = none then some deleted.1 else none
  | _ => none

/-- The query is one of these; an operation that clears the cache finds no results that were found
before a change, unless another one has still to clear it; and an operation that raises has changed
nothing. -/
structure Orderly (i : ι) (input : Input) : Prop where
  asked : ∀ q, input = .call (.query q) → q ∈ queries
  cleared : ∀ moves, input = .advance → s.proc i = .changed moves →
    (∃ j, j ≠ i ∧ (s.proc j).Dirty) ∨ Pending parseQuery backend s
  raised : ∀ b, input = .advance → failed backend s.store.backend (s.proc i) = some b →
    ¬ (s.proc i).Dirty ∧ ∀ q, fetch parseQuery backend b q =
      fetch parseQuery backend s.store.backend q

variable {parseQuery backend queries s} {i : ι} {store : Shared β} {p : Caller}

omit [DecidableEq ι] in
lemma asked_start (store : Shared β) : Asked queries (World.mk store fun _ : ι => .idle) :=
  fun _ _ => ⟨nofun, nofun⟩

/-- A step that leaves what queries find as it is, and the cache or clears it. -/
lemma current_step (apart : Apart queries) (h : Current parseQuery backend queries s)
    (hfetch : ∀ q, fetch parseQuery backend store.backend q =
      fetch parseQuery backend s.store.backend q)
    (hcache : ∀ item ∈ store.cache, item ∈ s.store.cache ∨
      ∃ q ∈ queries, item = (q.cacheKey, fetch parseQuery backend s.store.backend q))
    (hp : ∀ q results, p = .searched q results →
      results = fetch parseQuery backend s.store.backend q) :
    Current parseQuery backend queries ⟨store, Function.update s.proc i p⟩ := by
  obtain ⟨hentries, hpending⟩ := h
  constructor
  · intro item hitem q hq hkey
    rw [hfetch]
    rcases hcache item hitem with hold | ⟨q', hq', rfl⟩
    · exact hentries item hold q hq hkey
    · exact (fetch_same (apart q hq q' hq' hkey) _).symm
  · intro j
    refine forall_proc (P := fun _ (p : Caller) => ∀ q results, p = .searched q results →
      results = fetch parseQuery backend store.backend q) ?_ ?_ j
    · intro q results hresults
      rw [hfetch]
      exact hp q results hresults
    · intro j _ q results hresults
      rw [hfetch]
      exact hpending j q results hresults

/-- A step to a caller that asks for one of the queries, or for none. -/
lemma asked_step (h : Asked queries s) (hp : ∀ q, (p = .missed q → q ∈ queries) ∧
    ∀ results, p = .searched q results → q ∈ queries) :
    Asked queries ⟨store, Function.update s.proc i p⟩ := by
  intro j
  exact forall_proc (P := fun _ (p : Caller) => ∀ q, (p = .missed q → q ∈ queries) ∧
    ∀ results, p = .searched q results → q ∈ queries) hp (fun j _ => h j) j

/-- Where nobody has a cache to clear after the step of a caller that had none before it. -/
lemma quiet_before (h : Quiet (World.mk store (Function.update s.proc i p)))
    (hclean : ¬ (s.proc i).Dirty) : Quiet s := by
  intro j
  by_cases hj : j = i
  · exact hj ▸ hclean
  · have hother := h j
    rwa [proc_of_ne hj] at hother

/-- What holds after every orderly run. -/
structure Inv (parseQuery : String → String) (backend : Backend β) (queries : Set Query)
    (s : World ι (Shared β) Caller) : Prop where
  asked : Asked queries s
  current : Quiet s → Current parseQuery backend queries s

/-- A step of a caller that has no cache to clear. -/
lemma inv_step (apart : Apart queries) (h : Inv parseQuery backend queries s)
    (hclean : ¬ (s.proc i).Dirty)
    (hasked : ∀ q, (p = .missed q → q ∈ queries) ∧
      ∀ results, p = .searched q results → q ∈ queries)
    (hfetch : ¬ p.Dirty → ∀ q, fetch parseQuery backend store.backend q =
      fetch parseQuery backend s.store.backend q)
    (hcache : Current parseQuery backend queries s → ∀ item ∈ store.cache,
      item ∈ s.store.cache ∨
        ∃ q ∈ queries, item = (q.cacheKey, fetch parseQuery backend s.store.backend q))
    (hp : ∀ q results, p = .searched q results →
      results = fetch parseQuery backend s.store.backend q) :
    Inv parseQuery backend queries ⟨store, Function.update s.proc i p⟩ where
  asked := asked_step h.asked hasked
  current hquiet := by
    have hcurrent := h.current (quiet_before hquiet hclean)
    have hdone := hquiet i
    rw [proc_self] at hdone
    exact current_step apart hcurrent (hfetch hdone) (hcache hcurrent) hp

/-- A step to a plain caller that leaves the cache as it is. -/
lemma inv_plain (apart : Apart queries) (h : Inv parseQuery backend queries s)
    (hclean : ¬ (s.proc i).Dirty) (hplain : p.Plain)
    (hfetch : ∀ q, fetch parseQuery backend store.backend q =
      fetch parseQuery backend s.store.backend q)
    (hcache : ∀ item ∈ store.cache, item ∈ s.store.cache) :
    Inv parseQuery backend queries ⟨store, Function.update s.proc i p⟩ := by
  obtain ⟨-, hmissed, hsearched⟩ := hplain
  apply inv_step apart h hclean
  · exact fun q => ⟨fun heq => absurd heq (hmissed q),
      fun results heq => absurd heq (hsearched q results)⟩
  · exact fun _ => hfetch
  · exact fun _ item hitem => .inl (hcache item hitem)
  · exact fun q results heq => absurd heq (hsearched q results)

/-- A change of the backend that has still to be followed by clearing the cache. -/
lemma inv_dirty (h : Inv parseQuery backend queries s) (hdirty : p.Dirty) :
    Inv parseQuery backend queries ⟨store, Function.update s.proc i p⟩ where
  asked := by
    apply asked_step h.asked
    intro q
    constructor
    · rintro rfl
      exact hdirty.elim
    · rintro results rfl
      exact hdirty.elim
  current hquiet := by
    have hclean := hquiet i
    rw [proc_self] at hclean
    exact absurd hdirty hclean

/-- Clearing the cache after a change. -/
lemma inv_cleared (h : Inv parseQuery backend queries s) (hplain : p.Plain)
    (hcleared : (∃ j, j ≠ i ∧ (s.proc j).Dirty) ∨ Pending parseQuery backend s) :
    Inv parseQuery backend queries
      ⟨{ s.store with cache := [] }, Function.update s.proc i p⟩ where
  asked := by
    apply asked_step h.asked
    exact fun q => ⟨fun heq => absurd heq (hplain.2.1 q),
      fun results heq => absurd heq (hplain.2.2 q results)⟩
  current hquiet := by
    rcases hcleared with ⟨j, hj, hdirty⟩ | hpending
    · have hclean := hquiet j
      rw [proc_of_ne hj] at hclean
      exact absurd hdirty hclean
    · refine ⟨nofun, fun j => ?_⟩
      refine forall_proc (P := fun _ (p : Caller) => ∀ q results, p = .searched q results →
        results = fetch parseQuery backend s.store.backend q) ?_ (fun j _ => hpending j) j
      exact fun q results heq => absurd heq (hplain.2.2 q results)

/-- The first step of a request. -/
lemma inv_start (apart : Apart queries) (h : Inv parseQuery backend queries s) {request : Request}
    (hasked : ∀ q, request = .query q → q ∈ queries) (hclean : ¬ (s.proc i).Dirty) :
    Inv parseQuery backend queries ⟨(start backend s.store request).1,
      Function.update s.proc i (start backend s.store request).2⟩ := by
  cases request with
  | query q =>
      rw [start]
      split
      · rename_i results hhit
        apply inv_plain apart h hclean
        · simp [Caller.Plain, Caller.Dirty]
        · exact fun _ => rfl
        · exact fun item hitem => mem_touch hhit hitem
      · apply inv_step apart h hclean
        · intro q'
          constructor
          · intro heq
            cases heq
            exact hasked q rfl
          · exact nofun
        · exact fun _ _ => rfl
        · exact fun _ item hitem => .inl hitem
        · exact nofun
  | batchMove items edit =>
      exact inv_plain apart h hclean (nextMove_plain ..) (fun _ => rfl) fun _ hitem => hitem
  | pruneExpired now =>
      rw [start]
      split
      · exact inv_plain apart h hclean (by simp [Caller.Plain, Caller.Dirty]) (fun _ => rfl)
          fun _ hitem => hitem
      · exact inv_plain apart h hclean (by simp [Caller.Plain, Caller.Dirty]) (fun _ => rfl)
          fun _ hitem => hitem
  | add sessionId key record =>
      exact inv_plain apart h hclean (by simp [start, Caller.Plain, Caller.Dirty]) (fun _ => rfl)
        fun _ hitem => hitem
  | addRouteOutcome sessionId key record =>
      exact inv_plain apart h hclean (by simp [start, Caller.Plain, Caller.Dirty]) (fun _ => rfl)
        fun _ hitem => hitem
  | updateRecord sessionId key edit =>
      exact inv_plain apart h hclean (by simp [start, Caller.Plain, Caller.Dirty]) (fun _ => rfl)
        fun _ hitem => hitem
  | deleteRecord sessionId key =>
      exact inv_plain apart h hclean (by simp [start, Caller.Plain, Caller.Dirty]) (fun _ => rfl)
        fun _ hitem => hitem

lemma fetch_delete {b : β} {sessionId key : String}
    (h : (backend.delete b sessionId key).2 = some false) (q : Query) :
    fetch parseQuery backend (backend.delete b sessionId key).1 q =
      fetch parseQuery backend b q := by
  obtain ⟨hsearch, hvector⟩ := backend.delete_missing b sessionId key h
  simp only [fetch, hsearch, hvector]

/-- The next step of a call. -/
lemma inv_advance (apart : Apart queries) (h : Inv parseQuery backend queries s)
    (hnext : advance parseQuery backend s.store (s.proc i) = some (store, p))
    (horderly : Orderly parseQuery backend queries s i .advance) :
    Inv parseQuery backend queries ⟨store, Function.update s.proc i p⟩ := by
  have hraised := horderly.raised
  have hcleared := horderly.cleared
  cases hproc : s.proc i with
  | idle => simp [hproc, advance] at hnext
  | answered q results => simp [hproc, advance] at hnext
  | missed q =>
      rw [hproc] at hnext
      cases hnext
      apply inv_step apart h (by simp [hproc, Caller.Dirty])
      · intro q'
        constructor
        · exact nofun
        · rintro results ⟨⟩
          exact (h.asked i q).1 hproc
      · exact fun _ _ => rfl
      · exact fun _ item hitem => .inl hitem
      · rintro q' results ⟨⟩
        rfl
  | searched q results =>
      rw [hproc] at hnext
      cases hnext
      apply inv_step apart h (by simp [hproc, Caller.Dirty])
      · exact fun q' => ⟨nofun, nofun⟩
      · exact fun _ _ => rfl
      · intro hcurrent item hitem
        apply (mem_set hitem).symm.imp_right
        rintro rfl
        exact ⟨q, (h.asked i q).2 results hproc, by rw [← hcurrent.2 i q results hproc]⟩
      · exact nofun
  | reading sessionId key make moves =>
      rw [hproc, advance] at hnext
      have hclean : ¬ (s.proc i).Dirty := by simp [hproc, Caller.Dirty]
      split at hnext
      · cases hnext
        exact inv_plain apart h hclean (by simp [Caller.Plain, Caller.Dirty]) (fun _ => rfl)
          fun _ hitem => hitem
      · split at hnext
        · cases hnext
          exact inv_plain apart h hclean (by simp [Caller.Plain, Caller.Dirty]) (fun _ => rfl)
            fun _ hitem => hitem
        · cases hnext
          exact inv_plain apart h hclean (goOn_plain moves) (fun _ => rfl) fun _ hitem => hitem
  | writing sessionId key record moves =>
      rw [hproc] at hnext
      cases hnext
      cases hwritten : (backend.write s.store.backend sessionId key record).2 with
      | true => exact inv_dirty h (by simp [Caller.Dirty])
      | false =>
          obtain ⟨hclean, hsame⟩ := hraised _ rfl (by rw [hproc, failed]; simp [hwritten]; rfl)
          exact inv_plain apart h hclean (by simp [Caller.Plain, Caller.Dirty]) hsame
            fun _ hitem => hitem
  | changed moves =>
      rw [hproc] at hnext
      cases hnext
      exact inv_cleared h (goOn_plain _) (hcleared moves rfl hproc)
  | tidying =>
      rw [hproc] at hnext
      cases hnext
      exact inv_plain apart h (by simp [hproc, Caller.Dirty])
        (by simp [Caller.Plain, Caller.Dirty]) (fun _ => rfl) nofun
  | deleting sessionId key =>
      rw [hproc] at hnext
      cases hnext
      have hclean : ¬ (s.proc i).Dirty := by simp [hproc, Caller.Dirty]
      cases hdeleted : (backend.delete s.store.backend sessionId key).2 with
      | none =>
          obtain ⟨-, hsame⟩ := hraised _ rfl (by rw [hproc, failed]; simp [hdeleted]; rfl)
          exact inv_plain apart h hclean (by simp [Caller.Plain, Caller.Dirty]) hsame
            fun _ hitem => hitem
      | some existed =>
          cases existed with
          | true => exact inv_dirty h (by simp [Caller.Dirty])
          | false =>
              exact inv_plain apart h hclean (by simp [Caller.Plain, Caller.Dirty])
                (fetch_delete hdeleted) fun _ hitem => hitem
  | pruning records now deleted =>
      cases records with
      | nil =>
          rw [hproc] at hnext
          cases hnext
          cases deleted with
          | true => exact inv_dirty h (by simp [Caller.Dirty])
          | false =>
              exact inv_plain apart h (by simp [hproc, Caller.Dirty])
                (by simp [Caller.Plain, Caller.Dirty]) (fun _ => rfl) fun _ hitem => hitem
      | cons record records =>
          have hgoes {store : Shared β} {deleted' : Bool} (hclean : deleted' = false →
              ¬ (s.proc i).Dirty ∧ (∀ q, fetch parseQuery backend store.backend q =
                fetch parseQuery backend s.store.backend q) ∧ store.cache = s.store.cache) :
              Inv parseQuery backend queries
                ⟨store, Function.update s.proc i (.pruning records now deleted')⟩ := by
            cases deleted' with
            | true => exact inv_dirty h rfl
            | false =>
                obtain ⟨hclean, hsame, hcache⟩ := hclean rfl
                exact inv_plain apart h hclean (by simp [Caller.Plain, Caller.Dirty]) hsame
                  fun _ hitem => hcache ▸ hitem
          rw [hproc] at hnext hraised hgoes
          rw [advance] at hnext
          cases hexpired : expired now record with
          | none =>
              simp only [hexpired, Option.some.injEq, Prod.mk.injEq] at hnext
              obtain ⟨rfl, rfl⟩ := hnext
              obtain ⟨hclean, -⟩ := hraised s.store.backend rfl (by simp [failed, hexpired])
              exact inv_plain apart h (hproc ▸ hclean) (by simp [Caller.Plain, Caller.Dirty])
                (fun _ => rfl) fun _ hitem => hitem
          | some target =>
              cases target with
              | none =>
                  simp only [hexpired, Option.some.injEq, Prod.mk.injEq] at hnext
                  obtain ⟨rfl, rfl⟩ := hnext
                  exact hgoes fun hdeleted =>
                    ⟨by simp [Caller.Dirty, hdeleted], fun _ => rfl, rfl⟩
              | some target =>
                  obtain ⟨sessionId, key⟩ := target
                  simp only [hexpired] at hnext
                  cases hdeleted : (backend.delete s.store.backend sessionId key).2 with
                  | none =>
                      simp only [hdeleted, Option.some.injEq, Prod.mk.injEq] at hnext
                      obtain ⟨rfl, rfl⟩ := hnext
                      obtain ⟨hclean, hsame⟩ :=
                        hraised _ rfl (by simp only [failed, hexpired, hdeleted]; rfl)
                      exact inv_plain apart h (hproc ▸ hclean)
                        (by simp [Caller.Plain, Caller.Dirty]) hsame fun _ hitem => hitem
                  | some existed =>
                      simp only [hdeleted, Option.some.injEq, Prod.mk.injEq] at hnext
                      obtain ⟨rfl, rfl⟩ := hnext
                      apply hgoes
                      intro hnone
                      rw [Bool.or_eq_false_iff] at hnone
                      obtain ⟨hold, rfl⟩ := hnone
                      exact ⟨by simp [Caller.Dirty, hold], fetch_delete hdeleted, rfl⟩

/-- A request is made by a caller that is not in the middle of another one. -/
lemma next_call {store : Shared β} {request : Request} {after : Shared β × Caller}
    (h : next parseQuery backend (.call request) store p = some after) :
    after = start backend store request ∧ ¬ p.Dirty := by
  cases p with
  | idle => exact ⟨(Option.some.inj h).symm, by simp [Caller.Dirty]⟩
  | answered q results => exact ⟨(Option.some.inj h).symm, by simp [Caller.Dirty]⟩
  | _ => cases h

omit [DecidableEq ι] in
lemma orderly_query {q : Query} (hq : q ∈ queries) :
    Orderly parseQuery backend queries s i (.call (.query q)) where
  asked := by
    rintro q' ⟨⟩
    exact hq
  cleared := nofun
  raised := nofun

omit [DecidableEq ι] in
lemma orderly_advance (hchanged : ∀ moves, s.proc i ≠ .changed moves)
    (hfailed : failed backend s.store.backend (s.proc i) = none) :
    Orderly parseQuery backend queries s i .advance where
  asked := nofun
  cleared moves _ hproc := absurd hproc (hchanged moves)
  raised b _ hraised := by
    rw [hfailed] at hraised
    cases hraised

/-- Every step of an orderly run. -/
lemma inv_next (apart : Apart queries) {input : Input} {s' : World ι (Shared β) Caller}
    (h : Inv parseQuery backend queries s) (horderly : Orderly parseQuery backend queries s i input)
    (hstep : s.step (next parseQuery backend) i input = some s') :
    Inv parseQuery backend queries s' := by
  obtain ⟨store, p, hnext, rfl⟩ := step_eq_some hstep
  cases input with
  | advance => exact inv_advance apart h hnext horderly
  | call request =>
      have hasked (q : Query) (hq : request = .query q) : q ∈ queries :=
        horderly.asked q (congrArg Input.call hq)
      obtain ⟨hstart, hclean⟩ := next_call hnext
      have hinv := inv_start apart h hasked hclean
      rwa [← hstart] at hinv

end Runs

/-! ## Results that are stored too late -/

/-- The table as a backend whose searches find every record of the session. -/
def tableBackend : Backend MemoryRecords where
  read := SQLiteBackend.read
  write records sessionId key value :=
    match SQLiteBackend.write records sessionId key value with
    | some records => (records, true)
    | none => (records, false)
  delete records sessionId key :=
    match SQLiteBackend.delete records sessionId key with
    | some (records, existed) => (records, some existed)
    | none => (records, none)
  allRecords records := some (records.rows.map MemoryRecord.value)
  search records _ sessionId topK :=
    some (((records.rows.filter fun record =>
      sessionId.all (· = record.sessionId)).map MemoryRecord.value).take topK)
  isVector _ := false
  delete_missing records sessionId key h := by
    cases hvalid : validateSessionId sessionId with
    | none => simp [SQLiteBackend.delete, hvalid] at h
    | some sessionId =>
        simp only [SQLiteBackend.delete, hvalid, Option.map_some, Option.some.injEq,
          decide_eq_false_iff_not, KeyedTable.count, List.countP_pos_iff, not_exists, not_and] at h
        have hkept : (records.rows.filter fun record =>
            !decide (record.sessionId = sessionId ∧ record.key = key)) = records.rows := by
          apply List.filter_eq_self.mpr
          intro record hrecord
          rw [Bool.not_eq_true', decide_eq_false_iff_not]
          simpa using h record hrecord
        simp only [SQLiteBackend.delete, hvalid, Option.map_some, KeyedTable.delete, hkept, and_self]

def lastWeek : Query := ⟨"last week", none, 5, none, false, by decide⟩

/-- A query misses and searches; a record is added; the query stores that it found nothing. -/
def lateStore : List (ℕ × Input) :=
  [(0, .call (.query lastWeek)), (0, .advance), (1, .call (.add "alice" "ltm-1" knowledge)),
    (1, .advance), (1, .advance), (1, .advance), (0, .advance)]

/-- Queries find without the cache what they find with it. -/
def Transparent {β : Type} (parseQuery : String → String) (backend : Backend β) : Prop :=
  ∀ (b : β) (actions : List (ℕ × Input)) (s s' : World ℕ (Shared β) Caller) (i : ℕ) (q : Query)
    (results : List Value),
    (World.mk ⟨b, []⟩ fun _ => .idle).run (next parseQuery backend) actions = some s → Quiet s →
      s.step (next parseQuery backend) i (.call (.query q)) = some s' →
        s'.proc i = .answered q results → results = fetch parseQuery backend s.store.backend q

end AgentSystem.Memory
