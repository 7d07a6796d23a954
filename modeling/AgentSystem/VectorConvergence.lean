import AgentSystem.Contest
import AgentSystem.VectorMemory

/-!
# When replicated vector memories agree

An entry replaces another one of its id only where the hashes differ and it is the later one, so two
entries of one id without a winner stay where they came first. The memories agree exactly where some
entry of every id supersedes all the others.
-/
namespace AgentSystem.VectorMemory

open Sha256 Contest
open PySequence (getItem setItem getItem_mem getItem_of_mem getItem_setItem)

variable {μ τ : Type} {dumps : μ → String}

/-- The root is that of the hashes in any order. -/
lemma merkleRoot_of_hashes_perm {entries entries' : List (String × VectorMemoryEntry μ τ)}
    (h : (entries.map fun item => item.2.contentHash).Perm (entries'.map fun item => item.2.contentHash)) :
    merkleRoot entries = merkleRoot entries' := by
  have hsort : (entries.map fun item => item.2.contentHash).mergeSort =
      (entries'.map fun item => item.2.contentHash).mergeSort := by
    apply List.Perm.eq_of_sortedLE List.sortedLE_mergeSort List.sortedLE_mergeSort
    exact (List.mergeSort_perm _ _).trans (h.trans (List.mergeSort_perm _ _).symm)
  have hlength : entries.length = entries'.length := by simpa using h.length_eq
  rw [merkleRoot, merkleRoot, hsort]
  by_cases hnil : entries = []
  · rw [if_pos hnil, if_pos (List.length_eq_zero_iff.mp (hlength ▸ List.length_eq_zero_iff.mpr hnil))]
  · rw [if_neg hnil, if_neg]
    rintro rfl
    exact hnil (List.length_eq_zero_iff.mp hlength)

lemma merkleRoot_perm {entries entries' : List (String × VectorMemoryEntry μ τ)}
    (h : entries.Perm entries') : merkleRoot entries = merkleRoot entries' :=
  merkleRoot_of_hashes_perm (h.map _)

lemma ensureHash_verify {entry : VectorMemoryEntry μ τ} (h : entry.contentHash = "") :
    (entry.ensureHash dumps).verifyIntegrity dumps = true := by
  rw [VectorMemoryEntry.ensureHash, if_pos h, VectorMemoryEntry.verifyIntegrity]
  simp [VectorMemoryEntry.computeHash, hexdigest_ne_empty]

namespace FederatedVectorMemory

/-- What holds of a memory at all times. -/
structure WellFormed (dumps : μ → String) (memory : FederatedVectorMemory μ τ) : Prop where
  nodup : (memory.entries.map Prod.fst).Nodup
  keyed : ∀ item ∈ memory.entries, item.2.entryId = item.1
  valid : ∀ item ∈ memory.entries, item.2.verifyIntegrity dumps = true
  cached : memory.isDirty = false →
    ∀ root, memory.cachedMerkleRoot = some root → root = merkleRoot memory.entries

variable {memory : FederatedVectorMemory μ τ}

lemma wellFormed_empty : WellFormed dumps ({} : FederatedVectorMemory μ τ) where
  nodup := List.nodup_nil
  keyed := by simp
  valid := by simp
  cached := by simp

@[simp] lemma computeMerkleRoot_entries :
    memory.computeMerkleRoot.1.entries = memory.entries := by
  unfold computeMerkleRoot
  split <;> rfl

lemma WellFormed.root (h : WellFormed dumps memory) :
    memory.computeMerkleRoot.2 = merkleRoot memory.entries := by
  unfold computeMerkleRoot
  split
  · rename_i root hdirty hcached
    exact h.cached hdirty root hcached
  · rfl

lemma WellFormed.computeMerkleRoot (h : WellFormed dumps memory) :
    WellFormed dumps memory.computeMerkleRoot.1 where
  nodup := by
    rw [computeMerkleRoot_entries]
    exact h.nodup
  keyed := by
    rw [computeMerkleRoot_entries]
    exact h.keyed
  valid := by
    rw [computeMerkleRoot_entries]
    exact h.valid
  cached := by
    unfold FederatedVectorMemory.computeMerkleRoot
    split
    · exact h.cached
    · intro _ root hroot
      exact (Option.some.inj hroot).symm

/-- A valid entry is put under its id. -/
lemma WellFormed.put (h : WellFormed dumps memory) {entry : VectorMemoryEntry μ τ}
    (hvalid : entry.verifyIntegrity dumps = true) : WellFormed dumps (memory.put entry) where
  nodup := PySequence.setItem_nodup h.nodup _ _
  keyed item hitem := by
    rcases PySequence.mem_of_mem_setItem hitem with rfl | hmem
    · rfl
    · exact h.keyed item hmem
  valid item hitem := by
    rcases PySequence.mem_of_mem_setItem hitem with rfl | hmem
    · exact hvalid
    · exact h.valid item hmem
  cached hdirty := by cases hdirty

lemma WellFormed.store (h : WellFormed dumps memory) (fields : VectorMemoryEntry μ τ) :
    WellFormed dumps (memory.store dumps fields) :=
  h.put (ensureHash_verify rfl)

section Merge

variable [Preorder τ] [DecidableLT τ]

/-- An entry that takes the place of another one of its id. -/
def Supersedes (entry current : VectorMemoryEntry μ τ) : Prop :=
  current.contentHash ≠ entry.contentHash ∧ current.timestamp < entry.timestamp

instance : DecidableRel (Supersedes (μ := μ) (τ := τ)) := fun _ _ =>
  inferInstanceAs (Decidable (_ ∧ _))

omit [DecidableLT τ] in
lemma Supersedes.asymm (entry current : VectorMemoryEntry μ τ) (h : Supersedes entry current) :
    ¬ Supersedes current entry := fun h' => lt_asymm h.2 h'.2

lemma WellFormed.mergeEntry (h : WellFormed dumps memory) (raw : VectorMemoryEntry μ τ) :
    WellFormed dumps (memory.mergeEntry dumps raw).1 := by
  unfold FederatedVectorMemory.mergeEntry
  dsimp only
  split_ifs with hvalid
  · split
    · exact h.put hvalid
    · split_ifs
      · exact h.put hvalid
      · exact h
  · exact h

lemma WellFormed.mergeLoop (h : WellFormed dumps memory) (entries : List (VectorMemoryEntry μ τ)) :
    WellFormed dumps (memory.mergeLoop dumps entries).1 := by
  induction entries generalizing memory with
  | nil => exact h
  | cons raw entries ih => exact ih (h.mergeEntry raw)

lemma WellFormed.mergeEntries (h : WellFormed dumps memory)
    (entries : List (VectorMemoryEntry μ τ)) :
    WellFormed dumps (memory.mergeEntries dumps entries).1 :=
  (h.mergeLoop entries).computeMerkleRoot

/-- A valid entry challenges the entry of its id. -/
lemma getItem_mergeEntry (h : WellFormed dumps memory) {entry : VectorMemoryEntry μ τ}
    (hvalid : entry.verifyIntegrity dumps = true) (key : String) :
    getItem (memory.mergeEntry dumps entry).1.entries key =
      if entry.entryId = key then some (hold Supersedes (getItem memory.entries key) entry)
      else getItem memory.entries key := by
  rw [FederatedVectorMemory.mergeEntry, entry.ensureHash_of_verify hvalid, if_pos hvalid]
  cases hcurrent : getItem memory.entries entry.entryId with
  | none =>
      dsimp only [put]
      rw [getItem_setItem h.nodup]
      split_ifs with hkey
      · rw [← hkey, hcurrent, hold]
      · rfl
  | some current =>
      dsimp only
      by_cases hkey : entry.entryId = key
      · rw [if_pos hkey, ← hkey, hcurrent, hold, apply_ite Prod.fst, apply_ite entries,
          apply_ite (getItem · entry.entryId), hcurrent, put, getItem_setItem h.nodup, if_pos rfl,
          apply_ite some]
        rfl
      · rw [if_neg hkey]
        split_ifs
        · rw [put, getItem_setItem h.nodup, if_neg hkey]
        · rfl

/-- The entry of an id after the loop: who holds its place after the entries of the id. -/
lemma getItem_mergeLoop (h : WellFormed dumps memory) {entries : List (VectorMemoryEntry μ τ)}
    (hvalid : ∀ entry ∈ entries, entry.verifyIntegrity dumps = true) (key : String) :
    getItem (memory.mergeLoop dumps entries).1.entries key =
      holder Supersedes (getItem memory.entries key) (entries.filter (·.entryId = key)) := by
  induction entries generalizing memory with
  | nil => rfl
  | cons entry entries ih =>
      have hentry := hvalid entry List.mem_cons_self
      have hrest : ∀ entry ∈ entries, entry.verifyIntegrity dumps = true :=
        fun e he => hvalid e (List.mem_cons_of_mem entry he)
      change getItem ((memory.mergeEntry dumps entry).1.mergeLoop dumps entries).1.entries key = _
      rw [ih (h.mergeEntry entry) hrest, getItem_mergeEntry h hentry, List.filter_cons]
      simp only [decide_eq_true_eq]
      split_ifs
      · rfl
      · rfl

lemma getItem_mergeEntries (h : WellFormed dumps memory) {entries : List (VectorMemoryEntry μ τ)}
    (hvalid : ∀ entry ∈ entries, entry.verifyIntegrity dumps = true) (key : String) :
    getItem (memory.mergeEntries dumps entries).1.entries key =
      holder Supersedes (getItem memory.entries key) (entries.filter (·.entryId = key)) := by
  rw [← getItem_mergeLoop h hvalid, mergeEntries, computeMerkleRoot_entries]

/-- The batches one after the other. -/
def mergeBatches (dumps : μ → String) (memory : FederatedVectorMemory μ τ)
    (batches : List (List (VectorMemoryEntry μ τ))) : FederatedVectorMemory μ τ :=
  batches.foldl (fun memory batch => (memory.mergeEntries dumps batch).1) memory

lemma WellFormed.mergeBatches (h : WellFormed dumps memory)
    (batches : List (List (VectorMemoryEntry μ τ))) :
    WellFormed dumps (memory.mergeBatches dumps batches) := by
  induction batches generalizing memory with
  | nil => exact h
  | cons batch batches ih => exact ih (h.mergeEntries batch)

/-- The batching does not matter. -/
lemma getItem_mergeBatches (h : WellFormed dumps memory)
    {batches : List (List (VectorMemoryEntry μ τ))}
    (hvalid : ∀ entry ∈ batches.flatten, entry.verifyIntegrity dumps = true) (key : String) :
    getItem (memory.mergeBatches dumps batches).entries key =
      holder Supersedes (getItem memory.entries key)
        (batches.flatten.filter (·.entryId = key)) := by
  induction batches generalizing memory with
  | nil => rfl
  | cons batch batches ih =>
      rw [List.flatten_cons] at hvalid
      have hbatch := getItem_mergeEntries h
        (fun e he => hvalid e (List.mem_append_left _ he)) key
      change getItem ((memory.mergeEntries dumps batch).1.mergeBatches dumps batches).entries key = _
      rw [ih (h.mergeEntries batch) (fun e he => hvalid e (List.mem_append_right _ he)), hbatch,
        List.flatten_cons, List.filter_append, holder_append]

end Merge

/-- The same entry for every id, and the same root. -/
def SameContent (memory memory' : FederatedVectorMemory μ τ) : Prop :=
  (∀ key, getItem memory.entries key = getItem memory'.entries key) ∧
    memory.computeMerkleRoot.2 = memory'.computeMerkleRoot.2

/-- The entries decide the root. -/
lemma sameContent_iff {memory' : FederatedVectorMemory μ τ} (h : WellFormed dumps memory)
    (h' : WellFormed dumps memory') :
    SameContent memory memory' ↔
      ∀ key, getItem memory.entries key = getItem memory'.entries key := by
  refine ⟨fun hsame => hsame.1, fun hentries => ⟨hentries, ?_⟩⟩
  rw [h.root, h'.root]
  exact merkleRoot_perm (PySequence.perm_of_getItem_eq h.nodup h'.nodup hentries)

/-- The exported entry of an id. -/
lemma exportEntries_filter (h : WellFormed dumps memory) (key : String) :
    memory.exportEntries.filter (·.entryId = key) = (getItem memory.entries key).toList := by
  obtain ⟨hnodup, hkeyed, -, -⟩ := h
  rw [exportEntries]
  generalize memory.entries = items at hnodup hkeyed ⊢
  induction items with
  | nil => rfl
  | cons item items ih =>
      obtain ⟨k, entry⟩ := item
      rw [List.map_cons, List.nodup_cons] at hnodup
      have hid : entry.entryId = k := hkeyed (k, entry) List.mem_cons_self
      have hrest := ih hnodup.2 fun item hitem => hkeyed item (List.mem_cons_of_mem _ hitem)
      rw [List.map_cons, List.filter_cons, hrest, PySequence.getItem_cons]
      simp only [hid, decide_eq_true_eq]
      split_ifs with hkey
      · rw [← hkey, PySequence.getItem_eq_none hnodup.1]
        rfl
      · rw [Option.or_none]

lemma exportEntries_valid (h : WellFormed dumps memory) :
    ∀ entry ∈ memory.exportEntries, entry.verifyIntegrity dumps = true := by
  intro entry hentry
  obtain ⟨item, hitem, rfl⟩ := List.mem_map.mp hentry
  exact h.valid item hitem

section Convergence

variable [Preorder τ] [DecidableLT τ]

/-- The memories that the operations lead to. -/
inductive Reachable (dumps : μ → String) : FederatedVectorMemory μ τ → Prop
  | empty : Reachable dumps {}
  | store {memory : FederatedVectorMemory μ τ} (fields : VectorMemoryEntry μ τ) :
      Reachable dumps memory → Reachable dumps (memory.store dumps fields)
  | mergeEntries {memory : FederatedVectorMemory μ τ} (entries : List (VectorMemoryEntry μ τ)) :
      Reachable dumps memory → Reachable dumps (memory.mergeEntries dumps entries).1
  | computeMerkleRoot {memory : FederatedVectorMemory μ τ} :
      Reachable dumps memory → Reachable dumps memory.computeMerkleRoot.1

lemma Reachable.wellFormed (h : Reachable dumps memory) : WellFormed dumps memory := by
  induction h with
  | empty => exact wellFormed_empty
  | store fields _ ih => exact ih.store fields
  | mergeEntries entries _ ih => exact ih.mergeEntries entries
  | computeMerkleRoot _ ih => exact ih.computeMerkleRoot

/-- The entries of one id, some of which supersedes the others. -/
def Decided (entries : List (VectorMemoryEntry μ τ)) : Prop :=
  ∀ entry ∈ entries, ∃ m ∈ entries, m.entryId = entry.entryId ∧
    ∀ e ∈ entries, e.entryId = entry.entryId → e ≠ m → Supersedes m e

omit [DecidableLT τ] in
lemma decided_iff {entries : List (VectorMemoryEntry μ τ)} :
    Decided entries ↔ ∀ key, entries.filter (·.entryId = key) ≠ [] →
      ∃ m, Champion Supersedes m (entries.filter (·.entryId = key)) := by
  simp only [Champion, List.mem_filter, decide_eq_true_eq]
  constructor
  · intro h key hne
    obtain ⟨entry, hentry⟩ := List.exists_mem_of_ne_nil _ hne
    obtain ⟨hmem, hkey⟩ := List.mem_filter.mp hentry
    obtain ⟨m, hm, hid, hothers⟩ := h entry hmem
    rw [of_decide_eq_true hkey] at hid hothers
    exact ⟨m, ⟨hm, hid⟩, fun e he hne => hothers e he.1 he.2 hne⟩
  · intro h entry hentry
    obtain ⟨m, ⟨hm, hid⟩, hothers⟩ := h entry.entryId
      (List.ne_nil_of_mem (List.mem_filter.mpr ⟨hentry, decide_eq_true rfl⟩))
    exact ⟨m, hm, hid, fun e he heid hne => hothers e ⟨he, heid⟩ hne⟩

/-- All the ways to merge a collection agree exactly where every id has a decided entry. -/
lemma mergeBatches_agree_iff {entries : List (VectorMemoryEntry μ τ)}
    (hvalid : ∀ entry ∈ entries, entry.verifyIntegrity dumps = true) :
    (∀ batches batches' : List (List (VectorMemoryEntry μ τ)), batches.flatten.Perm entries →
        batches'.flatten.Perm entries →
        SameContent (mergeBatches dumps {} batches) (mergeBatches dumps {} batches')) ↔
      Decided entries := by
  have hlookup : ∀ batches : List (List (VectorMemoryEntry μ τ)), batches.flatten.Perm entries →
      ∀ key, getItem (mergeBatches dumps {} batches).entries key =
        holder Supersedes none (batches.flatten.filter (·.entryId = key)) :=
    fun batches hperm key => getItem_mergeBatches wellFormed_empty
      (fun entry hentry => hvalid entry (hperm.mem_iff.mp hentry)) key
  have hwell : ∀ batches, WellFormed dumps (mergeBatches dumps {} batches) :=
    fun batches => wellFormed_empty.mergeBatches (τ := τ) batches
  rw [decided_iff]
  constructor
  · intro h key hne
    rw [← holder_perm_iff Supersedes.asymm hne]
    intro xs ys hxs hys
    -- the entries of the id in any order, and then the others
    have hextend : ∀ zs : List (VectorMemoryEntry μ τ),
        zs.Perm (entries.filter (·.entryId = key)) →
        ([zs ++ entries.filter (fun e => ¬ e.entryId = key)].flatten.Perm entries) ∧
          [zs ++ entries.filter (fun e => ¬ e.entryId = key)].flatten.filter (·.entryId = key) =
            zs := by
      intro zs hzs
      rw [List.flatten_singleton]
      constructor
      · apply (hzs.append_right _).trans
        simpa using List.filter_append_perm (fun e => decide (e.entryId = key)) entries
      · rw [List.filter_append, List.filter_filter, List.filter_eq_self.mpr]
        · simp
        · exact fun e he => (List.mem_filter.mp (hzs.mem_iff.mp he)).2
    obtain ⟨hpermx, hfilterx⟩ := hextend xs hxs
    obtain ⟨hpermy, hfiltery⟩ := hextend ys hys
    have hsame := (h _ _ hpermx hpermy).1 key
    rwa [hlookup _ hpermx, hlookup _ hpermy, hfilterx, hfiltery] at hsame
  · intro h batches batches' hperm hperm'
    apply (sameContent_iff (hwell batches) (hwell batches')).mpr
    intro key
    rw [hlookup batches hperm, hlookup batches' hperm']
    by_cases hne : entries.filter (·.entryId = key) = []
    · have hnil : ∀ zs : List (VectorMemoryEntry μ τ), zs.Perm entries →
          zs.filter (·.entryId = key) = [] := by
        intro zs hzs
        have hfilter := hzs.filter (fun e => decide (e.entryId = key))
        rw [hne] at hfilter
        exact List.perm_nil.mp hfilter
      rw [hnil _ hperm, hnil _ hperm']
    · exact (holder_perm_iff Supersedes.asymm hne).mpr (h key hne) _ _ (hperm.filter _)
        (hperm'.filter _)

/-- Two replicas agree after an exchange exactly where every entry that differs has a winner. -/
lemma exchange_agree_iff {a b : FederatedVectorMemory μ τ} (ha : WellFormed dumps a)
    (hb : WellFormed dumps b) :
    SameContent (a.mergeEntries dumps b.exportEntries).1
        (b.mergeEntries dumps a.exportEntries).1 ↔
      ∀ key x y, getItem a.entries key = some x → getItem b.entries key = some y →
        x = y ∨ Supersedes x y ∨ Supersedes y x := by
  rw [sameContent_iff (ha.mergeEntries _) (hb.mergeEntries _)]
  apply forall_congr'
  intro key
  rw [getItem_mergeEntries ha (exportEntries_valid hb), exportEntries_filter hb,
    getItem_mergeEntries hb (exportEntries_valid ha), exportEntries_filter ha]
  cases getItem a.entries key with
  | none => cases getItem b.entries key <;> simp [hold]
  | some x =>
      cases getItem b.entries key with
      | none => simp [hold]
      | some y =>
          rw [Option.toList_some, Option.toList_some, holder_cons, holder_cons, holder_nil,
            holder_nil, Option.some.injEq, hold_comm_iff Supersedes.asymm]
          constructor
          · rintro h _ _ ⟨⟩ ⟨⟩
            exact h
          · exact fun h => h x y rfl rfl

/-- What replicated memories agree on, and where. -/
theorem replicas_converge_iff (dumps : μ → String) :
    (∀ entries : List (VectorMemoryEntry μ τ),
      (∀ entry ∈ entries, entry.verifyIntegrity dumps = true) →
      ((∀ batches batches' : List (List (VectorMemoryEntry μ τ)), batches.flatten.Perm entries →
          batches'.flatten.Perm entries →
          SameContent (mergeBatches dumps {} batches) (mergeBatches dumps {} batches')) ↔
        Decided entries)) ∧
      ∀ a b : FederatedVectorMemory μ τ, Reachable dumps a → Reachable dumps b →
        (SameContent (a.mergeEntries dumps b.exportEntries).1
            (b.mergeEntries dumps a.exportEntries).1 ↔
          ∀ key x y, getItem a.entries key = some x → getItem b.entries key = some y →
            x = y ∨ Supersedes x y ∨ Supersedes y x) :=
  ⟨fun _ hvalid => mergeBatches_agree_iff hvalid,
    fun _ _ ha hb => exchange_agree_iff ha.wellFormed hb.wellFormed⟩

end Convergence

section Sample

/-- An entry of one shared id, valid and of one time. -/
def sample (content : String) : VectorMemoryEntry String ℤ :=
  { entryId := "vec-1", taskId := "t", category := .lesson, content, metadata := "\x7b\x7d",
    embedding := [], timestamp := 100 : VectorMemoryEntry String ℤ }.ensureHash id

lemma sample_valid (content : String) : (sample content).verifyIntegrity id = true :=
  ensureHash_verify rfl

lemma sample_fields (content : String) : (sample content).entryId = "vec-1" ∧
    (sample content).content = content ∧ (sample content).timestamp = 100 := ⟨rfl, rfl, rfl⟩

/-- Of two such entries the first one stays. -/
lemma first_sample_stays (a b : String) :
    getItem (mergeBatches id {} [[sample a, sample b]]).entries "vec-1" = some (sample a) := by
  have hvalid : ∀ entry ∈ [[sample a, sample b]].flatten, entry.verifyIntegrity id = true := by
    simp [sample_valid]
  rw [getItem_mergeBatches wellFormed_empty hvalid, List.flatten_singleton,
    List.filter_eq_self.mpr (by simp [sample_fields]), holder_cons]
  apply holder_keep
  rintro entry hentry - ⟨-, hlater⟩
  rw [List.mem_singleton.mp hentry] at hlater
  exact lt_irrefl (100 : ℤ) hlater

/-- Two agents learn different lessons under one id at the same time. -/
theorem order_decides_entry :
    (∀ content, (sample content).verifyIntegrity id = true) ∧
      ¬ SameContent (mergeBatches id {} [[sample "A", sample "B"]])
        (mergeBatches id {} [[sample "B", sample "A"]]) := by
  refine ⟨sample_valid, fun hsame => ?_⟩
  have hentry := hsame.1 "vec-1"
  rw [first_sample_stays, first_sample_stays, Option.some.injEq] at hentry
  have hcontent : "A" = "B" := congrArg VectorMemoryEntry.content hentry
  exact absurd hcontent (by decide)

/-- A single lesson is the same everywhere, and a new replica learns it. -/
theorem single_lesson_agrees :
    SameContent (mergeBatches id {} [[sample "A"], [sample "A"]])
        (mergeBatches id {} [[], [sample "A", sample "A"]]) ∧
      SameContent
        (({} : FederatedVectorMemory String ℤ).mergeEntries id
          (store {} id (sample "A")).exportEntries).1
        ((store {} id (sample "A")).mergeEntries id
          ({} : FederatedVectorMemory String ℤ).exportEntries).1 := by
  constructor
  · apply ((replicas_converge_iff id).1 [sample "A", sample "A"] ?_).mpr
    · intro entry hentry
      refine ⟨entry, hentry, rfl, fun e he _ hne => ?_⟩
      simp only [List.mem_cons, List.not_mem_nil, or_false, or_self] at hentry he
      exact absurd (he.trans hentry.symm) hne
    · exact List.Perm.refl _
    · exact List.Perm.refl _
    · simp [sample_valid]
  · apply ((replicas_converge_iff id).2 {} _ .empty (.store _ .empty)).mpr
    intro key x y hx
    simp [PySequence.getItem_nil] at hx

end Sample

end FederatedVectorMemory

end AgentSystem.VectorMemory
