import AgentSystem.AuditDaemon
import AgentSystem.AuditIntegrity

/-!
# Recovery

What `process_response` leaves in a valid ledger. The incoming rows are checked against the last
hash of the default tenant, and `INSERT OR REPLACE` puts them wherever their ids say: a message
appends only if it writes first what is stored after that row anyway and then new rows with
ascending ids.
-/
namespace AgentSystem.Audit

open Json Sha256

variable {D : Type} {l : Ledger}

/-! ## Inserted rows -/

def Ledger.replaceAll (l : Ledger) (ws : List Row) : Ledger := ws.foldl Ledger.replace l

section Writes

variable [Coercion D]

/-- The row that an insert of a log writes, `none` when it raises. -/
def Log.row (log : Log D) (sequence : ℤ) : Option Row := do
  rowOf sequence (← log.id) (← log.eventType) (← log.payload) (← log.previousHash)
    (← log.currentHash) (← log.timestamp) (log.tenantId.getD (strValue "default_tenant"))

/-- The rows that the inserts of these logs write, up to the first one that raises. -/
def rowsOf (sequence : ℤ) : List (Option (Log D)) → List Row
  | [] => []
  | log :: logs =>
      match log.bind (Log.row · sequence) with
      | none => []
      | some row => row :: rowsOf (max sequence row.id) logs

lemma insertLogs_eq (l : Ledger) (logs : List (Option (Log D))) :
    insertLogs l logs =
      (l.replaceAll (rowsOf l.sequence logs), (rowsOf l.sequence logs).length == logs.length) := by
  induction logs generalizing l with
  | nil => rfl
  | cons log logs ih =>
      have hinsert : (do
          let log ← log
          l.insertRawEvent (← log.id) (← log.eventType) (← log.payload) (← log.previousHash)
            (← log.currentHash) (← log.timestamp)
            (log.tenantId.getD (strValue "default_tenant"))) =
          (log.bind (Log.row · l.sequence)).map l.replace := by
        simp only [Log.row, Ledger.insertRawEvent, Option.bind_eq_bind, Option.map_bind,
          Function.comp_def]
      rw [insertLogs, rowsOf, hinsert]
      cases log.bind (Log.row · l.sequence) with
      | none => rfl
      | some row =>
          simp only [Option.map_some, ih (l.replace row)]
          refine Prod.ext rfl ?_
          simp [Ledger.replace]

end Writes

lemma mem_replace {row w : Row} :
    row ∈ (l.replace w).rows ↔ row = w ∨ row ∈ l.rows ∧ row.id ≠ w.id := by
  simp only [Ledger.replace, List.mem_append, List.mem_cons, List.mem_filter, decide_eq_true_eq]
  constructor
  · rintro (⟨hmem, hlt⟩ | rfl | ⟨hmem, hlt⟩)
    · exact .inr ⟨hmem, hlt.ne⟩
    · exact .inl rfl
    · exact .inr ⟨hmem, hlt.ne'⟩
  · rintro (rfl | ⟨hmem, hne⟩)
    · exact .inr (.inl rfl)
    · rcases lt_or_gt_of_ne hne with hlt | hlt
      · exact .inl ⟨hmem, hlt⟩
      · exact .inr (.inr ⟨hmem, hlt⟩)

/-- At this position stands a row whose id no later row of the list has. -/
def Survives (ws : List Row) (j : ℕ) (row : Row) : Prop :=
  ws[j]? = some row ∧ ∀ later ∈ ws.drop (j + 1), later.id ≠ row.id

lemma mem_replaceAll {row : Row} {ws : List Row} : row ∈ (l.replaceAll ws).rows ↔
    (∃ j, Survives ws j row) ∨ row ∈ l.rows ∧ ∀ w ∈ ws, w.id ≠ row.id := by
  induction ws generalizing l with
  | nil => simp [Ledger.replaceAll, Survives]
  | cons w ws ih =>
      have hcons : (∃ j, Survives (w :: ws) j row) ↔
          (row = w ∧ ∀ later ∈ ws, later.id ≠ row.id) ∨ ∃ j, Survives ws j row := by
        constructor
        · rintro ⟨_ | j, hget, hlater⟩
          · rw [List.getElem?_cons_zero, Option.some.injEq] at hget
            exact .inl ⟨hget.symm, hlater⟩
          · exact .inr ⟨j, hget, hlater⟩
        · rintro (⟨rfl, hlater⟩ | ⟨j, hget, hlater⟩)
          · exact ⟨0, rfl, hlater⟩
          · exact ⟨j + 1, hget, hlater⟩
      have hfold : l.replaceAll (w :: ws) = (l.replace w).replaceAll ws := rfl
      rw [hfold, ih, mem_replace, hcons, List.forall_mem_cons]
      constructor
      · rintro (hlater | ⟨rfl | ⟨hmem, hne⟩, hnone⟩)
        · exact .inl (.inr hlater)
        · exact .inl (.inl ⟨rfl, hnone⟩)
        · exact .inr ⟨hmem, hne.symm, hnone⟩
      · rintro ((⟨rfl, hnone⟩ | hlater) | ⟨hmem, hne, hnone⟩)
        · exact .inr ⟨.inl rfl, hnone⟩
        · exact .inl hlater
        · exact .inr ⟨.inr ⟨hmem, hne.symm⟩, hnone⟩

/-- An id that some row of the list has stands last at one position. -/
lemma exists_survives {ws : List Row} {w : Row} (h : w ∈ ws) :
    ∃ j row, Survives ws j row ∧ row.id = w.id := by
  induction ws generalizing w with
  | nil => cases h
  | cons first ws ih =>
      by_cases hlater : ∃ later ∈ ws, later.id = w.id
      · obtain ⟨later, hmem, hid⟩ := hlater
        obtain ⟨j, row, ⟨hget, hnone⟩, hrow⟩ := ih hmem
        exact ⟨j + 1, row, ⟨hget, hnone⟩, hrow.trans hid⟩
      · rcases List.mem_cons.mp h with rfl | hmem
        · exact ⟨0, w, ⟨rfl, fun later hmem hid => hlater ⟨later, hmem, hid⟩⟩, rfl⟩
        · exact absurd ⟨w, hmem, rfl⟩ hlater

/-! ## Chains after the inserts -/

variable [Interpreter D]

variable (l) in
/-- The rows after the last one of the default tenant. -/
def Ledger.unlisted : List Row := l.rows.rtakeWhile fun row => row.tenantId ≠ some "default_tenant"

variable (l) in
/-- The rows up to the last one of the default tenant. -/
def Ledger.listed : List Row := l.rows.rdropWhile fun row => row.tenantId ≠ some "default_tenant"

lemma rows_split : l.rows = l.listed ++ l.unlisted := List.rdropWhile_append_rtakeWhile.symm

lemma getLast?_rdropWhile {α : Type} {p : α → Prop} [DecidablePred p] (xs : List α) :
    (xs.rdropWhile fun x => ¬ p x).getLast? = (xs.filter fun x => p x).getLast? := by
  induction xs using List.reverseRecOn with
  | nil => rfl
  | append_singleton xs x ih =>
      by_cases hx : p x
      · rw [List.rdropWhile_concat_neg _ _ _ (by simpa using hx), List.filter_append]
        simp [hx]
      · rw [List.rdropWhile_concat_pos _ _ _ (by simpa using hx), List.filter_append, ih]
        simp [hx]

/-- The last hash of the default tenant is that of the rows up to its last one. -/
lemma expectedHash_eq (d : Daemon) :
    d.expectedHash = HashChain.last (chain D) zeroHash d.ledger.listed := by
  rw [HashChain.last, Ledger.listed, getLast?_rdropWhile]
  rfl

/-- The rows that a message writes copy the stored rows after the last one of the default tenant,
one for one, unless a later one replaces them; what comes after them continues the ledger. -/
structure Continues (D : Type) [Interpreter D] (l : Ledger) (ws : List Row) : Prop where
  copies : ∀ j row w, l.unlisted[j]? = some row → ws[j]? = some w →
    w.currentHash = row.currentHash ∧ (Survives ws j w → w = row)
  ascending : (ws.drop l.unlisted.length).Pairwise (·.id < ·.id)
  above : ∀ w ∈ ws.drop l.unlisted.length, ∀ row ∈ l.rows, row.id < w.id
  hashed : ∀ w ∈ ws.drop l.unlisted.length, w.currentHash = hexdigest (w.checkedInput D)

/-- The hash of a row that was computed from one of these strings. -/
def Committed (strings : List String) (row : Row) : Prop :=
  row.previousHash.length = 64 ∧ ∃ rest, row.previousHash ++ rest ∈ strings ∧
    row.currentHash = hexdigest (row.previousHash ++ rest)

section Commitment

variable {strings : List String} (resistant : Resistant strings)
include resistant

lemma Committed.previousHash_eq {row row' : Row} (h : Committed strings row)
    (h' : Committed strings row') (heq : row.currentHash = row'.currentHash) :
    row.previousHash = row'.previousHash := by
  obtain ⟨hlength, rest, hmem, hhash⟩ := h
  obtain ⟨hlength', rest', hmem', hhash'⟩ := h'
  rw [hhash, hhash'] at heq
  have hlists := congrArg String.toList (resistant.injOn hmem hmem' heq)
  rw [String.toList_append, String.toList_append] at hlists
  refine String.toList_injective (List.append_inj_left hlists ?_)
  rw [String.length_toList, String.length_toList, hlength, hlength']

lemma Committed.ne_zero {row : Row} (h : Committed strings row) : row.currentHash ≠ zeroHash := by
  obtain ⟨-, rest, hmem, hhash⟩ := h
  rw [hhash]
  exact resistant.ne_zero _ hmem

end Commitment

section Continuation

variable {ws : List Row}

lemma ids_injective {row other : Row} (hrow : row ∈ l.rows) (hother : other ∈ l.rows)
    (hid : row.id = other.id) : row = other :=
  List.inj_on_of_nodup_map (l.sorted.imp fun hlt => hlt.ne) hrow hother hid

lemma getElem?_drop {α : Type} {xs : List α} {n j : ℕ} (hj : n ≤ j) {x : α} (h : xs[j]? = some x) :
    x ∈ xs.drop n := by
  rw [List.mem_iff_getElem?]
  exact ⟨j - n, by rw [List.getElem?_drop, Nat.add_sub_cancel' hj, h]⟩

/-- The rows that such a message leaves behind. -/
lemma Continues.rows_eq (h : Continues D l ws) :
    (l.replaceAll ws).rows = l.rows ++ ws.drop l.unlisted.length := by
  have hrow {j : ℕ} {w : Row} (hsurvives : Survives ws j w) :
      w ∈ l.unlisted ∨ w ∈ ws.drop l.unlisted.length := by
    by_cases hj : j < l.unlisted.length
    · have hget := List.getElem?_eq_getElem hj
      rw [(h.copies j _ w hget hsurvives.1).2 hsurvives]
      exact .inl (List.getElem_mem hj)
    · exact .inr (getElem?_drop (Nat.le_of_not_lt hj) hsurvives.1)
  have hunlisted : l.unlisted ⊆ l.rows := by
    intro row hmem
    rw [rows_split]
    exact List.mem_append_right _ hmem
  have hsorted : (l.rows ++ ws.drop l.unlisted.length).Pairwise (·.id < ·.id) := by
    rw [List.pairwise_append]
    exact ⟨List.pairwise_map.mp l.sorted, h.ascending, fun row hmem w hw => h.above w hw row hmem⟩
  have hsorted' := List.pairwise_map.mp (l.replaceAll ws).sorted
  have hnodup {rows : List Row} (hlt : rows.Pairwise (·.id < ·.id)) : rows.Nodup :=
    hlt.imp fun hid heq => hid.ne (congrArg Row.id heq)
  refine List.Perm.eq_of_pairwise (fun row other _ _ hlt hgt => absurd hlt hgt.not_gt) hsorted'
    hsorted ((List.perm_ext_iff_of_nodup (hnodup hsorted') (hnodup hsorted)).mpr fun row => ?_)
  rw [mem_replaceAll, List.mem_append]
  constructor
  · rintro (⟨j, hsurvives⟩ | ⟨hmem, -⟩)
    · exact (hrow hsurvives).imp (fun hmem => hunlisted hmem) id
    · exact .inl hmem
  · rintro (hmem | hmem)
    · by_cases hnone : ∀ w ∈ ws, w.id ≠ row.id
      · exact .inr ⟨hmem, hnone⟩
      · push Not at hnone
        obtain ⟨w, hw, hid⟩ := hnone
        obtain ⟨j, last, hsurvives, hlast⟩ := exists_survives hw
        rcases hrow hsurvives with hstored | hnew
        · rw [ids_injective hmem (hunlisted hstored) (hid.symm.trans hlast.symm)]
          exact .inl ⟨j, hsurvives⟩
        · exact absurd (hlast.trans hid) (h.above last hnew row hmem).ne'
    · obtain ⟨j, hget⟩ := List.mem_iff_getElem?.mp hmem
      obtain ⟨hj, hrow⟩ := List.getElem?_eq_some_iff.mp hget
      have hascending := h.ascending.drop (i := j)
      rw [List.drop_eq_getElem_cons hj, hrow, List.drop_drop, List.pairwise_cons] at hascending
      rw [List.getElem?_drop] at hget
      exact .inl ⟨_, hget, fun later hlater => (hascending.1 later hlater).ne'⟩

/-- The rows that such a message leaves behind form a valid chain. -/
lemma Continues.valid (h : Continues D l ws) (hvalid : HashChain.Valid (chain D) zeroHash l.rows)
    (hlinked : HashChain.Linked (chain D) (HashChain.last (chain D) zeroHash l.listed) ws) :
    HashChain.Valid (chain D) zeroHash (l.replaceAll ws).rows := by
  rw [h.rows_eq, HashChain.valid_append]
  refine ⟨hvalid, ?_, h.hashed⟩
  by_cases hlength : ws.length ≤ l.unlisted.length
  · rw [List.drop_eq_nil_of_le hlength]
    trivial
  · have htake : (ws.take l.unlisted.length).map (chain D).current =
        l.unlisted.map (chain D).current := by
      have hle : l.unlisted.length ≤ ws.length := Nat.le_of_not_le hlength
      refine List.ext_getElem (by simpa using hle) fun j hj hj' => ?_
      rw [List.length_map] at hj'
      rw [List.getElem_map, List.getElem_map, List.getElem_take]
      exact (h.copies j _ _ (List.getElem?_eq_getElem hj')
        (List.getElem?_eq_getElem (hj'.trans_le hle))).1
    rw [← List.take_append_drop l.unlisted.length ws, HashChain.linked_append,
      HashChain.last_eq_of_hashes htake, ← HashChain.last_append, ← rows_split] at hlinked
    exact hlinked.2

/-- The last hash that the message writes commits to the ones before it: they are the hashes that
follow those of the listed rows. -/
lemma hashes_prefix {strings : List String} (resistant : Resistant strings)
    {added : List Row} (hadded : l.rows ++ added = (l.replaceAll ws).rows)
    (hstored : ∀ row ∈ (l.replaceAll ws).rows, Committed strings row)
    (hcommitted : ∀ w ∈ ws, Committed strings w)
    (hlinked : HashChain.Linked (chain D) (HashChain.last (chain D) zeroHash l.listed) ws)
    (hlinked' : HashChain.Linked (chain D) zeroHash (l.replaceAll ws).rows) :
    ws.map Row.currentHash <+: (l.unlisted ++ added).map Row.currentHash := by
  rcases List.eq_nil_or_concat ws with hnil | ⟨before, w, hconcat⟩
  · rw [hnil]
    exact List.nil_prefix
  · rw [List.concat_eq_append] at hconcat
    have hrows : (l.replaceAll ws).rows = l.listed ++ (l.unlisted ++ added) := by
      rw [← hadded, ← List.append_assoc, ← rows_split]
    have hsurvives : Survives ws before.length w := by
      rw [hconcat]
      exact ⟨by simp, by simp⟩
    obtain ⟨firsts, rest, hsplit⟩ :=
      List.mem_iff_append.mp (mem_replaceAll.mpr (.inl ⟨_, hsurvives⟩))
    have hlisted : l.listed ⊆ (l.replaceAll ws).rows := by
      rw [hrows]
      exact List.subset_append_left _ _
    have hchain : HashChain.Linked (chain D) zeroHash (l.listed ++ ws) := by
      rw [hrows, HashChain.linked_append] at hlinked'
      exact HashChain.linked_append.mpr ⟨hlinked'.1, hlinked⟩
    rw [hsplit, List.append_cons, HashChain.linked_append] at hlinked'
    have hfirst : firsts ++ [w] ⊆ (l.replaceAll ws).rows := by
      rw [hsplit, List.append_cons firsts w rest]
      exact List.subset_append_left _ _
    have hall : ∀ row ∈ l.listed ++ ws, Committed strings row := by
      intro row hrow
      exact (List.mem_append.mp hrow).elim (fun h => hstored row (hlisted h)) (hcommitted row)
    have hsame := hlinked'.1.hashes_eq hchain
      (fun row hrow row' hrow' heq =>
        (hstored row (hfirst hrow)).previousHash_eq resistant (hall row' hrow') heq)
      (fun row hrow => (hstored row (hfirst hrow)).ne_zero resistant)
      (fun row hrow => (hall row hrow).ne_zero resistant)
      (by rw [hconcat, ← List.append_assoc, HashChain.last_concat, HashChain.last_concat])
    have hhashes : (l.listed ++ (l.unlisted ++ added)).map Row.currentHash =
        (l.listed ++ ws).map Row.currentHash ++ rest.map Row.currentHash := by
      rw [← hrows, hsplit, List.append_cons, List.map_append]
      exact congrArg (· ++ rest.map Row.currentHash) hsame
    rw [List.map_append, @List.map_append _ _ Row.currentHash l.listed ws, List.append_assoc] at hhashes
    exact ⟨_, (List.append_cancel_left hhashes).symm⟩

/-- A message that keeps the ledger valid and its rows in place is such a continuation. -/
lemma continues_of_valid {strings : List String} (resistant : Resistant strings)
    (hchecked : ∀ row ∈ (l.replaceAll ws).rows, row.checkedInput D ∈ strings)
    (hcommitted : ∀ w ∈ ws, Committed strings w)
    (hlinked : HashChain.Linked (chain D) (HashChain.last (chain D) zeroHash l.listed) ws)
    (hvalid : HashChain.Valid (chain D) zeroHash (l.replaceAll ws).rows)
    (hinitial : l.rows <+: (l.replaceAll ws).rows) : Continues D l ws := by
  obtain ⟨added, hadded⟩ := hinitial
  have hrows : (l.replaceAll ws).rows = l.listed ++ (l.unlisted ++ added) := by
    rw [← hadded, ← List.append_assoc, ← rows_split]
  have hstored : ∀ row ∈ (l.replaceAll ws).rows, Committed strings row := by
    intro row hrow
    refine ⟨previousHash_length hvalid row hrow, canonical D row.payload ++ row.timestamp, ?_, ?_⟩
    · rw [← String.append_assoc]
      exact hchecked row hrow
    · rw [← String.append_assoc]
      exact hvalid.hashed row hrow
  have hnodup : ((l.replaceAll ws).rows.map Row.currentHash).Nodup :=
    currentHash_nodup hvalid (resistant.mono fun s hs => by
      obtain ⟨row, hrow, rfl⟩ := List.mem_map.mp hs
      exact hchecked row hrow)
  have hsorted := List.pairwise_map.mp (l.replaceAll ws).sorted
  rw [← hadded, List.pairwise_append] at hsorted
  obtain ⟨-, hascending, habove⟩ := hsorted
  have htail : ∀ row ∈ l.unlisted ++ added, row ∈ (l.replaceAll ws).rows := by
    rw [hrows]
    exact fun row hrow => List.mem_append_right _ hrow
  have hhash {j : ℕ} {w : Row} (hget : ws[j]? = some w) :
      ∃ row, (l.unlisted ++ added)[j]? = some row ∧ row.currentHash = w.currentHash := by
    obtain ⟨more, hmore⟩ := hashes_prefix resistant hadded hstored hcommitted hlinked hvalid.linked
    have hlist : ((l.unlisted ++ added).map Row.currentHash)[j]? = some w.currentHash := by
      rw [← hmore, List.getElem?_append_left, List.getElem?_map, hget, Option.map_some]
      rw [List.length_map]
      exact (List.getElem?_eq_some_iff.mp hget).1
    rw [List.getElem?_map] at hlist
    exact Option.map_eq_some_iff.mp hlist
  have hplace {j : ℕ} {w : Row} (hsurvives : Survives ws j w) :
      (l.unlisted ++ added)[j]? = some w := by
    obtain ⟨row, hrow, heq⟩ := hhash hsurvives.1
    rw [hrow, List.inj_on_of_nodup_map hnodup (htail row (List.mem_of_getElem? hrow))
      (mem_replaceAll.mpr (.inl ⟨j, hsurvives⟩)) heq]
  have htailNodup : (l.unlisted ++ added).Nodup := by
    have hall := hnodup.of_map
    rw [hrows] at hall
    exact hall.of_append_right
  have hnew : ws.drop l.unlisted.length <+: added := by
    rw [List.prefix_iff_getElem?]
    intro j hj
    have hget : ws[l.unlisted.length + j]? = some (ws.drop l.unlisted.length)[j] := by
      rw [← List.getElem?_drop, List.getElem?_eq_getElem hj]
    obtain ⟨row, hrow, -⟩ := hhash hget
    -- The row that stands there is one of the message, at the same position.
    have hadd : added[j]? = some row := by
      rwa [List.getElem?_append_right (Nat.le_add_right _ _), Nat.add_sub_cancel_left] at hrow
    rcases mem_replaceAll.mp (htail row (List.mem_of_getElem? hrow)) with ⟨k, hk⟩ | ⟨hmem, -⟩
    · have hposition := hplace hk
      have hsame : k = l.unlisted.length + j :=
        (List.getElem?_inj (List.getElem?_eq_some_iff.mp hposition).1 htailNodup).mp
          (hposition.trans hrow.symm)
      rw [hadd, ← hk.1, hsame, hget]
    · exact absurd rfl (habove row hmem row (List.mem_of_getElem? hadd)).ne
  refine ⟨fun j row w hrow hw => ?_, hascending.sublist hnew.sublist, fun w hw row hrow => ?_,
    fun w hw => ?_⟩
  · have hget : (l.unlisted ++ added)[j]? = some row := by
      rwa [List.getElem?_append_left (List.getElem?_eq_some_iff.mp hrow).1]
    obtain ⟨row', hrow', heq⟩ := hhash hw
    rw [hget, Option.some.injEq] at hrow'
    refine ⟨by rw [hrow', heq], fun hsurvives => ?_⟩
    have hsame := hplace hsurvives
    rw [hget, Option.some.injEq] at hsame
    exact hsame.symm
  · exact habove row hrow w (hnew.subset hw)
  · exact hvalid.hashed w (htail w (List.mem_append_right _ (hnew.subset hw)))

end Continuation

/-! ## Verified messages -/

section Messages

variable [Coercion D]

/-- The strings that the check of the incoming logs hashes. -/
def inputsOf (expectedPrevHash : String) : List (Option (Log D)) → List String
  | [] => []
  | none :: _ => []
  | some log :: logs =>
      if isText log.previousHash expectedPrevHash = false then []
      else
        match log.hashInput expectedPrevHash with
        | none => []
        | some input => input :: inputsOf (hexdigest input) logs

omit [Interpreter D] in
lemma textColumn_of_isText {value : PyValue D} {s : String} (h : isText (some value) s = true) :
    (textColumn value).join = some s := by
  cases value with
  | str t =>
      have ht : t = toPyStr s := of_decide_eq_true h
      rw [ht, textColumn, encode_toPyStr]
      rfl
  | _ => cases h

omit [Interpreter D] in
lemma row_hashes {log : Log D} {sequence : ℤ} {row : Row} (h : log.row sequence = some row)
    {previousHash currentHash : String} (hprevious : isText log.previousHash previousHash = true)
    (hcurrent : isText log.currentHash currentHash = true) :
    row.previousHash = previousHash ∧ row.currentHash = currentHash := by
  simp only [Log.row, Option.bind_eq_bind, Option.bind_eq_some_iff] at h
  obtain ⟨id, -, eventType, -, payload, -, previous, hp, current, hc, timestamp, -, hrow⟩ := h
  rw [hp] at hprevious
  rw [hc] at hcurrent
  simp only [rowOf, Option.bind_eq_bind, Option.bind_eq_some_iff, textColumn_of_isText hprevious,
    textColumn_of_isText hcurrent, Option.pure_def, Option.some.injEq] at hrow
  obtain ⟨_, -, _, -, _, -, _, rfl, _, rfl, _, -, _, -, rfl⟩ := hrow
  exact ⟨rfl, rfl⟩

lemma Log.reject_ne {log : Log D} : log.reject ≠ .verified := by
  unfold Log.reject
  split_ifs <;> simp

lemma Log.hashInput_eq {log : Log D} {previousHash input : String}
    (h : log.hashInput previousHash = some input) : ∃ rest, input = previousHash ++ rest := by
  simp only [Log.hashInput, Option.bind_eq_bind, Option.bind_eq_some_iff, Option.pure_def,
    Option.some.injEq] at h
  obtain ⟨payload, -, timestamp, -, rest, -, rfl⟩ := h
  exact ⟨rest, rfl⟩

/-- A message is verified log by log. -/
lemma verifyLogs_cons {log : Log D} {logs : List (Option (Log D))} {expected : String}
    (h : verifyLogs expected (some log :: logs) = .verified) :
    ∃ input, log.hashInput expected = some input ∧ isText log.previousHash expected = true ∧
      isText log.currentHash (hexdigest input) = true ∧
      verifyLogs (hexdigest input) logs = .verified ∧
      inputsOf expected (some log :: logs) = input :: inputsOf (hexdigest input) logs := by
  rw [verifyLogs] at h
  split_ifs at h with hprevious
  · exact absurd h Log.reject_ne
  · cases hinput : log.hashInput expected with
    | none =>
        rw [hinput] at h
        cases h
    | some input =>
        simp only [hinput] at h
        split_ifs at h with hcurrent
        · exact absurd h Log.reject_ne
        · refine ⟨input, rfl, Bool.not_eq_false _ ▸ hprevious, Bool.not_eq_false _ ▸ hcurrent, h, ?_⟩
          rw [inputsOf, if_neg hprevious, hinput]

/-- The rows of a verified message are linked, each with the hash of one of the strings of the
check. -/
lemma verified_rows {logs : List (Option (Log D))} {expected : String}
    (hverified : verifyLogs expected logs = .verified) (hlength : expected.length = 64)
    (sequence : ℤ) :
    HashChain.Linked (chain D) expected (rowsOf sequence logs) ∧
      ∀ w ∈ rowsOf sequence logs, Committed (inputsOf expected logs) w := by
  induction logs generalizing expected sequence with
  | nil => exact ⟨trivial, by simp [rowsOf]⟩
  | cons log logs ih =>
      cases log with
      | none => cases hverified
      | some log =>
          obtain ⟨input, hinput, hprevious, hcurrent, hrest, hinputs⟩ := verifyLogs_cons hverified
          rw [rowsOf, Option.bind_some]
          cases hrow : log.row sequence with
          | none => exact ⟨trivial, by simp⟩
          | some row =>
              obtain ⟨hp, hc⟩ := row_hashes hrow hprevious hcurrent
              obtain ⟨hlinked, hcommitted⟩ :=
                ih hrest (hexdigest_length input) (max sequence row.id)
              obtain ⟨rest, rfl⟩ := Log.hashInput_eq hinput
              rw [← hc] at hlinked
              refine ⟨⟨hp, hlinked⟩, List.forall_mem_cons.mpr ⟨⟨hp ▸ hlength, rest, ?_, ?_⟩,
                fun w hw => ?_⟩⟩
              · rw [hinputs, hp]
                exact List.mem_cons_self
              · rw [hc, hp]
              · obtain ⟨hw, rest', hmem, hhash⟩ := hcommitted w hw
                rw [hinputs]
                exact ⟨hw, rest', List.mem_cons_of_mem _ hmem, hhash⟩

end Messages

/-! ## Recorded events -/

/-- A payload that `record_event` stores and the check reads back in another order. -/
def Misread (sequence : ℤ) (payload : PyValue D) : Prop :=
  sequence < maxRowid ∧ (∃ text, dumps payload = some text) ∧ ¬ NamesAscend payload

/-- The strings that the writer and the check hash for these rows. -/
def hashedInputs (D : Type) [Interpreter D] (rows : List Row) : List String :=
  rows.map Row.writtenInput ++ rows.map (Row.checkedInput D)

lemma recordEvent_returns {eventType tenantId timestamp : String} {payload : PyValue D} :
    (∃ result, l.recordEvent eventType payload tenantId timestamp = .ok result) ↔
      l.sequence < maxRowid ∧ ∃ text, dumps payload = some text := by
  unfold Ledger.recordEvent Ledger.append
  cases dumps payload with
  | none => simp
  | some text =>
      by_cases hfull : l.sequence < maxRowid
      · simp [hfull, Except.map]
      · simp [hfull, Except.map]

/-- An event that the daemon records keeps a valid ledger valid unless its payload is misread, and
the rows in place anyway. -/
lemma record_iff (d : Daemon) (eventType : String) (payload : PyValue D) (timestamp : String)
    {stored : List Row} (hstored : ∀ row ∈ stored, row.id ≤ d.ledger.sequence)
    (hinj : Set.InjOn hexdigest {s | s ∈ hashedInputs D
      (d.record eventType payload timestamp).daemon.ledger.rows}) :
    HashChain.Valid (chain D) zeroHash (d.record eventType payload timestamp).daemon.ledger.rows ∧
        stored <+: (d.record eventType payload timestamp).daemon.ledger.rows ↔
      (HashChain.Valid (chain D) zeroHash d.ledger.rows ∧ stored <+: d.ledger.rows) ∧
        ¬ Misread d.ledger.sequence payload := by
  have hreturns := @recordEvent_returns D d.ledger _ eventType "default_tenant" timestamp payload
  unfold Daemon.record at hinj ⊢
  cases hrecord : d.ledger.recordEvent eventType payload "default_tenant" timestamp with
  | error error =>
      rw [hrecord] at hreturns
      have hmisread : ¬ Misread d.ledger.sequence payload := by
        rintro ⟨hsequence, hdumps, -⟩
        obtain ⟨result, hresult⟩ := hreturns.mpr ⟨hsequence, hdumps⟩
        cases hresult
      exact (and_iff_left hmisread).symm
  | ok result =>
      obtain ⟨ledger, id⟩ := result
      obtain ⟨hsequence, hdumps⟩ := hreturns.mp ⟨_, hrecord⟩
      simp only [hrecord] at hinj ⊢
      obtain ⟨row, hrows, hwrites, hprevious, hid, -⟩ := @recordEvent_ok _ _ _ _
        (⟨eventType, payload, "default_tenant", timestamp⟩ : Ledger.Call D) _ hrecord
      have hmisread : Misread d.ledger.sequence payload ↔ ¬ NamesAscend payload :=
        ⟨fun h => h.2.2, fun h => ⟨hsequence, hdumps, h⟩⟩
      have hrow : row ∈ ledger.rows := by
        rw [hrows]
        simp
      have hhashed : row.currentHash = (chain D).digest row ↔ NamesAscend payload := by
        rw [← canonical_eq_iff hwrites.payload, ← writtenInput_eq_iff, hwrites.hashed]
        refine ⟨fun heq => hinj ?_ ?_ heq, fun heq => congrArg hexdigest heq⟩
        · exact List.mem_append_left _ (List.mem_map_of_mem hrow)
        · exact List.mem_append_right _ (List.mem_map_of_mem hrow)
      have hinitial : stored <+: d.ledger.rows ++ [row] ↔ stored <+: d.ledger.rows := by
        rw [List.prefix_concat_iff]
        refine or_iff_right fun heq => ?_
        have hbound := hstored row (by simp [heq])
        omega
      rw [hmisread, not_not, ← hhashed, hrows, hinitial, HashChain.valid_append,
        HashChain.valid_cons]
      constructor
      · rintro ⟨⟨hvalid, -, hcurrent, -⟩, hstays⟩
        exact ⟨⟨hvalid, hstays⟩, hcurrent⟩
      · rintro ⟨⟨hvalid, hstays⟩, hcurrent⟩
        exact ⟨⟨hvalid, hprevious, hcurrent, trivial, by simp⟩, hstays⟩

lemma record_extends (d : Daemon) (eventType : String) (payload : PyValue D) (timestamp : String) :
    d.ledger.rows <+: (d.record eventType payload timestamp).daemon.ledger.rows := by
  unfold Daemon.record
  cases hrecord : d.ledger.recordEvent eventType payload "default_tenant" timestamp with
  | error error => exact List.prefix_refl _
  | ok result =>
      obtain ⟨row, hrows, -⟩ := @recordEvent_ok _ _ _ _
        (⟨eventType, payload, "default_tenant", timestamp⟩ : Ledger.Call D) _ hrecord
      exact ⟨[row], hrows.symm⟩

lemma expectedHash_length (d : Daemon) (hvalid : HashChain.Valid (chain D) zeroHash d.ledger.rows) :
    d.expectedHash.length = 64 := by
  unfold Daemon.expectedHash Ledger.getLogs
  cases hlast : (d.ledger.rows.filter fun row => row.tenantId = some "default_tenant").getLast? with
  | none => exact zeroHash_length
  | some row =>
      exact currentHash_length hvalid row (List.mem_of_mem_filter (List.mem_of_getLast? hlast))

lemma replaceAll_sequence (ws : List Row) : l.sequence ≤ (l.replaceAll ws).sequence := by
  induction ws generalizing l with
  | nil => exact le_refl _
  | cons w ws ih => exact (le_max_left _ _).trans (@ih (l.replace w))

section Response

variable [Coercion D]

/-- A message that leaves every stored row in its place and the chain valid: a rejected one, or one
that continues the ledger, in each case with a readable event about it. -/
def Daemon.Harmless (d : Daemon) (msg : LogsResponse D) : Prop :=
  msg.logs ≠ [] →
    match verifyLogs d.expectedHash msg.logs with
    | .raised => True
    | .failed =>
        (formatValue msg.providerId).isSome → ¬ Misread d.ledger.sequence (violationPayload msg)
    | .verified =>
        Continues D d.ledger (rowsOf d.ledger.sequence msg.logs) ∧
          ((rowsOf d.ledger.sequence msg.logs).length = msg.logs.length →
            (formatValue msg.providerId).isSome →
              ¬ Misread (d.ledger.replaceAll (rowsOf d.ledger.sequence msg.logs)).sequence
                (recoveryPayload msg))

/-- The inserts of a verified message alone. -/
lemma continues_iff (d : Daemon) {logs : List (Option (Log D))} {strings : List String}
    (hvalid : HashChain.Valid (chain D) zeroHash d.ledger.rows)
    (hverified : verifyLogs d.expectedHash logs = .verified) (resistant : Resistant strings)
    (hchecked : ∀ row ∈ (d.ledger.replaceAll (rowsOf d.ledger.sequence logs)).rows,
      row.checkedInput D ∈ strings)
    (hinputs : ∀ s ∈ inputsOf d.expectedHash logs, s ∈ strings) :
    HashChain.Valid (chain D) zeroHash
          (d.ledger.replaceAll (rowsOf d.ledger.sequence logs)).rows ∧
        d.ledger.rows <+: (d.ledger.replaceAll (rowsOf d.ledger.sequence logs)).rows ↔
      Continues D d.ledger (rowsOf d.ledger.sequence logs) := by
  obtain ⟨hlinked, hcommitted⟩ :=
    verified_rows hverified (expectedHash_length d hvalid) d.ledger.sequence
  rw [expectedHash_eq (D := D)] at hlinked
  constructor
  · rintro ⟨hvalid', hinitial⟩
    refine continues_of_valid resistant hchecked (fun w hw => ?_) hlinked hvalid' hinitial
    obtain ⟨hlength, rest, hmem, hhash⟩ := hcommitted w hw
    exact ⟨hlength, rest, hinputs _ hmem, hhash⟩
  · intro h
    refine ⟨h.valid hvalid hlinked, ?_⟩
    rw [h.rows_eq]
    exact List.prefix_append _ _

/-- A message keeps every stored row in its place and the chain valid exactly if it is harmless. -/
theorem recovery_appends (d : Daemon) (msg : LogsResponse D) (recordedAt : String)
    (valid : (d.ledger.verifyChainIntegrity D).valid = true)
    (resistant : Resistant
      (hashedInputs D (d.processResponse msg recordedAt).daemon.ledger.rows ++
        inputsOf d.expectedHash msg.logs)) :
    ((d.processResponse msg recordedAt).daemon.ledger.verifyChainIntegrity D).valid = true ∧
        d.ledger.rows <+: (d.processResponse msg recordedAt).daemon.ledger.rows ↔
      d.Harmless msg := by
  rw [verifyChainIntegrity_valid] at valid ⊢
  unfold Daemon.processResponse at resistant ⊢
  unfold Daemon.Harmless
  have hunchanged : HashChain.Valid (chain D) zeroHash d.ledger.rows ∧
      d.ledger.rows <+: d.ledger.rows := ⟨valid, List.prefix_refl _⟩
  by_cases hlogs : msg.logs = []
  · simp only [if_pos hlogs]
    exact iff_of_true hunchanged (absurd hlogs)
  · rw [if_neg hlogs] at resistant ⊢
    rw [imp_iff_right hlogs]
    cases hverdict : verifyLogs d.expectedHash msg.logs with
    | raised => exact iff_of_true hunchanged trivial
    | failed =>
        simp only [hverdict] at resistant ⊢
        cases hprovider : formatValue msg.providerId with
        | none => exact iff_of_true hunchanged (by simp)
        | some provider =>
            simp only [hprovider, Option.isSome_some, true_imp_iff] at resistant ⊢
            rw [record_iff d _ _ _ d.ledger.bounded
              (resistant.injOn.mono fun s hs => List.mem_append_left _ hs)]
            exact and_iff_right hunchanged
    | verified =>
        have hinputs : ∀ rows : List Row, ∀ s ∈ inputsOf d.expectedHash msg.logs,
            s ∈ hashedInputs D rows ++ inputsOf d.expectedHash msg.logs :=
          fun rows s hs => List.mem_append_right _ hs
        have hchecked {rows : List Row} {row : Row} (hrow : row ∈ rows) :
            row.checkedInput D ∈ hashedInputs D rows ++ inputsOf d.expectedHash msg.logs :=
          List.mem_append_left _ (List.mem_append_right _ (List.mem_map_of_mem hrow))
        simp only [hverdict, insertLogs_eq] at resistant ⊢
        cases hdone : (rowsOf d.ledger.sequence msg.logs).length == msg.logs.length with
        | false =>
            simp only [hdone] at resistant ⊢
            rw [continues_iff d valid hverdict resistant (fun row hrow => hchecked hrow) (hinputs _)]
            exact (and_iff_left fun hlength => absurd hlength (beq_eq_false_iff_ne.mp hdone)).symm
        | true =>
            cases hprovider : formatValue msg.providerId with
            | none =>
                simp only [hdone, hprovider] at resistant ⊢
                rw [continues_iff d valid hverdict resistant (fun row hrow => hchecked hrow)
                  (hinputs _)]
                exact (and_iff_left fun _ hsome => absurd hsome (by simp)).symm
            | some provider =>
                simp only [hdone, hprovider, Option.isSome_some, true_imp_iff] at resistant ⊢
                rw [record_iff _ _ _ _ (fun row hrow => ?_)
                  (resistant.injOn.mono fun s hs => List.mem_append_left _ hs)]
                · rw [imp_iff_right (beq_iff_eq.mp hdone)]
                  refine and_congr_left fun _ => continues_iff d valid hverdict resistant
                    (fun row hrow => hchecked ((record_extends _ _ _ _).subset hrow)) (hinputs _)
                · exact (d.ledger.bounded row hrow).trans (replaceAll_sequence _)

end Response

/-! ## Messages with stored rows -/

section Stored

variable [Coercion D]

omit [Interpreter D] [Coercion D] in
lemma isText_strValue (s : String) : isText (D := D) (some (strValue s)) s = true := by
  simp [isText, strValue]

lemma hashInput_toLog (row : Row) :
    (row.toLog (D := D)).hashInput row.previousHash = some (row.checkedInput D) := by
  have hpayload : payloadText (D := D) (strValue row.payload) =
      some (toPyStr (canonical D row.payload)) := by
    simp [payloadText, strValue, encode_toPyStr]
  have htimestamp : formatValue (D := D) (strValue row.timestamp) = some (toPyStr row.timestamp) :=
    rfl
  simp only [Log.hashInput, Row.toLog, Option.getD_some, hpayload, htimestamp,
    Option.bind_eq_bind, Option.bind_some, ← toPyStr_append, encode_toPyStr, Row.checkedInput,
    Audit.hashInput, String.append_assoc, Option.pure_def]

/-- The rows of a valid chain are verified. -/
lemma verifyLogs_toLog {rows : List Row} {expected : String}
    (h : HashChain.Valid (chain D) expected rows) :
    verifyLogs (D := D) expected (rows.map fun row => some row.toLog) = .verified ∧
      inputsOf (D := D) expected (rows.map fun row => some row.toLog) =
        rows.map (Row.checkedInput D) := by
  induction rows generalizing expected with
  | nil => exact ⟨rfl, rfl⟩
  | cons row rows ih =>
      obtain ⟨hprevious, hcurrent, hrest⟩ := HashChain.valid_cons.mp h
      have hp : row.previousHash = expected := hprevious
      have hc : row.currentHash = hexdigest (row.checkedInput D) := hcurrent
      have hprevious' : isText (row.toLog (D := D)).previousHash expected = true :=
        hp ▸ isText_strValue _
      have hcurrent' : isText (row.toLog (D := D)).currentHash (hexdigest (row.checkedInput D)) =
          true := hc ▸ isText_strValue _
      have hinput := hashInput_toLog (D := D) row
      rw [hp] at hinput
      obtain ⟨hverified, hinputs⟩ := ih hrest
      have hcurrentHash : (chain D).current row = hexdigest (row.checkedInput D) := hcurrent
      rw [hcurrentHash] at hverified hinputs
      rw [List.map_cons, verifyLogs, inputsOf, hprevious', hinput]
      simp only [Bool.true_eq_false, if_false, hcurrent', hverified, hinputs, List.map_cons, and_self]

omit [Interpreter D] in
/-- Rows of a table are written as they are. -/
lemma row_toLog {row : Row} (hmin : -2 ^ 63 ≤ row.id) (hmax : row.id ≤ maxRowid) (sequence : ℤ) :
    (row.toLog (D := D)).row sequence = some row := by
  have htext (s : String) : (textColumn (D := D) (strValue s)).join = some s := by
    rw [strValue, textColumn, encode_toPyStr]
    rfl
  have hid : insertedId (D := D) sequence (.int row.id) = some row.id := by
    rw [insertedId, rowid, if_pos ⟨hmin, hmax⟩]
  have htenant : textColumn (D := D) ((row.tenantId.map strValue).getD .none) =
      some row.tenantId := by
    cases row.tenantId with
    | none => rfl
    | some tenant =>
        rw [Option.map_some, Option.getD_some, strValue, textColumn, encode_toPyStr]
        rfl
  simp only [Log.row, Row.toLog, Option.bind_eq_bind, Option.bind_some, rowOf, hid, htext,
    Option.getD_some, htenant, Option.pure_def]

omit [Interpreter D] in
lemma rowsOf_toLog {rows : List Row} (h : ∀ row ∈ rows, -2 ^ 63 ≤ row.id ∧ row.id ≤ maxRowid)
    (sequence : ℤ) : rowsOf (D := D) sequence (rows.map fun row => some row.toLog) = rows := by
  induction rows generalizing sequence with
  | nil => rfl
  | cons row rows ih =>
      obtain ⟨⟨hmin, hmax⟩, hrest⟩ := List.forall_mem_cons.mp h
      rw [List.map_cons, rowsOf, Option.bind_some, row_toLog hmin hmax]
      simp only [ih hrest]

/-- A response of a node with rows of its ledger. -/
def rowsResponse (nodeId : String) (rows : List Row) : LogsResponse D where
  providerId := strValue nodeId
  logs := rows.map fun row => some row.toLog

/-- A message with the rows of a valid continuation is taken over and leaves one event about it. -/
lemma processResponse_rows (d : Daemon) (nodeId : String) {rows : List Row} (recordedAt : String)
    (hne : rows ≠ []) (hvalid : HashChain.Valid (chain D) d.expectedHash rows)
    (hids : ∀ row ∈ rows, -2 ^ 63 ≤ row.id ∧ row.id ≤ maxRowid) :
    d.processResponse (D := D) (rowsResponse nodeId rows) recordedAt =
      { d with
        ledger := d.ledger.replaceAll rows
        pendingRequests := d.pendingRequests.filter
          (· ≠ requestKey (toPyStr nodeId) d.localCount) }.record
        "CONSENSUS_RECOVERY" (Daemon.recoveryPayload (rowsResponse (D := D) nodeId rows))
        recordedAt := by
  have hprovider : formatValue (D := D) (strValue nodeId) = some (toPyStr nodeId) := rfl
  rw [Daemon.processResponse, if_neg (by simpa [rowsResponse] using hne), rowsResponse,
    (verifyLogs_toLog hvalid).1]
  simp only [insertLogs_eq, rowsOf_toLog hids, List.length_map, BEq.rfl, hprovider]

end Stored

/-! ## A message with one event -/

def emptyNode : Daemon where
  ledger := Ledger.empty
  nodeId := "node-1"

def loginNode : Daemon where
  ledger := loginLedger
  nodeId := "node-1"

/-- An event that continues the chain of the login under the same id. -/
def intruderRow : Row where
  id := 1
  eventType := "LOGOUT"
  payload := "\x7b\x7d"
  previousHash := loginRow.currentHash
  currentHash := hexdigest (hashInput loginRow.currentHash "\x7b\x7d" "t2")
  timestamp := "t2"

lemma canonical_empty : canonical Empty "\x7b\x7d" = "\x7b\x7d" := by decide +kernel

lemma login_valid : HashChain.Valid (chain Empty) zeroHash [loginRow] := by
  refine ⟨⟨rfl, trivial⟩, List.forall_mem_singleton.mpr ?_⟩
  exact congrArg (fun payload => hexdigest (hashInput zeroHash payload "t1")) canonical_empty.symm

/-- The event about the recovery of the login. -/
def recoveryRow : Row where
  id := 2
  eventType := "CONSENSUS_RECOVERY"
  payload :=
    "\x7b\"logs_restored\": 1, \"message\": \"Self-healing replication completed successfully\", " ++
      "\"provider_node_id\": \"node-2\"\x7d"
  previousHash := loginRow.currentHash
  currentHash := hexdigest (hashInput loginRow.currentHash
    ("\x7b\"logs_restored\": 1, \"message\": \"Self-healing replication completed successfully\", " ++
      "\"provider_node_id\": \"node-2\"\x7d") "t3")
  timestamp := "t3"

lemma recovery_dumps : dumps (Daemon.recoveryPayload
    (rowsResponse (D := Empty) "node-2" [loginRow])) = some recoveryRow.payload.toList := by
  decide +kernel

lemma recovery_rows : (emptyNode.processResponse (D := Empty) (rowsResponse "node-2" [loginRow])
    "t3").daemon.ledger.rows = [loginRow, recoveryRow] := by
  rw [processResponse_rows emptyNode "node-2" "t3" (by simp) login_valid (by decide),
    Daemon.record, Ledger.recordEvent, recovery_dumps]
  simp only [String.ofList_toList]
  rfl

lemma recovery_resistant : Resistant (hashedInputs Empty (emptyNode.processResponse (D := Empty)
    (rowsResponse "node-2" [loginRow]) "t3").daemon.ledger.rows ++
      inputsOf (D := Empty) emptyNode.expectedHash (rowsResponse "node-2" [loginRow]).logs) := by
  have hcanonical : canonical Empty recoveryRow.payload = recoveryRow.payload := by
    decide +kernel
  have hrecovery : recoveryRow.checkedInput Empty = recoveryRow.writtenInput :=
    (writtenInput_eq_iff.mpr hcanonical).symm
  have hlogin : loginRow.checkedInput Empty = loginRow.writtenInput :=
    (writtenInput_eq_iff.mpr canonical_empty).symm
  have hinputs : inputsOf (D := Empty) emptyNode.expectedHash
      (rowsResponse "node-2" [loginRow]).logs = [loginRow.writtenInput] := by
    rw [← hlogin]
    exact (verifyLogs_toLog login_valid).2
  have hdigests : Resistant [loginRow.writtenInput, recoveryRow.writtenInput] :=
    resistant_of_nodup (by decide +kernel)
  refine hdigests.mono fun s hs => ?_
  rw [recovery_rows, hinputs] at hs
  simp only [hashedInputs, List.map_cons, List.map_nil, hrecovery, hlogin, List.cons_append,
    List.nil_append, List.mem_cons, List.not_mem_nil, or_false] at hs ⊢
  rcases hs with hs | hs | hs | hs | hs
  · exact .inl hs
  · exact .inr hs
  · exact .inl hs
  · exact .inr hs
  · exact .inl hs

theorem recovery_appends_login :
    (emptyNode.ledger.verifyChainIntegrity Empty).valid = true ∧
      (((emptyNode.processResponse (D := Empty) (rowsResponse "node-2" [loginRow])
            "t3").daemon.ledger.verifyChainIntegrity Empty).valid = true ∧
          emptyNode.ledger.rows <+: (emptyNode.processResponse (D := Empty)
            (rowsResponse "node-2" [loginRow]) "t3").daemon.ledger.rows ↔
        emptyNode.Harmless (D := Empty) (rowsResponse "node-2" [loginRow])) :=
  ⟨rfl, recovery_appends emptyNode _ "t3" rfl recovery_resistant⟩

lemma intruder_valid : HashChain.Valid (chain Empty) loginNode.expectedHash [intruderRow] := by
  refine ⟨⟨rfl, trivial⟩, List.forall_mem_singleton.mpr ?_⟩
  exact congrArg (fun payload => hexdigest (hashInput loginRow.currentHash payload "t2"))
    canonical_empty.symm

/-- An event that continues the chain of the login under its id takes its place. -/
theorem login_replaced :
    ∃ (d : Daemon) (msg : LogsResponse Empty), (d.ledger.verifyChainIntegrity Empty).valid = true ∧
      ¬ (((d.processResponse msg "t3").daemon.ledger.verifyChainIntegrity Empty).valid = true ∧
        d.ledger.rows <+: (d.processResponse msg "t3").daemon.ledger.rows) := by
  refine ⟨loginNode, rowsResponse "node-2" [intruderRow],
    verifyChainIntegrity_valid.mpr login_valid, ?_⟩
  rintro ⟨-, hinitial⟩
  have hstays : [intruderRow] <+: (loginNode.processResponse (D := Empty)
      (rowsResponse "node-2" [intruderRow]) "t3").daemon.ledger.rows := by
    rw [processResponse_rows loginNode "node-2" "t3" (by simp) intruder_valid (by decide)]
    have hrows : (loginNode.ledger.replaceAll [intruderRow]).rows = [intruderRow] := rfl
    refine List.IsPrefix.trans ?_ (record_extends _ _ _ _)
    exact hrows ▸ List.prefix_refl _
  have hsame := (List.prefix_of_prefix_length_le hinitial hstays (Nat.le_refl 1)).eq_of_length rfl
  have htimes := congrArg (List.map Row.timestamp) hsame
  revert htimes
  decide

end AgentSystem.Audit
