import AgentSystem.KeyedTable
import AgentSystem.PolicyGate
import AgentSystem.PyData

/-!
# The migration of the Mission store

`MissionStore._initialize`, statement by statement. The connection commits each of them by itself,
so that a process that stops, or a payload that cannot be read, leaves what the statements so far
have done: a second run finds the column that it would add.
-/
namespace AgentSystem.MissionMigration

open Json Consensus PolicyGate

variable (D : Type)

/-- A row of `missions`. The payload is what its text decodes to, `none` for a text that is no
JSON; the owner is empty in a table without its column. -/
structure MissionRecord where
  missionId : String
  ownerActorId : String
  schemaVersion : String
  revision : ℕ
  createdAt : String
  updatedAt : String
  payload : Option (PyValue D)

structure MissionTable where
  ownerColumn : Bool
  records : KeyedTable (MissionRecord D) MissionRecord.missionId

/-- The tables of the file, `none` for one that is not there; `mission_store_meta` has a column. -/
structure StoreFile where
  metadata : Option (List ℤ)
  missions : Option (MissionTable D)
  ownerIndex : Bool
  transitions : Bool

/-- What `_initialize` raises. -/
inductive OpenError
  | corruption (code detail : String)
  | operational (detail : String)
  | attribute
  | unicode
  deriving DecidableEq

/-- The next statement. -/
inductive Phase
  | opened
  | created
  | unversioned
  | outdated
  | altered
  | filling (rows : List (String × Option (PyValue D)))
  | current
  | tabled
  | indexed
  | done
  | raised (error : OpenError)

variable {D}

def corruptPayload : OpenError :=
  .corruption "corrupt_mission_payload" "Stored mission record is invalid"

section Statements

variable [Doubles D]

/-- The owner in a payload. -/
def ownerId : Option (PyValue D) → Except OpenError String
  | none => .error corruptPayload
  | some (.dict items) =>
      match orElse ((lookup items "owner_actor_id").getD .none)
        ((lookup items "actor_id").getD .none) with
      | .str [] => .error corruptPayload
      | .str s =>
          match encode s with
          | some owner => .ok owner
          | none => .error .unicode
      | _ => .error corruptPayload
  | some _ => .error .attribute

def MissionRecord.setOwner (record : MissionRecord D) (owner : String) : MissionRecord D :=
  { record with ownerActorId := owner }

/-- `ALTER TABLE missions ADD COLUMN owner_actor_id TEXT NOT NULL DEFAULT ''`. -/
def addOwnerColumn (table : MissionTable D) : MissionTable D where
  ownerColumn := true
  records := table.records.update (fun _ => true) (·.setOwner "") fun _ => rfl

/-- `UPDATE missions SET owner_actor_id = ? WHERE mission_id = ?`. -/
def updateOwner (missionId owner : String) (table : MissionTable D) : MissionTable D :=
  { table with
    records := table.records.update (fun record => record.missionId = missionId) (·.setOwner owner)
      fun _ => rfl }

/-- `SELECT mission_id, payload FROM missions`. -/
def MissionTable.rows (table : MissionTable D) : List (String × Option (PyValue D)) :=
  table.records.rows.map fun record => (record.missionId, record.payload)

/-- One statement of `_initialize`. -/
def statement : StoreFile D × Phase D → StoreFile D × Phase D
  | (file, .opened) => ({ file with metadata := some (file.metadata.getD []) }, .created)
  | (file, .created) =>
      (file,
        match file.metadata.getD [] with
        | [] => .unversioned
        | version :: _ =>
            if version = 1 then .outdated
            else if version = 2 then .current
            else .raised (.corruption "unsupported_store_schema"
              "Mission store schema version is unsupported"))
  | (file, .unversioned) =>
      ({ file with metadata := some (file.metadata.getD [] ++ [2]) }, .current)
  | (file, .outdated) =>
      match file.missions with
      | none => (file, .raised (.operational "no such table: missions"))
      | some table =>
          if table.ownerColumn then
            (file, .raised (.operational "duplicate column name: owner_actor_id"))
          else ({ file with missions := some (addOwnerColumn table) }, .altered)
  | (file, .altered) =>
      match file.missions with
      | none => (file, .raised (.operational "no such table: missions"))
      | some table => (file, .filling table.rows)
  | (file, .filling ((missionId, payload) :: rows)) =>
      match ownerId payload with
      | .error error => (file, .raised error)
      | .ok owner =>
          ({ file with missions := file.missions.map (updateOwner missionId owner) }, .filling rows)
  | (file, .filling []) =>
      ({ file with metadata := file.metadata.map fun versions => versions.map fun _ => 2 }, .current)
  | (file, .current) =>
      ({ file with missions := some (file.missions.getD ⟨true, .empty⟩) }, .tabled)
  | (file, .tabled) =>
      if file.ownerIndex then (file, .indexed)
      else
        match file.missions with
        | some ⟨true, _⟩ => ({ file with ownerIndex := true }, .indexed)
        | _ => (file, .raised (.operational "no such column: owner_actor_id"))
  | (file, .indexed) => ({ file with transitions := true }, .done)
  | (file, .done) => (file, .done)
  | (file, .raised error) => (file, .raised error)

/-- What is left when the process stops after `n` statements, or after an earlier exception. -/
def after (n : ℕ) (file : StoreFile D) : StoreFile D × Phase D := statement^[n] (file, .opened)

/-! ## Versions -/

/-- A file of the first version. -/
def Version1 (file : StoreFile D) : Prop :=
  (∃ versions, file.metadata = some (1 :: versions)) ∧
    ∃ table, file.missions = some table ∧ table.ownerColumn = false

/-- Every payload has an owner. -/
def Sound (file : StoreFile D) : Prop :=
  ∀ table, file.missions = some table → ∀ record ∈ table.records.rows,
    ∃ owner, ownerId record.payload = .ok owner

/-- A file of the second version in which every owner is the one of the payload. -/
def Migrated (file : StoreFile D) : Prop :=
  (∃ versions, file.metadata = some (2 :: versions)) ∧
    ∃ table, file.missions = some table ∧ table.ownerColumn = true ∧
      ∀ record ∈ table.records.rows, ownerId record.payload = .ok record.ownerActorId

/-- Whether the payload has no owner. -/
def corrupt (record : MissionRecord D) : Bool :=
  match ownerId record.payload with
  | .ok _ => false
  | .error _ => true

/-- The file with other payloads where they have no owner. -/
def repair (fix : MissionRecord D → Option (PyValue D)) (file : StoreFile D) : StoreFile D :=
  { file with
    missions := file.missions.map fun table =>
      { table with
        records := table.records.update corrupt
          (fun record => { record with payload := fix record }) fun _ => rfl } }

/-- Once the bad rows are repaired, `_initialize` runs to its end and leaves a migrated file. -/
def Recovers (file : StoreFile D) : Prop :=
  ∀ fix, Sound (repair fix file) →
    ∃ n, (after n (repair fix file)).2 = .done ∧ Migrated (after n (repair fix file)).1

/-- The number of Missions. -/
def StoreFile.count (file : StoreFile D) : ℕ :=
  (file.missions.map fun table => table.records.rows.length).getD 0

variable {file : StoreFile D} {n k : ℕ}

/-! ## The end of a run -/

lemma after_add : after (n + k) file = statement^[k] (after n file) := by
  rw [after, Nat.add_comm, Function.iterate_add_apply]
  rfl

lemma iterate_raised (file : StoreFile D) (error : OpenError) (k : ℕ) :
    statement^[k] (file, .raised error) = (file, .raised error) :=
  Function.iterate_fixed rfl k

/-- A file of the first version that has the column already. -/
def Stuck (file : StoreFile D) : Prop :=
  ∃ versions records, file.metadata = some (1 :: versions) ∧
    file.missions = some ⟨true, records⟩

/-- With the column there the statement that adds it raises. -/
lemma not_done_of_stuck (h : Stuck file) (n : ℕ) : (after n file).2 ≠ .done := by
  obtain ⟨metadata, missions, ownerIndex, transitions⟩ := file
  obtain ⟨versions, records, rfl, rfl⟩ := h
  match n with
  | 0 => exact nofun
  | 1 => exact nofun
  | 2 => exact nofun
  | k + 3 =>
      rw [Nat.add_comm, after_add]
      have hraised : after 3 (StoreFile.mk (some (1 :: versions)) (some ⟨true, records⟩)
          ownerIndex transitions) = (_, .raised _) := rfl
      rw [hraised, iterate_raised]
      exact nofun

/-- A payload with an owner. -/
def ownedPayload : Option (PyValue D) :=
  some (.dict [(.str (toPyStr "actor_id"), .str (toPyStr "alice"))])

lemma ownerId_ownedPayload : ownerId (ownedPayload (D := D)) = .ok "alice" := by
  have hitems : stringItems [(PyKey.str (toPyStr "actor_id"), PyValue.str (toPyStr "alice"))] =
      [(toPyStr "actor_id", PyValue.str (D := D) (toPyStr "alice"))] := rfl
  have hother : toPyStr "actor_id" ≠ toPyStr "owner_actor_id" := by decide +kernel
  simp only [ownedPayload, ownerId, lookup, hitems, PySequence.getItem_cons,
    PySequence.getItem_nil, Option.none_or, if_neg hother, if_true, Option.getD_none,
    Option.getD_some, orElse, truthy, Bool.false_eq_true, if_false]
  split
  · rename_i heq
    exact absurd (PyValue.str.inj heq) (by decide +kernel)
  · rename_i heq
    rw [← PyValue.str.inj heq, encode_toPyStr]
  · rename_i hother
    exact (hother _ rfl).elim

lemma repair_owned (file : StoreFile D) : Sound (repair (fun _ => ownedPayload) file) := by
  intro table htable record hrecord
  obtain ⟨old, hold, rfl⟩ := Option.map_eq_some_iff.mp htable
  obtain ⟨row, hrow, rfl⟩ := List.mem_map.mp hrecord
  cases hcorrupt : corrupt row with
  | true => exact ⟨"alice", by rw [if_pos rfl, ownerId_ownedPayload]⟩
  | false =>
      rw [if_neg (by simp)]
      unfold corrupt at hcorrupt
      split at hcorrupt
      · rename_i owner howner
        exact ⟨owner, howner⟩
      · cases hcorrupt

/-- A file that is stuck does not recover. -/
lemma not_recovers (h : Stuck file) : ¬ Recovers file := by
  intro hrecovers
  obtain ⟨n, hdone, -⟩ := hrecovers _ (repair_owned file)
  obtain ⟨versions, records, hmetadata, hmissions⟩ := h
  have hstuck : Stuck (repair (fun _ => ownedPayload) file) :=
    ⟨versions, _, hmetadata, by rw [repair, hmissions]; rfl⟩
  exact not_done_of_stuck hstuck n hdone

/-! ## Migrated files -/

/-- The phases after the migration. -/
def Phase.Late (phase : Phase D) : Prop :=
  phase = .current ∨ phase = .tabled ∨ phase = .indexed ∨ phase = .done

lemma migrated_statement {phase : Phase D} (h : Migrated file) (hlate : phase.Late) :
    Migrated (statement (file, phase)).1 ∧ (statement (file, phase)).2.Late := by
  obtain ⟨⟨versions, hversions⟩, ⟨ownerColumn, records⟩, htable, rfl, howners⟩ := h
  rcases hlate with rfl | rfl | rfl | rfl
  · refine ⟨⟨⟨versions, hversions⟩, _, ?_, rfl, howners⟩, .inr (.inl rfl)⟩
    simp [statement, htable]
  · simp only [statement, htable]
    split_ifs
    · exact ⟨⟨⟨versions, hversions⟩, _, htable, rfl, howners⟩, .inr (.inr (.inl rfl))⟩
    · exact ⟨⟨⟨versions, hversions⟩, _, rfl, rfl, howners⟩, .inr (.inr (.inl rfl))⟩
  · exact ⟨⟨⟨versions, hversions⟩, _, htable, rfl, howners⟩, .inr (.inr (.inr rfl))⟩
  · exact ⟨⟨⟨versions, hversions⟩, _, htable, rfl, howners⟩, .inr (.inr (.inr rfl))⟩

lemma migrated_iterate {phase : Phase D} (h : Migrated file) (hlate : phase.Late) (k : ℕ) :
    Migrated (statement^[k] (file, phase)).1 ∧ (statement^[k] (file, phase)).2.Late := by
  induction k with
  | zero => exact ⟨h, hlate⟩
  | succ k ih =>
      rw [Function.iterate_succ_apply']
      exact migrated_statement ih.1 ih.2

/-- From a migrated file three statements lead to the end. -/
lemma migrated_done (h : Migrated file) :
    (statement^[3] (file, .current)).2 = .done := by
  obtain ⟨metadata, missions, ownerIndex, transitions⟩ := file
  obtain ⟨-, ⟨ownerColumn, records⟩, htable, rfl, -⟩ := h
  cases htable
  cases ownerIndex <;> rfl

lemma repair_of_sound (h : Sound file) (fix : MissionRecord D → Option (PyValue D)) :
    repair fix file = file := by
  obtain ⟨metadata, missions, ownerIndex, transitions⟩ := file
  cases missions with
  | none => rfl
  | some table =>
      obtain ⟨ownerColumn, rows, unique⟩ := table
      have hrows : (rows.map fun record =>
          if corrupt record then { record with payload := fix record } else record) = rows := by
        refine (List.map_congr_left fun record hrecord => ?_).trans (List.map_id _)
        obtain ⟨owner, howner⟩ := h _ rfl record hrecord
        rw [if_neg]
        · rfl
        · simp [corrupt, howner]
      simp only [repair, Option.map_some, KeyedTable.update, hrows]

lemma sound_of_migrated (h : Migrated file) : Sound file := by
  obtain ⟨-, table, htable, -, howners⟩ := h
  intro other hother record hrecord
  rw [htable, Option.some.injEq] at hother
  subst hother
  exact ⟨_, howners record hrecord⟩

/-- A migrated file recovers. -/
lemma recovers_of_migrated (h : Migrated file) : Recovers file := by
  intro fix _
  rw [repair_of_sound (sound_of_migrated h)]
  have hopened : after 2 file = (file, .current) := by
    obtain ⟨metadata, missions, ownerIndex, transitions⟩ := file
    obtain ⟨⟨versions, rfl⟩, -⟩ := h
    rfl
  refine ⟨2 + 3, ?_, ?_⟩
  · rw [after_add, hopened]
    exact migrated_done h
  · rw [after_add, hopened]
    exact (migrated_iterate h (.inl rfl) 3).1

/-! ## The loop over the rows -/

/-- The loop has still these rows to go through. -/
def Filling (rows : List (String × Option (PyValue D))) (file : StoreFile D) : Prop :=
  ∃ versions records, file.metadata = some (1 :: versions) ∧ file.missions = some ⟨true, records⟩ ∧
    (∀ row ∈ rows, ∀ record ∈ records.rows, record.missionId = row.1 → record.payload = row.2) ∧
    ∀ record ∈ records.rows, record.missionId ∈ rows.map Prod.fst ∨
      ownerId record.payload = .ok record.ownerActorId

lemma stuck_of_filling {rows : List (String × Option (PyValue D))} (h : Filling rows file) :
    Stuck file := by
  obtain ⟨versions, records, hmetadata, hmissions, -⟩ := h
  exact ⟨versions, records, hmetadata, hmissions⟩

/-- The statement for a row whose payload has an owner. -/
lemma filling_step {rows : List (String × Option (PyValue D))} {missionId owner : String}
    {payload : Option (PyValue D)} (h : Filling ((missionId, payload) :: rows) file)
    (howner : ownerId payload = .ok owner) :
    Filling rows { file with missions := file.missions.map (updateOwner missionId owner) } := by
  obtain ⟨versions, records, hmetadata, hmissions, hpayloads, howners⟩ := h
  refine ⟨versions, _, hmetadata, by rw [hmissions]; rfl, ?_, ?_⟩
  · intro row hrow record hrecord hid
    obtain ⟨old, hold, rfl⟩ := List.mem_map.mp hrecord
    have hpayload := hpayloads row (List.mem_cons_of_mem _ hrow) old hold
    dsimp only at hid ⊢
    split_ifs at hid ⊢
    · exact hpayload hid
    · exact hpayload hid
  · intro record hrecord
    obtain ⟨old, hold, rfl⟩ := List.mem_map.mp hrecord
    dsimp only
    split_ifs with hid
    · right
      have hpayload : old.payload = payload :=
        hpayloads _ List.mem_cons_self old hold (by simpa using hid)
      rw [← hpayload] at howner
      exact howner
    · apply (howners old hold).imp_left
      intro hmem
      rw [List.map_cons, List.mem_cons] at hmem
      exact hmem.resolve_left (by simpa using hid)

lemma loop_stuck {rows : List (String × Option (PyValue D))} (h : Filling rows file)
    (hk : k ≤ rows.length ∨ ∃ row ∈ rows, ∀ owner, ownerId row.2 ≠ .ok owner) :
    Stuck (statement^[k] (file, .filling rows)).1 := by
  induction rows generalizing file k with
  | nil =>
      have hzero : k = 0 := by simpa using hk
      subst hzero
      exact stuck_of_filling h
  | cons row rows ih =>
      obtain ⟨missionId, payload⟩ := row
      cases k with
      | zero => exact stuck_of_filling h
      | succ k =>
          rw [Function.iterate_succ_apply]
          cases howner : ownerId payload with
          | error error =>
              have hstatement : statement (file, .filling ((missionId, payload) :: rows)) =
                  (file, .raised error) := by
                simp only [statement, howner]
              rw [hstatement, iterate_raised]
              exact stuck_of_filling h
          | ok owner =>
              have hstatement : statement (file, .filling ((missionId, payload) :: rows)) =
                  ({ file with missions := file.missions.map (updateOwner missionId owner) },
                    .filling rows) := by
                simp only [statement, howner]
              rw [hstatement]
              apply ih (filling_step h howner)
              refine hk.imp (fun hk => by simpa using hk) fun ⟨row, hrow, hnone⟩ => ⟨row, ?_, hnone⟩
              refine (List.mem_cons.mp hrow).resolve_left ?_
              rintro rfl
              exact hnone owner howner

lemma loop_migrated {rows : List (String × Option (PyValue D))} (h : Filling rows file)
    (hsound : ∀ row ∈ rows, ∃ owner, ownerId row.2 = .ok owner) :
    ∃ migrated, statement^[rows.length + 1] (file, .filling rows) = (migrated, .current) ∧
      Migrated migrated := by
  induction rows generalizing file with
  | nil =>
      obtain ⟨versions, records, hmetadata, hmissions, -, howners⟩ := h
      refine ⟨_, rfl, ⟨⟨versions.map fun _ => 2, by rw [hmetadata]; rfl⟩, _, hmissions, rfl, ?_⟩⟩
      exact fun record hrecord => (howners record hrecord).resolve_left (by simp)
  | cons row rows ih =>
      obtain ⟨missionId, payload⟩ := row
      obtain ⟨⟨owner, howner⟩, hrows⟩ := List.forall_mem_cons.mp hsound
      obtain ⟨migrated, hiterate, hmigrated⟩ := ih (filling_step h howner) hrows
      refine ⟨migrated, ?_, hmigrated⟩
      have hstatement : statement (file, .filling ((missionId, payload) :: rows)) =
          ({ file with missions := file.missions.map (updateOwner missionId owner) },
            .filling rows) := by
        simp only [statement, howner]
      rw [List.length_cons, Function.iterate_succ_apply, hstatement, hiterate]

/-! ## Files of the first version -/

/-- The loop starts with all rows, in a file that has the column. -/
lemma version1_filling {table : MissionTable D} (hversion : Version1 file)
    (htable : file.missions = some table) :
    ∃ altered, after 3 file = (altered, .altered) ∧
      after 4 file = (altered, .filling table.rows) ∧ Filling table.rows altered := by
  obtain ⟨metadata, missions, ownerIndex, transitions⟩ := file
  obtain ⟨⟨versions, rfl⟩, ⟨ownerColumn, records⟩, hmissions, rfl⟩ := hversion
  cases hmissions
  cases htable
  have hrows : (addOwnerColumn ⟨false, records⟩).rows = MissionTable.rows ⟨false, records⟩ := by
    simp only [MissionTable.rows, addOwnerColumn, KeyedTable.update, List.map_map]
    rfl
  refine ⟨_, rfl, ?_, versions, _, rfl, rfl, ?_, ?_⟩
  · rw [← hrows]
    rfl
  · intro row hrow record hrecord hid
    obtain ⟨source, hsource, rfl⟩ := List.mem_map.mp hrow
    obtain ⟨old, hold, rfl⟩ := List.mem_map.mp hrecord
    have hsame : old = source := List.inj_on_of_nodup_map records.unique hold hsource hid
    rw [hsame]
    rfl
  · intro record hrecord
    obtain ⟨old, hold, rfl⟩ := List.mem_map.mp hrecord
    left
    rw [MissionTable.rows, List.map_map]
    exact List.mem_map.mpr ⟨old, hold, rfl⟩

lemma rows_sound {table : MissionTable D} (hsound : Sound file)
    (htable : file.missions = some table) : ∀ row ∈ table.rows, ∃ owner, ownerId row.2 = .ok owner := by
  intro row hrow
  obtain ⟨record, hrecord, rfl⟩ := List.mem_map.mp hrow
  exact hsound table htable record hrecord

/-- A sound file is migrated when the version has been written. -/
lemma version1_migrated (hversion : Version1 file) (hsound : Sound file) :
    ∃ migrated, after (file.count + 5) file = (migrated, .current) ∧ Migrated migrated := by
  obtain ⟨-, table, htable, -⟩ := id hversion
  obtain ⟨altered, -, hfour, hfilling⟩ := version1_filling hversion htable
  obtain ⟨migrated, hiterate, hmigrated⟩ := loop_migrated hfilling (rows_sound hsound htable)
  have hcount : file.count + 5 = 4 + (table.rows.length + 1) := by
    rw [StoreFile.count, htable, MissionTable.rows, List.length_map]
    simp only [Option.map_some, Option.getD_some]
    omega
  exact ⟨migrated, by rw [hcount, after_add, hfour, hiterate], hmigrated⟩

lemma version1_repair (h : Version1 file) (fix : MissionRecord D → Option (PyValue D)) :
    Version1 (repair fix file) := by
  obtain ⟨hversions, table, htable, hcolumn⟩ := h
  refine ⟨hversions, _, congrArg (Option.map _) htable, hcolumn⟩

lemma recovers_of_version1 (h : Version1 file) : Recovers file := by
  intro fix hsound
  obtain ⟨migrated, hafter, hmigrated⟩ := version1_migrated (version1_repair h fix) hsound
  refine ⟨(repair fix file).count + 5 + 3, ?_, ?_⟩
  · rw [after_add, hafter]
    exact migrated_done hmigrated
  · rw [after_add, hafter]
    exact (migrated_iterate hmigrated (.inl rfl) 3).1

/-- The first statements change nothing in a file of the first version. -/
lemma version1_before (h : Version1 file) (hn : n ≤ 2) : (after n file).1 = file := by
  obtain ⟨metadata, missions, ownerIndex, transitions⟩ := file
  obtain ⟨⟨versions, rfl⟩, -⟩ := h
  match n, hn with
  | 0, _ => rfl
  | 1, _ => rfl
  | 2, _ => rfl

/-- The process may stop after any number of statements: what it leaves can be opened once the bad
rows are repaired exactly when the column was not added yet or the version is written. -/
theorem recovers_iff (h : Version1 file) (n : ℕ) :
    Recovers (after n file).1 ↔ n ≤ 2 ∨ Sound file ∧ file.count + 5 ≤ n := by
  obtain ⟨-, table, htable, -⟩ := id h
  obtain ⟨altered, hthree, hfour, hfilling⟩ := version1_filling h htable
  have hcount : file.count = table.rows.length := by
    rw [StoreFile.count, htable, MissionTable.rows, List.length_map]
    rfl
  constructor
  · intro hrecovers
    by_contra hleft
    push Not at hleft
    obtain ⟨hadded, hunwritten⟩ := hleft
    refine not_recovers ?_ hrecovers
    by_cases hn : n = 3
    · rw [hn, hthree]
      exact stuck_of_filling hfilling
    · obtain ⟨k, rfl⟩ : ∃ k, n = 4 + k := ⟨n - 4, by omega⟩
      rw [after_add, hfour]
      apply loop_stuck hfilling
      by_cases hsound : Sound file
      · have hn := hunwritten hsound
        exact .inl (by omega)
      · right
        unfold Sound at hsound
        push Not at hsound
        obtain ⟨other, hother, record, hrecord, hnone⟩ := hsound
        rw [htable, Option.some.injEq] at hother
        subst hother
        exact ⟨_, List.mem_map_of_mem hrecord, hnone⟩
  · rintro (hn | ⟨hsound, hn⟩)
    · rw [version1_before h hn]
      exact recovers_of_version1 h
    · obtain ⟨migrated, hafter, hmigrated⟩ := version1_migrated h hsound
      obtain ⟨k, rfl⟩ := Nat.exists_eq_add_of_le hn
      rw [after_add, hafter]
      exact recovers_of_migrated (migrated_iterate hmigrated (.inl rfl) k).1

end Statements

/-! ## A payload that is no JSON -/

/-- A file of the first version with one Mission. -/
def oneMission (payload : Option (PyValue Empty)) : StoreFile Empty where
  metadata := some [1]
  missions := some ⟨false, ⟨[⟨"m1", "", "1.0", 0, "t0", "t0", payload⟩], by simp⟩⟩
  ownerIndex := false
  transitions := true

lemma oneMission_version1 (payload : Option (PyValue Empty)) : Version1 (oneMission payload) :=
  ⟨⟨[], rfl⟩, _, rfl, rfl⟩

/-- After the exception for a bad row the store cannot be opened any more. -/
theorem corrupt_row_sticks :
    (after 5 (oneMission none)).2 = .raised corruptPayload ∧ ¬ Recovers (after 5 (oneMission none)).1 := by
  refine ⟨rfl, not_recovers ⟨[], _, rfl, rfl⟩⟩

theorem recovers_iff_owned :
    Recovers (after 6 (oneMission ownedPayload)).1 ↔
      6 ≤ 2 ∨ Sound (oneMission ownedPayload) ∧ (oneMission ownedPayload).count + 5 ≤ 6 :=
  recovers_iff (oneMission_version1 _) 6

end AgentSystem.MissionMigration
