import AgentSystem.MissionStore
import AgentSystem.Pages

/-!
# Pages of Missions and of transitions

`MissionStore.list` and `MissionStore.transition_history`, and what comes of following their pages
over a store that nobody changes.
-/
namespace AgentSystem.Missions

open Pages

/-- `MAX_MISSION_PAGE_SIZE`. -/
def maxMissionPageSize : ℤ := 100

/-- `MAX_HISTORY_PAGE_SIZE`. -/
def maxHistoryPageSize : ℤ := 100

structure MissionPage where
  items : List Mission
  limit : ℤ
  offset : ℤ
  nextOffset : Option ℤ

structure MissionTransitionPage where
  items : List MissionTransitionAudit
  limit : ℤ
  offset : ℤ
  nextOffset : Option ℤ

/-- `MissionTransitionAudit.model_validate_json` of the column `audit`. -/
def loadAudit (row : TransitionRow) : Except StoreError MissionTransitionAudit :=
  match row.audit with
  | some audit => .ok audit
  | none =>
      .error (.corruption "corrupt_transition_receipt" "Stored transition receipt is invalid")

namespace Database

variable (db : Database) (createdText : MissionRow → String)

/-- The columns that `ORDER BY created_at ASC, mission_id ASC` compares. The column `created_at`
holds the ISO text of a time, with the offset that the time was given in. -/
def sortKey (row : MissionRow) : String ×ₗ String := toLex (createdText row, row.missionId.text)

/-- The rows of an owner, or of all, in the order of the statement. -/
def listed (ownerId : Option ActorId) : List MissionRow :=
  (db.missions.rows.filter (ownedBy ownerId)).insertionSort fun a b =>
    sortKey createdText a ≤ sortKey createdText b

/-- `MissionStore.list`. -/
def list (limit offset : ℤ) (ownerId : Option ActorId) (fault : Option Fault) :
    Except StoreError MissionPage :=
  if limit < 1 ∨ maxMissionPageSize < limit ∨ offset < 0 then
    .error (.validation "invalid_pagination" "Mission pagination bounds are invalid")
  else if fault = some .select then .error storeUnavailable
  else do
    let rows := window (db.listed createdText ownerId) limit.toNat offset.toNat
    let hasMore := decide (limit < rows.length)
    let items ← (rows.take limit.toNat).mapM loadRow
    return ⟨items, limit, offset, if hasMore then some (offset + limit) else none⟩

/-- The transitions of a Mission, by the rowid. -/
def history (missionId : MissionId) : List TransitionRow :=
  db.transitions.rows.filter fun row => row.missionId = missionId

/-- `MissionStore.transition_history`. -/
def transitionHistory (missionId : MissionId) (limit offset : ℤ) (ownerId : Option ActorId)
    (fault : Option Fault) : Except StoreError MissionTransitionPage :=
  if limit < 1 ∨ maxHistoryPageSize < limit ∨ offset < 0 then
    .error (.validation "invalid_pagination" "Transition history pagination bounds are invalid")
  else if fault = some .select then .error storeUnavailable
  else
    match db.selectMission missionId ownerId with
    | none => .error (.conflict "mission_not_found" "Mission does not exist")
    | some _ => do
        let rows := window (db.history missionId) limit.toNat offset.toNat
        let audits ← (rows.take limit.toNat).mapM loadAudit
        return ⟨audits, limit, offset, if limit < rows.length then some (offset + limit) else none⟩

/-- The Missions of all pages from the first one on. -/
def allMissions (limit : ℤ) (ownerId : Option ActorId) (fuel : ℕ) :
    Option (Except StoreError (List Mission)) :=
  followPages (fun offset => (db.list createdText limit offset ownerId none).map fun page =>
    (page.items, page.nextOffset)) fuel 0

/-- The transitions of all pages from the first one on. -/
def allTransitions (missionId : MissionId) (limit : ℤ) (ownerId : Option ActorId) (fuel : ℕ) :
    Option (Except StoreError (List MissionTransitionAudit)) :=
  followPages (fun offset => (db.transitionHistory missionId limit offset ownerId none).map
    fun page => (page.items, page.nextOffset)) fuel 0

/-! ## The order of the rows -/

/-- A row comes before another one by the time of creation, or by the id among equal times. -/
def Before (a b : MissionRow) : Prop :=
  createdText a < createdText b ∨ createdText a = createdText b ∧ a.missionId.text < b.missionId.text

lemma listed_perm (ownerId : Option ActorId) :
    (db.listed createdText ownerId).Perm (db.missions.rows.filter (ownedBy ownerId)) :=
  List.perm_insertionSort _ _

variable {createdText} in
/-- The key of another Mission is another key. -/
lemma before_of_le {a b : MissionRow} (hle : sortKey createdText a ≤ sortKey createdText b)
    (hne : a.missionId ≠ b.missionId) : Before createdText a b := by
  rcases Prod.Lex.toLex_le_toLex.mp hle with hlt | ⟨heq, hle⟩
  · exact .inl hlt
  · refine .inr ⟨heq, lt_of_le_of_ne hle fun htext => hne ?_⟩
    cases ha : a.missionId
    cases hb : b.missionId
    simp_all

/-- Rows are listed in strict order, so no two of them can change places. -/
lemma listed_pairwise (ownerId : Option ActorId) :
    (db.listed createdText ownerId).Pairwise (Before createdText) := by
  let order : MissionRow → MissionRow → Prop := fun a b =>
    sortKey createdText a ≤ sortKey createdText b
  have : Std.Total order := ⟨fun a b => le_total (sortKey createdText a) (sortKey createdText b)⟩
  have : IsTrans MissionRow order := ⟨fun _ _ _ => le_trans⟩
  have hsorted : (db.listed createdText ownerId).Pairwise order :=
    List.pairwise_insertionSort order _
  have hunique : ((db.listed createdText ownerId).map MissionRow.missionId).Nodup := by
    apply ((db.listed_perm createdText ownerId).map MissionRow.missionId).nodup_iff.mpr
    exact db.missions.unique.sublist (List.filter_sublist.map _)
  exact hsorted.imp₂ (fun _ _ => before_of_le) (List.pairwise_map.mp hunique)

/-! ## Following the pages -/

lemma map_cursor {α : Type} (limit offset : ℕ) (rows : List α) :
    (if (limit : ℤ) < rows.length then some ((offset : ℤ) + limit) else none) =
      (if limit < rows.length then some (offset + limit) else none : Option ℕ).map Nat.cast := by
  split_ifs with h h' h'
  · rw [Option.map_some, Nat.cast_add]
  · exact absurd (Nat.cast_lt.mp h) h'
  · exact absurd (Nat.cast_lt.mpr h') h
  · rfl

lemma list_eq_loadPage {limit : ℕ} (hlimit : 1 ≤ limit ∧ (limit : ℤ) ≤ maxMissionPageSize)
    (ownerId : Option ActorId) (offset : ℕ) :
    ((db.list createdText limit offset ownerId none).map fun page => (page.items, page.nextOffset)) =
      (loadPage loadRow (db.listed createdText ownerId) limit offset).map fun page =>
        (page.1, page.2.map Nat.cast) := by
  have hbounds : ¬((limit : ℤ) < 1 ∨ maxMissionPageSize < limit ∨ (offset : ℤ) < 0) := by omega
  rw [list, if_neg hbounds, if_neg nofun, loadPage]
  simp only [Int.toNat_natCast, decide_eq_true_eq]
  cases ((window (db.listed createdText ownerId) limit offset).take limit).mapM loadRow with
  | error error => rfl
  | ok items =>
      change Except.ok (items, if _ then _ else _) = Except.ok (items, _)
      rw [map_cursor]

lemma history_eq_loadPage {limit : ℕ} (hlimit : 1 ≤ limit ∧ (limit : ℤ) ≤ maxHistoryPageSize)
    {missionId : MissionId} {ownerId : Option ActorId}
    (hfound : (db.selectMission missionId ownerId).isSome) (offset : ℕ) :
    ((db.transitionHistory missionId limit offset ownerId none).map fun page =>
      (page.items, page.nextOffset)) =
      (loadPage loadAudit (db.history missionId) limit offset).map fun page =>
        (page.1, page.2.map Nat.cast) := by
  have hbounds : ¬((limit : ℤ) < 1 ∨ maxHistoryPageSize < limit ∨ (offset : ℤ) < 0) := by omega
  obtain ⟨row, hrow⟩ := Option.isSome_iff_exists.mp hfound
  rw [transitionHistory, if_neg hbounds, if_neg nofun, hrow, loadPage]
  simp only [Int.toNat_natCast]
  cases ((window (db.history missionId) limit offset).take limit).mapM loadAudit with
  | error error => rfl
  | ok items =>
      change Except.ok (items, if _ then _ else _) = Except.ok (items, _)
      rw [map_cursor]

/-- The rows of a filtered table are no more than the fuel. -/
lemma length_sub_lt {α : Type} {rows kept : List α} {p : α → Bool} {fuel : ℕ}
    (hperm : kept.Perm (rows.filter p)) (hfuel : rows.length < fuel) : kept.length - 0 < fuel := by
  have := List.length_filter_le p rows
  rw [hperm.length_eq]
  omega

/-- Following the pages of the Missions loads every row of the owner once, in the order of creation
and id. -/
lemma allMissions_eq {limit : ℕ} (hlimit : 1 ≤ limit ∧ (limit : ℤ) ≤ maxMissionPageSize)
    (ownerId : Option ActorId) {fuel : ℕ} (hfuel : db.missions.rows.length < fuel) :
    db.allMissions createdText limit ownerId fuel =
      some ((db.listed createdText ownerId).mapM loadRow) :=
  followPages_eq hlimit.1 (db.list_eq_loadPage createdText hlimit ownerId)
    (length_sub_lt (db.listed_perm createdText ownerId) hfuel)

lemma allTransitions_eq {limit : ℕ} (hlimit : 1 ≤ limit ∧ (limit : ℤ) ≤ maxHistoryPageSize)
    {missionId : MissionId} {ownerId : Option ActorId}
    (hfound : (db.selectMission missionId ownerId).isSome) {fuel : ℕ}
    (hfuel : db.transitions.rows.length < fuel) :
    db.allTransitions missionId limit ownerId fuel =
      some ((db.history missionId).mapM loadAudit) :=
  followPages_eq hlimit.1 (db.history_eq_loadPage hlimit hfound)
    (length_sub_lt (List.Perm.refl _) hfuel)

end Database

/-! ## A store with three Missions -/

def storedRow (text : String) (createdAt : Datetime)
    (h : isIdentifier text = true := by decide) : MissionRow :=
  newRow { sampleMission with missionId := ⟨text, h⟩, createdAt := createdAt }

/-- Three Missions, two of them created at the same time. -/
def threeMissions : Database where
  missions := ⟨[storedRow "mission-c" 1, storedRow "mission-b" 1, storedRow "mission-a" 2], by decide⟩
  transitions := .empty

def createdSecond (row : MissionRow) : String := if row.createdAt = 1 then "1" else "2"

end AgentSystem.Missions
