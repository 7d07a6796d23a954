import Mathlib

/-!
# A value kept in a file with mirrors

A store keeps one value in a primary file and copies of it in mirrors. It writes the primary first
and the mirrors after it, and reads the first file that it can, which then heals the primary. A
write can tear its file, so that nobody can read it any more. As long as fewer files were torn than
there are, what is read is the value they all once held with some of the later calls applied.
-/
namespace AgentSystem.MirroredFiles

/-- What becomes of a write. When it fails, or the process ends in it, the file is either torn or
as it was. -/
inductive Outcome
  | done
  | raised (torn : Bool)
  | stopped (torn : Bool)
  deriving DecidableEq

def Outcome.tears : Outcome → ℕ
  | .done => 0
  | .raised torn => torn.toNat
  | .stopped torn => torn.toNat

/-- How a call comes to its end. -/
inductive Ending
  | returned
  | raised
  | stopped
  deriving DecidableEq

variable {S C : Type*}

/-- A file that is missing or cannot be read holds `none`. -/
structure Disk (S : Type*) where
  primary : Option S
  mirrors : List (Option S)

def Disk.files (disk : Disk S) : List (Option S) := disk.primary :: disk.mirrors

/-- Every file holds the value. -/
def Disk.Synced (disk : Disk S) (s : S) : Prop := ∀ file ∈ disk.files, file = some s

def Disk.unreadable (disk : Disk S) : ℕ := disk.files.countP Option.isNone

def write (file : Option S) (s : S) : Outcome → Option S
  | .done => some s
  | .raised torn => if torn then none else file
  | .stopped torn => if torn then none else file

/-- A mirror that fails is passed over; the flag says that the process has ended. -/
def writeMirrors (s : S) : List (Option S) → List Outcome → List (Option S) × Bool
  | [], _ => ([], false)
  | file :: files, outcomes =>
      let outcome := outcomes.headD .done
      match outcome with
      | .stopped _ => (write file s outcome :: files, true)
      | _ =>
          let rest := writeMirrors s files outcomes.tail
          (write file s outcome :: rest.1, rest.2)

/-- The value of the first file that can be read, else `empty`, and `none` when the process has
ended while it healed the primary. -/
def load (empty : S) (disk : Disk S) (heal : Outcome) : Disk S × Option S :=
  match disk.primary with
  | some s => (disk, some s)
  | none =>
      match disk.mirrors.findSome? id with
      | none => (disk, some empty)
      | some s =>
          let healed := { disk with primary := write disk.primary s heal }
          match heal with
          | .stopped _ => (healed, none)
          | _ => (healed, some s)

def save (disk : Disk S) (s : S) (primary : Outcome) (mirrors : List Outcome) :
    Disk S × Ending :=
  match primary with
  | .done =>
      let written := writeMirrors s disk.mirrors mirrors
      (⟨some s, written.1⟩, if written.2 then .stopped else .returned)
  | .raised _ => ({ disk with primary := write disk.primary s primary }, .raised)
  | .stopped _ => ({ disk with primary := write disk.primary s primary }, .stopped)

/-- A call with the outcomes of the writes that it may come to. -/
structure Attempt (C : Type*) where
  call : C
  heal : Outcome := .done
  primary : Outcome := .done
  mirrors : List Outcome := []

/-- The files that saving can tear. A healed file was not readable before. -/
def Attempt.tears (a : Attempt C) : ℕ := a.primary.tears + (a.mirrors.map Outcome.tears).sum

/-- Load, compute, and save what has changed; `op` gives the new value and whether it differs. -/
def attempt (op : C → S → S × Bool) (empty : S) (disk : Disk S) (a : Attempt C) :
    Disk S × Ending :=
  match load empty disk a.heal with
  | (disk, none) => (disk, .stopped)
  | (disk, some s) =>
      if (op a.call s).2 then save disk (op a.call s).1 a.primary a.mirrors
      else (disk, .returned)

def run (op : C → S → S × Bool) (empty : S) (disk : Disk S) (attempts : List (Attempt C)) :
    Disk S :=
  attempts.foldl (fun disk a => (attempt op empty disk a).1) disk

/-- The value that a process finds which reads without being interrupted. -/
def found (empty : S) (disk : Disk S) : S := ((load empty disk .done).2).getD empty

/-! ## What loading and saving leave in the files -/

lemma write_cases (file : Option S) (s : S) (outcome : Outcome) :
    write file s outcome = some s ∨ write file s outcome = none ∨ write file s outcome = file := by
  cases outcome with
  | done => simp [write]
  | raised torn => cases torn <;> simp [write]
  | stopped torn => cases torn <;> simp [write]

/-- A write makes at most a torn file unreadable. -/
lemma isNone_write (file : Option S) (s : S) (outcome : Outcome) :
    (write file s outcome).isNone.toNat ≤ file.isNone.toNat + outcome.tears := by
  cases outcome with
  | done => simp [write, Outcome.tears]
  | raised torn => cases torn <;> simp [write, Outcome.tears]
  | stopped torn => cases torn <;> simp [write, Outcome.tears]

lemma countP_cons_toNat (file : Option S) (files : List (Option S)) :
    (file :: files).countP Option.isNone = files.countP Option.isNone + file.isNone.toNat := by
  cases file <;> simp

lemma tears_headD (outcomes : List Outcome) :
    (outcomes.headD .done).tears + (outcomes.tail.map Outcome.tears).sum =
      (outcomes.map Outcome.tears).sum := by
  cases outcomes <;> simp [Outcome.tears]

lemma writeMirrors_cons (s : S) (file : Option S) (files : List (Option S))
    (outcomes : List Outcome) :
    (writeMirrors s (file :: files) outcomes).1 =
        write file s (outcomes.headD .done) :: files ∨
      (writeMirrors s (file :: files) outcomes).1 =
        write file s (outcomes.headD .done) :: (writeMirrors s files outcomes.tail).1 := by
  rw [writeMirrors]
  dsimp only
  cases outcomes.headD .done <;> simp

lemma writeMirrors_length (s : S) (files : List (Option S)) (outcomes : List Outcome) :
    (writeMirrors s files outcomes).1.length = files.length := by
  induction files generalizing outcomes with
  | nil => rfl
  | cons file files ih =>
    rcases writeMirrors_cons s file files outcomes with h | h <;> simp [h, ih]

/-- A mirror holds what is written or what a file held before, or is torn. -/
lemma mem_writeMirrors {s t : S} {files : List (Option S)} {outcomes : List Outcome}
    (ht : some t ∈ (writeMirrors s files outcomes).1) : t = s ∨ some t ∈ files := by
  induction files generalizing outcomes with
  | nil => simp [writeMirrors] at ht
  | cons file files ih =>
    have hhead : some t = write file s (outcomes.headD .done) → t = s ∨ some t ∈ file :: files := by
      intro heq
      rcases write_cases file s (outcomes.headD .done) with h | h | h <;> rw [h] at heq
      · exact Or.inl (Option.some.inj heq)
      · simp at heq
      · simp [heq]
    rcases writeMirrors_cons s file files outcomes with h | h <;> rw [h] at ht
    · rcases List.mem_cons.mp ht with ht | ht
      · exact hhead ht
      · simp [ht]
    · rcases List.mem_cons.mp ht with ht | ht
      · exact hhead ht
      · have := ih ht
        simp only [List.mem_cons]
        tauto

lemma unreadable_writeMirrors (s : S) (files : List (Option S)) (outcomes : List Outcome) :
    (writeMirrors s files outcomes).1.countP Option.isNone ≤
      files.countP Option.isNone + (outcomes.map Outcome.tears).sum := by
  induction files generalizing outcomes with
  | nil => simp [writeMirrors]
  | cons file files ih =>
    have hhead := isNone_write file s (outcomes.headD .done)
    have hsum := tears_headD outcomes
    have hrest := ih outcomes.tail
    rcases writeMirrors_cons s file files outcomes with h | h <;>
      rw [h, countP_cons_toNat, countP_cons_toNat] <;> omega

/-- What saving leaves in the files. -/
lemma mem_save {disk : Disk S} {s t : S} {primary : Outcome} {mirrors : List Outcome}
    (ht : some t ∈ (save disk s primary mirrors).1.files) : t = s ∨ some t ∈ disk.files := by
  have hprimary : some t ∈ write disk.primary s primary :: disk.mirrors →
      t = s ∨ some t ∈ disk.files := by
    intro hmem
    rcases List.mem_cons.mp hmem with heq | hmem
    · rcases write_cases disk.primary s primary with h | h | h <;> rw [h] at heq
      · exact Or.inl (Option.some.inj heq)
      · simp at heq
      · simp [Disk.files, heq]
    · simp [Disk.files, hmem]
  unfold save at ht
  cases primary with
  | done =>
    rcases List.mem_cons.mp ht with heq | hmem
    · exact Or.inl (Option.some.inj heq)
    · have := mem_writeMirrors hmem
      simp only [Disk.files, List.mem_cons]
      tauto
  | raised torn => exact hprimary ht
  | stopped torn => exact hprimary ht

lemma unreadable_save (disk : Disk S) (s : S) (primary : Outcome) (mirrors : List Outcome) :
    (save disk s primary mirrors).1.unreadable ≤
      disk.unreadable + (primary.tears + (mirrors.map Outcome.tears).sum) := by
  have hwrite := isNone_write disk.primary s primary
  have hmirrors := unreadable_writeMirrors s disk.mirrors mirrors
  unfold save Disk.unreadable Disk.files
  cases primary with
  | done =>
    rw [countP_cons_toNat, countP_cons_toNat]
    simp only [Option.isNone_some, Bool.toNat_false]
    omega
  | raised torn =>
    rw [countP_cons_toNat, countP_cons_toNat]
    dsimp only
    omega
  | stopped torn =>
    rw [countP_cons_toNat, countP_cons_toNat]
    dsimp only
    omega

/-! ## Reading -/

lemma load_primary {empty s : S} {disk : Disk S} (h : disk.primary = some s) (heal : Outcome) :
    load empty disk heal = (disk, some s) := by
  simp [load, h]

/-- Loading from a mirror only touches a primary that cannot be read. -/
lemma load_mirror (empty : S) {s : S} {disk : Disk S} (h : disk.primary = none)
    (hs : disk.mirrors.findSome? id = some s) (heal : Outcome) :
    (load empty disk heal).1 = { disk with primary := write disk.primary s heal } ∧
      ((load empty disk heal).2 = some s ∨ (load empty disk heal).2 = none) := by
  unfold load
  rw [h, hs]
  cases heal <;> simp

/-- A reader that nothing interrupts gets a value. -/
lemma load_done (empty : S) (disk : Disk S) :
    ∃ loaded, load empty disk .done = (loaded, some (found empty disk)) ∧
      loaded.mirrors.length = disk.mirrors.length := by
  unfold found load
  cases disk.primary with
  | some s => exact ⟨disk, by simp⟩
  | none => cases disk.mirrors.findSome? id <;> simp

/-- With a readable file, loading finds the value of one, tears none and puts no other value
anywhere. -/
lemma load_readable (empty : S) {disk : Disk S} (hread : disk.unreadable < disk.files.length)
    (heal : Outcome) : (load empty disk heal).1.unreadable ≤ disk.unreadable ∧
      (∀ t, some t ∈ (load empty disk heal).1.files → some t ∈ disk.files) ∧
      (load empty disk heal).1.mirrors.length = disk.mirrors.length ∧
      ∀ s, (load empty disk heal).2 = some s → some s ∈ disk.files := by
  cases hprimary : disk.primary with
  | some s =>
    rw [load_primary hprimary]
    refine ⟨le_rfl, fun t ht => ht, rfl, fun t ht => ?_⟩
    simp_all [Disk.files]
  | none =>
    cases hfirst : disk.mirrors.findSome? id with
    | none =>
      -- no file at all can be read
      have hnone : ∀ file ∈ disk.mirrors, file.isNone = true := by
        simpa using hfirst
      have hall : disk.unreadable = disk.files.length := by
        unfold Disk.unreadable
        rw [List.countP_eq_length]
        intro file hfile
        rcases List.mem_cons.mp hfile with rfl | hfile
        · simp [hprimary]
        · exact hnone file hfile
      omega
    | some s =>
      have hmem : some s ∈ disk.mirrors := by
        obtain ⟨file, hfile, hs⟩ := List.exists_of_findSome?_eq_some hfirst
        rwa [← hs]
      obtain ⟨hdisk, hvalue⟩ := load_mirror empty hprimary hfirst heal
      rw [hdisk]
      refine ⟨?_, fun t ht => ?_, rfl, fun t ht => ?_⟩
      · have hwrite := isNone_write disk.primary s .done
        unfold Disk.unreadable Disk.files
        rw [countP_cons_toNat, countP_cons_toNat, hprimary]
        have hone : ∀ file : Option S, file.isNone.toNat ≤ 1 := fun file => by
          cases file <;> simp
        have := hone (write none s heal)
        simp only [Option.isNone_none, Bool.toNat_true]
        omega
      · rcases List.mem_cons.mp ht with heq | ht
        · rcases write_cases disk.primary s heal with h | h | h <;> rw [h] at heq
          · obtain rfl := Option.some.inj heq
            simp [Disk.files, hmem]
          · simp at heq
          · simp [hprimary] at heq
        · simp [Disk.files, ht]
      · rcases hvalue with h | h <;> rw [h] at ht
        · obtain rfl := Option.some.inj ht
          simp [Disk.files, hmem]
        · simp at ht

/-! ## Runs -/

section Runs

variable {op : C → S → S × Bool} (empty : S) {s₀ : S}

/-- Every readable file holds the value that some of the calls, in their order, make of `s₀`. -/
def Holds (op : C → S → S × Bool) (s₀ : S) (calls : List C) (disk : Disk S) : Prop :=
  ∀ s, some s ∈ disk.files →
    ∃ taken : List C, taken.Sublist calls ∧ s = taken.foldl (fun s c => (op c s).1) s₀

lemma save_mirrors_length (disk : Disk S) (s : S) (primary : Outcome) (mirrors : List Outcome) :
    (save disk s primary mirrors).1.mirrors.length = disk.mirrors.length := by
  unfold save
  cases primary <;> simp [writeMirrors_length]

/-- One attempt. -/
lemma Holds.attempt {calls : List C} {disk : Disk S} (h : Holds op s₀ calls disk)
    (hread : disk.unreadable < disk.files.length) (a : Attempt C) :
    Holds op s₀ (calls ++ [a.call]) (attempt op empty disk a).1 ∧
      (attempt op empty disk a).1.unreadable ≤ disk.unreadable + a.tears ∧
      (attempt op empty disk a).1.mirrors.length = disk.mirrors.length := by
  obtain ⟨hunread, hfiles, hlen, hvalue⟩ := load_readable empty hread a.heal
  have hkeep : Holds op s₀ (calls ++ [a.call]) (load empty disk a.heal).1 := by
    intro s hs
    obtain ⟨taken, htaken, heq⟩ := h s (hfiles s hs)
    exact ⟨taken, htaken.trans (List.sublist_append_left _ _), heq⟩
  unfold MirroredFiles.attempt
  rcases hload : load empty disk a.heal with ⟨disk', value⟩
  rw [hload] at hunread hlen hkeep hvalue
  dsimp only at hunread
  cases value with
  | none => exact ⟨hkeep, by dsimp only; omega, hlen⟩
  | some s =>
    dsimp only
    split_ifs
    · refine ⟨fun t ht => ?_, ?_, ?_⟩
      · rcases mem_save ht with rfl | ht
        · obtain ⟨taken, htaken, rfl⟩ := h s (hvalue s rfl)
          refine ⟨taken ++ [a.call], htaken.append (List.Sublist.refl _), ?_⟩
          simp
        · exact hkeep t ht
      · have := unreadable_save disk' (op a.call s).1 a.primary a.mirrors
        unfold Attempt.tears
        omega
      · rw [save_mirrors_length]
        exact hlen
    · exact ⟨hkeep, by dsimp only; omega, hlen⟩

/-- A run that tears fewer files than there are. -/
lemma Holds.run {calls : List C} {disk : Disk S} (h : Holds op s₀ calls disk)
    (attempts : List (Attempt C))
    (htears : disk.unreadable + (attempts.map Attempt.tears).sum ≤ disk.mirrors.length) :
    Holds op s₀ (calls ++ attempts.map Attempt.call) (run op empty disk attempts) ∧
      (run op empty disk attempts).unreadable < (run op empty disk attempts).files.length := by
  induction attempts generalizing calls disk with
  | nil =>
    simp only [List.map_nil, List.sum_nil] at htears
    refine ⟨by simpa [MirroredFiles.run] using h, ?_⟩
    simp only [MirroredFiles.run, List.foldl_nil, Disk.files, List.length_cons]
    omega
  | cons a attempts ih =>
    simp only [List.map_cons, List.sum_cons] at htears
    have hread : disk.unreadable < disk.files.length := by
      simp only [Disk.files, List.length_cons]
      omega
    obtain ⟨hnext, hunread, hlen⟩ := h.attempt empty hread a
    have := ih hnext (by omega)
    simpa [MirroredFiles.run] using this

lemma Disk.Synced.unreadable {disk : Disk S} (h : disk.Synced s₀) : disk.unreadable = 0 := by
  unfold Disk.unreadable
  rw [List.countP_eq_zero]
  intro file hfile
  simp [h file hfile]

/-- After files that agree on `s₀` were torn no more often than there are mirrors, the value found
is what some of the calls, in their order, make of `s₀`. -/
theorem found_of_tears (op : C → S → S × Bool) {disk : Disk S} (h : disk.Synced s₀) (attempts : List (Attempt C))
    (htears : (attempts.map Attempt.tears).sum ≤ disk.mirrors.length) :
    ∃ taken : List C, taken.Sublist (attempts.map Attempt.call) ∧
      found empty (MirroredFiles.run op empty disk attempts) =
        taken.foldl (fun s c => (op c s).1) s₀ := by
  have hstart : Holds op s₀ [] disk := fun s hs =>
    ⟨[], List.Sublist.refl _, by simpa using h _ hs⟩
  obtain ⟨hholds, hread⟩ := hstart.run empty attempts (by rw [h.unreadable]; omega)
  obtain ⟨_, _, _, hvalue⟩ := load_readable empty hread .done
  obtain ⟨loaded, hload, _⟩ := load_done empty (MirroredFiles.run op empty disk attempts)
  rw [hload] at hvalue
  simpa using hholds _ (hvalue _ rfl)

/-! ### One torn file more -/

lemma writeMirrors_torn (s : S) (front back : List (Option S)) (file : Option S) :
    (writeMirrors s (front ++ file :: back)
      (List.replicate front.length .done ++ [.stopped true])).1 =
        List.replicate front.length (some s) ++ none :: back := by
  induction front with
  | nil => simp [writeMirrors, write]
  | cons other front ih => simp [writeMirrors, write, List.replicate_succ, ih]

/-- A call that changes the value and is cut off while it writes a mirror. -/
lemma exists_torn_mirror (hchange : ∀ s, ∃ c, (op c s).2 = true) {s : S} (front back : List (Option S))
    (file : Option S) : ∃ a : Attempt C, a.tears = 1 ∧ ∃ s',
      (MirroredFiles.attempt op empty ⟨some s, front ++ file :: back⟩ a).1 =
        ⟨some s', List.replicate front.length (some s') ++ none :: back⟩ := by
  obtain ⟨c, hc⟩ := hchange s
  refine ⟨⟨c, .done, .done, List.replicate front.length .done ++ [.stopped true]⟩, ?_,
    (op c s).1, ?_⟩
  · simp [Attempt.tears, Outcome.tears]
  · simp [MirroredFiles.attempt, load, hc, save, writeMirrors_torn]

/-- One torn write for every file is enough to lose them all. -/
theorem exists_all_torn (hchange : ∀ s, ∃ c, (op c s).2 = true) {s : S} (front back : List (Option S))
    (hback : ∀ file ∈ back, file = none) : ∃ attempts : List (Attempt C),
      (attempts.map Attempt.tears).sum = front.length + 1 ∧
      ∀ file ∈ (MirroredFiles.run op empty ⟨some s, front ++ back⟩ attempts).files,
        file = none := by
  induction hlen : front.length generalizing front back s with
  | zero =>
    obtain ⟨c, hc⟩ := hchange s
    obtain rfl : front = [] := List.eq_nil_of_length_eq_zero hlen
    refine ⟨[⟨c, .done, .stopped true, []⟩], by simp [Attempt.tears, Outcome.tears], ?_⟩
    simpa [MirroredFiles.run, MirroredFiles.attempt, load, hc, save, write, Disk.files] using hback
  | succ n ih =>
    have hne : front ≠ [] := by
      rintro rfl
      simp at hlen
    obtain ⟨init, last, rfl⟩ : ∃ init last, front = init ++ [last] :=
      ⟨front.dropLast, front.getLast hne, (List.dropLast_append_getLast hne).symm⟩
    have hinit : init.length = n := by simpa using hlen
    obtain ⟨a, htears, s', hdisk⟩ := exists_torn_mirror empty hchange (s := s) init back last
    obtain ⟨rest, hsum, hnone⟩ := ih (s := s') (List.replicate init.length (some s')) (none :: back)
      (by simpa using hback) (by simpa using hinit)
    refine ⟨a :: rest, by simp [htears, hsum]; omega, ?_⟩
    simpa [MirroredFiles.run, hdisk] using hnone

/-- With all files torn the value found is the empty one. -/
lemma found_of_all_torn {disk : Disk S} (h : ∀ file ∈ disk.files, file = none) :
    found empty disk = empty := by
  have hprimary : disk.primary = none := h _ (by simp [Disk.files])
  have hmirrors : disk.mirrors.findSome? id = none := by
    simp only [List.findSome?_eq_none_iff, id_eq]
    exact fun file hfile => h _ (by simp [Disk.files, hfile])
  simp [found, load, hprimary, hmirrors]

end Runs

end AgentSystem.MirroredFiles
