import AgentSystem.PySequence

/-!
# Background tasks

A task is submitted under an id, runs in the event loop and leaves a record that is kept for a
while. `executed_once` is about every order of submissions, starts, ends and callbacks: there is
room for so many tasks, and an id runs again only when its last record has expired.

Times are microseconds, and the clock does not go back. Who may submit and what a task answers is
left out.
-/

namespace AgentSystem.BackgroundTasks

open PySequence

inductive Status
  | queued
  | running
  | completed
  | error
  | timeout
  | cancelled
  deriving DecidableEq

/-- `terminal_statuses`. -/
def Status.terminal : Status → Bool
  | .completed | .error | .timeout | .cancelled => true
  | .queued | .running => false

structure TaskRecord where
  taskId : String
  session : String
  msg : String
  status : Status := .queued
  submittedAt : ℤ
  startedAt : Option ℤ := none
  completedAt : Option ℤ := none
  response : Option String := none
  error : Option String := none

/-- How far the coroutine of a record has come. A settled one is done, and its callback has still to
run. -/
inductive Phase
  | scheduled
  | running
  | settled
  | forgotten
  deriving DecidableEq

/-- A record and the coroutine that holds it. -/
structure Job where
  record : TaskRecord
  phase : Phase := .scheduled

/-- The coroutine has not ended. -/
def Job.live (job : Job) : Bool := job.phase = .scheduled ∨ job.phase = .running

/-- `_task_records` and `_task_handles` refer to the jobs that were made; `clock` is the last time
that was read. -/
structure Service where
  jobs : List Job := []
  records : String → Option ℕ := fun _ => none
  handles : List (String × ℕ) := []
  clock : ℤ := 0

inductive Response
  | accepted (taskId session : String) (status : Status)
  | conflict
  | full
  deriving DecidableEq

/-- How `run_agent_loop` ends. -/
inductive Outcome
  | completed (response : String)
  | timeout
  | cancelled
  | error (text : String)

variable (capacity : ℕ) (ttl : ℤ)

namespace Service

variable (s : Service)

/-- The record has ended, its callback has run, and it is old. -/
def expired (now : ℤ) (taskId : String) (n : ℕ) : Bool :=
  (s.jobs[n]?).any fun job =>
    job.record.status.terminal && !(s.handles.any fun handle => handle.1 = taskId) &&
      decide (ttl < now - job.record.completedAt.getD job.record.submittedAt)

def cleanupTaskRecords (now : ℤ) : Service :=
  { s with
    clock := now
    records := fun taskId => (s.records taskId).filter fun n => !s.expired ttl now taskId n }

/-- The jobs that have not ended. -/
def running : List ℕ := (List.range s.jobs.length).filter fun n => (s.jobs[n]?).any Job.live

def activeCount : ℕ := s.handles.countP fun handle => (s.jobs[handle.2]?).any Job.live

/-- `_schedule_background_task`, `none` for a full service. The new record is in the table while it
is cleaned up, and stays there because it is queued. -/
def scheduleBackgroundTask (now : ℤ) (record : TaskRecord) : Service × Bool :=
  let s := s.cleanupTaskRecords ttl now
  if capacity ≤ s.activeCount then (s, false)
  else
    ({ s with
      jobs := s.jobs ++ [{ record := record }]
      records := Function.update s.records record.taskId (some s.jobs.length)
      handles := (record.taskId, s.jobs.length) :: s.handles.filter (·.1 ≠ record.taskId) }, true)

/-- The clock is read for the first cleanup, for the record and for the second cleanup. -/
def submitTask (cleaned submitted scheduled : ℤ) (taskId session msg : String) : Service × Response :=
  let s := s.cleanupTaskRecords ttl cleaned
  match (s.records taskId).bind (s.jobs[·]?) with
  | some existing =>
      if existing.record.session = session ∧ existing.record.msg = msg then
        (s, .accepted taskId session existing.record.status)
      else (s, .conflict)
  | none =>
      let record : TaskRecord :=
        { taskId := taskId, session := session, msg := msg, submittedAt := submitted }
      match s.scheduleBackgroundTask capacity ttl scheduled record with
      | (s, true) => (s, .accepted taskId session .queued)
      | (s, false) => (s, .full)

end Service

/-- The record when the coroutine begins. -/
def TaskRecord.begun (record : TaskRecord) (now : ℤ) : TaskRecord :=
  { record with status := .running, startedAt := some now }

/-- The record when the coroutine has ended. -/
def TaskRecord.ended (record : TaskRecord) (now : ℤ) (outcome : Outcome) : TaskRecord :=
  let record := { record with completedAt := some now }
  match outcome with
  | .completed response => { record with status := .completed, response := some response }
  | .timeout => { record with status := .timeout, error := some "Task execution timed out." }
  | .cancelled => { record with status := .cancelled, error := some "Task cancelled." }
  | .error text => { record with status := .error, error := some text }

/-- What the event loop does next. A coroutine that is cancelled before its first step never gets to
its record. -/
inductive Action
  | submit (cleaned submitted scheduled : ℤ) (taskId session msg : String)
  | begin (n : ℕ) (now : ℤ)
  | finish (n : ℕ) (now : ℤ) (outcome : Outcome)
  | cancel (n : ℕ)
  | forget (n : ℕ)

namespace Service

variable (s : Service)

/-- One turn, `none` when it is not possible. -/
def step : Action → Option Service
  | .submit cleaned submitted scheduled taskId session msg =>
      if s.clock ≤ cleaned ∧ cleaned ≤ submitted ∧ submitted ≤ scheduled then
        some (s.submitTask capacity ttl cleaned submitted scheduled taskId session msg).1
      else none
  | .begin n now =>
      (s.jobs[n]?).bind fun job =>
        if job.phase = .scheduled ∧ s.clock ≤ now then
          some { s with clock := now, jobs := s.jobs.set n ⟨job.record.begun now, .running⟩ }
        else none
  | .finish n now outcome =>
      (s.jobs[n]?).bind fun job =>
        if job.phase = .running ∧ s.clock ≤ now then
          some { s with clock := now, jobs := s.jobs.set n ⟨job.record.ended now outcome, .settled⟩ }
        else none
  | .cancel n =>
      (s.jobs[n]?).bind fun job =>
        if job.phase = .scheduled then
          some { s with jobs := s.jobs.set n ⟨job.record, .settled⟩ }
        else none
  | .forget n =>
      (s.jobs[n]?).bind fun job =>
        if job.phase = .settled then
          some
            { s with
              jobs := s.jobs.set n ⟨job.record, .forgotten⟩
              handles := s.handles.filter (·.1 ≠ job.record.taskId) }
        else none

def run (s : Service) : List Action → Option Service
  | [] => some s
  | action :: actions => (s.step capacity ttl action).bind fun s => s.run actions

end Service

/-! ## What holds in every state -/

/-- A job that was dropped from the records had ended for longer than records are kept. -/
def Job.Expired (job : Job) (now : ℤ) : Prop :=
  ∃ c, job.record.completedAt = some c ∧ job.record.status.terminal = true ∧ ttl < now - c

/-- The tables refer to the jobs whose callback has not run, and what they do not refer to has
expired. -/
structure Consistent (s : Service) : Prop where
  held : ∀ (n : ℕ) (job : Job), s.jobs[n]? = some job → job.phase ≠ .forgotten →
    s.records job.record.taskId = some n ∧ (job.record.taskId, n) ∈ s.handles
  handled : ∀ handle ∈ s.handles, ∃ job, s.jobs[handle.2]? = some job ∧
    job.record.taskId = handle.1 ∧ job.phase ≠ .forgotten
  distinct : (s.handles.map Prod.fst).Nodup
  recorded : ∀ taskId n, s.records taskId = some n →
    ∃ job, s.jobs[n]? = some job ∧ job.record.taskId = taskId
  ended : ∀ (n : ℕ) (job : Job), s.jobs[n]? = some job → job.record.status.terminal = true →
    job.live = false ∧ job.record.completedAt.isSome
  dropped : ∀ (n : ℕ) (job : Job), s.jobs[n]? = some job →
    s.records job.record.taskId = some n ∨ job.Expired ttl s.clock
  apart : ∀ (m n : ℕ) (job job' : Job), m < n → s.jobs[m]? = some job → s.jobs[n]? = some job' →
    job.record.taskId = job'.record.taskId → job.Expired ttl job'.record.submittedAt
  room : s.running.length ≤ capacity

variable {capacity ttl} {s s' : Service} {job job' : Job} {n : ℕ} {now : ℤ}

lemma Job.Expired.mono {later : ℤ} (h : job.Expired ttl now) (hle : now ≤ later) :
    job.Expired ttl later := by
  obtain ⟨c, hc, hterminal, hlt⟩ := h
  exact ⟨c, hc, hterminal, by omega⟩

lemma Consistent.not_expired (h : Consistent capacity ttl s) (hjob : s.jobs[n]? = some job)
    (hlive : job.live = true) : ¬ job.Expired ttl now := by
  rintro ⟨c, -, hterminal, -⟩
  rw [(h.ended n job hjob hterminal).1] at hlive
  exact Bool.false_ne_true hlive

lemma Consistent.cleanup (h : Consistent capacity ttl s) (hle : s.clock ≤ now) :
    Consistent capacity ttl (s.cleanupTaskRecords ttl now) where
  held n job hjob hphase := by
    obtain ⟨hrecord, hhandle⟩ := h.held n job hjob hphase
    have hkept : s.expired ttl now job.record.taskId n = false := by
      have hany : (s.handles.any fun handle => handle.1 = job.record.taskId) = true :=
        List.any_eq_true.mpr ⟨_, hhandle, by simp⟩
      have hjob' : s.jobs[n]? = some job := hjob
      simp [Service.expired, hjob', hany]
    exact ⟨by simp [Service.cleanupTaskRecords, hrecord, hkept], hhandle⟩
  handled := h.handled
  distinct := h.distinct
  recorded taskId n hn := by
    obtain ⟨hn, -⟩ := Option.filter_eq_some_iff.mp hn
    exact h.recorded taskId n hn
  ended := h.ended
  dropped n job hjob := by
    rcases h.dropped n job hjob with hrecord | hexpired
    · cases hold : s.expired ttl now job.record.taskId n with
      | false => exact Or.inl (by simp [Service.cleanupTaskRecords, hrecord, hold])
      | true =>
        have hjob' : s.jobs[n]? = some job := hjob
        simp only [Service.expired, hjob', Option.any_some, Bool.and_eq_true, decide_eq_true_eq]
          at hold
        obtain ⟨⟨hterminal, -⟩, hlt⟩ := hold
        obtain ⟨c, hc⟩ := Option.isSome_iff_exists.mp (h.ended n job hjob hterminal).2
        rw [hc] at hlt
        exact Or.inr ⟨c, hc, hterminal, hlt⟩
    · exact Or.inr (hexpired.mono hle)
  apart := h.apart
  room := h.room

/-- Every job that has not ended has a handle. -/
lemma Consistent.running_le (h : Consistent capacity ttl s) : s.running.length ≤ s.activeCount := by
  have hmem : ∀ n ∈ s.running, ∃ job, s.jobs[n]? = some job ∧ job.live = true := by
    intro n hn
    simpa [Option.any_eq_true] using (List.mem_filter.mp hn).2
  let name (n : ℕ) : String := ((s.jobs[n]?).map fun job => job.record.taskId).getD ""
  have hnodup : (s.running.map fun n => (name n, n)).Nodup := by
    refine List.Nodup.of_map Prod.snd ?_
    rw [List.map_map]
    exact (List.nodup_range.filter _).map fun _ _ heq => heq
  have hsub : (s.running.map fun n => (name n, n)) ⊆
      s.handles.filter fun handle => (s.jobs[handle.2]?).any Job.live := by
    intro handle hhandle
    obtain ⟨n, hn, rfl⟩ := List.mem_map.mp hhandle
    obtain ⟨job, hjob, hlive⟩ := hmem n hn
    have hphase : job.phase ≠ .forgotten := by
      intro hforgotten
      simp [Job.live, hforgotten] at hlive
    refine List.mem_filter.mpr ⟨?_, by simp [hjob, hlive]⟩
    simpa [name, hjob] using (h.held n job hjob hphase).2
  have hlength := (List.subperm_of_subset hnodup hsub).length_le
  rwa [List.length_map, ← List.countP_eq_length_filter] at hlength

/-- A job that goes on keeps its id and the time it was submitted. -/
lemma Consistent.set (h : Consistent capacity ttl s) {handles : List (String × ℕ)}
    (hle : s.clock ≤ now) (hjob : s.jobs[n]? = some job)
    (hid : job'.record.taskId = job.record.taskId)
    (hsubmitted : job'.record.submittedAt = job.record.submittedAt)
    (hexpired : ∀ t, job.Expired ttl t → job'.Expired ttl t)
    (hlive : job'.live = true → job.live = true)
    (hended : job'.record.status.terminal = true →
      job'.live = false ∧ job'.record.completedAt.isSome)
    (hheld : ∀ (m : ℕ) (j : Job), (s.jobs.set n job')[m]? = some j → j.phase ≠ .forgotten →
      s.records j.record.taskId = some m ∧ (j.record.taskId, m) ∈ handles)
    (hhandled : ∀ handle ∈ handles, ∃ j, (s.jobs.set n job')[handle.2]? = some j ∧
      j.record.taskId = handle.1 ∧ j.phase ≠ .forgotten)
    (hdistinct : (handles.map Prod.fst).Nodup) :
    Consistent capacity ttl
      { s with clock := now, jobs := s.jobs.set n job', handles := handles } where
  held := hheld
  handled := hhandled
  distinct := hdistinct
  recorded taskId m hm := by
    obtain ⟨j, hj, hj'⟩ := h.recorded taskId m hm
    by_cases hmn : m = n
    · subst hmn
      rw [hjob, Option.some.injEq] at hj
      exact ⟨job', by simp [(List.getElem?_eq_some_iff.mp hjob).1], by rw [hid, hj, hj']⟩
    · exact ⟨j, by rw [List.getElem?_set_ne (Ne.symm hmn), hj], hj'⟩
  ended m j hj hterminal := by
    rcases getElem?_set_cases hj with ⟨rfl, rfl⟩ | ⟨-, hj⟩
    · exact hended hterminal
    · exact h.ended m j hj hterminal
  dropped m j hj := by
    rcases getElem?_set_cases hj with ⟨rfl, rfl⟩ | ⟨-, hj⟩
    · rw [hid]
      exact (h.dropped m job hjob).imp id fun hold => hexpired _ (hold.mono hle)
    · exact (h.dropped m j hj).imp id fun hold => hold.mono hle
  apart m k j j' hlt hj hj' hsame := by
    rcases getElem?_set_cases hj with ⟨rfl, rfl⟩ | ⟨-, hm⟩
    · rcases getElem?_set_cases hj' with ⟨rfl, rfl⟩ | ⟨-, hj'⟩
      · exact absurd hlt (lt_irrefl _)
      · exact hexpired _ (h.apart m k job j' hlt hjob hj' (by rw [← hid, hsame]))
    · rcases getElem?_set_cases hj' with ⟨rfl, rfl⟩ | ⟨-, hj'⟩
      · rw [hsubmitted]
        exact h.apart m k j job hlt hm hjob (by rw [hsame, hid])
      · exact h.apart m k j j' hlt hm hj' hsame
  room := by
    refine le_trans (List.Sublist.length_le ?_) h.room
    simp only [Service.running, List.length_set]
    refine List.monotone_filter_right _ fun m hm => ?_
    obtain ⟨j, hj, hjlive⟩ := (Option.any_eq_true _ _).mp hm
    rcases getElem?_set_cases hj with ⟨rfl, rfl⟩ | ⟨-, hj⟩
    · simp [hjob, hlive hjlive]
    · simp [hj, hjlive]

/-- A coroutine that begins or ends keeps its handle until its callback runs. -/
lemma Consistent.progress (h : Consistent capacity ttl s) (hle : s.clock ≤ now)
    (hjob : s.jobs[n]? = some job) (hlive : job.live = true)
    (hid : job'.record.taskId = job.record.taskId)
    (hsubmitted : job'.record.submittedAt = job.record.submittedAt) (hphase : job'.phase ≠ .forgotten)
    (hended : job'.record.status.terminal = true →
      job'.live = false ∧ job'.record.completedAt.isSome) :
    Consistent capacity ttl { s with clock := now, jobs := s.jobs.set n job' } := by
  refine h.set hle hjob hid hsubmitted (fun t hold => absurd hold (h.not_expired hjob hlive))
    (fun _ => hlive) hended ?_ ?_ h.distinct
  · intro m j hj hj'
    rcases getElem?_set_cases hj with ⟨rfl, rfl⟩ | ⟨-, hj⟩
    · rw [hid]
      refine h.held m job hjob fun hforgotten => ?_
      simp [Job.live, hforgotten] at hlive
    · exact h.held m j hj hj'
  · intro handle hhandle
    obtain ⟨j, hj, hj', hjphase⟩ := h.handled handle hhandle
    by_cases hmn : handle.2 = n
    · rw [hmn, hjob, Option.some.injEq] at hj
      rw [hmn]
      exact ⟨job', by simp [(List.getElem?_eq_some_iff.mp hjob).1], by rw [hid, hj, hj'], hphase⟩
    · exact ⟨j, by rw [List.getElem?_set_ne (Ne.symm hmn), hj], hj', hjphase⟩

lemma Consistent.forget (h : Consistent capacity ttl s) (hjob : s.jobs[n]? = some job)
    (hphase : job.phase = .settled) :
    Consistent capacity ttl
      { s with
        jobs := s.jobs.set n ⟨job.record, .forgotten⟩
        handles := s.handles.filter (·.1 ≠ job.record.taskId) } := by
  have hrecord := (h.held n job hjob (by simp [hphase])).1
  refine h.set le_rfl hjob rfl rfl (fun t hold => hold) (fun hlive => by simp [Job.live] at hlive)
    (fun hterminal => ⟨by simp [Job.live], (h.ended n job hjob hterminal).2⟩) ?_ ?_
    (h.distinct.sublist (List.filter_sublist.map _))
  · intro m j hj hj'
    rcases getElem?_set_cases hj with ⟨rfl, rfl⟩ | ⟨hmn, hj⟩
    · exact absurd rfl hj'
    · obtain ⟨hm, hhandle⟩ := h.held m j hj hj'
      refine ⟨hm, List.mem_filter.mpr ⟨hhandle, decide_eq_true fun hsame => hmn ?_⟩⟩
      have hsame : j.record.taskId = job.record.taskId := hsame
      rw [hsame, hrecord] at hm
      exact (Option.some.inj hm).symm
  · intro handle hhandle
    obtain ⟨hhandle, hother⟩ := List.mem_filter.mp hhandle
    obtain ⟨j, hj, hj', hjphase⟩ := h.handled handle hhandle
    have hmn : handle.2 ≠ n := by
      intro hmn
      rw [hmn, hjob, Option.some.injEq] at hj
      exact of_decide_eq_true hother (by rw [← hj', hj])
    exact ⟨j, by rw [List.getElem?_set_ne hmn.symm, hj], hj', hjphase⟩

/-- A new job under an id that has no record. -/
lemma Consistent.append (h : Consistent capacity ttl s) {record : TaskRecord}
    (hfree : s.records record.taskId = none) (hstatus : record.status = .queued)
    (hold : ∀ (m : ℕ) (j : Job), s.jobs[m]? = some j → j.record.taskId = record.taskId →
      j.Expired ttl record.submittedAt)
    (hroom : s.activeCount < capacity) :
    Consistent capacity ttl
      { s with
        jobs := s.jobs ++ [{ record := record }]
        records := Function.update s.records record.taskId (some s.jobs.length)
        handles := (record.taskId, s.jobs.length) ::
          s.handles.filter (·.1 ≠ record.taskId) } where
  held m j hj hphase := by
    rcases getElem?_append_cases hj with hj | ⟨rfl, rfl⟩
    · obtain ⟨hm, hhandle⟩ := h.held m j hj hphase
      have hother : j.record.taskId ≠ record.taskId := by
        intro hsame
        rw [hsame, hfree] at hm
        cases hm
      refine ⟨(Function.update_of_ne hother _ _).trans hm, List.mem_cons_of_mem _ ?_⟩
      exact List.mem_filter.mpr ⟨hhandle, decide_eq_true hother⟩
    · exact ⟨Function.update_self .., List.mem_cons_self⟩
  handled handle hhandle := by
    rcases List.mem_cons.mp hhandle with rfl | hhandle
    · exact ⟨{ record := record }, by simp, rfl, by simp⟩
    · obtain ⟨j, hj, hj', hphase⟩ := h.handled handle (List.mem_filter.mp hhandle).1
      exact ⟨j, getElem?_append_of_some hj, hj', hphase⟩
  distinct := by
    rw [List.map_cons, List.nodup_cons]
    refine ⟨fun hmem => ?_, h.distinct.sublist (List.filter_sublist.map _)⟩
    obtain ⟨handle, hhandle, hsame⟩ := List.mem_map.mp hmem
    exact of_decide_eq_true (List.mem_filter.mp hhandle).2 hsame
  recorded taskId m hm := by
    by_cases hid : taskId = record.taskId
    · subst hid
      have hm : s.jobs.length = m := by simpa using hm
      exact ⟨{ record := record }, by simp [← hm], rfl⟩
    · obtain ⟨j, hj, hj'⟩ := h.recorded taskId m ((Function.update_of_ne hid _ _).symm.trans hm)
      exact ⟨j, getElem?_append_of_some hj, hj'⟩
  ended m j hj hterminal := by
    rcases getElem?_append_cases hj with hj | ⟨rfl, rfl⟩
    · exact h.ended m j hj hterminal
    · simp [hstatus, Status.terminal] at hterminal
  dropped m j hj := by
    rcases getElem?_append_cases hj with hj | ⟨rfl, rfl⟩
    · refine (h.dropped m j hj).imp (fun hm => ?_) id
      refine (Function.update_of_ne (fun hsame => ?_) _ _).trans hm
      rw [hsame, hfree] at hm
      cases hm
    · exact Or.inl (Function.update_self ..)
  apart m k j j' hlt hj hj' hsame := by
    have hm : s.jobs[m]? = some j := by
      refine (getElem?_append_cases hj).resolve_right fun hlast => ?_
      have hk := (List.getElem?_eq_some_iff.mp hj').1
      simp only [List.length_append, List.length_singleton] at hk
      omega
    rcases getElem?_append_cases hj' with hj' | ⟨-, rfl⟩
    · exact h.apart m k j j' hlt hm hj' hsame
    · exact hold m j hm hsame
  room := by
    have hrunning : (List.range (s.jobs ++ [({ record := record } : Job)]).length).filter
        (fun m => ((s.jobs ++ [({ record := record } : Job)])[m]?).any Job.live) =
          s.running ++ [s.jobs.length] := by
      rw [List.length_append, List.length_singleton, List.range_succ, List.filter_append]
      congr 1
      · refine List.filter_congr fun m hm => ?_
        rw [List.getElem?_append_left (List.mem_range.mp hm)]
      · simp [Job.live]
    have hle := h.running_le
    simp only [Service.running] at hrunning ⊢
    rw [hrunning, List.length_append, List.length_singleton]
    simp only [Service.running] at hle
    omega

lemma Consistent.schedule (h : Consistent capacity ttl s) (hle : s.clock ≤ now)
    (record : TaskRecord) (hfree : s.records record.taskId = none)
    (hstatus : record.status = .queued) (hclock : s.clock ≤ record.submittedAt) :
    Consistent capacity ttl (s.scheduleBackgroundTask capacity ttl now record).1 := by
  have hclean := h.cleanup hle
  have hnone : (s.cleanupTaskRecords ttl now).records record.taskId = none := by
    simp [Service.cleanupTaskRecords, hfree]
  have hold : ∀ (m : ℕ) (j : Job), s.jobs[m]? = some j → j.record.taskId = record.taskId →
      j.Expired ttl s.clock := by
    intro m j hj hsame
    refine (h.dropped m j hj).resolve_left fun hrecord => ?_
    rw [hsame, hfree] at hrecord
    cases hrecord
  simp only [Service.scheduleBackgroundTask]
  split
  · exact hclean
  rename_i hroom
  exact hclean.append hnone hstatus (fun m j hj hsame => (hold m j hj hsame).mono hclock)
    (by omega)

lemma Consistent.step (h : Consistent capacity ttl s) {action : Action}
    (hstep : s.step capacity ttl action = some s') : Consistent capacity ttl s' := by
  cases action with
  | submit cleaned submitted scheduled taskId session msg =>
    simp only [Service.step] at hstep
    split at hstep
    · rename_i hclock
      have hclean := h.cleanup hclock.1
      rw [← Option.some.inj hstep, Service.submitTask]
      cases hfound : ((s.cleanupTaskRecords ttl cleaned).records taskId).bind
          ((s.cleanupTaskRecords ttl cleaned).jobs[·]?) with
      | some existing =>
        simp only
        split
        · exact hclean
        · exact hclean
      | none =>
        have hfree : (s.cleanupTaskRecords ttl cleaned).records taskId = none := by
          cases hrecord : (s.cleanupTaskRecords ttl cleaned).records taskId with
          | none => rfl
          | some n =>
            obtain ⟨job, hjob, -⟩ := hclean.recorded taskId n hrecord
            rw [hrecord, Option.bind_some, hjob] at hfound
            cases hfound
        have hscheduled := hclean.schedule (hclock.2.1.trans hclock.2.2)
          { taskId := taskId, session := session, msg := msg, submittedAt := submitted }
          hfree rfl hclock.2.1
        simp only
        split
        · rename_i heq
          rwa [heq] at hscheduled
        · rename_i heq
          rwa [heq] at hscheduled
    · cases hstep
  | begin n t =>
    obtain ⟨job, hjob, hstep⟩ := Option.bind_eq_some_iff.mp hstep
    split at hstep
    · rename_i hphase
      rw [← Option.some.inj hstep]
      exact h.progress hphase.2 hjob (by simp [Job.live, hphase.1]) rfl rfl (by simp)
        (fun hterminal => by simp [TaskRecord.begun, Status.terminal] at hterminal)
    · cases hstep
  | finish n t outcome =>
    obtain ⟨job, hjob, hstep⟩ := Option.bind_eq_some_iff.mp hstep
    split at hstep
    · rename_i hphase
      rw [← Option.some.inj hstep]
      exact h.progress hphase.2 hjob (by simp [Job.live, hphase.1])
        (by cases outcome <;> rfl) (by cases outcome <;> rfl) (by simp)
        (fun _ => ⟨by simp [Job.live], by cases outcome <;> rfl⟩)
    · cases hstep
  | cancel n =>
    obtain ⟨job, hjob, hstep⟩ := Option.bind_eq_some_iff.mp hstep
    split at hstep
    · rename_i hphase
      rw [← Option.some.inj hstep]
      exact h.progress le_rfl hjob (by simp [Job.live, hphase]) rfl rfl (by simp)
        (fun hterminal => ⟨by simp [Job.live], (h.ended n job hjob hterminal).2⟩)
    · cases hstep
  | forget n =>
    obtain ⟨job, hjob, hstep⟩ := Option.bind_eq_some_iff.mp hstep
    split at hstep
    · rename_i hphase
      rw [← Option.some.inj hstep]
      exact h.forget hjob hphase
    · cases hstep

lemma Consistent.run (h : Consistent capacity ttl s) {actions : List Action}
    (hrun : s.run capacity ttl actions = some s') : Consistent capacity ttl s' := by
  induction actions generalizing s with
  | nil => rwa [← Option.some.inj hrun]
  | cons action actions ih =>
    obtain ⟨s₁, hstep, hrun⟩ := Option.bind_eq_some_iff.mp hrun
    exact ih (h.step hstep) hrun

lemma consistent_empty : Consistent capacity ttl {} where
  held n job hjob := by simp at hjob
  handled handle hhandle := by simp at hhandle
  distinct := List.nodup_nil
  recorded taskId n hn := by simp at hn
  ended n job hjob := by simp at hjob
  dropped n job hjob := by simp at hjob
  apart m n job job' hlt hjob := by simp at hjob
  room := by simp [Service.running]

/-- There is room for so many coroutines, and when an id is submitted again and runs again, the job
that had it has ended for longer than records are kept. -/
theorem executed_once {actions : List Action}
    (hrun : ({} : Service).run capacity ttl actions = some s) :
    s.running.length ≤ capacity ∧
      ∀ (m n : ℕ) (job job' : Job), m < n → s.jobs[m]? = some job → s.jobs[n]? = some job' →
        job.record.taskId = job'.record.taskId → job.Expired ttl job'.record.submittedAt :=
  ⟨(consistent_empty.run hrun).room, (consistent_empty.run hrun).apart⟩

theorem executed_once_again :
    ∃ s, ({} : Service).run 1 10 [.submit 0 1 1 "a" "s" "m", .begin 0 2,
          .finish 0 3 (.completed "r"), .forget 0, .submit 14 15 15 "a" "s" "m"] = some s ∧
      s.jobs.length = 2 ∧ s.running.length ≤ 1 ∧
      ∀ (m n : ℕ) (job job' : Job), m < n → s.jobs[m]? = some job → s.jobs[n]? = some job' →
        job.record.taskId = job'.record.taskId → job.Expired 10 job'.record.submittedAt := by
  have hlength : (({} : Service).run 1 10 [.submit 0 1 1 "a" "s" "m", .begin 0 2,
      .finish 0 3 (.completed "r"), .forget 0, .submit 14 15 15 "a" "s" "m"]).map
        (·.jobs.length) = some 2 := by decide
  obtain ⟨s, hrun, hlength⟩ := Option.map_eq_some_iff.mp hlength
  exact ⟨s, hrun, hlength, executed_once hrun⟩

end AgentSystem.BackgroundTasks
