import Mathlib

/-!
# The broker inside the process

`InMemorySwarmBroker` gives every subscription a queue and a task that hands its messages to the
callback. The queues have no bound, so that publishing never waits. Everything else can happen in
any order: a callback waits as long as it likes, raises, or is cut off when its channel goes.
-/
namespace AgentSystem.SwarmBroker

/-! ## The broker -/

/-- Where the task of a subscription is. -/
inductive Worker
  | idle
  | handling
  | ended
  deriving DecidableEq

structure Subscription (M : Type) where
  queue : List M := []
  /-- The messages that the callback was called with. -/
  handled : List M := []
  worker : Worker := .idle
  /-- A cancellation that the task has not seen yet. -/
  cancelled : Bool := false

/-- `_queues` and `_listeners` hold the same subscriptions under the same channels, kept here as
the pairs of a channel and the number of the subscription, in the order of subscribing. -/
structure Broker (M : Type) where
  registered : List (String × ℕ) := []
  subscriptions : List (Subscription M) := []

/-- How a callback ends: it returns, raises an exception that is logged, or a `CancelledError`
leaves it. -/
inductive Outcome
  | returned
  | raised
  | cancelled
  deriving DecidableEq

/-- What the task of a subscription does next. A callback that is interrupted by a cancellation can
still return or raise; a task that has not seen its cancellation yet goes on. -/
inductive Turn
  | take
  | finish (outcome : Outcome) (interrupted : Bool)
  | leave

inductive Action (M : Type)
  | publish (channel : String) (message : M)
  | subscribe (channel : String)
  | unsubscribe (channel : String)
  | stop
  | turn (i : ℕ) (t : Turn)

variable {M : Type}

namespace Subscription

/-- `task.cancel()`, which does nothing to a task that has ended. -/
def cancel (s : Subscription M) : Subscription M :=
  if s.worker = .ended then s else { s with cancelled := true }

def turn (s : Subscription M) : Turn → Option (Subscription M)
  | .take =>
      match s.worker, s.queue with
      | .idle, message :: rest =>
          some { s with queue := rest, handled := s.handled ++ [message], worker := .handling }
      | _, _ => none
  | .finish outcome interrupted =>
      if s.worker = .handling ∧ (interrupted = true → s.cancelled = true) then
        some { s with
          worker := if outcome = .cancelled then .ended else .idle
          cancelled := s.cancelled && !interrupted }
      else none
  | .leave =>
      if s.worker = .idle ∧ s.cancelled = true then some { s with worker := .ended } else none

/-- All that has come to the subscription. -/
def received (s : Subscription M) : List M := s.handled ++ s.queue

end Subscription

namespace Broker

variable (b : Broker M)

def publish (channel : String) (message : M) : Broker M :=
  { b with
    subscriptions := b.subscriptions.mapIdx fun i s =>
      if (channel, i) ∈ b.registered then { s with queue := s.queue ++ [message] } else s }

def subscribe (channel : String) : Broker M :=
  { registered := b.registered ++ [(channel, b.subscriptions.length)]
    subscriptions := b.subscriptions ++ [{}] }

def unsubscribe (channel : String) : Broker M :=
  { registered := b.registered.filter fun r => r.1 ≠ channel
    subscriptions := b.subscriptions.mapIdx fun i s =>
      if (channel, i) ∈ b.registered then s.cancel else s }

def stop : Broker M :=
  { registered := []
    subscriptions := b.subscriptions.mapIdx fun i s =>
      if i ∈ b.registered.map Prod.snd then s.cancel else s }

def step : Action M → Option (Broker M)
  | .publish channel message => some (b.publish channel message)
  | .subscribe channel => some (b.subscribe channel)
  | .unsubscribe channel => some (b.unsubscribe channel)
  | .stop => some b.stop
  | .turn i t => do
      let s ← b.subscriptions[i]?
      let s ← s.turn t
      return { b with subscriptions := b.subscriptions.set i s }

def run (b : Broker M) : List (Action M) → Option (Broker M)
  | [] => some b
  | action :: actions => (b.step action).bind (run · actions)

end Broker

/-! ## What is due to a subscription -/

/-- The message that an action brings to a subscription to `channel`, if it still has one. -/
def arrives (channel : Option String) : Action M → List M
  | .publish c message => if channel = some c then [message] else []
  | _ => []

/-- The channel of a subscription after an action. -/
def channelAfter (channel : Option String) : Action M → Option String
  | .unsubscribe c => if channel = some c then none else channel
  | .stop => none
  | _ => channel

/-- The messages that come to a subscription to `channel` from now on. -/
def later (channel : Option String) : List (Action M) → List M
  | [] => []
  | action :: actions => arrives channel action ++ later (channelAfter channel action) actions

/-- The messages of the subscription with this number: what is published on its channel after it
has subscribed and before somebody unsubscribes from the channel or stops the broker. -/
def due : List (Action M) → ℕ → List M
  | [], _ => []
  | .subscribe channel :: actions, 0 => later (some channel) actions
  | .subscribe _ :: actions, i + 1 => due actions i
  | _ :: actions, i => due actions i

/-! ## One step -/

@[simp] lemma received_cancel (s : Subscription M) : s.cancel.received = s.received := by
  unfold Subscription.cancel
  split_ifs <;> rfl

lemma received_turn {s s' : Subscription M} {t : Turn} (h : s.turn t = some s') :
    s'.received = s.received := by
  unfold Subscription.turn at h
  cases t with
  | take =>
    dsimp only at h
    split at h
    · next message rest _ hqueue =>
      cases h
      simp [Subscription.received, hqueue]
    · cases h
  | finish outcome interrupted =>
    dsimp only at h
    split_ifs at h <;>
    · cases h
      rfl
  | leave =>
    dsimp only at h
    split_ifs at h
    cases h
    rfl

/-- The channel under which a subscription is registered. -/
def Open (b : Broker M) (i : ℕ) (channel : Option String) : Prop :=
  ∀ c, (c, i) ∈ b.registered ↔ channel = some c

/-- A registered number belongs to a subscription. -/
def Known (b : Broker M) : Prop := ∀ r ∈ b.registered, r.2 < b.subscriptions.length

variable {b b' : Broker M} {i : ℕ} {channel : Option String} {action : Action M}

lemma step_turn {t : Turn} (h : b.step (.turn i t) = some b') :
    ∃ s s', b.subscriptions[i]? = some s ∧ s.turn t = some s' ∧
      b' = { b with subscriptions := b.subscriptions.set i s' } := by
  simp only [Broker.step, Option.bind_eq_bind, Option.bind_eq_some_iff, Option.pure_def,
    Option.some.injEq] at h
  obtain ⟨s, hs, s', hs', rfl⟩ := h
  exact ⟨s, s', hs, hs', rfl⟩

lemma Known.step (h : Known b) (hstep : b.step action = some b') : Known b' := by
  cases action with
  | publish c message =>
    cases hstep
    simpa [Known, Broker.publish] using h
  | subscribe c =>
    cases hstep
    intro r hr
    simp only [Broker.subscribe, List.mem_append, List.mem_singleton] at hr
    simp only [Broker.subscribe, List.length_append, List.length_singleton]
    rcases hr with hr | rfl
    · have := h r hr
      omega
    · simp
  | unsubscribe c =>
    cases hstep
    intro r hr
    simp only [Broker.unsubscribe, List.mem_filter] at hr
    simpa [Broker.unsubscribe] using h r hr.1
  | stop =>
    cases hstep
    simp [Known, Broker.stop]
  | turn i t =>
    obtain ⟨_, _, _, _, rfl⟩ := step_turn hstep
    simpa [Known] using h

/-- A step changes the registration of a subscription only when its channel goes. -/
lemma Open.step (h : Open b i channel) (hi : i < b.subscriptions.length)
    (hstep : b.step action = some b') : Open b' i (channelAfter channel action) := by
  intro c
  cases action with
  | publish c' message =>
    cases hstep
    exact h c
  | subscribe c' =>
    cases hstep
    simp only [Broker.subscribe, List.mem_append, List.mem_singleton, Prod.mk.injEq, h c,
      channelAfter]
    constructor
    · rintro (h | ⟨_, rfl⟩)
      · exact h
      · omega
    · exact Or.inl
  | unsubscribe c' =>
    cases hstep
    simp only [Broker.unsubscribe, List.mem_filter, h c, channelAfter]
    split_ifs with heq
    · subst heq
      simp
      tauto
    · constructor
      · exact fun hc => hc.1
      · rintro rfl
        simpa using heq
  | stop =>
    cases hstep
    simp [Broker.stop, channelAfter]
  | turn i t =>
    obtain ⟨_, _, _, _, rfl⟩ := step_turn hstep
    exact h c

/-- A subscription receives what arrives on its channel. -/
lemma received_step (h : Open b i channel) (hstep : b.step action = some b')
    {s : Subscription M} (hs : b.subscriptions[i]? = some s) :
    ∃ s', b'.subscriptions[i]? = some s' ∧ s'.received = s.received ++ arrives channel action := by
  cases action with
  | publish c message =>
    cases hstep
    simp only [Broker.publish, List.getElem?_mapIdx, hs, Option.map_some, Option.some.injEq,
      exists_eq_left', arrives, h c]
    split_ifs <;> simp [Subscription.received]
  | subscribe c =>
    cases hstep
    obtain ⟨hi, _⟩ := List.getElem?_eq_some_iff.mp hs
    exact ⟨s, by simp [Broker.subscribe, List.getElem?_append_left hi, hs], by simp [arrives]⟩
  | unsubscribe c =>
    cases hstep
    simp only [Broker.unsubscribe, List.getElem?_mapIdx, hs, Option.map_some, Option.some.injEq,
      exists_eq_left', arrives]
    split_ifs <;> simp
  | stop =>
    cases hstep
    simp only [Broker.stop, List.getElem?_mapIdx, hs, Option.map_some, Option.some.injEq,
      exists_eq_left', arrives]
    split_ifs <;> simp
  | turn j t =>
    obtain ⟨before, after, hbefore, hturn, rfl⟩ := step_turn hstep
    obtain ⟨hi, _⟩ := List.getElem?_eq_some_iff.mp hs
    by_cases hj : j = i
    · subst hj
      obtain rfl : before = s := Option.some.inj (hbefore.symm.trans hs)
      exact ⟨after, by simp [hi], by simp [received_turn hturn, arrives]⟩
    · exact ⟨s, by simp [List.getElem?_set_ne hj, hs], by simp [arrives]⟩

/-! ## Runs -/

/-- What a run brings to a subscription that it finds. -/
lemma received_run {actions : List (Action M)} (h : Open b i channel)
    (hrun : b.run actions = some b') {s : Subscription M} (hs : b.subscriptions[i]? = some s) :
    ∃ s', b'.subscriptions[i]? = some s' ∧ s'.received = s.received ++ later channel actions := by
  induction actions generalizing b channel s with
  | nil =>
    cases hrun
    exact ⟨s, hs, by simp [later]⟩
  | cons action actions ih =>
    obtain ⟨middle, hstep, hrest⟩ := Option.bind_eq_some_iff.mp hrun
    obtain ⟨hi, _⟩ := List.getElem?_eq_some_iff.mp hs
    obtain ⟨s₁, hs₁, hreceived⟩ := received_step h hstep hs
    obtain ⟨s', hs', hlater⟩ := ih (h.step hi hstep) hrest hs₁
    exact ⟨s', hs', by rw [hlater, hreceived, later, List.append_assoc]⟩

lemma step_length (hstep : b.step action = some b') (haction : ∀ c, action ≠ .subscribe c) :
    b'.subscriptions.length = b.subscriptions.length := by
  cases action with
  | turn i t =>
    obtain ⟨_, _, _, _, rfl⟩ := step_turn hstep
    simp
  | subscribe c => exact absurd rfl (haction c)
  | _ =>
    cases hstep
    simp [Broker.publish, Broker.unsubscribe, Broker.stop]

/-- What a run brings to a subscription that it makes. -/
lemma received_due {actions : List (Action M)} (hknown : Known b)
    (hrun : b.run actions = some b') {k : ℕ} {s : Subscription M}
    (hs : b'.subscriptions[b.subscriptions.length + k]? = some s) :
    s.received = due actions k := by
  induction actions generalizing b k with
  | nil =>
    cases hrun
    simp at hs
  | cons action actions ih =>
    obtain ⟨middle, hstep, hrest⟩ := Option.bind_eq_some_iff.mp hrun
    have hmiddle := hknown.step hstep
    by_cases hsub : ∃ c, action = .subscribe c
    · obtain ⟨c, rfl⟩ := hsub
      cases hstep
      have hlen : (b.subscribe c).subscriptions.length = b.subscriptions.length + 1 := by
        simp [Broker.subscribe]
      cases k with
      | zero =>
        -- the subscription is the new one
        have hopen : Open (b.subscribe c) b.subscriptions.length (some c) := by
          intro c'
          simp only [Broker.subscribe, List.mem_append, List.mem_singleton, Prod.mk.injEq,
            and_true, Option.some.injEq]
          constructor
          · rintro (hmem | rfl)
            · exact absurd (hknown _ hmem) (lt_irrefl _)
            · rfl
          · exact fun heq => Or.inr heq.symm
        have hnew : (b.subscribe c).subscriptions[b.subscriptions.length]? = some {} := by
          simp [Broker.subscribe]
        obtain ⟨s', hs', hreceived⟩ := received_run hopen hrest hnew
        obtain rfl : s' = s := Option.some.inj (hs'.symm.trans hs)
        simpa [Subscription.received, due] using hreceived
      | succ k =>
        have := ih hmiddle hrest (k := k) (by rw [hlen]; convert hs using 2; omega)
        simpa [due] using this
    · have hlen := step_length hstep (not_exists.mp hsub)
      have hrec := ih hmiddle hrest (k := k) (by rw [hlen]; exact hs)
      cases action with
      | subscribe c => exact absurd ⟨c, rfl⟩ hsub
      | _ => simpa [due] using hrec

/-! ## Handling what is left -/

/-- The turns in which an idle task handles its whole queue. -/
def drain (i : ℕ) : ℕ → List (Action M)
  | 0 => []
  | n + 1 => .turn i .take :: .turn i (.finish .returned false) :: drain i n

lemma drain_turns (i n : ℕ) : ∀ action ∈ drain (M := M) i n, ∃ t, action = .turn i t := by
  induction n with
  | zero => simp [drain]
  | succ n ih => simpa [drain] using ih

lemma run_drain {s : Subscription M} (hs : b.subscriptions[i]? = some s)
    (hidle : s.worker = .idle) : ∃ b' s', b.run (drain i s.queue.length) = some b' ∧
      b'.subscriptions[i]? = some s' ∧ s'.queue = [] ∧ s'.handled = s.received := by
  induction hqueue : s.queue generalizing b s with
  | nil => exact ⟨b, s, rfl, hs, hqueue, by simp [Subscription.received, hqueue]⟩
  | cons message rest ih =>
    obtain ⟨hi, _⟩ := List.getElem?_eq_some_iff.mp hs
    let handling : Subscription M :=
      { s with queue := rest, handled := s.handled ++ [message], worker := .handling }
    let after : Subscription M := { handling with worker := .idle }
    have htake : b.step (.turn i .take) =
        some { b with subscriptions := b.subscriptions.set i handling } := by
      simp [Broker.step, hs, Subscription.turn, hidle, hqueue, handling]
    have hfinish : Broker.step { b with subscriptions := b.subscriptions.set i handling }
        (.turn i (.finish .returned false)) =
          some { b with subscriptions := b.subscriptions.set i after } := by
      simp [Broker.step, hi, Subscription.turn, handling, after]
    obtain ⟨b', s', hrun, hs', hempty, hhandled⟩ := ih (b := { b with
      subscriptions := b.subscriptions.set i after }) (s := after) (by simp [hi]) rfl rfl
    refine ⟨b', s', ?_, hs', hempty, ?_⟩
    · simpa [drain, Broker.run, htake, hfinish] using hrun
    · rw [hhandled]
      simp [Subscription.received, after, handling, hqueue]

end AgentSystem.SwarmBroker
