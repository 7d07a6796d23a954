import AgentSystem.Interleaving
import AgentSystem.StripeWebhook

/-!
# Concurrent deliveries of Stripe events

The handler as the transactions it consists of. Those of different deliveries come in any order, and
the process of a delivery may stop between any two.
-/
namespace AgentSystem.Billing

open Interleaving

/-- A body whose event belongs to a tenant. -/
structure Filing (β : Type) where
  body : β
  event : StripeEvent
  tenantId : String
  deriving DecidableEq

/-- How far the handler is with an event whose tenant it knows. -/
inductive Stage
  | bound
  | unseen
  | claimed
  | audited
  deriving DecidableEq

/-- How far a delivery is. -/
inductive Phase (β : Type)
  | idle
  | received (body : β)
  | mapped (body : β) (event : StripeEvent) (metadataTenant byCustomer : Option String)
  | filing (stage : Stage) (f : Filing β)
  | refused (body : β) (e : HttpException)
  | answered (f : Filing β) (answer : Answer)
  | stopped
  deriving DecidableEq

/-- A request arrives, the handler makes its next transaction, or it ends without an answer. -/
inductive Input (β : Type)
  | receive (body : β)
  | advance
  | stop
  deriving DecidableEq

/-- The database, with the history of the claims that were won and of the status updates. -/
structure Books (β : Type) where
  store : Store
  claims : List (Filing β)
  updates : List (Filing β)
  deriving DecidableEq

variable {β : Type}

namespace BodyReader

variable (reader : BodyReader β)

def row (f : Filing β) : WebhookRow := ⟨f.event.id, reader.payloadHash f.body, f.tenantId⟩

/-- The checks of the body and of its metadata, and the lookup of the customer. -/
def mapCustomer (rows : List StatusRow) (body : β) : Phase β :=
  match readEvent (reader.loads body) with
  | .error e => .refused body e
  | .ok event =>
      match event.metadataTenant with
      | .error e => .refused body e
      | .ok metadataTenant => .mapped body event metadataTenant (customerTenant rows event)

/-- The lookup of the subscription, and the choice of the tenant. -/
def bindBody (rows : List StatusRow) (body : β) (event : StripeEvent)
    (metadataTenant byCustomer : Option String) : Phase β :=
  match (bindTenant metadataTenant byCustomer (subscriptionTenant rows event)).bind
    (requireTenant event) with
  | .error e => .refused body e
  | .ok tenantId => .filing .bound ⟨body, event, tenantId⟩

/-- The status update, which raises when SQLite cannot store an id. -/
def applyUpdate (books : Books β) (f : Filing β) : Books β × Phase β :=
  match applyStatus books.store.statuses f.event f.tenantId with
  | none => (books, .answered f .raised)
  | some statuses =>
      ({ store := { books.store with statuses := statuses }
         claims := books.claims
         updates := if f.event.prescribed.isSome then books.updates ++ [f] else books.updates },
        .answered f (.success f.event.type))

def fileNext (books : Books β) (f : Filing β) : Stage → Books β × Phase β
  | .bound =>
      match books.store.getStripeWebhookEvent f.event.id with
      | some existing =>
          (books, .answered f
            (answerExisting existing (reader.payloadHash f.body) f.tenantId f.event))
      | none => (books, .filing .unseen f)
  | .unseen =>
      match books.store.claimStripeWebhookEvent f.event.id (reader.payloadHash f.body) f.tenantId with
      | (false, _) => (books, .answered f (.duplicate f.event.type))
      | (true, store) =>
          ({ books with store := store, claims := books.claims ++ [f] }, .filing .claimed f)
  | .claimed => (books, .filing .audited f)
  | .audited => applyUpdate books f

def next : Program (Input β) (Books β) (Phase β)
  | .receive body, books, .idle => some (books, .received body)
  | .advance, books, .received body => some (books, reader.mapCustomer books.store.statuses body)
  | .advance, books, .mapped body event metadataTenant byCustomer =>
      some (books, bindBody books.store.statuses body event metadataTenant byCustomer)
  | .advance, books, .filing stage f => some (reader.fileNext books f stage)
  | .stop, books, .received _ => some (books, .stopped)
  | .stop, books, .mapped _ _ _ _ => some (books, .stopped)
  | .stop, books, .filing _ _ => some (books, .stopped)
  | _, _, _ => none

end BodyReader

/-! ## One delivery alone -/

def Phase.answer : Phase β → Option Answer
  | .refused _ e => some (.error e)
  | .answered _ answer => some answer
  | _ => none

section Alone

variable {ι : Type} [DecidableEq ι] {reader : BodyReader β} {s : World ι (Books β) (Phase β)} {i : ι}

/-- Some steps of the process alone lead to this answer and this store. -/
def Alone (reader : BodyReader β) (i : ι) (s : World ι (Books β) (Phase β))
    (result : Answer × Store) : Prop :=
  ∃ count s', s.run reader.next (List.replicate count (i, .advance)) = some s' ∧
    (s'.proc i).answer = some result.1 ∧ s'.store.store = result.2

lemma Alone.of_answer {result : Answer × Store} (hanswer : (s.proc i).answer = some result.1)
    (hstore : s.store.store = result.2) : Alone reader i s result :=
  ⟨0, s, rfl, hanswer, hstore⟩

lemma Alone.step {books : Books β} {p : Phase β} {result : Answer × Store}
    (hnext : reader.next .advance s.store (s.proc i) = some (books, p))
    (h : Alone reader i ⟨books, Function.update s.proc i p⟩ result) : Alone reader i s result := by
  obtain ⟨count, s', hrun, hresult⟩ := h
  refine ⟨count + 1, s', ?_, hresult⟩
  rw [List.replicate_succ, World.run, World.step, hnext]
  exact hrun

lemma Alone.fileNext {stage : Stage} {f : Filing β} {result : Answer × Store}
    (hproc : s.proc i = .filing stage f)
    (h : Alone reader i ⟨(reader.fileNext s.store f stage).1,
      Function.update s.proc i (reader.fileNext s.store f stage).2⟩ result) :
    Alone reader i s result :=
  Alone.step (by rw [hproc]; rfl) h

/-- The status update of a claimed event. -/
lemma alone_claimed {f : Filing β} (hproc : s.proc i = .filing .claimed f) :
    Alone reader i s
      (match applyStatus s.store.store.statuses f.event f.tenantId with
        | some statuses =>
            (.success f.event.type, { s.store.store with statuses := statuses })
        | none => (.raised, s.store.store)) := by
  apply Alone.fileNext hproc
  apply Alone.fileNext (Function.update_self _ _ _)
  simp only [BodyReader.fileNext, BodyReader.applyUpdate]
  cases applyStatus s.store.store.statuses f.event f.tenantId with
  | none => exact Alone.of_answer (by simp [Phase.answer]) rfl
  | some statuses => exact Alone.of_answer (by simp [Phase.answer]) rfl

lemma alone_bound {f : Filing β} (hproc : s.proc i = .filing .bound f) :
    Alone reader i s
      (fileEvent s.store.store ⟨reader.payloadHash f.body, f.event⟩ f.tenantId) := by
  apply Alone.fileNext hproc
  simp only [BodyReader.fileNext, fileEvent]
  cases hexisting : s.store.store.getStripeWebhookEvent f.event.id with
  | some existing => exact Alone.of_answer (by simp [Phase.answer]) rfl
  | none =>
      apply Alone.fileNext (Function.update_self _ _ _)
      simp only [BodyReader.fileNext, Store.claimStripeWebhookEvent, hexisting,
        Option.isSome_none, Bool.false_eq_true, if_false]
      exact alone_claimed (Function.update_self _ _ _)

/-- A delivery that is alone is answered as by the handler in one piece. -/
theorem alone_received {body : β} (hproc : s.proc i = .received body) :
    Alone reader i s (stripeWebhook reader s.store.store body) := by
  apply Alone.step (by rw [hproc]; rfl)
  rw [BodyReader.mapCustomer, stripeWebhook]
  cases readEvent (reader.loads body) with
  | error e => exact Alone.of_answer (by simp [Phase.answer]) rfl
  | ok event =>
      simp only [handleEvent, bindEvent, resolveStripeTenant]
      cases event.metadataTenant with
      | error e => exact Alone.of_answer (by simp [Phase.answer, Except.bind]) rfl
      | ok metadataTenant =>
          apply Alone.step (by simp only [Function.update_self]; rfl)
          simp only [BodyReader.bindBody, Except.bind]
          cases bindTenant metadataTenant (customerTenant s.store.store.statuses event)
            (subscriptionTenant s.store.store.statuses event) with
          | error e => exact Alone.of_answer (by simp [Phase.answer]) rfl
          | ok resolved =>
              cases hrequire : requireTenant event resolved with
              | error e => exact Alone.of_answer (by simp [Phase.answer, hrequire]) (by simp [hrequire])
              | ok tenantId =>
                  have hbound : Alone reader i
                      ⟨s.store, Function.update s.proc i (.filing .bound ⟨body, event, tenantId⟩)⟩
                      (fileEvent s.store.store ⟨reader.payloadHash body, event⟩ tenantId) :=
                    alone_bound (f := ⟨body, event, tenantId⟩) (Function.update_self _ _ _)
                  simpa [hrequire] using hbound

end Alone

end AgentSystem.Billing
