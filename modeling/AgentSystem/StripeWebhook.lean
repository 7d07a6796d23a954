import Mathlib.Data.List.Dedup

/-!
# The Stripe webhook

Subscription rows that Stripe's customer and subscription ids lead to, the table of the event ids that
were claimed, and the handler from the body of a signed request to its answer.
-/
namespace AgentSystem.Billing

/-- A value of the decoded body; `null` also stands for a missing one, a number or a boolean comes
with the text that a column of texts makes of it, and `container` is a list or an object. -/
inductive Field
  | null
  | str (s : String)
  | scalar (text : String)
  | container
  deriving DecidableEq

/-- What SQLite stores for the value, `none` when it raises. -/
def Field.stored : Field → Option (Option String)
  | .null => some none
  | .str s => some (some s)
  | .scalar text => some (some text)
  | .container => none

/-- `data_obj["metadata"]`. -/
inductive Metadata
  | absent
  | object (tenantId : Field)
  | malformed
  deriving DecidableEq

/-- `event["data"]["object"]`, with the fields that are looked at. -/
structure StripeObject where
  metadata : Metadata := .absent
  customer : Field := .null
  id : Field := .null
  subscription : Field := .null
  status : Field := .null
  deriving DecidableEq

/-- The decoded body. `type` is `none` where the key is missing, `object` where it holds something
else than an object. -/
structure Payload where
  id : Field
  type : Option Field
  object : Option StripeObject
  deriving DecidableEq

inductive Loaded
  | invalid
  | other
  | object (payload : Payload)

structure StripeEvent where
  id : String
  type : String
  object : StripeObject
  deriving DecidableEq

structure HttpException where
  statusCode : ℕ
  detail : String
  deriving DecidableEq

/-- The response; `raised` is any other exception. -/
inductive Answer
  | success (event : String)
  | duplicate (event : String)
  | error (e : HttpException)
  | raised
  deriving DecidableEq

inductive TenantStatus
  | active
  | frozen
  | canceled
  deriving DecidableEq

/-- A row of `tenant_subscription_status`. -/
structure StatusRow where
  tenantId : String
  status : TenantStatus
  stripeCustomerId : Option String
  stripeSubscriptionId : Option String
  deriving DecidableEq

/-- A row of `stripe_webhook_events`. -/
structure WebhookRow where
  eventId : String
  payloadHash : String
  tenantId : String
  deriving DecidableEq

structure Store where
  statuses : List StatusRow
  webhookEvents : List WebhookRow
  deriving DecidableEq

/-- How a body is decoded, and its digest. -/
structure BodyReader (β : Type) where
  loads : β → Loaded
  payloadHash : β → String

/-! ## The event -/

/-- The checks of the handler on the decoded body. -/
def readEvent : Loaded → Except HttpException StripeEvent
  | .invalid => .error ⟨400, "Invalid JSON payload"⟩
  | .other => .error ⟨400, "Stripe event id is required"⟩
  | .object payload =>
      match payload.id with
      | .str id =>
          if id = "" then .error ⟨400, "Stripe event id is required"⟩
          else
            match payload.type.getD (.str "unknown") with
            | .str type =>
                match payload.object with
                | some object => .ok ⟨id, type, object⟩
                | none => .error ⟨400, "Invalid Stripe event object"⟩
            | _ => .error ⟨400, "Invalid Stripe event type"⟩
      | _ => .error ⟨400, "Stripe event id is required"⟩

namespace StripeEvent

def subscriptionId (event : StripeEvent) : Field :=
  if "customer.subscription.".toList <+: event.type.toList then event.object.id
  else event.object.subscription

def knownEventTypes : List String :=
  ["customer.subscription.created", "customer.subscription.deleted",
    "customer.subscription.updated", "invoice.payment_failed"]

def metadataTenant (event : StripeEvent) : Except HttpException (Option String) :=
  match event.object.metadata with
  | .absent => .ok none
  | .malformed => .error ⟨400, "Invalid Stripe metadata"⟩
  | .object .null => .ok none
  | .object (.str tenant) => .ok (some tenant)
  | .object _ => .error ⟨400, "Invalid Stripe tenant binding"⟩

/-- The status for a changed subscription. -/
def updatedStatus : Field → TenantStatus
  | .str status =>
      if status ∈ ["active", "trialing"] then .active
      else if status ∈ ["past_due", "unpaid", "paused"] then .frozen
      else if status ∈ ["canceled", "incomplete_expired"] then .canceled
      else .frozen
  | _ => .frozen

/-- The status that the event gives to its tenant. -/
def prescribed (event : StripeEvent) : Option TenantStatus :=
  if event.type = "customer.subscription.created" then some .active
  else if event.type = "customer.subscription.deleted" then some .canceled
  else if event.type = "customer.subscription.updated" then some (updatedStatus event.object.status)
  else if event.type = "invoice.payment_failed" then some .frozen
  else none

def Known (event : StripeEvent) : Prop := event.type ∈ knownEventTypes

instance (event : StripeEvent) : Decidable event.Known := inferInstanceAs (Decidable (_ ∈ _))

lemma prescribed_isSome {event : StripeEvent} : event.prescribed.isSome ↔ event.Known := by
  rw [prescribed, Known, knownEventTypes]
  split_ifs <;> simp [*]

end StripeEvent

/-! ## The tables -/

section Statuses

variable (rows : List StatusRow)

/-- `INSERT OR REPLACE`: the row of the tenant goes, and the new one comes last. -/
def updateTenantStatus (tenantId : String) (status : TenantStatus)
    (stripeCustomerId stripeSubscriptionId : Option String) : List StatusRow :=
  rows.filter (fun row => row.tenantId ≠ tenantId) ++
    [⟨tenantId, status, stripeCustomerId, stripeSubscriptionId⟩]

def getTenantStatus (tenantId : String) : Option TenantStatus :=
  (rows.find? fun row => row.tenantId = tenantId).map StatusRow.status

def getTenantByStripeCustomer (customerId : String) : Option String :=
  (rows.find? fun row => row.stripeCustomerId = some customerId).map StatusRow.tenantId

def getTenantByStripeSubscription (subscriptionId : String) : Option String :=
  (rows.find? fun row => row.stripeSubscriptionId = some subscriptionId).map StatusRow.tenantId

/-- The tenant of the customer, if the event has the id of one. -/
def customerTenant (event : StripeEvent) : Option String :=
  match event.object.customer with
  | .str customerId => getTenantByStripeCustomer rows customerId
  | _ => none

def subscriptionTenant (event : StripeEvent) : Option String :=
  match event.subscriptionId with
  | .str subscriptionId => getTenantByStripeSubscription rows subscriptionId
  | _ => none

end Statuses

namespace Store

variable (store : Store)

def getStripeWebhookEvent (eventId : String) : Option (String × String) :=
  (store.webhookEvents.find? fun row => row.eventId = eventId).map fun row =>
    (row.payloadHash, row.tenantId)

/-- `INSERT OR IGNORE`, and whether there is a new row. -/
def claimStripeWebhookEvent (eventId payloadHash tenantId : String) : Bool × Store :=
  if (store.getStripeWebhookEvent eventId).isSome then (false, store)
  else
    (true,
      { store with webhookEvents := store.webhookEvents ++ [⟨eventId, payloadHash, tenantId⟩] })

end Store

/-! ## The handler -/

/-- `value or None`: an empty string counts as none. -/
def truthy : Option String → Option String
  | some "" => none
  | value => value

/-- The tenant of the metadata and of the two ids in one. -/
def bindTenant (metadataTenant byCustomer bySubscription : Option String) :
    Except HttpException (Option String) :=
  let mapped := ([byCustomer, bySubscription].filterMap truthy).dedup
  match truthy metadataTenant with
  | some tenant =>
      if 1 < mapped.length ∨ (mapped ≠ [] ∧ tenant ∉ mapped) then
        .error ⟨400, "Stripe event tenant binding conflict"⟩
      else .ok (some tenant)
  | none =>
      if 1 < mapped.length then .error ⟨400, "Stripe event tenant binding conflict"⟩
      else .ok mapped.head?

def resolveStripeTenant (rows : List StatusRow) (event : StripeEvent) :
    Except HttpException (Option String) :=
  event.metadataTenant.bind fun metadataTenant =>
    bindTenant metadataTenant (customerTenant rows event) (subscriptionTenant rows event)

/-- The tenant that the event is filed under. -/
def requireTenant (event : StripeEvent) (tenantId : Option String) :
    Except HttpException String :=
  if event.Known ∧ tenantId = none then
    .error ⟨400, "Stripe event tenant binding is required"⟩
  else .ok (tenantId.getD "admin_tenant")

/-- The answer to an event id that has a row. -/
def answerExisting (existing : String × String) (payloadHash tenantId : String)
    (event : StripeEvent) : Answer :=
  if existing.1 ≠ payloadHash ∨ existing.2 ≠ tenantId then
    .error ⟨409, "Stripe event id was already used"⟩
  else .duplicate event.type

/-- The update of the status, `none` when SQLite raises. -/
def applyStatus (rows : List StatusRow) (event : StripeEvent) (tenantId : String) :
    Option (List StatusRow) :=
  match event.prescribed with
  | none => some rows
  | some status =>
      event.object.customer.stored.bind fun stripeCustomerId =>
        event.subscriptionId.stored.map fun stripeSubscriptionId =>
          updateTenantStatus rows tenantId status stripeCustomerId stripeSubscriptionId

/-- A checked event with the digest of the body that it came in. -/
structure Delivery where
  payloadHash : String
  event : StripeEvent
  deriving DecidableEq

/-- The handler from the lookup of the event id on. -/
def fileEvent (store : Store) (delivery : Delivery) (tenantId : String) : Answer × Store :=
  let event := delivery.event
  match store.getStripeWebhookEvent event.id with
  | some existing => (answerExisting existing delivery.payloadHash tenantId event, store)
  | none =>
      match store.claimStripeWebhookEvent event.id delivery.payloadHash tenantId with
      | (false, store) => (.duplicate event.type, store)
      | (true, store) =>
          match applyStatus store.statuses event tenantId with
          | some statuses => (.success event.type, { store with statuses := statuses })
          | none => (.raised, store)

/-- The tenant that the event belongs to. -/
def bindEvent (rows : List StatusRow) (event : StripeEvent) : Except HttpException String :=
  (resolveStripeTenant rows event).bind (requireTenant event)

def handleEvent (store : Store) (delivery : Delivery) : Answer × Store :=
  match bindEvent store.statuses delivery.event with
  | .error e => (.error e, store)
  | .ok tenantId => fileEvent store delivery tenantId

/-- The answer to a signed request, when no other one is handled meanwhile. -/
def stripeWebhook {β : Type} (reader : BodyReader β) (store : Store) (body : β) : Answer × Store :=
  match readEvent (reader.loads body) with
  | .error e => (.error e, store)
  | .ok event => handleEvent store ⟨reader.payloadHash body, event⟩

end AgentSystem.Billing
