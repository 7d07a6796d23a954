import AgentSystem.StripeWebhook

/-!
# Events that name one Stripe id

The update of a status writes the customer and the subscription that the event carries, and nothing
where it carries none. An event with one of the two ids so takes the other one from the row.
-/
namespace AgentSystem.Billing

/-! ## Rows with different keys -/

section Distinct

variable {α κ : Type} [DecidableEq κ]

/-- No key stands in two rows. -/
def Distinct (key : α → Option κ) (rows : List α) : Prop :=
  rows.Pairwise fun row row' => key row = none ∨ key row ≠ key row'

variable {key : α → Option κ} {rows : List α}

lemma Distinct.find_eq_some (h : Distinct key rows) {k : κ} {row : α} (hmem : row ∈ rows)
    (hkey : key row = some k) : rows.find? (fun row => key row = some k) = some row := by
  induction rows with
  | nil => cases hmem
  | cons first rows ih =>
      obtain ⟨hfirst, hrest⟩ := List.pairwise_cons.mp h
      rcases List.mem_cons.mp hmem with rfl | hmem
      · simp [hkey]
      · have hne : key first ≠ some k := by
          rcases hfirst row hmem with hnone | hne
          · simp [hnone]
          · rwa [hkey] at hne
        rw [List.find?_cons_of_neg (by simpa using hne)]
        exact ih hrest hmem

omit [DecidableEq κ] in
/-- A row goes last when its key is new. -/
lemma Distinct.replace (h : Distinct key rows) {p : α → Bool} {row : α}
    (hnew : ∀ other ∈ rows, p other → key other = none ∨ key other ≠ key row) :
    Distinct key (rows.filter p ++ [row]) := by
  rw [Distinct, List.pairwise_append]
  refine ⟨h.filter p, List.pairwise_singleton _ _, fun other hother last hlast => ?_⟩
  rw [List.mem_singleton.mp hlast]
  exact hnew other (List.mem_filter.mp hother).1 (List.mem_filter.mp hother).2

end Distinct

/-- Neither a tenant nor an id of Stripe stands in two rows. -/
structure OneTenant (rows : List StatusRow) : Prop where
  tenants : Distinct (fun row => some row.tenantId) rows
  customers : Distinct StatusRow.stripeCustomerId rows
  subscriptions : Distinct StatusRow.stripeSubscriptionId rows
  named : ∀ row ∈ rows, row.tenantId ≠ ""

variable {rows : List StatusRow} {row : StatusRow} {event : StripeEvent} {tenantId : String}

lemma oneTenant_nil : OneTenant [] :=
  ⟨List.Pairwise.nil, List.Pairwise.nil, List.Pairwise.nil, by simp⟩

namespace OneTenant

variable (h : OneTenant rows) (hmem : row ∈ rows)

include h hmem

lemma getTenantStatus : getTenantStatus rows row.tenantId = some row.status := by
  have hfind := h.tenants.find_eq_some hmem rfl
  simp only [Option.some.injEq] at hfind
  rw [Billing.getTenantStatus, hfind, Option.map_some]

lemma customer {customerId : String} (hid : row.stripeCustomerId = some customerId) :
    getTenantByStripeCustomer rows customerId = some row.tenantId := by
  rw [getTenantByStripeCustomer, h.customers.find_eq_some hmem hid, Option.map_some]

lemma subscription {subscriptionId : String} (hid : row.stripeSubscriptionId = some subscriptionId) :
    getTenantByStripeSubscription rows subscriptionId = some row.tenantId := by
  rw [getTenantByStripeSubscription, h.subscriptions.find_eq_some hmem hid, Option.map_some]

end OneTenant

/-! ## Resolution -/

lemma truthy_eq_some {value : Option String} : truthy value = some tenantId ↔
    value = some tenantId ∧ tenantId ≠ "" := by
  rw [truthy.eq_def]
  split
  · simp
  · rename_i value hvalue
    constructor
    · rintro rfl
      exact ⟨rfl, fun hempty => hvalue (by rw [hempty])⟩
    · exact And.left

/-- The tenants that the two ids lead to. -/
def mappedTenants (byCustomer bySubscription : Option String) : List String :=
  ([byCustomer, bySubscription].filterMap truthy).dedup

section Mapped

variable {metadataTenant byCustomer bySubscription : Option String}

lemma mem_mappedTenants : tenantId ∈ mappedTenants byCustomer bySubscription ↔
    truthy byCustomer = some tenantId ∨ truthy bySubscription = some tenantId := by
  rw [mappedTenants, List.mem_dedup, List.mem_filterMap]
  simp

lemma eq_of_length_le_one {tenants : List String} (hlength : ¬1 < tenants.length) {tenant : String}
    (hmem : tenant ∈ tenants) : tenants = [tenant] := by
  match tenants, hmem with
  | [first], hmem => rw [List.mem_singleton.mp hmem]
  | first :: second :: rest, _ => simp at hlength

/-- A tenant is named, and no id leads to another one. -/
lemma bindTenant_eq_ok (h : bindTenant metadataTenant byCustomer bySubscription = .ok (some tenantId)) :
    tenantId ≠ "" ∧ ∀ tenant ∈ mappedTenants byCustomer bySubscription, tenant = tenantId := by
  have hnamed {value : Option String} (hvalue : truthy value = some tenantId) : tenantId ≠ "" :=
    (truthy_eq_some.mp hvalue).2
  unfold bindTenant at h
  dsimp only at h
  split at h
  · rename_i metadata hmetadata
    split_ifs at h with hconflict
    cases h
    rw [not_or, not_and_or, not_not] at hconflict
    refine ⟨hnamed hmetadata, fun tenant htenant => ?_⟩
    rcases hconflict.2 with hnone | hmem
    · rw [mappedTenants, hnone] at htenant
      cases htenant
    · rw [mappedTenants, eq_of_length_le_one hconflict.1 (not_not.mp hmem)] at htenant
      exact List.mem_singleton.mp htenant
  · split_ifs at h with hconflict
    have hmem : tenantId ∈ mappedTenants byCustomer bySubscription :=
      List.mem_of_mem_head? (by rw [mappedTenants, Except.ok.inj h]; rfl)
    refine ⟨(mem_mappedTenants.mp hmem).elim hnamed hnamed, fun tenant htenant => ?_⟩
    rw [mappedTenants, eq_of_length_le_one hconflict hmem] at htenant
    exact List.mem_singleton.mp htenant

lemma truthy_of_ne (h : tenantId ≠ "") : truthy (some tenantId) = some tenantId :=
  truthy_eq_some.mpr ⟨rfl, h⟩

end Mapped

/-- A known event belongs to the one tenant that its ids lead to. -/
lemma bindEvent_eq_ok (hknown : event.Known) (h : bindEvent rows event = .ok tenantId) :
    resolveStripeTenant rows event = .ok (some tenantId) ∧ tenantId ≠ "" ∧
      ∀ tenant ∈ mappedTenants (customerTenant rows event) (subscriptionTenant rows event),
        tenant = tenantId := by
  rw [bindEvent] at h
  cases hresolve : resolveStripeTenant rows event with
  | error e =>
      rw [hresolve] at h
      cases h
  | ok resolved =>
      rw [hresolve] at h
      cases resolved with
      | none =>
          change requireTenant event none = _ at h
          rw [requireTenant, if_pos ⟨hknown, rfl⟩] at h
          cases h
      | some tenant =>
          change requireTenant event (some tenant) = _ at h
          rw [requireTenant, if_neg (by simp)] at h
          cases h
          refine ⟨rfl, ?_⟩
          rw [resolveStripeTenant] at hresolve
          cases hmetadata : event.metadataTenant with
          | error e =>
              rw [hmetadata] at hresolve
              cases hresolve
          | ok metadataTenant =>
              rw [hmetadata] at hresolve
              exact bindTenant_eq_ok hresolve

namespace OneTenant

variable (h : OneTenant rows) (hmem : row ∈ rows)

include h hmem

lemma mapped_customer {customerId : String} (hcustomer : event.object.customer = .str customerId)
    (hid : row.stripeCustomerId = some customerId) : row.tenantId ∈
      mappedTenants (customerTenant rows event) (subscriptionTenant rows event) := by
  rw [mem_mappedTenants, customerTenant, hcustomer]
  left
  change truthy (getTenantByStripeCustomer rows customerId) = _
  rw [h.customer hmem hid, truthy_of_ne (h.named row hmem)]

lemma mapped_subscription {subscriptionId : String}
    (hsubscription : event.subscriptionId = .str subscriptionId)
    (hid : row.stripeSubscriptionId = some subscriptionId) : row.tenantId ∈
      mappedTenants (customerTenant rows event) (subscriptionTenant rows event) := by
  rw [mem_mappedTenants, subscriptionTenant, hsubscription]
  right
  change truthy (getTenantByStripeSubscription rows subscriptionId) = _
  rw [h.subscription hmem hid, truthy_of_ne (h.named row hmem)]

end OneTenant

/-! ## Updates -/

variable {status : TenantStatus} {customer subscription : Option String}

lemma mem_updateTenantStatus :
    row ∈ updateTenantStatus rows tenantId status customer subscription ↔
      row ∈ rows ∧ row.tenantId ≠ tenantId ∨
        row = ⟨tenantId, status, customer, subscription⟩ := by
  simp [updateTenantStatus]

/-- An update keeps the rows apart when its ids stand in no row of another tenant. -/
lemma OneTenant.update (h : OneTenant rows) (hnamed : tenantId ≠ "")
    (hcustomer : ∀ row ∈ rows, row.stripeCustomerId ≠ none → row.stripeCustomerId = customer →
      row.tenantId = tenantId)
    (hsubscription : ∀ row ∈ rows, row.stripeSubscriptionId ≠ none →
      row.stripeSubscriptionId = subscription → row.tenantId = tenantId) :
    OneTenant (updateTenantStatus rows tenantId status customer subscription) where
  tenants := h.tenants.replace fun other _ hother => by
    right
    simpa using hother
  customers := h.customers.replace fun other hmem hother => by
    by_contra hsame
    rw [not_or, not_not] at hsame
    exact of_decide_eq_true hother (hcustomer other hmem hsame.1 hsame.2)
  subscriptions := h.subscriptions.replace fun other hmem hother => by
    by_contra hsame
    rw [not_or, not_not] at hsame
    exact of_decide_eq_true hother (hsubscription other hmem hsame.1 hsame.2)
  named := by
    intro row hrow
    rcases mem_updateTenantStatus.mp hrow with ⟨hmem, -⟩ | rfl
    · exact h.named row hmem
    · exact hnamed

variable {store : Store} {delivery : Delivery}

/-- A delivery leaves the statuses alone or is applied under the tenant that it belongs to. -/
lemma handleEvent_cases (store : Store) (delivery : Delivery) :
    (handleEvent store delivery).2.statuses = store.statuses ∨
      ∃ tenantId status customer subscription,
        bindEvent store.statuses delivery.event = .ok tenantId ∧
        delivery.event.prescribed = some status ∧
        delivery.event.object.customer.stored = some customer ∧
        delivery.event.subscriptionId.stored = some subscription ∧
        (handleEvent store delivery).2.statuses =
          updateTenantStatus store.statuses tenantId status customer subscription := by
  rw [handleEvent]
  split
  · exact .inl rfl
  · rename_i tenantId hbind
    rw [fileEvent]
    cases hexisting : store.getStripeWebhookEvent delivery.event.id with
    | some existing => exact .inl rfl
    | none =>
        simp only [Store.claimStripeWebhookEvent, hexisting, Option.isSome_none,
          Bool.false_eq_true, if_false]
        cases hprescribed : delivery.event.prescribed with
        | none =>
            left
            simp [applyStatus, hprescribed]
        | some status =>
            cases hcustomer : delivery.event.object.customer.stored with
            | none =>
                left
                simp [applyStatus, hprescribed, hcustomer]
            | some customer =>
                cases hsubscription : delivery.event.subscriptionId.stored with
                | none =>
                    left
                    simp [applyStatus, hprescribed, hcustomer, hsubscription]
                | some subscription =>
                    right
                    refine ⟨tenantId, status, customer, subscription, hbind, rfl, rfl, rfl, ?_⟩
                    simp [applyStatus, hprescribed, hcustomer, hsubscription]

/-- The ids of the event are strings or null. -/
def StripeEvent.Textual (event : StripeEvent) : Prop :=
  ∀ text, event.object.customer ≠ .scalar text ∧ event.subscriptionId ≠ .scalar text

lemma stored_eq_some {field : Field} {text : String} (htextual : ∀ text, field ≠ .scalar text)
    (h : field.stored = some (some text)) : field = .str text := by
  cases field with
  | null => cases h
  | str s =>
      cases h
      rfl
  | scalar t => exact absurd rfl (htextual t)
  | container => cases h

lemma OneTenant.handleEvent (h : OneTenant store.statuses) (htextual : delivery.event.Textual) :
    OneTenant (handleEvent store delivery).2.statuses := by
  rcases handleEvent_cases store delivery with hsame | ⟨tenantId, status, customer, subscription,
    hbind, hprescribed, hcustomer, hsubscription, hupdate⟩
  · rwa [hsame]
  · have hknown : delivery.event.Known :=
      StripeEvent.prescribed_isSome.mp (by rw [hprescribed]; rfl)
    obtain ⟨-, hnamed, hmapped⟩ := bindEvent_eq_ok hknown hbind
    rw [hupdate]
    refine h.update hnamed (fun row hmem hsome heq => ?_) fun row hmem hsome heq => ?_
    · obtain ⟨customerId, hid⟩ := Option.ne_none_iff_exists'.mp hsome
      rw [← heq, hid] at hcustomer
      exact hmapped _ (h.mapped_customer hmem
        (stored_eq_some (fun text => (htextual text).1) hcustomer) hid)
    · obtain ⟨subscriptionId, hid⟩ := Option.ne_none_iff_exists'.mp hsome
      rw [← heq, hid] at hsubscription
      exact hmapped _ (h.mapped_subscription hmem
        (stored_eq_some (fun text => (htextual text).2) hsubscription) hid)

/-! ## Deliveries after a binding -/

/-- The store after deliveries one after the other. -/
def afterDeliveries (store : Store) (deliveries : List Delivery) : Store :=
  deliveries.foldl (fun store delivery => (handleEvent store delivery).2) store

lemma oneTenant_afterDeliveries {deliveries : List Delivery} (h : OneTenant store.statuses)
    (htextual : ∀ delivery ∈ deliveries, delivery.event.Textual) :
    OneTenant (afterDeliveries store deliveries).statuses := by
  induction deliveries generalizing store with
  | nil => exact h
  | cons delivery deliveries ih =>
      obtain ⟨hdelivery, hrest⟩ := List.forall_mem_cons.mp htextual
      exact ih (h.handleEvent hdelivery) hrest

/-- The event binds the tenant of its metadata to both ids. -/
structure Binds (event : StripeEvent) (tenantId customerId subscriptionId : String) : Prop where
  known : event.Known
  metadata : event.metadataTenant = .ok (some tenantId)
  named : tenantId ≠ ""
  customer : event.object.customer = .str customerId
  subscription : event.subscriptionId = .str subscriptionId

/-- The event names no tenant and one of the ids. -/
structure Partial (event : StripeEvent) (customerId subscriptionId : String) : Prop where
  known : event.Known
  unnamed : event.metadataTenant = .ok none
  carries : event.object.customer = .str customerId ∧ event.subscriptionId = .null ∨
    event.object.customer = .null ∧ event.subscriptionId = .str subscriptionId

/-- The status of the tenant after a delivery, if its status before was this one. -/
def appliedStatus (status : TenantStatus) (store : Store) (delivery : Delivery) : TenantStatus :=
  if (handleEvent store delivery).1 = .success delivery.event.type then
    delivery.event.prescribed.getD status
  else status

/-- Every delivery resolves to the tenant, and the stored status is always the one of the last applied
event. -/
def Follows (tenantId : String) : TenantStatus → Store → List Delivery → Prop
  | status, store, [] => getTenantStatus store.statuses tenantId = some status
  | status, store, delivery :: deliveries =>
      getTenantStatus store.statuses tenantId = some status ∧
        resolveStripeTenant store.statuses delivery.event = .ok (some tenantId) ∧
        Follows tenantId (appliedStatus status store delivery) (handleEvent store delivery).2
          deliveries

/-- Whether the event carries a customer. -/
def StripeEvent.namesCustomer (event : StripeEvent) : Bool := event.object.customer ≠ .null

/-- From the first new event on all events carry the same one of the two ids. -/
def SameIdentifier (store : Store) : List Delivery → Prop
  | [] => True
  | delivery :: deliveries =>
      if (store.getStripeWebhookEvent delivery.event.id).isSome then SameIdentifier store deliveries
      else ∀ other ∈ deliveries, other.event.namesCustomer = delivery.event.namesCustomer

/-- The row that an event with one of the ids writes. -/
def partialRow (tenantId : String) (status : TenantStatus) (namesCustomer : Bool)
    (customerId subscriptionId : String) : StatusRow :=
  ⟨tenantId, status, if namesCustomer then some customerId else none,
    if namesCustomer then none else some subscriptionId⟩

/-- The row stands in the table, and no other one has one of the ids. -/
structure Bound (rows : List StatusRow) (customerId subscriptionId : String) (row : StatusRow) :
    Prop where
  one : OneTenant rows
  mem : row ∈ rows
  own : ∀ other ∈ rows, other.stripeCustomerId = some customerId ∨
    other.stripeSubscriptionId = some subscriptionId → other = row

variable {customerId subscriptionId : String}

@[simp] lemma truthy_none : truthy none = none := rfl

lemma bindTenant_none_left (value : Option String) :
    bindTenant none none value = .ok (truthy value) := by
  cases hvalue : truthy value with
  | none => simp [bindTenant, List.filterMap_cons, hvalue]
  | some tenant => simp [bindTenant, List.filterMap_cons, hvalue]

lemma bindTenant_none_right (value : Option String) :
    bindTenant none value none = .ok (truthy value) := by
  cases hvalue : truthy value with
  | none => simp [bindTenant, List.filterMap_cons, hvalue]
  | some tenant => simp [bindTenant, List.filterMap_cons, hvalue]

namespace Bound

variable (h : Bound rows customerId subscriptionId row)

include h

lemma getTenantByStripeCustomer : getTenantByStripeCustomer rows customerId =
    if row.stripeCustomerId = some customerId then some row.tenantId else none := by
  split_ifs with hid
  · exact h.one.customer h.mem hid
  · rw [Billing.getTenantByStripeCustomer, Option.map_eq_none_iff, List.find?_eq_none]
    intro other hother hsome
    have hsome := of_decide_eq_true hsome
    exact hid (h.own other hother (.inl hsome) ▸ hsome)

lemma getTenantByStripeSubscription : getTenantByStripeSubscription rows subscriptionId =
    if row.stripeSubscriptionId = some subscriptionId then some row.tenantId else none := by
  split_ifs with hid
  · exact h.one.subscription h.mem hid
  · rw [Billing.getTenantByStripeSubscription, Option.map_eq_none_iff, List.find?_eq_none]
    intro other hother hsome
    have hsome := of_decide_eq_true hsome
    exact hid (h.own other hother (.inr hsome) ▸ hsome)

/-- An event resolves to the tenant exactly when the row has the id that it carries. -/
lemma resolve (hpart : Partial event customerId subscriptionId) :
    resolveStripeTenant rows event = .ok
      (if (if event.namesCustomer then row.stripeCustomerId = some customerId
          else row.stripeSubscriptionId = some subscriptionId)
        then some row.tenantId else none) := by
  have hnamed := truthy_of_ne (h.one.named row h.mem)
  rw [resolveStripeTenant, hpart.unnamed]
  change bindTenant none _ _ = _
  rcases hpart.carries with ⟨hcustomer, hsubscription⟩ | ⟨hcustomer, hsubscription⟩
  · have hnames : event.namesCustomer = true := by simp [StripeEvent.namesCustomer, hcustomer]
    simp only [customerTenant, subscriptionTenant, hcustomer, hsubscription, hnames, if_true]
    rw [bindTenant_none_right, h.getTenantByStripeCustomer]
    split_ifs with hid
    · rw [hnamed]
    · rfl
  · have hnames : event.namesCustomer = false := by simp [StripeEvent.namesCustomer, hcustomer]
    simp only [customerTenant, subscriptionTenant, hcustomer, hsubscription, hnames,
      Bool.false_eq_true, if_false]
    rw [bindTenant_none_left, h.getTenantByStripeSubscription]
    split_ifs with hid
    · rw [hnamed]
    · rfl

/-- The update by an event with one of the ids. -/
lemma update (status : TenantStatus) (namesCustomer : Bool) :
    Bound (updateTenantStatus rows row.tenantId status
        (if namesCustomer then some customerId else none)
        (if namesCustomer then none else some subscriptionId)) customerId subscriptionId
      (partialRow row.tenantId status namesCustomer customerId subscriptionId) where
  one := by
    refine h.one.update (h.one.named row h.mem) (fun other hother hsome heq => ?_)
      fun other hother hsome heq => ?_
    · have hid : other.stripeCustomerId = some customerId := by
        split_ifs at heq
        · exact heq
        · exact absurd heq hsome
      rw [h.own other hother (.inl hid)]
    · have hid : other.stripeSubscriptionId = some subscriptionId := by
        split_ifs at heq
        · exact absurd heq hsome
        · exact heq
      rw [h.own other hother (.inr hid)]
  mem := mem_updateTenantStatus.mpr (.inr rfl)
  own := by
    intro other hother hid
    rcases mem_updateTenantStatus.mp hother with ⟨hmem, htenant⟩ | heq
    · exact absurd (congrArg StatusRow.tenantId (h.own other hmem hid)) htenant
    · exact heq

end Bound

/-! ## One delivery -/

/-- A seen event id leaves the store alone. -/
lemma handleEvent_seen (hseen : (store.getStripeWebhookEvent delivery.event.id).isSome) :
    (handleEvent store delivery).2 = store ∧
      (handleEvent store delivery).1 ≠ .success delivery.event.type := by
  obtain ⟨existing, hexisting⟩ := Option.isSome_iff_exists.mp hseen
  rw [handleEvent]
  split
  · exact ⟨rfl, by simp⟩
  · rw [fileEvent]
    simp only [hexisting, answerExisting]
    split_ifs
    · simp
    · simp

/-- A new event that can be stored is applied. -/
lemma handleEvent_new (hnew : store.getStripeWebhookEvent delivery.event.id = none)
    (hbind : bindEvent store.statuses delivery.event = .ok tenantId)
    (hprescribed : delivery.event.prescribed = some status)
    (hcustomer : delivery.event.object.customer.stored = some customer)
    (hsubscription : delivery.event.subscriptionId.stored = some subscription) :
    handleEvent store delivery = (.success delivery.event.type,
      { statuses := updateTenantStatus store.statuses tenantId status customer subscription
        webhookEvents := store.webhookEvents ++
          [⟨delivery.event.id, delivery.payloadHash, tenantId⟩] }) := by
  rw [handleEvent, hbind]
  simp [fileEvent, hnew, Store.claimStripeWebhookEvent, applyStatus, hprescribed, hcustomer,
    hsubscription]

/-- What a new event leaves behind that resolves to the tenant of a bound row. -/
lemma Bound.handleEvent (h : Bound store.statuses customerId subscriptionId row)
    (hpart : Partial delivery.event customerId subscriptionId)
    (hresolve : resolveStripeTenant store.statuses delivery.event = .ok (some row.tenantId))
    (hnew : store.getStripeWebhookEvent delivery.event.id = none) (status : TenantStatus) :
    Bound (handleEvent store delivery).2.statuses customerId subscriptionId
      (partialRow row.tenantId (appliedStatus status store delivery) delivery.event.namesCustomer
        customerId subscriptionId) := by
  obtain ⟨prescribed, hprescribed⟩ := Option.isSome_iff_exists.mp
    (StripeEvent.prescribed_isSome.mpr hpart.known)
  have hbind : bindEvent store.statuses delivery.event = .ok row.tenantId := by
    rw [bindEvent, hresolve]
    simp [Except.bind, requireTenant]
  have hcustomer : delivery.event.object.customer.stored =
      some (if delivery.event.namesCustomer then some customerId else none) := by
    rcases hpart.carries with ⟨hfield, -⟩ | ⟨hfield, -⟩
    · simp [StripeEvent.namesCustomer, hfield, Field.stored]
    · simp [StripeEvent.namesCustomer, hfield, Field.stored]
  have hsubscription : delivery.event.subscriptionId.stored =
      some (if delivery.event.namesCustomer then none else some subscriptionId) := by
    rcases hpart.carries with ⟨hfield, hother⟩ | ⟨hfield, hother⟩
    · simp [StripeEvent.namesCustomer, hfield, hother, Field.stored]
    · simp [StripeEvent.namesCustomer, hfield, hother, Field.stored]
  have hhandle := handleEvent_new hnew hbind hprescribed hcustomer hsubscription
  rw [appliedStatus, hhandle, if_pos rfl, hprescribed, Option.getD_some]
  exact h.update prescribed _

/-- What a new event leaves behind that binds its tenant. -/
lemma Binds.handleEvent (hone : OneTenant store.statuses)
    (hbinds : Binds delivery.event tenantId customerId subscriptionId)
    (haccepted : (handleEvent store delivery).1 = .success delivery.event.type)
    (status : TenantStatus) :
    Bound (handleEvent store delivery).2.statuses customerId subscriptionId
      ⟨tenantId, appliedStatus status store delivery, some customerId, some subscriptionId⟩ := by
  obtain ⟨prescribed, hprescribed⟩ := Option.isSome_iff_exists.mp
    (StripeEvent.prescribed_isSome.mpr hbinds.known)
  have hnew : store.getStripeWebhookEvent delivery.event.id = none := by
    by_contra hseen
    exact (handleEvent_seen (Option.isSome_iff_ne_none.mpr hseen)).2 haccepted
  have hcustomer : delivery.event.object.customer.stored = some (some customerId) := by
    rw [hbinds.customer, Field.stored]
  have hsubscription : delivery.event.subscriptionId.stored = some (some subscriptionId) := by
    rw [hbinds.subscription, Field.stored]
  have hbind : bindEvent store.statuses delivery.event = .ok tenantId := by
    cases hbind : bindEvent store.statuses delivery.event with
    | error e =>
        rw [Billing.handleEvent, hbind] at haccepted
        cases haccepted
    | ok other =>
        obtain ⟨hresolve, -⟩ := bindEvent_eq_ok hbinds.known hbind
        rw [resolveStripeTenant, hbinds.metadata] at hresolve
        change bindTenant (some tenantId) _ _ = _ at hresolve
        simp only [bindTenant, truthy_of_ne hbinds.named] at hresolve
        split_ifs at hresolve
        cases hresolve
        rfl
  obtain ⟨-, -, hmapped⟩ := bindEvent_eq_ok hbinds.known hbind
  have hown : ∀ other ∈ store.statuses, other.stripeCustomerId = some customerId ∨
      other.stripeSubscriptionId = some subscriptionId → other.tenantId = tenantId := by
    rintro other hother (hid | hid)
    · exact hmapped _ (hone.mapped_customer hother hbinds.customer hid)
    · exact hmapped _ (hone.mapped_subscription hother hbinds.subscription hid)
  have hhandle := handleEvent_new hnew hbind hprescribed hcustomer hsubscription
  rw [appliedStatus, hhandle, if_pos rfl, hprescribed, Option.getD_some]
  refine ⟨?_, mem_updateTenantStatus.mpr (.inr rfl), ?_⟩
  · refine hone.update hbinds.named (fun other hother _ hid => hown other hother (.inl hid))
      fun other hother _ hid => hown other hother (.inr hid)
  · intro other hother hid
    rcases mem_updateTenantStatus.mp hother with ⟨hmem, htenant⟩ | heq
    · exact absurd (hown other hmem hid) htenant
    · exact heq

/-! ## Sequences -/

variable {deliveries : List Delivery} {namesCustomer : Bool}

/-- A delivery that resolves to the tenant of a bound row, and what follows it. -/
lemma follows_cons (h : Bound store.statuses customerId subscriptionId row)
    (hresolve : resolveStripeTenant store.statuses delivery.event = .ok (some row.tenantId)) :
    Follows row.tenantId row.status store (delivery :: deliveries) ↔
      Follows row.tenantId (appliedStatus row.status store delivery) (handleEvent store delivery).2
        deliveries := by
  rw [Follows]
  exact ⟨fun hfollows => hfollows.2.2, fun hrest => ⟨h.one.getTenantStatus h.mem, hresolve, hrest⟩⟩

lemma appliedStatus_seen (hseen : (store.getStripeWebhookEvent delivery.event.id).isSome) :
    appliedStatus status store delivery = status :=
  if_neg (handleEvent_seen hseen).2

/-- With one of the ids in the row, exactly the events with that id resolve. -/
lemma follows_partialRow
    (h : Bound store.statuses customerId subscriptionId
      (partialRow tenantId status namesCustomer customerId subscriptionId))
    (hpart : ∀ delivery ∈ deliveries, Partial delivery.event customerId subscriptionId) :
    Follows tenantId status store deliveries ↔
      ∀ delivery ∈ deliveries, delivery.event.namesCustomer = namesCustomer := by
  induction deliveries generalizing store status with
  | nil => simpa [Follows, partialRow] using h.one.getTenantStatus h.mem
  | cons delivery deliveries ih =>
      obtain ⟨hdelivery, hrest⟩ := List.forall_mem_cons.mp hpart
      have hresolve := h.resolve hdelivery
      by_cases hsame : delivery.event.namesCustomer = namesCustomer
      · have hhit : resolveStripeTenant store.statuses delivery.event = .ok (some tenantId) := by
          rw [hresolve, hsame, if_pos]
          · rfl
          · cases namesCustomer <;> simp [partialRow]
        rw [List.forall_mem_cons, and_iff_right hsame, ← hsame]
        refine (follows_cons h hhit).trans ?_
        by_cases hseen : (store.getStripeWebhookEvent delivery.event.id).isSome
        · change Follows tenantId (appliedStatus status store delivery) _ _ ↔ _
          rw [appliedStatus_seen hseen, (handleEvent_seen hseen).1, hsame]
          exact ih h hrest
        · have hnew := h.handleEvent hdelivery hhit (Option.not_isSome_iff_eq_none.mp hseen) status
          rw [hsame] at hnew ⊢
          exact ih hnew hrest
      · have hmiss : resolveStripeTenant store.statuses delivery.event = .ok none := by
          rw [hresolve, if_neg]
          cases namesCustomer <;> simp_all [partialRow]
        rw [List.forall_mem_cons]
        constructor
        · intro hfollows
          have := hmiss.symm.trans hfollows.2.1
          simp at this
        · exact fun hall => absurd hall.1 hsame

/-- With both ids in the row, the first new event decides. -/
lemma follows_bound
    (h : Bound store.statuses customerId subscriptionId
      ⟨tenantId, status, some customerId, some subscriptionId⟩)
    (hpart : ∀ delivery ∈ deliveries, Partial delivery.event customerId subscriptionId) :
    Follows tenantId status store deliveries ↔ SameIdentifier store deliveries := by
  induction deliveries with
  | nil => simpa [Follows, SameIdentifier] using h.one.getTenantStatus h.mem
  | cons delivery deliveries ih =>
      obtain ⟨hdelivery, hrest⟩ := List.forall_mem_cons.mp hpart
      have hhit : resolveStripeTenant store.statuses delivery.event = .ok (some tenantId) := by
        rw [h.resolve hdelivery]
        simp
      refine (follows_cons h hhit).trans ?_
      change Follows tenantId (appliedStatus status store delivery) _ _ ↔ _
      rw [SameIdentifier]
      by_cases hseen : (store.getStripeWebhookEvent delivery.event.id).isSome
      · rw [if_pos hseen, appliedStatus_seen hseen, (handleEvent_seen hseen).1]
        exact ih hrest
      · rw [if_neg hseen]
        exact follows_partialRow
          (h.handleEvent hdelivery hhit (Option.not_isSome_iff_eq_none.mp hseen) status) hrest

/-- After an event that binds a tenant to two ids, every event with one of them resolves to the tenant,
and the stored status is the last applied one, exactly when from the first new event on all of them
carry the same id. -/
theorem bindings_survive_iff (earlier : List Delivery)
    (htextual : ∀ delivery ∈ earlier, delivery.event.Textual) (first : Delivery)
    (tenantId customerId subscriptionId : String) (status : TenantStatus)
    (hbinds : Binds first.event tenantId customerId subscriptionId)
    (hstatus : first.event.prescribed = some status)
    (haccepted : (handleEvent (afterDeliveries ⟨[], []⟩ earlier) first).1 =
      .success first.event.type)
    (later : List Delivery)
    (hpart : ∀ delivery ∈ later, Partial delivery.event customerId subscriptionId) :
    Follows tenantId status (afterDeliveries ⟨[], []⟩ (earlier ++ [first])) later ↔
      SameIdentifier (afterDeliveries ⟨[], []⟩ (earlier ++ [first])) later := by
  have hone : OneTenant (afterDeliveries ⟨[], []⟩ earlier).statuses :=
    oneTenant_afterDeliveries oneTenant_nil htextual
  have hbound := hbinds.handleEvent hone haccepted status
  rw [appliedStatus, if_pos haccepted, hstatus, Option.getD_some] at hbound
  rw [afterDeliveries, List.foldl_append]
  exact follows_bound hbound hpart

/-- A subscription of the customer `cus_a`. -/
def createdEvent : Delivery where
  payloadHash := "hash-1"
  event :=
    { id := "evt_1"
      type := "customer.subscription.created"
      object :=
        { metadata := .object (.str "tenant_a")
          customer := .str "cus_a"
          id := .str "sub_a" } }

/-- A failed payment of the customer, without the subscription. -/
def failedEvent : Delivery where
  payloadHash := "hash-2"
  event :=
    { id := "evt_2"
      type := "invoice.payment_failed"
      object := { customer := .str "cus_a" } }

/-- The end of the subscription, without the customer. -/
def deletedEvent : Delivery where
  payloadHash := "hash-3"
  event :=
    { id := "evt_3"
      type := "customer.subscription.deleted"
      object := { id := .str "sub_a" } }

lemma createdEvent_binds : Binds createdEvent.event "tenant_a" "cus_a" "sub_a" :=
  ⟨by decide, rfl, by decide, rfl, by decide⟩

lemma partial_failedEvent : Partial failedEvent.event "cus_a" "sub_a" :=
  ⟨by decide, rfl, by decide⟩

lemma partial_deletedEvent : Partial deletedEvent.event "cus_a" "sub_a" :=
  ⟨by decide, rfl, by decide⟩

/-- The failed payment takes the subscription from the row of the tenant, and the end of the
subscription belongs to nobody. -/
theorem subscription_forgotten :
    Binds createdEvent.event "tenant_a" "cus_a" "sub_a" ∧
      (handleEvent ⟨[], []⟩ createdEvent).1 = .success "customer.subscription.created" ∧
      (∀ delivery ∈ [failedEvent, deletedEvent], Partial delivery.event "cus_a" "sub_a") ∧
      (handleEvent (afterDeliveries ⟨[], []⟩ [createdEvent, failedEvent]) deletedEvent).1 =
        .error ⟨400, "Stripe event tenant binding is required"⟩ ∧
      ¬Follows "tenant_a" .active (afterDeliveries ⟨[], []⟩ [createdEvent])
        [failedEvent, deletedEvent] := by
  refine ⟨createdEvent_binds, by decide, ?_, by decide, ?_⟩
  · simpa using ⟨partial_failedEvent, partial_deletedEvent⟩
  · rintro ⟨-, -, -, hresolve, -⟩
    revert hresolve
    decide

/-- Failed payments of the customer one after the other keep their tenant. -/
theorem customer_remembered :
    Follows "tenant_a" .active (afterDeliveries ⟨[], []⟩ ([] ++ [createdEvent]))
      [failedEvent, failedEvent] :=
  (bindings_survive_iff [] (by simp) createdEvent "tenant_a" "cus_a" "sub_a" .active
    createdEvent_binds (by decide) (by decide) [failedEvent, failedEvent]
    (by simpa using partial_failedEvent)).mpr (by simp [SameIdentifier])

end AgentSystem.Billing
