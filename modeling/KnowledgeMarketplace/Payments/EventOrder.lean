import KnowledgeMarketplace.Payments.EventDispatch

/-!
# Webhooks in any order

A provider sends its events at least once and in any order, and staff run
stored events again.  The first success books the income; what came before it
is overruled and what comes after it is ignored.
-/

namespace KnowledgeMarketplace

open Transaction

namespace Webhooks

/-- An event arrives, or staff run a stored event again. -/
inductive Delivery where
  | ingest (env : Env) (eventId : String)
  | redeliver (env : Env) (eventId : String)

namespace Delivery

def eventId : Delivery → String
  | ingest _ eventId | redeliver _ eventId => eventId

/-- The request of the provider or of staff; an id determines its event. -/
def operation (events : String → VerifiedWebhook) : Delivery → Operation
  | ingest env eventId =>
      .payment (.ingest env .manual (.ok (events eventId)))
  | redeliver env eventId => .payment (.redeliver env eventId)

end Delivery

variable {reference : String} {id : OrderId} {order : Order}
  {request : ServiceRequest} {db : Db}

/-- The event of an id carries the reference, as a success or as a failure. -/
structure Carries
    (events : String → VerifiedWebhook) (reference eventId : String) : Prop where
  named : (events eventId).eventId = eventId
  about : (events eventId).data.paymentReference = reference
  kind : (events eventId).eventType = .paymentSucceeded ∨
    (events eventId).eventType = .paymentFailed

/-- The event of an id is a success. -/
def reportsSuccess (events : String → VerifiedWebhook) (eventId : String) : Bool :=
  (events eventId).eventType = .paymentSucceeded

/-- What is stored under an id is its event. -/
def Recorded
    (events : String → VerifiedWebhook) (eventId : String) (db : Db) : Prop :=
  ∀ event, db.webhookEvents.row eventId = some event →
    event.provider = .manual ∧ event.eventType = (events eventId).eventType ∧
      event.payload = (events eventId).data

/-- A success that is stored has not been processed. -/
def Unprocessed
    (events : String → VerifiedWebhook) (eventId : String) (db : Db) : Prop :=
  ∀ event, db.webhookEvents.row eventId = some event →
    reportsSuccess events eventId = true → event.status ≠ .processed

/-- The income of the order is booked, or the order still waits. -/
def Stands
    (reference : String) (id : OrderId) (order : Order)
    (request : ServiceRequest) (base : Db) : Bool → Db → Prop
  | false, db => Awaits reference id order request db ∧ db.ledger = base.ledger
  | true, db => Settles reference id order request db ∧
      db.ledger = base.ledger ++ income reference id order

variable {events : String → VerifiedWebhook} {base : Db}

/-- Processing an event books the income if it is the first success. -/
theorem dispatch_stands
    {booked : Bool} {eventId : String}
    (stands : Stands reference id order request base booked db)
    (truthful : Gateway.confirmPayment reference .manual = .ok true)
    (given : reference ≠ "") (carries : Carries events reference eventId)
    (env : Env) :
    ∃ next, (dispatch env (events eventId).eventType
        (events eventId).data).Yields db none next ∧
      Stands reference id order request base
        (booked || reportsSuccess events eventId) next ∧
      next.webhookEvents = db.webhookEvents := by
  rcases carries.kind with kind | kind <;> cases booked <;>
    simp only [reportsSuccess, kind, decide_true, decide_false, Bool.or_true,
      Bool.or_false, reduceCtorEq]
  · obtain ⟨next, yields, settles, ledger, webhooks⟩ :=
      dispatch_succeeded stands.1 truthful given carries.about env
    exact ⟨next, yields, ⟨settles, stands.2 ▸ ledger⟩, webhooks⟩
  · exact ⟨db, dispatch_succeeded_again stands.1 carries.about env, stands, rfl⟩
  · obtain ⟨next, yields, awaits, ledger, webhooks⟩ :=
      dispatch_failed stands.1 carries.about env
    exact ⟨next, yields, ⟨awaits, ledger.trans stands.2⟩, webhooks⟩
  · exact ⟨db, dispatch_failed_late stands.1 carries.about env, stands, rfl⟩

/-- The state between two events. -/
structure Progress
    (events : String → VerifiedWebhook) (ids : List String)
    (reference : String) (id : OrderId) (order : Order)
    (request : ServiceRequest) (base : Db) (booked : Bool) (db : Db) : Prop where
  stands : Stands reference id order request base booked db
  recorded : ∀ eventId ∈ ids, Recorded events eventId db
  unprocessed : booked = false → ∀ eventId ∈ ids, Unprocessed events eventId db
  stored : ∀ eventId, (base.webhookEvents.row eventId).isSome = true →
    (db.webhookEvents.row eventId).isSome = true

theorem Stands.congr
    {after : Db} {booked : Bool}
    (stands : Stands reference id order request base booked db)
    (orders : after.orders = db.orders) (requests : after.requests = db.requests)
    (payments : after.payments = db.payments) (ledger : after.ledger = db.ledger) :
    Stands reference id order request base booked after := by
  cases booked with
  | false => exact ⟨stands.1.congr orders requests payments, ledger.trans stands.2⟩
  | true => exact ⟨stands.1.congr orders requests payments, ledger.trans stands.2⟩

/-- The event is stored as processed. -/
theorem Progress.conclude
    {ids : List String} {booked : Bool} {eventId : String} {next : Db}
    {set : WebhookEvent → WebhookEvent}
    (progress : Progress events ids reference id order request base booked db)
    (stands : Stands reference id order request base
      (booked || reportsSuccess events eventId) next)
    (webhooks : next.webhookEvents = db.webhookEvents)
    (provider : ∀ stored, (set stored).provider = stored.provider)
    (eventType : ∀ stored, (set stored).eventType = stored.eventType)
    (payload : ∀ stored, (set stored).payload = stored.payload) :
    Progress events ids reference id order request base
      (booked || reportsSuccess events eventId)
      ((Stmt.saveWebhookEvent eventId set).apply next) := by
  refine ⟨stands.congr rfl rfl rfl rfl, fun other listed event stored => ?_,
    fun unbooked other listed event stored success => ?_, fun other stored => ?_⟩
  · have rows : (next.webhookEvents.modify eventId set).row other = some event :=
      stored
    rw [webhooks] at rows
    rcases Table.row_modify_cases rows with ⟨_, old⟩ | ⟨rfl, found, old, rfl⟩
    · exact progress.recorded other listed event old
    · have before := progress.recorded other listed found old
      exact ⟨(provider found).trans before.1, (eventType found).trans before.2.1,
        (payload found).trans before.2.2⟩
  · obtain ⟨before, failure⟩ := Bool.or_eq_false_iff.mp unbooked
    have rows : (next.webhookEvents.modify eventId set).row other = some event :=
      stored
    rw [webhooks] at rows
    rcases Table.row_modify_cases rows with ⟨_, old⟩ | ⟨rfl, _⟩
    · exact progress.unprocessed before other listed event old success
    · exact absurd (failure.symm.trans success) nofun
  · change ((next.webhookEvents.modify eventId set).row other).isSome = true
    rw [webhooks, Table.row_modify]
    have kept := progress.stored other stored
    split_ifs <;> simpa using kept

/-- A new event is stored before it is processed. -/
theorem Progress.log
    {ids : List String} {booked : Bool} {eventId : String}
    (progress : Progress events ids reference id order request base booked db)
    (fresh : db.webhookEvents.row eventId = none) :
    Progress events ids reference id order request base booked
      ((Stmt.insertWebhookEvent eventId
        { provider := .manual
          eventType := (events eventId).eventType
          payload := (events eventId).data }).apply db) := by
  refine ⟨progress.stands.congr rfl rfl rfl rfl, fun other listed event stored => ?_,
    fun unbooked other listed event stored success => ?_, fun other stored => ?_⟩
  · rcases Table.row_insert_cases stored with old | ⟨rfl, rfl, _⟩
    · exact progress.recorded other listed event old
    · exact ⟨rfl, rfl, rfl⟩
  · rcases Table.row_insert_cases stored with old | ⟨rfl, rfl, _⟩
    · exact progress.unprocessed unbooked other listed event old success
    · exact nofun
  · obtain ⟨event, old⟩ := Option.isSome_iff_exists.mp (progress.stored other stored)
    exact Option.isSome_iff_exists.mpr
      ⟨event, Table.row_insert_of_some eventId _ old⟩

/-- An event that is not stored yet is stored. -/
theorem getOrCreateEvent_new
    {eventId : String} (named : (events eventId).eventId = eventId)
    (fresh : db.webhookEvents.row eventId = none) :
    (getOrCreateEvent .manual (events eventId)).Yields db
      ({ provider := .manual
         eventType := (events eventId).eventType
         payload := (events eventId).data }, true)
      ((Stmt.insertWebhookEvent eventId
        { provider := .manual
          eventType := (events eventId).eventType
          payload := (events eventId).data }).apply db) := by
  unfold getOrCreateEvent
  rw [named]
  refine .bind .read ?_
  rw [fresh]
  refine .bind .lockRow (.bind .read ?_)
  rw [fresh]
  exact .bind .exec .pure

theorem getOrCreateEvent_stored
    {eventId : String} {event : WebhookEvent}
    (named : (events eventId).eventId = eventId)
    (stored : db.webhookEvents.row eventId = some event) :
    (getOrCreateEvent .manual (events eventId)).Yields db (event, false) db := by
  unfold getOrCreateEvent
  rw [named]
  refine .bind .read ?_
  rw [stored]
  exact .pure

/-- An event that arrives is processed, unless it has been. -/
theorem ingest_progress
    {ids : List String} {booked : Bool} {eventId : String}
    (progress : Progress events ids reference id order request base booked db)
    (truthful : Gateway.confirmPayment reference .manual = .ok true)
    (given : reference ≠ "") (listed : eventId ∈ ids)
    (carries : Carries events reference eventId) (env : Env) :
    ∃ next processed, (ingest env .manual (.ok (events eventId))).Yields db
        processed next ∧
      Progress events ids reference id order request base
        (booked || reportsSuccess events eventId) next := by
  have finish : ∀ event created logged,
      (getOrCreateEvent .manual (events eventId)).Yields db (event, created)
        logged →
      event.provider = .manual → ¬(created = false ∧ event.status = .processed) →
      Progress events ids reference id order request base booked logged →
      ∃ next processed, (ingest env .manual (.ok (events eventId))).Yields db
          processed next ∧
        Progress events ids reference id order request base
          (booked || reportsSuccess events eventId) next := by
    intro event created logged opened provider fresh current
    obtain ⟨next, dispatched, stands, webhooks⟩ :=
      dispatch_stands current.stands truthful given carries env
    refine ⟨_, true, .bind (.ofExcept rfl) <| .bind opened <|
      .bind (.require provider) <| .ite_false fresh <|
      .bind dispatched <| .bind .exec .pure, ?_⟩
    rw [carries.named]
    exact current.conclude stands webhooks (fun _ => rfl) (fun _ => rfl)
      fun _ => rfl
  cases stored : db.webhookEvents.row eventId with
  | none =>
      exact finish _ _ _ (getOrCreateEvent_new carries.named stored) rfl nofun
        (progress.log stored)
  | some event =>
      have opened := getOrCreateEvent_stored carries.named stored
      have provider := (progress.recorded eventId listed event stored).1
      by_cases processed : event.status = .processed
      · refine ⟨db, false, .bind (.ofExcept rfl) <| .bind opened <|
          .bind (.require provider) <| .ite_true ⟨rfl, processed⟩ .pure, ?_⟩
        have known : (booked || reportsSuccess events eventId) = booked := by
          cases unbooked : booked with
          | true => rfl
          | false =>
              by_contra success
              exact progress.unprocessed unbooked eventId listed event stored
                (by simpa using success) processed
        rw [known]
        exact progress
      · exact finish event false db opened provider (fun both => processed both.2)
          progress

/-- A stored event that staff run again is processed. -/
theorem redeliver_progress
    {ids : List String} {booked : Bool} {eventId : String} {event : WebhookEvent}
    (progress : Progress events ids reference id order request base booked db)
    (truthful : Gateway.confirmPayment reference .manual = .ok true)
    (given : reference ≠ "") (listed : eventId ∈ ids)
    (carries : Carries events reference eventId)
    (stored : db.webhookEvents.row eventId = some event) (env : Env) :
    ∃ next, (redeliver env eventId event).Yields db () next ∧
      Progress events ids reference id order request base
        (booked || reportsSuccess events eventId) next := by
  obtain ⟨_, eventType, payload⟩ := progress.recorded eventId listed event stored
  obtain ⟨next, dispatched, stands, webhooks⟩ :=
    dispatch_stands progress.stands truthful given carries env
  rw [← eventType, ← payload] at dispatched
  exact ⟨_, .bind dispatched .exec, progress.conclude stands webhooks
    (fun _ => rfl) (fun _ => rfl) fun _ => rfl⟩

/-- The delivery reaches an event: a new one, or a stored one. -/
def Delivery.Arrives (db : Db) : Delivery → Prop
  | ingest _ _ => True
  | redeliver _ eventId => (db.webhookEvents.row eventId).isSome = true

/-- One delivery, alone, books the income if it is the first success. -/
theorem delivery_progress
    {ids : List String} {booked : Bool} {delivery : Delivery}
    (progress : Progress events ids reference id order request base booked db)
    (truthful : Gateway.confirmPayment reference .manual = .ok true)
    (given : reference ≠ "") (listed : delivery.eventId ∈ ids)
    (carries : Carries events reference delivery.eventId)
    (arrives : delivery.Arrives db) :
    Progress events ids reference id order request base
      (booked || reportsSuccess events delivery.eventId)
      ((delivery.operation events).after db) := by
  cases delivery with
  | ingest env eventId =>
      obtain ⟨next, processed, yields, after⟩ :=
        ingest_progress progress truthful given listed carries env
      have left : (Delivery.operation events (.ingest env eventId)).after db =
          next := congrArg Prod.snd (Call.run_perform yields)
      rw [left]
      exact after
  | redeliver env eventId =>
      obtain ⟨event, stored⟩ := Option.isSome_iff_exists.mp arrives
      obtain ⟨next, yields, after⟩ :=
        redeliver_progress progress truthful given listed carries stored env
      have found : (fun db : Db => db.webhookEvents.row eventId) db = some event :=
        stored
      have left : (Delivery.operation events (.redeliver env eventId)).after db =
          next := congrArg Prod.snd
        ((Call.run_performOn_some found).trans (Call.run_perform yields))
      rw [left]
      exact after

/-- A redelivery of an event that is not stored changes nothing. -/
theorem after_of_missing
    {delivery : Delivery} (missing : ¬delivery.Arrives db) :
    (delivery.operation events).after db = db := by
  cases delivery with
  | ingest env eventId => exact absurd trivial missing
  | redeliver env eventId =>
      have none : (fun db : Db => db.webhookEvents.row eventId) db = none := by
        simpa [Delivery.Arrives] using missing
      exact Call.run_performOn_none none

/-- What is stored at the start of a run is stored at its end. -/
theorem Progress.arrives
    {ids : List String} {booked : Bool} {delivery : Delivery}
    (progress : Progress events ids reference id order request base booked db)
    (early : delivery.Arrives base) : delivery.Arrives db := by
  cases delivery with
  | ingest => trivial
  | redeliver env eventId => exact progress.stored eventId early

/-- Deliveries one after the other: the first success books the income. -/
theorem run_progress
    {ids : List String} {booked : Bool} {deliveries : List Delivery}
    (progress : Progress events ids reference id order request base booked db)
    (truthful : Gateway.confirmPayment reference .manual = .ok true)
    (given : reference ≠ "")
    (fine : ∀ delivery ∈ deliveries, delivery.eventId ∈ ids ∧
      Carries events reference delivery.eventId) :
    ∃ settled, Progress events ids reference id order request base settled
        (Operation.afterAll (deliveries.map (·.operation events)) db) ∧
      (booked = true → settled = true) ∧
      ((∃ delivery ∈ deliveries, delivery.Arrives base ∧
        reportsSuccess events delivery.eventId = true) → settled = true) := by
  induction deliveries generalizing db booked with
  | nil => exact ⟨booked, progress, fun before => before, by simp⟩
  | cons delivery rest inductionHypothesis =>
      have later := fun other member => fine other (List.mem_cons_of_mem delivery member)
      obtain ⟨listed, carries⟩ := fine delivery List.mem_cons_self
      by_cases arrives : delivery.Arrives db
      · obtain ⟨settled, last, keeps, succeeds⟩ := inductionHypothesis
          (delivery_progress progress truthful given listed carries arrives) later
        refine ⟨settled, last, fun before => keeps (by simp [before]), ?_⟩
        rintro ⟨other, member, early, success⟩
        rcases List.mem_cons.mp member with rfl | member
        · exact keeps (by simp [success])
        · exact succeeds ⟨other, member, early, success⟩
      · have same : (delivery.operation events).after db = db :=
          after_of_missing arrives
        obtain ⟨settled, last, keeps, succeeds⟩ :=
          inductionHypothesis (same.symm ▸ progress) later
        refine ⟨settled, last, keeps, ?_⟩
        rintro ⟨other, member, early, success⟩
        rcases List.mem_cons.mp member with rfl | member
        · exact absurd (progress.arrives early) arrives
        · exact succeeds ⟨other, member, early, success⟩

/--
An order waits for the payment that a reference of the manual gateway names, and
nothing of it is booked.  The deliveries are successes and failures of this
payment; of those that are stored already, no success has been processed.
-/
structure AwaitsEvents
    (events : String → VerifiedWebhook) (deliveries : List Delivery)
    (reference : String) (id : OrderId) (order : Order)
    (request : ServiceRequest) (db : Db) : Prop where
  awaits : Awaits reference id order request db
  issued : ∃ env, reference = Payments.newReference env .manual
  unbooked : ∀ entryType ∈ [.charge, .commission, .expertCredit],
    Payments.booked entryType id db = 0
  carries : ∀ delivery ∈ deliveries, Carries events reference delivery.eventId
  recorded : ∀ delivery ∈ deliveries, Recorded events delivery.eventId db
  unprocessed : ∀ delivery ∈ deliveries, Unprocessed events delivery.eventId db

/-- References of the manual gateway do not simulate failures. -/
theorem issued_truthful (env : Env) :
    Gateway.confirmPayment (Payments.newReference env .manual) .manual =
      .ok true ∧ Payments.newReference env .manual ≠ "" := by
  have chars : (Payments.newReference env .manual).toList =
      "manual-pay-".toList ++ env.hex.toList := by
    simp [Payments.newReference, GatewayName.value]
  constructor
  · rw [Gateway.confirmPayment, chars]
    rfl
  · intro empty
    rw [empty] at chars
    simp at chars

/--
Whatever the order of the deliveries, and however often they are repeated: if a
success is among them, the payment has succeeded in the end, work on the order
has started, and its income is booked once.
-/
theorem events_settle_order
    {deliveries : List Delivery}
    (waits : AwaitsEvents events deliveries reference id order request db)
    (succeeds : ∃ delivery ∈ deliveries, delivery.Arrives db ∧
      (events delivery.eventId).eventType = .paymentSucceeded) :
    let last := Operation.afterAll (deliveries.map (·.operation events)) db
    (last.payments.row id).map Payment.status = some .succeeded ∧
      (last.orders.row id).map Order.status = some .active ∧
      (last.requests.row order.request).map ServiceRequest.status =
        some (statusAtWork request) ∧
      last.ledger = db.ledger ++ income reference id order ∧
      ∀ entryType ∈ [.charge, .commission, .expertCredit],
        Payments.booked entryType id last = 1 := by
  intro last
  obtain ⟨env, issued⟩ := waits.issued
  obtain ⟨truthful, given⟩ := issued ▸ issued_truthful env
  let ids := deliveries.map Delivery.eventId
  have start : Progress events ids reference id order request db false db := by
    refine ⟨⟨waits.awaits, rfl⟩, ?_, fun _ => ?_, fun _ stored => stored⟩
    · exact List.forall_mem_map.mpr waits.recorded
    · exact List.forall_mem_map.mpr waits.unprocessed
  obtain ⟨settled, progress, _, booked⟩ := run_progress start truthful given
    fun delivery member => ⟨List.mem_map_of_mem member, waits.carries delivery member⟩
  obtain ⟨delivery, member, arrives, success⟩ := succeeds
  rw [booked ⟨delivery, member, arrives, by simp [reportsSuccess, success]⟩]
    at progress
  obtain ⟨settles, ledger⟩ := progress.stands
  obtain ⟨payment, stored, succeeded, _⟩ := settles.payment
  refine ⟨by simp [last, stored, succeeded], settles.active, settles.working,
    ledger, fun entryType listed => ?_⟩
  have before := waits.unbooked entryType listed
  unfold Payments.booked at before ⊢
  rw [show last.ledger = _ from ledger, List.countP_append, before]
  simp only [List.mem_cons, List.not_mem_nil, or_false] at listed
  rcases listed with rfl | rfl | rfl <;> simp [income]

/-- An order that waits for its payment. -/
def waitingOrder : Order where
  request := 10
  student := 1
  expert := 2
  source := .openBid
  amount := 5000
  commissionAmount := 750
  expertAmount := 4250
  createdAt := 0

/-- The order's payment is pending. -/
def waiting : Db where
  requests := .insert .empty 10 { student := 1, status := .matched }
  orders := .insert .empty 40 waitingOrder
  payments := .insert .empty 40
    { gateway := .manual
      providerReference := some "manual-pay-1"
      amountMinor := 5000 }

/-- One event reports a success of the payment, the others report failures. -/
def reported (eventId : String) : VerifiedWebhook where
  eventId
  eventType := if eventId = "evt-2" then .paymentSucceeded else .paymentFailed
  data := { paymentReference := "manual-pay-1", reason := "declined" }

/-- A failure, the success and its repetition, and the failures again. -/
def repeated : List Delivery :=
  [.redeliver { now := 1 } "evt-2", .ingest { now := 2 } "evt-1",
   .ingest { now := 3 } "evt-2", .ingest { now := 4 } "evt-2",
   .redeliver { now := 5 } "evt-1", .ingest { now := 6 } "evt-3"]

theorem waiting_awaits :
    AwaitsEvents reported repeated "manual-pay-1" 40 waitingOrder
      { student := 1, status := .matched } waiting where
  awaits :=
    { orderRow := rfl
      waiting := rfl
      unpaid := rfl
      requestRow := rfl
      payment := ⟨_, rfl, rfl, rfl, rfl, rfl, by decide⟩
      names := fun other payment stored _ => by
        simp only [waiting] at stored
        rcases Table.row_insert_cases stored with old | ⟨same, _⟩
        · simp at old
        · exact same }
  issued := ⟨{ now := 0, hex := "1" }, rfl⟩
  unbooked _ _ := rfl
  carries delivery _ := ⟨rfl, rfl, by
    simp only [reported]
    split_ifs <;> simp⟩
  recorded _ _ _ none := nomatch none
  unprocessed _ _ _ none := nomatch none

/-- The income of the order is booked once by the six deliveries. -/
theorem events_settle_order_repeated :
    let last := Operation.afterAll (repeated.map (·.operation reported)) waiting
    ((last.payments.row 40).map Payment.status = some .succeeded ∧
      (last.orders.row 40).map Order.status = some .active ∧
      (last.requests.row 10).map ServiceRequest.status = some .inProgress ∧
      last.ledger = income "manual-pay-1" 40 waitingOrder ∧
      ∀ entryType ∈ [.charge, .commission, .expertCredit],
        Payments.booked entryType 40 last = 1) :=
  events_settle_order waiting_awaits
    ⟨.ingest { now := 3 } "evt-2", by simp [repeated], trivial, rfl⟩

end Webhooks

end KnowledgeMarketplace
