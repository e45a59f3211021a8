import KnowledgeMarketplace.Payments.Services

/-!
# Webhook ingestion

A verified webhook is stored under its event id and dispatched to a handler.
Handler failures of the expected kinds are stored on the event, which staff
can redeliver later.
-/

namespace KnowledgeMarketplace

namespace Webhooks

/-- The payment with a provider reference, if there is one. -/
def paymentByReference (reference : String) (db : Db) :
    Option (OrderId × Payment) :=
  (db.payments.select fun _ payment =>
    payment.providerReference = some reference).head?.bind fun id =>
      (db.payments.row id).map fun payment => (id, payment)

/-- The provider reports success: confirm the payment, once. -/
def handlePaymentSucceeded (env : Env) (data : EventData) : Tx Unit := do
  let (id, payment) ← Tx.orFail
    (← Tx.read (paymentByReference data.paymentReference))
    (.valueError ("Unknown payment reference '" ++ data.paymentReference ++ "'"))
  if payment.status ≠ .succeeded then
    Payments.confirmPaymentNested env id

/-- What the failure handler writes. -/
def failedByProvider (data : EventData) (payment : Payment) : Payment :=
  { payment with
    status := .failed
    failureReason := clip 255
      (if data.reason = "" then "Provider reported failure" else data.reason) }

/-- The provider reports failure; the payment row is read without a lock. -/
def handlePaymentFailed (data : EventData) : Tx Unit := do
  let found ← Tx.read (paymentByReference data.paymentReference)
  let failing := found.filter fun (_, payment) =>
    payment.status ≠ .succeeded && payment.status ≠ .canceled
  Tx.forEach failing.toList fun (id, _) =>
    Tx.exec (.savePayment id (failedByProvider data))

/-- The refund with a provider reference, if there is one. -/
def refundByReference (reference : String) (db : Db) :
    Option (RefundId × Refund) :=
  (db.refunds.select fun _ refund =>
    refund.providerReference = reference).min?.bind fun id =>
      (db.refunds.row id).map fun refund => (id, refund)

/-- The provider settled a pending refund. -/
def handleRefundSucceeded (env : Env) (data : EventData) : Tx Unit := do
  let found ← Tx.read (refundByReference data.refundReference)
  let pending := found.filter fun (_, refund) => refund.status ≠ .succeeded
  Tx.forEach pending.toList fun (id, _) =>
    Tx.exec <| .saveRefund id fun stored =>
      { stored with status := .succeeded, processedAt := some env.now }

/-- The handler of an event type, if it is registered. -/
def handlers (env : Env) (data : EventData) : EventType → Option (Tx Unit)
  | .paymentSucceeded => some (handlePaymentSucceeded env data)
  | .paymentFailed => some (handlePaymentFailed data)
  | .refundSucceeded => some (handleRefundSucceeded env data)
  | .other _ => none

/-- The name of an event type, as the provider sends it. -/
def eventTypeName : EventType → String
  | .paymentSucceeded => "payment.succeeded"
  | .paymentFailed => "payment.failed"
  | .refundSucceeded => "refund.succeeded"
  | .other name => name

/-- The expected failures are caught and end as a text on the event. -/
def recover : Error → Except Error (Option String)
  | .domain error => .ok (some (clip 2000 error.message))
  | .valueError message => .ok (some (clip 2000 message))
  | .gateway message => .ok (some (clip 2000 message))
  | error => .error error

/-- Dispatch an event: no text on success, else the text of the failure. -/
def dispatch (env : Env) (eventType : EventType) (data : EventData) :
    Tx (Option String) :=
  match handlers env data eventType with
  | none =>
      pure (some
        ("No handler for event type '" ++ eventTypeName eventType ++ "'"))
  | some handler =>
      Tx.tryCatch (do handler; return none) fun error =>
        Tx.ofExcept (recover error)

/-- What is stored on an event after its dispatch. -/
def concluded (failure : Option String) (event : WebhookEvent) :
    WebhookEvent :=
  { event with
    status := if failure = none then .processed else .failed
    error := failure.getD "" }

/-- Run a stored event again; `event` is the copy the operator's page read. -/
def redeliver (env : Env) (eventId : String) (event : WebhookEvent) :
    Tx Unit := do
  let failure ← dispatch env event.eventType event.payload
  Tx.exec <| .saveWebhookEvent eventId fun stored =>
    { concluded failure stored with
      processedAt :=
        if failure = none then some env.now else stored.processedAt }

/-- A payload whose signature the gateway has verified. -/
structure VerifiedWebhook where
  eventId : String
  eventType : EventType
  data : EventData
  deriving DecidableEq

/-- `get_or_create` of the event row; the flag says whether it was created. -/
def getOrCreateEvent (provider : GatewayName) (webhook : VerifiedWebhook) :
    Tx (WebhookEvent × Bool) := do
  let stored ← Tx.read fun db => db.webhookEvents.row webhook.eventId
  Tx.orElse (stored.map (·, false)) do
    Tx.lockRow (.webhookEvent webhook.eventId)
    let inserted ← Tx.read fun db => db.webhookEvents.row webhook.eventId
    Tx.orElse (inserted.map (·, false)) do
      let event : WebhookEvent :=
        { provider
          eventType := webhook.eventType
          payload := webhook.data }
      Tx.exec (.insertWebhookEvent webhook.eventId event)
      return (event, true)

/--
Verify, store, dispatch.  `verified` is the gateway's verdict on the signature.
Returns whether the event was processed now.
-/
def ingest
    (env : Env) (provider : GatewayName)
    (verified : Except Error VerifiedWebhook) : Tx Bool := do
  let webhook ← Tx.ofExcept verified
  let (event, created) ← getOrCreateEvent provider webhook
  Tx.require (event.provider = provider) (.integrity "WebhookEvent")
  if created = false ∧ event.status = .processed then
    return false
  else
    let failure ← dispatch env webhook.eventType webhook.data
    Tx.exec <| .saveWebhookEvent webhook.eventId fun stored =>
      { concluded failure stored with processedAt := some env.now }
    return true

end Webhooks

end KnowledgeMarketplace
