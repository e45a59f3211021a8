import KnowledgeMarketplace.ServiceRequests.Services

/-!
# The order state machine

`transition` locks the order row and re-reads it before it checks the table.
`markPaid` is the receiver of the `payment_confirmed` signal.
-/

namespace KnowledgeMarketplace

namespace Orders

/-- The state machine of an order: the action of each edge. -/
def transitions : OrderStatus → OrderStatus → Option String
  | .awaitingPayment, .active => some "payment_confirmed"
  | .awaitingPayment, .cancelled => some "cancel"
  | .active, .delivered => some "deliver"
  | .active, .cancelled => some "cancel"
  | .active, .disputed => some "open_dispute"
  | .delivered, .revisionRequested => some "request_revision"
  | .delivered, .completed => some "approve"
  | .delivered, .cancelled => some "cancel"
  | .delivered, .disputed => some "open_dispute"
  | .revisionRequested, .delivered => some "deliver"
  | .revisionRequested, .completed => some "approve"
  | .revisionRequested, .disputed => some "open_dispute"
  | .revisionRequested, .cancelled => some "cancel"
  | .completed, .disputed => some "open_dispute"
  | .disputed, .completed => some "resolve_release"
  | .disputed, .cancelled => some "resolve_refund"
  | .disputed, .active => some "resolve_no_fault"
  | .disputed, .delivered => some "resolve_no_fault"
  | .disputed, .revisionRequested => some "resolve_no_fault"
  | _, _ => none

/-- The error of a move that is not in the table. -/
def invalidTransition (fromStatus toStatus : OrderStatus) : Error :=
  .domainError
    ("Cannot move an order from '" ++ fromStatus.value ++ "' to '" ++
      toStatus.value ++ "'.")
    "invalid_transition"

/-- Lock and read an order row. -/
def getForUpdate (id : OrderId) : Tx Order :=
  Tx.getForUpdate (.order id) (fun db => db.orders.row id) "Order"

/-- Append to the order's timeline. -/
def recordEvent (order : OrderId) (eventType : OrderEventType)
    (actor : Option Actor) (data : OrderEventData := .none) : Tx Unit :=
  Tx.exec <| .recordEvent
    { order, eventType, actor := actor.map Actor.id, data }

/-- Move the locked, re-read order and record the event. -/
def transition
    (id : OrderId) (toStatus : OrderStatus) (eventType : OrderEventType)
    (actor : Option Actor) (data : OrderEventData := .none) : Tx Order := do
  let order ← getForUpdate id
  Tx.require (transitions order.status toStatus).isSome
    (invalidTransition order.status toStatus)
  Tx.exec (.saveOrder id fun stored => { stored with status := toStatus })
  recordEvent id eventType actor data
  return { order with status := toStatus }

/--
Move the order's request along with the order, if its status is one of the
expected ones; the request is read without a lock.
-/
def moveRequest
    (env : Env) (id : RequestId) (fromStatuses : List RequestStatus)
    (toStatus : RequestStatus) (reason : String) : Tx Unit := do
  let request ← Tx.get (fun db => db.requests.row id) "ServiceRequest"
  if request.status ∈ fromStatuses then
    let _ ← ServiceRequests.transition env id request toStatus reason

/-- `awaiting_payment -> active`; `order` is the copy the caller holds. -/
def markPaid
    (env : Env) (id : OrderId) (order : Order) (actor : Option Actor) :
    Tx Unit := do
  Tx.require (actor.all Actor.isStaff)
    (.permissionDenied "Only staff can confirm payments in this phase.")
  Tx.require (order.paidAt = none)
    (.domainError "This order is already paid." "invalid_transition")
  Tx.exec (.saveOrder id fun stored => { stored with paidAt := some env.now })
  let _ ← transition id .active .paymentConfirmed actor
  recordEvent id .paymentConfirmed actor
  -- work starts
  moveRequest env order.request [.matched] .inProgress ""

/-- The receiver of `payment_confirmed` activates the order. -/
def activateOrderOnPayment (env : Env) (payment : OrderId) : Tx Unit := do
  let order ← Tx.get (fun db => db.orders.row payment) "Order"
  markPaid env payment order none

end Orders

end KnowledgeMarketplace
