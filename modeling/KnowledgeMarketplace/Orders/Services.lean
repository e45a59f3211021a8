import KnowledgeMarketplace.Payments.Webhooks

/-!
# Order services

Delivery, revision, approval, cancellation, the jobs of the worker and the one
factory of orders.
-/

namespace KnowledgeMarketplace

namespace Orders

/-- An unreviewed delivery is approved after this many hours. -/
def autoApproveHours : Nat := 72

/-- An unpaid order is cancelled after this many hours. -/
def unpaidCancelHours : Nat := 72

/-- Days by which a revision extends the internal due date. -/
def revisionDueExtensionDays : Nat := 7

/-- The shortest delivery summary. -/
def minDeliverySummary : Nat := 20

/-- Some delivery of the order carries this revision number. -/
def revisionUsed (order : OrderId) (revisionNumber : Nat) (db : Db) : Bool :=
  db.deliveries.any fun _ delivery =>
    delivery.order = order && delivery.revisionNumber = revisionNumber

/-- The delivery of an order with the highest revision number. -/
def latestDelivery (order : OrderId) (db : Db) : Option DeliveryId :=
  (db.deliveries.select fun key delivery =>
    delivery.order = order && !(db.deliveries.any fun other later =>
      later.order = order && other ≠ key &&
        delivery.revisionNumber < later.revisionNumber)).head?

/--
The expert submits work.  `attachments` is the verdict on the uploads, which
are not modelled.
-/
def submitDelivery
    (env : Env) (id : OrderId) (expert : Actor) (summary : String)
    (attachments : Except Error Unit) : Tx DeliveryId := do
  let order ← getForUpdate id
  Tx.require (order.expert = expert.id)
    (.permissionDenied "Only the assigned expert can deliver on this order.")
  Tx.require (order.status = .active ∨ order.status = .revisionRequested)
    (.domainError "This order is not open for delivery." "order_locked")
  Tx.require (minDeliverySummary ≤ (stripped summary).length)
    (.domainError "Add a proper delivery summary." "validation_error")
  Tx.ofExcept attachments
  let revisionNumber :=
    if order.status = .revisionRequested then order.revisionsUsed else 0
  Tx.create (.delivery env.key)
    (fun db => (db.deliveries.row env.key).isSome ||
      revisionUsed id revisionNumber db)
    (.insertDelivery env.key
      { order := id
        revisionNumber
        summary := strip summary
        submittedAt := some env.now }) "Delivery"
  Tx.exec <| .saveOrder id fun stored =>
    { stored with
      deliveredAt := some env.now
      autoApproveAt := some (env.now + hours autoApproveHours)
      deliveryDueAt := none }
  let _ ← transition id .delivered
    (if revisionNumber = 0 then .delivered else .redelivered) (some expert)
  return env.key

/-- The student sends a delivery back, at most `revisionsAllowed` times. -/
def requestRevision
    (env : Env) (id : OrderId) (student : Actor) (note : String) :
    Tx DeliveryId := do
  let order ← getForUpdate id
  Tx.require (order.student = student.id)
    (.permissionDenied "You can only manage your own orders.")
  Tx.require (order.status = .delivered)
    (.domainError "Only a delivered order can be sent back for revision."
      "order_locked")
  Tx.require (order.revisionsUsed < order.revisionsAllowed)
    (.domainError
      "The included revisions are exhausted — approve, or contact support."
      "revisions_exhausted")
  Tx.require (10 ≤ (stripped note).length)
    (.domainError "Describe the requested changes (required)."
      "validation_error")
  let delivery ← Tx.orFail (← Tx.read (latestDelivery id))
    (.domainError "No delivery to revise." "order_locked")
  Tx.exec <| .saveDelivery delivery fun stored =>
    { stored with status := .revisionRequested }
  Tx.exec <| .saveOrder id fun stored =>
    { stored with
      revisionsUsed := order.revisionsUsed + 1
      autoApproveAt := none
      deliveryDueAt := some (env.now + days revisionDueExtensionDays) }
  let _ ← transition id .revisionRequested .revisionRequested (some student)
  recordEvent id .revisionRequested (some student)
  return delivery

/-- Who may approve a delivery. -/
def approvalGuard
    (order : Order) (actor : Option Actor) :
    ApprovalSource → Except Error Unit
  | .student =>
      if actor.any (·.id = order.student) then .ok ()
      else
        .error (.permissionDenied "You can only manage your own orders.")
  | .admin =>
      if actor.any Actor.isStaff then .ok ()
      else .error (.permissionDenied "Only staff can force-approve.")
  | .auto => .ok ()

/-- Approve the delivery: complete order and request, schedule the payout. -/
def approveDelivery
    (env : Env) (id : OrderId) (actor : Option Actor)
    (source : ApprovalSource) : Tx Unit := do
  let order ← getForUpdate id
  Tx.ofExcept (approvalGuard order actor source)
  Tx.require (order.status = .delivered)
    (.domainError "Only a delivered order can be approved." "order_locked")
  let delivery ← Tx.read (latestDelivery id)
  Tx.forEach delivery.toList fun delivery =>
    Tx.exec <| .saveDelivery delivery fun stored =>
      { stored with
        status := .approved
        approvedAt := some env.now
        approvalSource := some source }
  Tx.exec <| .saveOrder id fun stored =>
    { stored with completedAt := some env.now, autoApproveAt := none }
  let completed ← transition id .completed
    (if source = .auto then .autoApproved else .approved) actor
  recordEvent id .completed actor
  moveRequest env completed.request [.inProgress] .completed ""
  let _ ← Payments.schedulePayout env id completed

/-- Cancel an order: participants before payment, staff at any time. -/
def cancel (env : Env) (id : OrderId) (actor : Actor) (reason : String) :
    Tx Unit := do
  let order ← getForUpdate id
  Tx.require
    (order.student = actor.id ∨ order.expert = actor.id ∨ actor.isStaff)
    (.permissionDenied "You are not a party to this order.")
  Tx.require (order.status = .awaitingPayment ∨ actor.isStaff)
    (.permissionDenied
      "Cancellation after payment is handled by support (BR-26..28).")
  Tx.require (reason ≠ "")
    (.domainError "A cancellation reason is required." "validation_error")
  Tx.exec <| .saveOrder id fun stored =>
    { stored with
      cancelledAt := some env.now
      cancelledBy := some actor.id
      cancellationReason := clip 200 reason }
  let cancelled ← transition id .cancelled .cancelled (some actor)
  let _ ← Payments.voidPaymentForOrder env id
  moveRequest env cancelled.request [.matched, .inProgress] .cancelled reason

/-! ## Jobs of the worker -/

/-- A delivered order whose review window is over. -/
def approvalDue (now : Time) (order : Order) : Bool :=
  order.status = .delivered && order.autoApproveAt.any (· ≤ now)

/-- Approve one candidate in its own transaction, if it is still delivered. -/
def autoApproveOne (env : Env) (id : OrderId) : Tx Unit := do
  let order ← getForUpdate id
  if order.status = .delivered ∧ order.autoApproveAt ≠ none then
    approveDelivery env id none .auto

/-- Approve delivered orders whose 72 hours are over; errors skip one order. -/
def autoApproveDue (env : Env) : Call Unit := do
  let due ← Call.load fun db =>
    db.orders.select fun _ order => approvalDue env.now order
  Call.forEach due.zipIdx fun (id, index) =>
    Call.tryCatch
      (Call.atomic (autoApproveOne { env with key := env.key + index } id))
      fun
        | .domain _ => pure ()
        | error => Call.throw error

/-- An order that waits for its payment for more than 72 hours. -/
def unpaid (now : Time) (order : Order) : Bool :=
  order.status = .awaitingPayment &&
    order.createdAt + hours unpaidCancelHours ≤ now

/-- Cancel one unpaid order whose row is locked. -/
def cancelUnpaid (env : Env) (id : OrderId) : Tx Unit := do
  Tx.exec <| .saveOrder id fun stored =>
    { stored with
      cancelledAt := some env.now
      cancellationReason := "Unpaid for 72 hours" }
  let _ ← transition id .cancelled .cancelled none

/-- The sweep of unpaid orders, inside a transaction of its caller. -/
def sweepUnpaid (env : Env) : Tx Nat := do
  let stale ← Tx.selectForUpdate (fun db => db.orders.keys)
    (fun id db => (db.orders.row id).any (unpaid env.now)) .order
  Tx.forEach stale (cancelUnpaid env)
  return stale.length

/-- The sweep as the worker runs it: `select_for_update` in autocommit mode. -/
def awaitingPaymentSweeper : Call Nat :=
  Call.throw .transactionManagement

/-! ## The factory of orders -/

/-- The commission rate of a source, as configured now. -/
def rateForSource (config : PlatformConfig) : OrderSource → CommissionRate
  | .openBid => config.openCommissionRate
  | .managedPool | .managedDirect => config.managedCommissionRate

/--
Every acquisition path converges here; `request` is the caller's copy.  A
missing amount cannot be converted to a decimal.
-/
def createOrderForRequest
    (env : Env) (requestId : RequestId) (request : ServiceRequest)
    (expert : UserId) (amount : Option Int) (currency : String)
    (source : OrderSource) (offerId : Option OfferId) : Tx OrderId := do
  Tx.require (request.student ≠ expert)
    (.domainError "Student and expert cannot be the same account."
      "self_dealing")
  let rate ← Tx.read fun db => rateForSource db.config source
  let amount ← Tx.orFail amount .typeError
  Tx.create (.order env.key) (fun db => (db.orders.row env.key).isSome)
    (.insertOrder env.key
      { request := requestId
        student := request.student
        expert
        source
        offerId
        amount
        currency
        commissionAmount := (commissionSplit amount rate).1
        expertAmount := (commissionSplit amount rate).2
        createdAt := env.now
        acceptedAt := some env.now
        deadline := request.deadline }) "Order"
  recordEvent env.key .created none
  return env.key

end Orders

end KnowledgeMarketplace
