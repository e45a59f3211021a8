import KnowledgeMarketplace.Orders.Services

/-!
# Dispute services

A dispute freezes the payout of its order.  The review services check the
status of the caller's copy of the dispute; `resolve` locks the order row only.
-/

namespace KnowledgeMarketplace

namespace Disputes

/-- The shortest description of a dispute. -/
def minDescription : Nat := 20

/-- The state machine of a dispute: the action of each edge. -/
def transitions : DisputeStatus → DisputeStatus → Option String
  | .opened, .underReview => some "disputes.taken"
  | .opened, .awaitingResponse => some "disputes.awaiting_response"
  | .awaitingResponse, .underReview => some "disputes.resumed"
  | .underReview, .resolved => some "disputes.resolved"
  | .resolved, .closed => some "disputes.closed"
  | _, _ => none

/-- The statuses of an unresolved dispute. -/
def openStatuses : List DisputeStatus :=
  [.opened, .underReview, .awaitingResponse]

/-- Order statuses in which a dispute opens at any time. -/
def disputableStatuses : List OrderStatus :=
  [.active, .delivered, .revisionRequested]

/-- Write the denormalized flag, if it changes; the caller locks the order. -/
def freeze (id : OrderId) (order : Order) (frozen : Bool) : Tx Unit := do
  if order.hasOpenDispute ≠ frozen then
    Tx.exec (.saveOrder id fun stored => { stored with hasOpenDispute := frozen })

/-- The dispute window of a completed order is over. -/
def windowClosed (now : Time) (config : PlatformConfig) (order : Order) :
    Bool :=
  order.completedAt.all fun completedAt =>
    days config.disputeWindowDays < now - completedAt

/-- Whether the order can be disputed now. -/
def disputable (now : Time) (config : PlatformConfig) (order : Order) :
    Except Error Unit :=
  if order.status = .completed then
    if windowClosed now config order then
      .error (.domainError
        "The dispute window closed 7 days after completion (BR-40)."
        "dispute_window_closed")
    else
      .ok ()
  else if order.status ∈ disputableStatuses then
    .ok ()
  else
    .error (.domainError
      ("Disputes open while the order is active, delivered, " ++
        "revision_requested, or within 7 days after completion (BR-40).")
      "dispute_window_closed")

/--
A participant files a dispute and freezes the payout.  `evidence` is the
verdict on the uploads, which are not modelled.
-/
def openDispute
    (env : Env) (id : OrderId) (actor : Actor) (reason : DisputeReason)
    (description : String) (evidence : Except Error Unit) : Tx Unit := do
  let order ← Orders.getForUpdate id
  Tx.require (actor.id = order.student ∨ actor.id = order.expert)
    (.permissionDenied "Only the order's participants can open a dispute.")
  Tx.require (¬(← Tx.read fun db => (db.disputes.row id).isSome))
    (.domainError "This order already has a dispute." "duplicate_dispute")
  let config ← Tx.read Db.config
  Tx.ofExcept (disputable env.now config order)
  Tx.require (minDescription ≤ (stripped description).length)
    (.domainError "Describe the problem in at least 20 characters."
      "validation_error")
  Tx.create (.dispute id) (fun db => (db.disputes.row id).isSome)
    (.insertDispute id
      { openedBy := actor.id
        reason
        description := strip description
        priorOrderStatus := order.status }) "Dispute"
  Tx.ofExcept evidence
  freeze id order true
  let _ ← Orders.transition id .disputed .disputeOpened none

/-- Move the caller's copy of a dispute; the save takes no lock before. -/
def transition
    (id : OrderId) (dispute : Dispute) (toStatus : DisputeStatus)
    (actor : Option Actor) : Tx Unit := do
  Tx.require (actor.any Actor.isStaff)
    (.permissionDenied "Only support can move a dispute through review.")
  Tx.require (transitions dispute.status toStatus).isSome
    (.domainError
      ("Cannot move a dispute from '" ++ dispute.status.value ++ "' to '" ++
        toStatus.value ++ "'.")
      "invalid_transition")
  Tx.exec <| .saveDispute id dispute.status fun stored =>
    { stored with status := toStatus }

/-- Support takes an open case into review. -/
def takeCase (id : OrderId) (dispute : Dispute) (actor : Option Actor) :
    Tx Unit :=
  transition id dispute .underReview actor

/-- Support waits for a party's response. -/
def awaitResponse (id : OrderId) (dispute : Dispute) (actor : Option Actor) :
    Tx Unit :=
  transition id dispute .awaitingResponse actor

/-- Support resumes the review. -/
def resumeReview (id : OrderId) (dispute : Dispute) (actor : Option Actor) :
    Tx Unit :=
  transition id dispute .underReview actor

/-- Outcomes that send money back. -/
def refunds : DisputeOutcome → Bool
  | .refundStudentFull | .refundStudentPartial | .split => true
  | .releaseExpert | .noFaultClose => false

/-- Outcomes after which an unsettled payout is corrected. -/
def adjustsPayout : DisputeOutcome → Bool
  | .refundStudentPartial | .split => true
  | .refundStudentFull | .releaseExpert | .noFaultClose => false

/-- The amount that an outcome refunds. -/
def refundAmount
    (outcome : DisputeOutcome) (payment : Payment)
    (refundAmountMinor : Option Int) : Except Error Int :=
  let refundable := payment.amountMinor - payment.refundedMinor
  if outcome = .refundStudentFull then
    .ok refundable
  else
    let amount := refundAmountMinor.getD 0
    if amount ≤ 0 ∨ refundable ≤ amount then
      .error (.domainError
        ("Refund must be between 1 and " ++ toString (refundable - 1) ++
          " minor units for this outcome.")
        "validation_error")
    else
      .ok amount

/-- Fail the unsettled payout of a fully refunded order. -/
def voidScheduledPayout (id : OrderId) (actor : Option Actor) : Tx Unit := do
  let payout ← Tx.read (Payments.firstPayout id (·.status ≠ .paid))
  Tx.forEach payout.toList fun payout =>
    Payments.markPayoutFailed payout actor
      "Order refunded by dispute resolution"

/-- Refund what the outcome refunds; `payment` is read without a lock. -/
def refundOutcome
    (env : Env) (id : OrderId) (actor : Option Actor)
    (outcome : DisputeOutcome) (payment : Option Payment)
    (refundAmountMinor : Option Int) : Tx Unit := do
  if refunds outcome then
    let payment ← Tx.orFail payment
      (.domainError "No succeeded payment to refund on this order."
        "validation_error")
    let amount ← Tx.ofExcept (refundAmount outcome payment refundAmountMinor)
    Payments.issueRefund env id amount .disputeResolution actor
    if outcome = .refundStudentFull then
      voidScheduledPayout id actor

/-- Correct the unsettled payout to the remaining credit. -/
def adjustPayout (id : OrderId) (outcome : DisputeOutcome) : Tx Unit := do
  if adjustsPayout outcome then
    let payout ← Tx.read (Payments.firstPayout id (·.status ≠ .paid))
    let balance ← Tx.read (Payments.expertCreditBalance id)
    Tx.forEach payout.toList fun payout =>
      Tx.exec <| .savePayout payout fun stored =>
        { stored with amountMinor := balance }

/-- The order status after an outcome. -/
def newStatus (dispute : Dispute) : DisputeOutcome → OrderStatus
  | .refundStudentFull => .cancelled
  | .refundStudentPartial => .completed
  | .releaseExpert => .completed
  | .split => .completed
  | .noFaultClose => dispute.priorOrderStatus

/-- Move the locked order, or only record the event. -/
def moveOrder (id : OrderId) (order : Order) (toStatus : OrderStatus)
    (outcome : DisputeOutcome) : Tx Unit := do
  if toStatus ≠ order.status then
    let _ ← Orders.transition id toStatus .disputeResolved none
      (.nestedOutcome outcome)
  else
    Orders.recordEvent id .disputeResolved none (.outcome outcome)

/--
Execute an outcome with the payment services, unfreeze the order and move it;
`dispute` is the caller's copy.
-/
def resolve
    (env : Env) (id : OrderId) (dispute : Dispute) (actor : Option Actor)
    (outcome : DisputeOutcome) (resolutionNotes : String)
    (refundAmountMinor : Option Int) : Tx Unit := do
  Tx.require (actor.any Actor.isStaff)
    (.permissionDenied "Only support can resolve disputes (BR-41).")
  Tx.require (transitions dispute.status .resolved).isSome
    (.domainError
      ("Cannot resolve a dispute from '" ++ dispute.status.value ++ "'.")
      "invalid_transition")
  Tx.require (20 ≤ (stripped resolutionNotes).length)
    (.domainError "Resolution notes are required (≥20 characters)."
      "validation_error")
  let order ← Orders.getForUpdate id
  let payment ← Tx.read fun db =>
    (db.payments.row id).filter fun payment =>
      payment.status = .succeeded || payment.status = .partiallyRefunded
  refundOutcome env id actor outcome payment refundAmountMinor
  freeze id order false
  adjustPayout id outcome
  moveOrder id order (newStatus dispute outcome) outcome
  Tx.exec <| .saveDispute id dispute.status fun stored =>
    { stored with
      outcome := some outcome
      resolutionNotes := strip resolutionNotes
      resolvedBy := actor.map Actor.id
      resolvedAt := some env.now
      status := .resolved }

/-- Support closes a resolved dispute. -/
def close
    (env : Env) (id : OrderId) (dispute : Dispute) (actor : Option Actor) :
    Tx Unit := do
  Tx.require (actor.any Actor.isStaff)
    (.permissionDenied "Only support can close disputes.")
  Tx.require (transitions dispute.status .closed).isSome
    (.domainError
      ("Cannot close a dispute from '" ++ dispute.status.value ++ "'.")
      "invalid_transition")
  Tx.exec <| .saveDispute id dispute.status fun stored =>
    { stored with status := .closed, closedAt := some env.now }

end Disputes

end KnowledgeMarketplace
