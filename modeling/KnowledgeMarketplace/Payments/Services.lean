import KnowledgeMarketplace.Orders.Lifecycle
import KnowledgeMarketplace.Payments.Gateway

/-!
# Payment services

Payments, refunds, payouts and the ledger.  A payment is confirmed under the
locks of its order and of its own row; the ledger is only appended to.
-/

namespace KnowledgeMarketplace

namespace Payments

/-- The default floor of offers and quotes. -/
def minOfferMinor : Int := 500

/-- A text that is neither null nor empty. -/
def truthy (text : Option String) : Bool :=
  text.any (· ≠ "")

/-- Some payment carries a provider reference, which is unique. -/
def referenceUsed (reference : String) (db : Db) : Bool :=
  db.payments.any fun _ payment => payment.providerReference = some reference

/-- The reference of a new attempt. -/
def newReference (env : Env) (gateway : GatewayName) : String :=
  gateway.value ++ "-pay-" ++ env.hex

/-- Lock and read a payment row. -/
def getForUpdate (order : OrderId) : Tx Payment :=
  Tx.getForUpdate (.payment order) (fun db => db.payments.row order) "Payment"

/-- Append one ledger entry. -/
def ledger (entry : LedgerEntry) : Tx Unit :=
  Tx.exec (.appendLedger entry)

/-! ## Create and confirm -/

/-- Insert the order's payment row, with the amount of the booked order. -/
def createPaymentRow
    (env : Env) (id : OrderId) (order : Order) (gateway : GatewayName) :
    Tx Payment := do
  Tx.ofExcept (Gateway.createPayment gateway)
  let payment : Payment :=
    { gateway
      providerReference := some (newReference env gateway)
      amountMinor := order.amount
      currency := order.currency }
  Tx.create (.payment id)
    (fun db =>
      (db.payments.row id).isSome || referenceUsed (newReference env gateway) db)
    (.insertPayment id payment) "Payment"
  return payment

/-- The columns that (re)arming a failed or canceled attempt writes. -/
def rearm (env : Env) (order : Order) (payment : Payment) : Payment :=
  { payment with
    gateway := env.paymentGateway
    status := .pending
    amountMinor := order.amount
    currency := order.currency
    failureReason := ""
    canceledAt := none
    providerReference := some (newReference env env.paymentGateway) }

/--
Create, return or re-arm the order's payment; `order` is the caller's copy and
the payment row is read without a lock.
-/
def startPayment
    (env : Env) (id : OrderId) (order : Order) (actor : Actor) :
    Tx Payment := do
  Tx.require (order.student = actor.id)
    (.permissionDenied "You can only pay for your own orders.")
  Tx.require (order.status = .awaitingPayment)
    (.domainError "Only an order awaiting payment can be paid."
      "invalid_transition")
  let payment ← Tx.orElse (← Tx.read fun db => db.payments.row id)
    (createPaymentRow env id order env.paymentGateway)
  Tx.require (payment.status ≠ .succeeded)
    (.domainError "This order is already paid." "duplicate_payment")
  if payment.status = .pending ∧ truthy payment.providerReference then
    return payment
  else
    Tx.require
      (¬(← Tx.read (referenceUsed (newReference env env.paymentGateway))))
      (.integrity "Payment")
    Tx.exec (.savePayment id (rearm env order))
    return rearm env order payment

/-- The split that is booked: the order's snapshot, or a recomputed one. -/
def bookedSplit (order : Order) (payment : Payment) : Int × Int :=
  if order.commissionAmount = 0 then
    commissionSplit payment.amountMinor order.commissionRate
  else
    (order.commissionAmount, order.expertAmount)

/-- The confirmation of a payment, in one transaction. -/
def confirmPaymentAtomic (env : Env) (id : OrderId) : Tx Unit := do
  let _ ← Tx.get (fun db => db.payments.row id) "Payment"
  let order ← Orders.getForUpdate id
  let payment ← getForUpdate id
  Tx.require (payment.status ≠ .succeeded)
    (.domainError "This payment is already confirmed." "duplicate_payment")
  Tx.require (payment.status ≠ .canceled ∧ payment.status ≠ .refunded)
    (.domainError "This payment was canceled or refunded."
      "invalid_transition")
  Tx.require (order.status = .awaitingPayment)
    (.domainError "Only an order awaiting payment can be confirmed."
      "invalid_transition")
  Tx.require
    (payment.amountMinor = order.amount ∧ payment.currency = order.currency)
    (.domainError "Payment amount does not match the booked order."
      "amount_mismatch")
  Tx.require (truthy payment.providerReference)
    (.domainError "Payment has no provider reference." "validation_error")
  let reference := payment.providerReference.getD ""
  let succeeded ←
    Tx.ofExcept (Gateway.confirmPayment reference payment.gateway)
  Tx.require succeeded
    (.attemptFailed
      (if payment.gateway = .manual then
        "Provider reported failure (simulated)"
      else
        "Provider reported failure"))
  Tx.exec (.updatePayment id fun stored =>
    { stored with
      status := .succeeded
      paidAt := some env.now
      providerReference := some reference })
  let split := bookedSplit order payment
  ledger
    { entryType := .charge
      amountMinor := payment.amountMinor
      currency := payment.currency
      order := id
      user := some order.student
      providerObjectId := reference }
  ledger
    { entryType := .commission
      amountMinor := split.1
      currency := payment.currency
      order := id }
  ledger
    { entryType := .expertCredit
      amountMinor := split.2
      currency := payment.currency
      order := id
      user := some order.expert }
  Orders.activateOrderOnPayment env id

/-- A payment attempt that is still open. -/
def attemptOpen (payment : Payment) : Bool :=
  payment.status = .pending || payment.status = .requiresAction ||
    payment.status = .processing

/-- Record a failed attempt, if the attempt is still open. -/
def markPaymentFailed (id : OrderId) (reason : String) : Tx Unit := do
  let _ ← Tx.updateWhere (fun _ => [id])
    (fun id db => (db.payments.row id).any attemptOpen)
    .payment
    (fun id => .updatePayment id fun stored =>
      { stored with status := .failed, failureReason := clip 255 reason })

/-- What the caller of a failed confirmation sees. -/
def attemptFailedError : Error :=
  .paymentFailed
    "The payment attempt failed — you can retry from the order page."

/-- The one confirmation path, outside a transaction. -/
def confirmPayment (env : Env) (id : OrderId) : Call Unit :=
  Call.tryCatch (Call.atomic (confirmPaymentAtomic env id)) fun
    | .attemptFailed reason => do
        Call.atomic (markPaymentFailed id reason)
        Call.throw attemptFailedError
    | error => Call.throw error

/-- The one confirmation path, inside the transaction of a webhook. -/
def confirmPaymentNested (env : Env) (id : OrderId) : Tx Unit :=
  Tx.attempt (confirmPaymentAtomic env id) fun
    | .attemptFailed reason => do
        markPaymentFailed id reason
        Tx.throw attemptFailedError
    | error => Tx.throw error

/-- Operator flow: ensure a payment row exists, then confirm it. -/
def confirmOrderPayment (env : Env) (id : OrderId) (order : Order) :
    Call Unit := do
  Call.require (env.paymentGateway = .manual)
    (.domainError
      ("Operator confirmation is only available on manual rails; " ++
        "provider payments confirm via webhooks.")
      "feature_disabled")
  let payment ← Call.load fun db => db.payments.row id
  Call.require (payment.all fun payment => payment.status ≠ .succeeded)
    (.domainError "This payment is already confirmed." "duplicate_payment")
  if payment = none then
    let _ ← Call.atomic (createPaymentRow env id order env.paymentGateway)
  confirmPayment env id

/-- The development endpoint by which a student confirms the own payment. -/
def devConfirm
    (env : Env) (id : OrderId) (order : Order) (actor : Actor) :
    Call Unit := do
  Call.require env.devSelfConfirm
    (.permissionDenied
      "Payment self-confirmation is disabled on this environment.")
  let payment ← Call.load fun db => db.payments.row id
  if payment = none then
    let _ ← Call.atomic (startPayment env id order actor)
  confirmPayment env id

/-- Order cancellation closes any open payment attempt. -/
def voidPaymentForOrder (env : Env) (id : OrderId) : Tx Nat :=
  Tx.updateWhere (fun _ => [id])
    (fun id db => (db.payments.row id).any attemptOpen)
    .payment
    (fun id => .updatePayment id fun stored =>
      { stored with status := .canceled, canceledAt := some env.now })

/-! ## Refunds -/

/-- The two parts of a refund: the commission's and the expert's. -/
def reversal (amountMinor : Int) (order : Order) :
    Except Error (Int × Int) :=
  match allocate amountMinor
      [max order.commissionAmount 0, max order.expertAmount 0] with
  | .ok [commission, credit] => .ok (commission, credit)
  | .ok _ => .error (.valueError "not enough values to unpack")
  | .error message => .error (.valueError message)

/-- The payment after a refund of an amount. -/
def refunded (amountMinor : Int) (payment : Payment) : Payment :=
  let refundedMinor := payment.refundedMinor + amountMinor
  { payment with
    refundedMinor
    status :=
      if payment.amountMinor ≤ refundedMinor then .refunded
      else .partiallyRefunded }

/-- Refund a part of a payment, with proportional reversals in the ledger. -/
def issueRefund
    (env : Env) (id : OrderId) (amountMinor : Int) (reason : RefundReason)
    (initiatedBy : Option Actor) : Tx Unit := do
  Tx.require (initiatedBy.any Actor.isStaff)
    (.permissionDenied "Only support can issue refunds (BR-26..28).")
  let payment ← getForUpdate id
  Tx.require
    (payment.status = .succeeded ∨ payment.status = .partiallyRefunded)
    (.domainError "Only a succeeded payment can be refunded."
      "invalid_transition")
  let refundable := payment.amountMinor - payment.refundedMinor
  Tx.require (0 < amountMinor ∧ amountMinor ≤ refundable)
    (.domainError
      ("Refund must be between 1 and " ++ toString refundable ++
        " minor units.")
      "validation_error")
  let order ← Tx.get (fun db => db.orders.row id) "Order"
  let parts ← Tx.ofExcept (reversal amountMinor order)
  let reference ← Tx.ofExcept (Gateway.refund env payment.gateway)
  Tx.create (.refund env.key) (fun db => (db.refunds.row env.key).isSome)
    (.insertRefund env.key
      { payment := id
        amountMinor
        currency := payment.currency
        reason
        status := .succeeded
        providerReference := reference
        initiatedBy := initiatedBy.map Actor.id
        processedAt := some env.now }) "Refund"
  ledger
    { entryType := .refund
      amountMinor := -amountMinor
      currency := payment.currency
      order := id
      user := some order.student
      providerObjectId := reference }
  if parts.2 ≠ 0 then
    ledger
      { entryType := .expertCredit
        amountMinor := -parts.2
        currency := payment.currency
        order := id
        user := some order.expert }
  if parts.1 ≠ 0 then
    ledger
      { entryType := .commission
        amountMinor := -parts.1
        currency := payment.currency
        order := id }
  let after := refunded amountMinor payment
  Tx.exec (.updatePayment id fun stored =>
    { stored with
      refundedMinor := after.refundedMinor
      status := after.status })

/-! ## Payouts -/

/-- The sum of an order's ledger entries of one type. -/
def total (entries : List LedgerEntry) (order : OrderId)
    (entryType : EntryType) : Int :=
  ((entries.filter fun entry =>
    entry.order = order && entry.entryType = entryType).map
      LedgerEntry.amountMinor).sum

/-- What the expert has been credited for an order. -/
def expertCreditBalance (order : OrderId) (db : Db) : Int :=
  total db.ledger order .expertCredit

/-- Credit that has not been paid out; payout entries are negative. -/
def remainingPayable (order : OrderId) (db : Db) : Int :=
  expertCreditBalance order db + total db.ledger order .payout

/-- The payout of an order with the lowest key that satisfies a predicate. -/
def firstPayout
    (order : OrderId) (holds : Payout → Bool) (db : Db) : Option PayoutId :=
  (db.payouts.select fun _ payout =>
    payout.order = order && holds payout).min?

/--
Create the payout of a completed order from its credit balance; `order` is the
caller's copy.  Returns the payout, or none when it rolls forward.
-/
def schedulePayout (env : Env) (id : OrderId) (order : Order) :
    Tx (Option PayoutId) := do
  Tx.require (order.status = .completed)
    (.domainError "Payouts schedule for completed orders only (BR-30)."
      "invalid_transition")
  let existing ← Tx.read (firstPayout id fun _ => true)
  if existing ≠ none then
    return existing
  else if order.hasOpenDispute then
    return none
  else
    let amount ← Tx.read (expertCreditBalance id)
    let floor ← Tx.read fun db => db.config.payoutMinMinor
    if amount < floor then
      return none
    else
      Tx.create (.payout env.key) (fun db => (db.payouts.row env.key).isSome)
        (.insertPayout env.key
          { order := id
            expert := order.expert
            amountMinor := amount
            currency := order.currency }) "Payout"
      return some env.key

/-- Lock and read a payout row. -/
def getPayoutForUpdate (id : PayoutId) : Tx Payout :=
  Tx.getForUpdate (.payout id) (fun db => db.payouts.row id) "Payout"

/-- Staff settle a payout, unless a dispute freezes its order. -/
def settlePayout (env : Env) (id : PayoutId) (actor : Option Actor) :
    Tx Unit := do
  Tx.require (actor.any Actor.isStaff)
    (.permissionDenied "Only staff can settle payouts.")
  let payout ← getPayoutForUpdate id
  Tx.require (payout.status ≠ .paid)
    (.domainError "This payout is already settled." "duplicate_payout")
  Tx.require
    (payout.status = .scheduled ∨ payout.status = .failed ∨
      payout.status = .inTransit)
    (.domainError "Payout is not settleable." "invalid_transition")
  let order ← Orders.getForUpdate payout.order
  Tx.require (¬order.hasOpenDispute)
    (.domainError "This payout is frozen by an open dispute (BR-40)."
      "payout_frozen")
  let reference ← Tx.ofExcept (Gateway.transfer env env.paymentGateway)
  Tx.exec (.savePayout id fun stored =>
    { stored with
      status := .paid
      providerReference := reference
      failureReason := ""
      settledAt := some env.now })
  ledger
    { entryType := .payout
      amountMinor := -payout.amountMinor
      currency := payout.currency
      order := payout.order
      user := some payout.expert
      providerObjectId := reference }

/-- Staff mark an unpaid payout as failed. -/
def markPayoutFailed
    (id : PayoutId) (actor : Option Actor) (reason : String) : Tx Unit := do
  Tx.require (actor.any Actor.isStaff)
    (.permissionDenied "Only staff can fail payouts.")
  let payout ← getPayoutForUpdate id
  Tx.require (payout.status ≠ .paid)
    (.domainError "A paid payout cannot be marked failed."
      "invalid_transition")
  Tx.exec (.savePayout id fun stored =>
    { stored with
      status := .failed
      failureReason := clip 255 reason })

/-- Orders that the hourly job schedules payouts for. -/
def payoutDue (db : Db) (id : OrderId) (order : Order) : Bool :=
  order.status = .completed && !order.hasOpenDispute &&
    ((db.payments.row id).any fun payment => payment.status = .succeeded) &&
    !(db.payouts.any fun _ payout => payout.order = id)

/-- Hourly job: schedule payouts of completed, dispute-free, paid orders. -/
def payoutSweeper (env : Env) : Call Unit := do
  let due ← Call.load fun db =>
    (db.orders.select (payoutDue db)).filterMap fun id =>
      (db.orders.row id).map fun order => (id, order)
  Call.forEach due.zipIdx fun ((id, order), index) => do
    let _ ← Call.atomic
      (schedulePayout { env with key := env.key + index } id order)

/-! ## The ledger identity -/

/-- What came in for an order: `charge + refund`. -/
def chargePlusRefund (entries : List LedgerEntry) (order : OrderId) : Int :=
  total entries order .charge + total entries order .refund

/-- Where it went: `commission + expert_credit + fee`. -/
def allocations (entries : List LedgerEntry) (order : OrderId) : Int :=
  total entries order .commission + total entries order .expertCredit +
    total entries order .fee

/-- An order whose two sides differ, with both sides. -/
structure Violation where
  orderId : OrderId
  chargePlusRefund : Int
  allocations : Int
  deriving DecidableEq

/-- The nightly check: how many orders were checked, and the violations. -/
def ledgerCheck (db : Db) : Nat × List Violation :=
  let orderIds := (db.ledger.map LedgerEntry.order).dedup
  (orderIds.length,
    orderIds.filterMap fun order =>
      let lhs := chargePlusRefund db.ledger order
      let rhs := allocations db.ledger order
      if lhs = rhs then none else some ⟨order, lhs, rhs⟩)

end Payments

end KnowledgeMarketplace
