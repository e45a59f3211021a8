import KnowledgeMarketplace.Operations.Runs
import KnowledgeMarketplace.Orders.Moves
import KnowledgeMarketplace.Payments.Confirmation
import KnowledgeMarketplace.Transaction.Yields

/-!
# One attempt of a payment

A confirmation asks the gateway about the payment of an order that waits for it.
A success books the income and starts the work; a reported failure raises before
anything is written.
-/

namespace KnowledgeMarketplace

open Transaction

namespace Webhooks

/-- The entries that a confirmation of the order books. -/
def income (reference : String) (id : OrderId) (order : Order) :
    List LedgerEntry :=
  let split :=
    if order.commissionAmount = 0 then
      commissionSplit order.amount order.commissionRate
    else
      (order.commissionAmount, order.expertAmount)
  [{ entryType := .charge
     amountMinor := order.amount
     currency := order.currency
     order := id
     user := some order.student
     providerObjectId := reference },
   { entryType := .commission
     amountMinor := split.1
     currency := order.currency
     order := id },
   { entryType := .expertCredit
     amountMinor := split.2
     currency := order.currency
     order := id
     user := some order.expert }]

/-- The status of the request when work on the order starts. -/
def statusAtWork (request : ServiceRequest) : RequestStatus :=
  if request.status = .matched then .inProgress else request.status

end Webhooks

namespace Payments

open Webhooks

/-- The order when it has been paid. -/
def begun (env : Env) (order : Order) : Order :=
  { order with paidAt := some env.now, status := .active }

/-- The request when the work on its order starts. -/
def atWork (request : ServiceRequest) : ServiceRequest :=
  { request with status := statusAtWork request }

variable {id : OrderId} {order : Order} {request : ServiceRequest} {db : Db}

/-! ## Activation -/

/-- Work starts on a matched request; another one stays as it is. -/
theorem moveRequest_yields
    {key : RequestId} (stored : db.requests.row key = some request) (env : Env) :
    ∃ next, (Orders.moveRequest env key [.matched] .inProgress "").Yields
        db () next ∧
      next.requests.row key = some (atWork request) ∧
      next.orders = db.orders ∧ next.payments = db.payments ∧
      next.ledger = db.ledger ∧ next.webhookEvents = db.webhookEvents := by
  by_cases matched : request.status = .matched
  · have edge : (ServiceRequests.transitions request.status .inProgress).isSome =
        true := by
      rw [matched]
      rfl
    refine ⟨_, .bind (.bind .read (.orFail stored)) <|
      .ite_true (by simpa using matched) <|
      .bind (.bind (.require edge) (.bind .exec .pure)) .pure, ?_⟩
    simp [Stmt.apply, stored, atWork, statusAtWork, matched,
      ServiceRequests.moved]
  · refine ⟨_, .bind (.bind .read (.orFail stored)) <|
      .ite_false (by simpa using matched) .pure, ?_⟩
    simp [stored, atWork, statusAtWork, matched]

/-- What the activation of a paid order leaves. -/
structure Activated
    (env : Env) (id : OrderId) (order : Order) (request : ServiceRequest)
    (db next : Db) : Prop where
  orderRow : next.orders.row id = some (begun env order)
  requestRow : next.requests.row order.request = some (atWork request)
  payments : next.payments = db.payments
  ledger : next.ledger = db.ledger
  webhookEvents : next.webhookEvents = db.webhookEvents

/-- Paying the order starts the work on it. -/
theorem markPaid_yields
    (stored : db.orders.row id = some order)
    (waiting : order.status = .awaitingPayment) (unpaid : order.paidAt = none)
    (present : db.requests.row order.request = some request) (env : Env) :
    ∃ next, (Orders.markPaid env id order none).Yields db () next ∧
      Activated env id order request db next := by
  let paid := (Stmt.saveOrder id fun stored =>
    { stored with paidAt := some env.now }).apply db
  let event : OrderEvent := { order := id, eventType := .paymentConfirmed }
  let active := applyAll [.saveOrder id fun stored => { stored with status := .active },
    .recordEvent event, .recordEvent event] paid
  have row : paid.orders.row id = some { order with paidAt := some env.now } := by
    simp [paid, Stmt.apply, stored]
  have edge : (Orders.transitions order.status .active).isSome = true := by
    rw [waiting]
    rfl
  have moved : (Orders.transition id .active .paymentConfirmed none).Yields paid
      _ _ := Orders.transition_yields row edge
  have kept : active.requests.row order.request = some request := present
  obtain ⟨next, follows, working, orders, payments, ledger, webhooks⟩ :=
    moveRequest_yields kept env
  refine ⟨next, .bind (.require rfl) <| .bind (.require unpaid) <| .bind .exec <|
    .bind moved <| .bind .exec follows, ?_, working, ?_, ?_, ?_⟩
  · rw [orders]
    simp [active, paid, Stmt.apply, stored, begun]
  · simp [payments, active, paid, Stmt.apply]
  · simp [ledger, active, paid, Stmt.apply]
  · simp [webhooks, active, paid, Stmt.apply]

/-- What the gateway is asked about. -/
structure Asked (id : OrderId) (db : Db) (order : Order) (payment : Payment) :
    Prop where
  orderRow : db.orders.row id = some order
  waiting : order.status = .awaitingPayment
  paymentRow : db.payments.row id = some payment
  unconfirmed : payment.status ≠ .succeeded
  attempt : payment.status ≠ .canceled ∧ payment.status ≠ .refunded
  matched : payment.amountMinor = order.amount ∧
    payment.currency = order.currency
  named : truthy payment.providerReference = true

/-- What the gateway answers about a payment. -/
def answer (payment : Payment) : Except Error Bool :=
  Gateway.confirmPayment (payment.providerReference.getD "") payment.gateway

/-- What is recorded when the gateway reports a failure. -/
def failureReported : String := "Provider reported failure (simulated)"

/-- Only the manual gateway reports failures. -/
theorem manual_of_answer
    {payment : Payment} (reported : answer payment = .ok false) :
    payment.gateway = .manual := by
  cases gateway : payment.gateway with
  | manual => rfl
  | stripe => simp [answer, gateway, Gateway.confirmPayment] at reported

/-- Everything is in place for the success of an attempt. -/
structure Succeeds
    (id : OrderId) (db : Db) (order : Order) (payment : Payment)
    (request : ServiceRequest) : Prop where
  asked : Asked id db order payment
  answered : answer payment = .ok true
  unpaid : order.paidAt = none
  requestRow : db.requests.row order.request = some request

/-- What a successful confirmation leaves. -/
structure Booked
    (env : Env) (id : OrderId) (order : Order) (payment : Payment)
    (request : ServiceRequest) (db next : Db) : Prop where
  orderRow : next.orders.row id = some (begun env order)
  requestRow : next.requests.row order.request = some (atWork request)
  payments : next.payments = db.payments.modify id fun stored =>
    { stored with
      status := .succeeded
      paidAt := some env.now
      providerReference := some (payment.providerReference.getD "") }
  ledger : next.ledger = db.ledger ++
    income (payment.providerReference.getD "") id order
  webhookEvents : next.webhookEvents = db.webhookEvents

/-- An attempt that succeeds books the income and starts the work. -/
theorem Succeeds.yields
    {payment : Payment} (succeeds : Succeeds id db order payment request)
    (env : Env) :
    ∃ next, (confirmPaymentAtomic env id).Yields db () next ∧
      Booked env id order payment request db next := by
  obtain ⟨asked, answered, unpaid, requestRow⟩ := succeeds
  let charged := applyAll ((booking env id order payment).take 4) db
  have present : charged.orders.row id = some order := asked.orderRow
  have kept : charged.requests.row order.request = some request := requestRow
  obtain ⟨next, paid, activated⟩ :=
    markPaid_yields present asked.waiting unpaid kept env
  refine ⟨next, ?_, activated.orderRow, activated.requestRow, ?_, ?_, ?_⟩
  rotate_left
  · simp [activated.payments, charged, booking, Stmt.apply]
  · simp [activated.ledger, charged, booking, Stmt.apply, income, bookedSplit,
      asked.matched]
  · simp [activated.webhookEvents, charged, booking, Stmt.apply]
  exact .bind (.bind .read (.orFail asked.paymentRow)) <|
    .bind (.bind .lockRow (.bind .read (.orFail asked.orderRow))) <|
    .bind (.bind .lockRow (.bind .read (.orFail asked.paymentRow))) <|
    .bind (.require asked.unconfirmed) <| .bind (.require asked.attempt) <|
    .bind (.require asked.waiting) <| .bind (.require asked.matched) <|
    .bind (.require asked.named) <| .bind (.ofExcept answered) <|
    .bind (.require rfl) <| .bind .exec <| .bind .exec <| .bind .exec <|
    .bind .exec <| .bind (.bind .read (.orFail present)) paid

/-- An attempt that fails raises before anything is written. -/
theorem Asked.declined
    {payment : Payment} {goal : Except Error Unit → Db → Prop}
    (asked : Asked id db order payment) (refused : answer payment = .ok false)
    (raised : goal (.error (.attemptFailed failureReported)) db) (env : Env) :
    (confirmPaymentAtomic env id).Post db goal := by
  have manual := manual_of_answer refused
  unfold answer at refused
  have raises : (confirmPaymentAtomic env id).Post db fun result next =>
      result = .error (.attemptFailed failureReported) ∧ next = db := by
    simp [confirmPaymentAtomic, getForUpdate, Orders.getForUpdate,
      Tx.getForUpdate, Tx.get, asked.orderRow, asked.paymentRow,
      asked.unconfirmed, asked.attempt, asked.waiting, asked.matched,
      asked.named, manual, failureReported, manual ▸ refused]
  refine raises.mono ?_
  rintro result next ⟨rfl, rfl⟩
  exact raised

end Payments

end KnowledgeMarketplace
