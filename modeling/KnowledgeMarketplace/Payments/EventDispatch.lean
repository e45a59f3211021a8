import KnowledgeMarketplace.Payments.Attempts

/-!
# One event of a waiting payment

A success books the income of an order that waits for its payment, also after
a failure; a failure leaves it waiting.  Once the payment has succeeded, both
change nothing.
-/

namespace KnowledgeMarketplace

open Transaction

namespace Webhooks

/-- A payment of the order that has not succeeded yet. -/
structure Payable (reference : String) (order : Order) (payment : Payment) :
    Prop where
  reference : payment.providerReference = some reference
  gateway : payment.gateway = .manual
  amount : payment.amountMinor = order.amount
  currency : payment.currency = order.currency
  attempt : payment.status ∈ [.pending, .requiresAction, .processing, .failed]

/-- The reference belongs to the payment of this order only. -/
def Names (reference : String) (id : OrderId) (db : Db) : Prop :=
  ∀ other payment, db.payments.row other = some payment →
    payment.providerReference = some reference → other = id

/-- The order waits for its payment, which has not succeeded yet. -/
structure Awaits
    (reference : String) (id : OrderId) (order : Order)
    (request : ServiceRequest) (db : Db) : Prop where
  orderRow : db.orders.row id = some order
  waiting : order.status = .awaitingPayment
  unpaid : order.paidAt = none
  requestRow : db.requests.row order.request = some request
  payment : ∃ payment, db.payments.row id = some payment ∧
    Payable reference order payment
  names : Names reference id db

/-- The payment has succeeded and work on the order has started. -/
structure Settles
    (reference : String) (id : OrderId) (order : Order)
    (request : ServiceRequest) (db : Db) : Prop where
  active : (db.orders.row id).map Order.status = some .active
  working : (db.requests.row order.request).map ServiceRequest.status =
    some (statusAtWork request)
  payment : ∃ payment, db.payments.row id = some payment ∧
    payment.status = .succeeded ∧ payment.providerReference = some reference
  names : Names reference id db

variable {reference : String} {id : OrderId} {order : Order}
  {request : ServiceRequest} {db : Db}

/-- The payment that a reference names is found by it. -/
theorem paymentByReference_eq
    {payment : Payment} (names : Names reference id db)
    (stored : db.payments.row id = some payment)
    (carries : payment.providerReference = some reference) :
    paymentByReference reference db = some (id, payment) := by
  have here : id ∈ db.payments.select fun _ payment =>
      payment.providerReference = some reference :=
    Table.mem_select.mpr ⟨payment, stored, by simpa using carries⟩
  have found : (db.payments.select fun _ payment =>
      payment.providerReference = some reference).head? = some id := by
    cases listed : db.payments.select fun _ payment =>
        payment.providerReference = some reference with
    | nil => simp [listed] at here
    | cons first rest =>
        have member : first ∈ db.payments.select fun _ payment =>
            payment.providerReference = some reference := by simp [listed]
        obtain ⟨other, present, same⟩ := Table.mem_select.mp member
        rw [names first other present (by simpa using same)]
        rfl
  rw [paymentByReference, found]
  simp [stored]

/-- An attempt of a payable payment succeeds. -/
theorem Awaits.succeeds
    {payment : Payment} (awaits : Awaits reference id order request db)
    (stored : db.payments.row id = some payment)
    (payable : Payable reference order payment)
    (truthful : Gateway.confirmPayment reference .manual = .ok true)
    (given : reference ≠ "") :
    Payments.Succeeds id db order payment request := by
  have attempt := payable.attempt
  simp only [List.mem_cons, List.not_mem_nil, or_false] at attempt
  have unsettled : payment.status ≠ .succeeded ∧ payment.status ≠ .canceled ∧
      payment.status ≠ .refunded := by
    rcases attempt with status | status | status | status <;> simp [status]
  refine ⟨⟨awaits.orderRow, awaits.waiting, stored, unsettled.1, unsettled.2,
    ⟨payable.amount, payable.currency⟩, ?_⟩, ?_, awaits.unpaid,
    awaits.requestRow⟩
  · simp [Payments.truthy, payable.reference, given]
  · rw [Payments.answer, payable.reference, payable.gateway]
    exact truthful

/-- The confirmation of a payable payment succeeds and books the income. -/
theorem confirmPaymentAtomic_yields
    (awaits : Awaits reference id order request db)
    (truthful : Gateway.confirmPayment reference .manual = .ok true)
    (given : reference ≠ "") (env : Env) :
    ∃ next, (Payments.confirmPaymentAtomic env id).Yields db () next ∧
      Settles reference id order request next ∧
      next.ledger = db.ledger ++ income reference id order ∧
      next.webhookEvents = db.webhookEvents := by
  obtain ⟨payment, stored, payable⟩ := awaits.payment
  have carried : payment.providerReference.getD "" = reference := by
    simp [payable.reference]
  obtain ⟨next, yields, booked⟩ :=
    (awaits.succeeds stored payable truthful given).yields env
  refine ⟨next, yields, ⟨?_, ?_, ?_, ?_⟩, carried ▸ booked.ledger,
    booked.webhookEvents⟩
  · rw [booked.orderRow]
    rfl
  · rw [booked.requestRow]
    rfl
  · rw [booked.payments]
    exact ⟨_, (Table.row_modify_self ..).trans (congrArg (Option.map _) stored),
      rfl, congrArg some carried⟩
  · intro other found stored carries
    rw [booked.payments] at stored
    by_cases same : other = id
    · exact same
    · rw [Table.row_modify_other _ _ same] at stored
      exact awaits.names other found stored carries

/-- Both states depend on the orders, requests and payments only. -/
theorem Awaits.congr
    {after : Db} (awaits : Awaits reference id order request db)
    (orders : after.orders = db.orders) (requests : after.requests = db.requests)
    (payments : after.payments = db.payments) :
    Awaits reference id order request after where
  orderRow := orders ▸ awaits.orderRow
  waiting := awaits.waiting
  unpaid := awaits.unpaid
  requestRow := requests ▸ awaits.requestRow
  payment := payments ▸ awaits.payment
  names := by
    unfold Names
    rw [payments]
    exact awaits.names

theorem Settles.congr
    {after : Db} (settles : Settles reference id order request db)
    (orders : after.orders = db.orders) (requests : after.requests = db.requests)
    (payments : after.payments = db.payments) :
    Settles reference id order request after where
  active := orders ▸ settles.active
  working := requests ▸ settles.working
  payment := payments ▸ settles.payment
  names := by
    unfold Names
    rw [payments]
    exact settles.names

/-! ## One event -/

/-- A success of a payment that waits is booked. -/
theorem dispatch_succeeded
    {data : EventData} (awaits : Awaits reference id order request db)
    (truthful : Gateway.confirmPayment reference .manual = .ok true)
    (given : reference ≠ "") (about : data.paymentReference = reference)
    (env : Env) :
    ∃ next, (dispatch env .paymentSucceeded data).Yields db none next ∧
      Settles reference id order request next ∧
      next.ledger = db.ledger ++ income reference id order ∧
      next.webhookEvents = db.webhookEvents := by
  obtain ⟨next, confirms, settles⟩ :=
    confirmPaymentAtomic_yields awaits truthful given env
  obtain ⟨payment, stored, payable⟩ := awaits.payment
  have found : paymentByReference data.paymentReference db = some (id, payment) :=
    about ▸ paymentByReference_eq awaits.names stored payable.reference
  have unsettled : payment.status ≠ .succeeded := by
    intro status
    have attempt := payable.attempt
    simp [status] at attempt
  exact ⟨next, .tryCatch (.bind (.bind .read (.bind (.orFail found)
    (.ite_true unsettled (.attempt confirms)))) .pure), settles⟩

/-- A success of a payment that has succeeded changes nothing. -/
theorem dispatch_succeeded_again
    {data : EventData} (settles : Settles reference id order request db)
    (about : data.paymentReference = reference) (env : Env) :
    (dispatch env .paymentSucceeded data).Yields db none db := by
  obtain ⟨payment, stored, succeeded, carries⟩ := settles.payment
  have found : paymentByReference data.paymentReference db = some (id, payment) :=
    about ▸ paymentByReference_eq settles.names stored carries
  exact .tryCatch (.bind (.bind .read (.bind (.orFail found)
    (.ite_false (by simp [succeeded]) .pure))) .pure)

/-- A failure of a payment that waits leaves it waiting. -/
theorem dispatch_failed
    {data : EventData} (awaits : Awaits reference id order request db)
    (about : data.paymentReference = reference) (env : Env) :
    ∃ next, (dispatch env .paymentFailed data).Yields db none next ∧
      Awaits reference id order request next ∧ next.ledger = db.ledger ∧
      next.webhookEvents = db.webhookEvents := by
  obtain ⟨payment, stored, payable⟩ := awaits.payment
  have found : paymentByReference data.paymentReference db = some (id, payment) :=
    about ▸ paymentByReference_eq awaits.names stored payable.reference
  have chosen : (decide (payment.status ≠ .succeeded) &&
      decide (payment.status ≠ .canceled)) = true := by
    have attempt := payable.attempt
    simp only [List.mem_cons, List.not_mem_nil, or_false] at attempt
    rcases attempt with status | status | status | status <;> simp [status]
  have runs : (handlePaymentFailed data).Yields db ()
      ((Stmt.savePayment id (failedByProvider data)).apply db) := by
    refine .bind .read ?_
    simp only [found, Option.filter_some, chosen, if_true]
    exact .forEach_cons .exec .forEach_nil
  refine ⟨(Stmt.savePayment id (failedByProvider data)).apply db,
    .tryCatch (.bind runs .pure), ?_, rfl, rfl⟩
  refine ⟨awaits.orderRow, awaits.waiting, awaits.unpaid, awaits.requestRow,
    ⟨failedByProvider data payment, by simp [Stmt.apply, stored], ?_⟩, ?_⟩
  · exact ⟨payable.reference, payable.gateway, payable.amount,
      payable.currency, by simp [failedByProvider]⟩
  · intro other kept present carries
    by_cases same : other = id
    · exact same
    · exact awaits.names other kept (by
        simpa [Stmt.apply, same] using present) carries

/-- A failure of a payment that has succeeded changes nothing. -/
theorem dispatch_failed_late
    {data : EventData} (settles : Settles reference id order request db)
    (about : data.paymentReference = reference) (env : Env) :
    (dispatch env .paymentFailed data).Yields db none db := by
  obtain ⟨payment, stored, succeeded, carries⟩ := settles.payment
  have found : paymentByReference data.paymentReference db = some (id, payment) :=
    about ▸ paymentByReference_eq settles.names stored carries
  have runs : (handlePaymentFailed data).Yields db () db := by
    refine .bind .read ?_
    simp only [found, Option.filter_some, succeeded]
    exact .forEach_nil
  exact .tryCatch (.bind runs .pure)

end Webhooks

end KnowledgeMarketplace
