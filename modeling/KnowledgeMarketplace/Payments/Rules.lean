import KnowledgeMarketplace.Payments.Webhooks

/-!
# What payment services write

One theorem for each service with many paths: the kinds of statements that any
of its paths can execute.
-/

namespace KnowledgeMarketplace

open Transaction

variable {good : Effect Stmt → Prop}

/-- What moving the order's request writes. -/
theorem Orders.moveRequest_emits
    {env : Env} {id : RequestId} {fromStatuses : List RequestStatus}
    {toStatus : RequestStatus} {reason : String}
    (request : ∀ key copy,
      (ServiceRequests.transition env key copy toStatus reason).Emits good
        fun _ => True) :
    (Orders.moveRequest env id fromStatuses toStatus reason).Emits good
      fun _ => True := by
  refine .seq (by simp [Tx.get]) fun row => ?_
  simp only [Prog.emits_ite, Prog.emits_pure, implies_true, and_true]
  exact fun _ => .seq (request _ _) (by simp)

namespace Payments

/-- The number of ledger entries of one type for an order. -/
def booked (entryType : EntryType) (order : OrderId) (db : Db) : Nat :=
  db.ledger.countP fun entry =>
    entry.order = order && entry.entryType = entryType

/-- The sum of the entries of a longer ledger. -/
theorem total_append
    (first second : List LedgerEntry) (order : OrderId)
    (entryType : EntryType) :
    total (first ++ second) order entryType =
      total first order entryType + total second order entryType := by
  simp [total]

/-- What a confirmation writes. -/
theorem confirmPaymentAtomic_emits
    {env : Env} {id : OrderId}
    (payment : ∀ reference, good (.write (.updatePayment id fun stored =>
      { stored with
        status := .succeeded
        paidAt := some env.now
        providerReference := some reference })))
    (ledgers : ∀ entry,
      entry.entryType ∈ [.charge, .commission, .expertCredit] →
        good (.write (.appendLedger entry)))
    (paid : good (.write (.saveOrder id fun stored =>
      { stored with paidAt := some env.now })))
    (moved : good (.write (.saveOrder id fun stored =>
      { stored with status := .active })))
    (event : ∀ value, value.eventType = .paymentConfirmed →
      good (.write (.recordEvent value)))
    (request : ∀ key copy,
      (ServiceRequests.transition env key copy .inProgress "").Emits good
        fun _ => True) :
    (confirmPaymentAtomic env id).Emits good fun _ => True := by
  have markPaid : ∀ order,
      (Orders.markPaid env id order none).Emits good fun _ => True := by
    intro order
    unfold Orders.markPaid
    refine .seq (by simp) fun _ => .seq (by simp) fun _ => ?_
    refine .seq (by simpa using paid) fun _ => .seq ?_ fun _ => ?_
    · simp [Orders.transition, Orders.getForUpdate, Orders.recordEvent,
        Tx.getForUpdate, Tx.get, moved, event]
    refine .seq (by simp [Orders.recordEvent, event]) fun _ => ?_
    exact Orders.moveRequest_emits request
  simp only [confirmPaymentAtomic, getForUpdate, Orders.getForUpdate, ledger,
    Orders.activateOrderOnPayment, Tx.getForUpdate, Tx.get, Prog.emits_bind,
    Prog.emits_read, Prog.emits_orFail, Prog.emits_lockRow,
    Prog.emits_require, Prog.emits_ofExcept, Prog.emits_exec, implies_true,
    and_true]
  intros
  exact ⟨payment _, ledgers _ (by simp), ledgers _ (by simp),
    ledgers _ (by simp), fun _ _ _ => markPaid _⟩

/-- What a refund writes. -/
theorem issueRefund_emits
    {env : Env} {id : OrderId} {amountMinor : Int} {reason : RefundReason}
    {initiatedBy : Option Actor}
    (refund : ∀ value, good (.write (.insertRefund env.key value)))
    (ledgers : ∀ entry,
      entry.entryType ∈ [.refund, .commission, .expertCredit] →
        good (.write (.appendLedger entry)))
    (payment : ∀ payment, good (.write (.updatePayment id fun stored =>
      { stored with
        refundedMinor := (refunded amountMinor payment).refundedMinor
        status := (refunded amountMinor payment).status }))) :
    (issueRefund env id amountMinor reason initiatedBy).Emits good
      fun _ => True := by
  simp [issueRefund, getForUpdate, ledger, Tx.getForUpdate, Tx.get, Tx.create,
    refund, ledgers, payment]

/-- The statements of a refund. -/
def refunding
    (env : Env) (id : OrderId) (amountMinor : Int) (reason : RefundReason)
    (initiatedBy : Option Actor) (payment : Payment) (order : Order)
    (reference : String) (parts : Int × Int) : List Stmt :=
  [.insertRefund env.key
      { payment := id
        amountMinor
        currency := payment.currency
        reason
        status := .succeeded
        providerReference := reference
        initiatedBy := initiatedBy.map Actor.id
        processedAt := some env.now },
    .appendLedger
      { entryType := .refund
        amountMinor := -amountMinor
        currency := payment.currency
        order := id
        user := some order.student
        providerObjectId := reference }] ++
  (if parts.2 ≠ 0 then
    [.appendLedger
      { entryType := .expertCredit
        amountMinor := -parts.2
        currency := payment.currency
        order := id
        user := some order.expert }]
  else
    []) ++
  (if parts.1 ≠ 0 then
    [.appendLedger
      { entryType := .commission
        amountMinor := -parts.1
        currency := payment.currency
        order := id }]
  else
    []) ++
  [.updatePayment id fun stored =>
    { stored with
      refundedMinor := (refunded amountMinor payment).refundedMinor
      status := (refunded amountMinor payment).status }]

/-- A refund writes its row, the ledger and the payment. -/
theorem refunding_tables
    {env : Env} {id : OrderId} {amountMinor : Int} {reason : RefundReason}
    {initiatedBy : Option Actor} {payment : Payment} {order : Order}
    {reference : String} {parts : Int × Int} :
    ∀ stmt ∈ refunding env id amountMinor reason initiatedBy payment order
        reference parts,
      stmt.table = .refunds ∨ stmt.table = .ledger ∨
        stmt.table = .payments := by
  unfold refunding
  split_ifs <;> simp [Stmt.table]

/-- What a refund has checked, and knows until it commits. -/
structure Refunding
    (protocol : Protocol Db Row Stmt) (base later : Ctx Db Row Stmt)
    (env : Env) (id : OrderId) (amountMinor : Int) (payment : Payment)
    (order : Order) (parts : Int × Int) : Prop where
  known : ∀ state, later.known state → base.known state
  paymentRow : ∀ state, later.known state →
    ∃ seen, protocol.Same (.payment id) seen state ∧
      (applyAll base.writes seen).payments.row id = some payment
  orderSeen : ∃ seen, protocol.Inv seen ∧
    (applyAll base.writes seen).orders.row id = some order
  unused : ∀ state, later.known state →
    ∃ seen, protocol.Same (.refund env.key) seen state ∧
      (applyAll base.writes seen).refunds.row env.key = none
  positive : 0 < amountMinor
  capped : amountMinor ≤ payment.amountMinor - payment.refundedMinor
  split : reversal amountMinor order = .ok parts

/-- A refund inside a larger block that has written nothing before it. -/
theorem Refunding.widen
    {protocol : Protocol Db Row Stmt} {base middle later last : Ctx Db Row Stmt}
    {env : Env} {id : OrderId} {amountMinor : Int} {payment : Payment}
    {order : Order} {parts : Int × Int}
    (refunding : Refunding protocol middle later env id amountMinor payment
      order parts)
    (writes : middle.writes = base.writes)
    (before : ∀ state, middle.known state → base.known state)
    (after : ∀ state, last.known state → later.known state) :
    Refunding protocol base last env id amountMinor payment order parts where
  known state holds := before state (refunding.known state (after state holds))
  paymentRow state holds :=
    writes ▸ refunding.paymentRow state (after state holds)
  orderSeen := writes ▸ refunding.orderSeen
  unused state holds := writes ▸ refunding.unused state (after state holds)
  positive := refunding.positive
  capped := refunding.capped
  split := refunding.split

/-- A refund executes exactly its statements, or fails. -/
theorem issueRefund_wp
    {protocol : Protocol Db Row Stmt} {ctx : Ctx Db Row Stmt}
    {env : Env} {id : OrderId} {amountMinor : Int} {reason : RefundReason}
    {initiatedBy : Option Actor}
    {goal : Except Error Unit → Ctx Db Row Stmt → Prop}
    (errors : ∀ error later, goal (.error error) later)
    (success : ∀ payment order reference parts later,
      Refunding protocol ctx later env id amountMinor payment order parts →
      later.writes = ctx.writes ++ refunding env id amountMinor reason
        initiatedBy payment order reference parts →
      goal (.ok ()) later) :
    (issueRefund env id amountMinor reason initiatedBy).wp protocol ctx
      goal := by
  simp only [issueRefund, getForUpdate, ledger, Tx.getForUpdate, Tx.get,
    Tx.create, Prog.wp_bind, Prog.wp_read, Prog.wp_require, Prog.wp_lockRow,
    Prog.wp_orFail, Prog.wp_ofExcept, Prog.wp_exec, Prog.wp_ite, errors,
    implies_true, and_true]
  intro _ first _ _ payment found _ bounds second inv _ order stored parts split
    reference _ third _ _ unused
  refine ⟨fun credit => ⟨fun commission => ?_, fun commission => ?_⟩,
    fun credit => ⟨fun commission => ?_, fun commission => ?_⟩⟩ <;>
    refine success payment order reference parts _
      { known := fun state known => ?_
        paymentRow := fun state known => ⟨first, ?_, found⟩
        orderSeen := ⟨second, inv, by simpa using stored⟩
        unused := fun state known => ⟨third, ?_, by simpa using unused⟩
        positive := bounds.1
        capped := bounds.2
        split }
      (by simp [refunding, credit, commission])
  all_goals
    simp only [Ctx.push_known, Ctx.observe_known, Ctx.take_known] at known
    first
      | exact known.1.1.1
      | exact known.1.1.2 _ (by simp)
      | exact known.2 _ (by simp)

end Payments

namespace Webhooks

/-- What dispatching an event writes. -/
theorem dispatch_emits
    {env : Env} {eventType : EventType} {data : EventData}
    (savepoint : good .savepoint)
    (confirmed : ∀ id,
      (Payments.confirmPaymentAtomic env id).Emits good fun _ => True)
    (attempt : ∀ id reason, good (.write (.updatePayment id fun stored =>
      { stored with status := .failed, failureReason := reason })))
    (failed : ∀ id, good (.write (.savePayment id (failedByProvider data))))
    (refund : ∀ id, good (.write (.saveRefund id fun stored =>
      { stored with status := .succeeded, processedAt := some env.now }))) :
    (dispatch env eventType data).Emits good fun _ => True := by
  have nested : ∀ id,
      (Payments.confirmPaymentNested env id).Emits good fun _ => True := by
    intro id
    unfold Payments.confirmPaymentNested
    refine Prog.emits_attempt savepoint ((confirmed id).mono ?_)
    rintro (error | value) _
    · cases error <;> simp [Payments.markPaymentFailed, attempt]
    · trivial
  have handled : ∀ handler, handlers env data eventType = some handler →
      handler.Emits good fun _ => True := by
    intro handler registered
    cases eventType with
    | other name => simp [handlers] at registered
    | paymentSucceeded =>
        obtain rfl := Option.some.inj registered
        refine .seq (by simp) fun found => .seq (by simp) ?_
        rintro ⟨id, payment⟩
        simpa using fun _ => nested id
    | paymentFailed =>
        obtain rfl := Option.some.inj registered
        simp [handlePaymentFailed, failed]
    | refundSucceeded =>
        obtain rfl := Option.some.inj registered
        simp [handleRefundSucceeded, refund]
  unfold dispatch
  split
  · simp
  · rename_i handler registered
    have whole : (do handler; return none : Tx (Option String)).Emits good
        fun _ => True := .seq (handled handler registered) (by simp)
    refine Prog.emits_tryCatch.mpr (whole.mono ?_)
    rintro (error | value) _
    · simp
    · trivial

/-- What ingesting a webhook writes, besides its dispatch. -/
theorem ingest_emits
    {env : Env} {provider : GatewayName}
    {verified : Except Error VerifiedWebhook}
    (inserted : ∀ eventId value,
      good (.write (.insertWebhookEvent eventId value)))
    (saved : ∀ eventId set, good (.write (.saveWebhookEvent eventId set)))
    (dispatched : ∀ eventType data,
      (dispatch env eventType data).Emits good fun _ => True) :
    (ingest env provider verified).Emits good fun _ => True := by
  refine .seq (by simp) fun webhook => .seq ?_ ?_
  · simp [getOrCreateEvent, inserted]
  rintro ⟨event, created⟩
  refine .seq (by simp) fun _ => ?_
  simp only [Prog.emits_ite, Prog.emits_pure, implies_true, true_and]
  exact fun _ => .seq (dispatched _ _) fun failure => by simp [saved]

/-- What redelivering an event writes, besides its dispatch. -/
theorem redeliver_emits
    {env : Env} {eventId : String} {event : WebhookEvent}
    (saved : ∀ set, good (.write (.saveWebhookEvent eventId set)))
    (dispatched : ∀ eventType data,
      (dispatch env eventType data).Emits good fun _ => True) :
    (redeliver env eventId event).Emits good fun _ => True :=
  .seq (dispatched _ _) fun failure => by simp [saved]

end Webhooks

end KnowledgeMarketplace
