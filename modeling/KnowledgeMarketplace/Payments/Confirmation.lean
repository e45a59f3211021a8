import KnowledgeMarketplace.Operations
import KnowledgeMarketplace.Payments.Rules

/-!
# Interleaving rules of the confirmation

A confirmation holds the locks of its order and its payment from its checks to
its commit, so what it checked is still true when it commits.
-/

namespace KnowledgeMarketplace

open Transaction

namespace Payments

/-- The statements of a confirmation, up to the activation of the order. -/
def booking (env : Env) (id : OrderId) (order : Order) (payment : Payment) :
    List Stmt :=
  let reference := payment.providerReference.getD ""
  let split := bookedSplit order payment
  [.updatePayment id fun stored =>
      { stored with
        status := .succeeded
        paidAt := some env.now
        providerReference := some reference },
    .appendLedger
      { entryType := .charge
        amountMinor := payment.amountMinor
        currency := payment.currency
        order := id
        user := some order.student
        providerObjectId := reference },
    .appendLedger
      { entryType := .commission
        amountMinor := split.1
        currency := payment.currency
        order := id },
    .appendLedger
      { entryType := .expertCredit
        amountMinor := split.2
        currency := payment.currency
        order := id
        user := some order.expert },
    .saveOrder id fun stored => { stored with paidAt := some env.now },
    .saveOrder id fun stored => { stored with status := .active }]

/-- Statements on the timeline and on requests. -/
def FollowUp (stmt : Stmt) : Prop :=
  stmt.table = .orderEvents ∨ stmt.table = .requests

/-- Effects on the timeline and on requests. -/
def followUp : Effect Stmt → Prop
  | .write stmt => FollowUp stmt
  | .savepoint => False

/-- What is known after the confirmation of a payment. -/
structure Confirmed
    (base later : Ctx Db Row Stmt) (env : Env) (id : OrderId)
    (order : Order) (payment : Payment) : Prop where
  early : ∀ stmt ∈ base.writes,
    stmt.table ≠ .orders ∧ stmt.table ≠ .payments
  held : ∀ row, base.held row → later.held row
  known : ∀ state, later.known state → base.known state
  orderRow : ∀ state, later.known state →
    state.orders.row id = some order
  paymentRow : ∀ state, later.known state →
    state.payments.row id = some payment
  waiting : order.status = .awaitingPayment
  unpaid : order.paidAt = none
  unconfirmed : payment.status ≠ .succeeded
  attempt : payment.status ≠ .canceled ∧ payment.status ≠ .refunded
  matched : payment.amountMinor = order.amount ∧
    payment.currency = order.currency
  writes : ∃ extra, later.writes = base.writes ++ booking env id order payment ++
    extra ∧ ∀ stmt ∈ extra, FollowUp stmt

/-- The orders are the committed ones until the confirmation. -/
theorem Confirmed.orders
    {base later : Ctx Db Row Stmt} {env : Env} {id : OrderId}
    {order : Order} {payment : Payment}
    (confirmed : Confirmed base later env id order payment) (db : Db) :
    (applyAll base.writes db).orders = db.orders :=
  applyAll_frame Db.orders fun stmt member _ =>
    Stmt.apply_orders (confirmed.early stmt member).1

/-- A confirmation books the locked order and payment, or fails. -/
theorem confirmPaymentAtomic_wp
    {protocol : Protocol Db Row Stmt}
    (orderRow : ∀ id first second,
      protocol.Same (.order id) first second →
        first.orders.row id = second.orders.row id)
    (paymentRow : ∀ id first second,
      protocol.Same (.payment id) first second →
        first.payments.row id = second.payments.row id)
    {env : Env} {id : OrderId} {ctx : Ctx Db Row Stmt}
    {goal : Except Error Unit → Ctx Db Row Stmt → Prop}
    (early : ∀ stmt ∈ ctx.writes,
      stmt.table ≠ .orders ∧ stmt.table ≠ .payments)
    (errors : ∀ error later, goal (.error error) later)
    (success : ∀ order payment later,
      Confirmed ctx later env id order payment → goal (.ok ()) later) :
    (confirmPaymentAtomic env id).wp protocol ctx goal := by
  have orders : ∀ state : Db,
      (applyAll ctx.writes state).orders = state.orders := fun state =>
    applyAll_frame Db.orders fun stmt member _ =>
      Stmt.apply_orders (early stmt member).1
  have payments : ∀ state : Db,
      (applyAll ctx.writes state).payments = state.payments :=
    fun state => applyAll_frame Db.payments fun stmt member _ =>
      Stmt.apply_payments (early stmt member).2
  simp only [confirmPaymentAtomic, getForUpdate, Orders.getForUpdate, ledger,
    Orders.activateOrderOnPayment, Orders.markPaid, Orders.transition,
    Orders.recordEvent, Tx.getForUpdate, Tx.get, Prog.wp_bind, Prog.wp_read,
    Prog.wp_require, Prog.wp_lockRow, Prog.wp_orFail, Prog.wp_ofExcept,
    Prog.wp_exec, Prog.wp_pure, errors, implies_true, and_true,
    Ctx.observe_writes, Ctx.take_writes, Ctx.push_writes, applyAll_append,
    applyAll_cons, applyAll_nil, store_apply, Stmt.apply, orders, payments]
  intro first _ _ _ _ second _ _ order stored third _ _ payment found
    unconfirmed attempt waiting matched _ _ _ _ fourth _ fourthKnown copy copied
    _ unpaid fifth _ _ moved _ _
  simp only [Ctx.push_known, Ctx.observe_known, Ctx.take_known] at fourthKnown
  obtain rfl : order = copy := by
    have same := orderRow id second fourth (fourthKnown.1.2 _ (by simp))
    exact Option.some.inj (stored.symm.trans (same.trans copied))
  have emits : (Orders.moveRequest env order.request [.matched] .inProgress
      "").Emits followUp fun _ => True :=
    Orders.moveRequest_emits fun key request => by
      simp [ServiceRequests.transition, followUp, FollowUp, Stmt.table]
  refine Prog.wp_of_emits emits (by simp [followUp]) ?_
  rintro (error | value) later _ grown
  · exact errors error later
  obtain ⟨extra, split, follow⟩ := grown.writes
  have known := grown.known
  simp only [Ctx.push_known, Ctx.observe_known, Ctx.take_known] at known
  let paid : Stmt :=
    .recordEvent { order := id, eventType := .paymentConfirmed }
  refine success order payment later
    { early
      held := fun row held => grown.held row (by simp [held])
      known := fun state holds => (known state holds).1.1.1.1.1
      orderRow := fun state holds => ?_
      paymentRow := fun state holds => ?_
      waiting, unpaid, unconfirmed, attempt, matched
      writes := ⟨paid :: paid :: extra, ?_, ?_⟩ }
  · exact (orderRow id second state
      ((known state holds).1.1.1.2 _ (by simp))).symm.trans stored
  · exact (paymentRow id third state
      ((known state holds).1.1.2 _ (by simp))).symm.trans found
  · simp [split, booking, paid]
  · simp only [List.mem_cons]
    rintro stmt (rfl | rfl | member)
    · exact .inl rfl
    · exact .inl rfl
    · exact follow stmt member

/-!
## The callers of the confirmation

Operators, students and webhooks reach the confirmation through different
calls.  A protocol that can commit a confirmation can commit all of them.
-/

/-- What the callers write besides the confirmation. -/
def Bookkeeping : Stmt → Prop
  | .insertPayment _ _ | .savePayment _ _ | .saveRefund _ _
  | .insertWebhookEvent _ _ | .saveWebhookEvent _ _ => True
  | _ => False

/-- Effects of the callers besides the confirmation. -/
def bookkeeping : Effect Stmt → Prop
  | .write stmt => Bookkeeping stmt
  | .savepoint => False

/-- Effects on stored webhooks. -/
def webhookOnly : Effect Stmt → Prop
  | .write stmt => stmt.table = .webhookEvents
  | .savepoint => False

/-- Statements on stored webhooks are bookkeeping. -/
theorem bookkeeping_of_webhook
    {stmt : Stmt} (webhook : stmt.table = .webhookEvents) :
    Bookkeeping stmt := by
  cases stmt <;> simp_all [Stmt.table, Bookkeeping]

/-- The contexts that are `ready` to commit, with and without confirmation. -/
structure Confirmable
    (protocol : Protocol Db Row Stmt) (ready : Ctx Db Row Stmt → Prop) :
    Prop where
  orderRow : ∀ id first second,
    protocol.Same (.order id) first second →
      first.orders.row id = second.orders.row id
  paymentRow : ∀ id first second,
    protocol.Same (.payment id) first second →
      first.payments.row id = second.payments.row id
  plain : ∀ ctx, (∀ stmt ∈ ctx.writes, Bookkeeping stmt) → ready ctx
  grow : ∀ base later, ready base →
    base.Extends (fun stmt => stmt.table = .webhookEvents) later → ready later
  failed : ∀ id reason ctx, ready ctx →
    (markPaymentFailed id reason).wp protocol ctx fun _ later => ready later
  confirmed : ∀ base later env id order payment, ready base →
    Confirmed base later env id order payment → ready later

namespace Confirmable

variable {protocol : Protocol Db Row Stmt}
  {guarantee : List Stmt → Db → Prop} {ready : Ctx Db Row Stmt → Prop}
  {ctx : Ctx Db Row Stmt}

/-- The confirmation in a transaction of its own. -/
theorem confirmPayment_wp
    (confirmable : Confirmable protocol ready)
    (commit : ∀ ctx, ready ctx → ctx.CommitOk protocol guarantee)
    (env : Env) (id : OrderId) :
    (confirmPayment env id).wp protocol guarantee .start fun _ later =>
      later = .start := by
  simp only [confirmPayment, Request.wp_tryCatch, Request.wp_atomic]
  refine confirmPaymentAtomic_wp confirmable.orderRow confirmable.paymentRow
    (by simp) ?_ ?_
  · intro error later
    cases error with
    | attemptFailed reason =>
        simp only [Request.wp_bind, Request.wp_atomic, Request.wp_throw]
        refine Prog.wp_mono
          (confirmable.failed id reason .start (confirmable.plain _ (by simp))) ?_
        rintro (error | value) later ready
        · trivial
        · exact ⟨commit later ready, trivial⟩
    | _ => rfl
  · intro order payment later confirmed
    exact ⟨commit later (confirmable.confirmed _ _ _ _ _ _
      (confirmable.plain _ (by simp)) confirmed), trivial⟩

/-- The confirmation nested in the transaction of a webhook. -/
theorem confirmPaymentNested_wp
    (confirmable : Confirmable protocol ready)
    (early : ∀ stmt ∈ ctx.writes, stmt.table = .webhookEvents)
    (env : Env) (id : OrderId) :
    (confirmPaymentNested env id).wp protocol ctx fun _ later =>
      ready later := by
  have plain : ∀ stmt ∈ ctx.writes, Bookkeeping stmt :=
    fun stmt member => bookkeeping_of_webhook (early stmt member)
  have emits : (confirmPaymentAtomic env id).Emits (· ≠ .savepoint)
      fun _ => True :=
    confirmPaymentAtomic_emits (by simp) (by simp) (by simp) (by simp)
      (by simp) (by simp [ServiceRequests.transition])
  refine Prog.wp_attempt emits (confirmPaymentAtomic_wp confirmable.orderRow
    confirmable.paymentRow (fun stmt member => by simp [early stmt member])
    (fun error _ held => ?_) fun order payment later confirmed =>
      confirmable.confirmed _ _ _ _ _ _ (confirmable.plain _ plain) confirmed)
  have forgotten : ready (ctx.forget held) := confirmable.plain _ plain
  cases error with
  | attemptFailed reason =>
      refine Prog.wp_bind.mpr (Prog.wp_mono
        (confirmable.failed id reason _ forgotten) ?_)
      rintro (error | value) later ready <;> exact ready
  | _ => exact forgotten

/-- Dispatching an event, early in the transaction of a webhook. -/
theorem dispatch_wp
    (confirmable : Confirmable protocol ready)
    (early : ∀ stmt ∈ ctx.writes, stmt.table = .webhookEvents)
    (env : Env) (eventType : EventType) (data : EventData) :
    (Webhooks.dispatch env eventType data).wp protocol ctx fun _ later =>
      ready later := by
  have plain : ∀ stmt ∈ ctx.writes, Bookkeeping stmt :=
    fun stmt member => bookkeeping_of_webhook (early stmt member)
  have start : ready ctx := confirmable.plain _ plain
  have booked : ∀ handler : Tx Unit,
      handler.Emits bookkeeping (fun _ => True) →
      handler.wp protocol ctx fun _ later => ready later := by
    intro handler emits
    exact Prog.wp_of_emits emits (by simp [bookkeeping])
      fun _ later _ grown => confirmable.plain later (grown.all plain)
  have handled : ∀ handler,
      Webhooks.handlers env data eventType = some handler →
      handler.wp protocol ctx fun _ later => ready later := by
    intro handler registered
    cases eventType with
    | other name => simp [Webhooks.handlers] at registered
    | paymentSucceeded =>
        obtain rfl := Option.some.inj registered
        simp only [Webhooks.handlePaymentSucceeded, Prog.wp_bind,
          Prog.wp_read, Prog.wp_orFail, Prog.wp_ite, Prog.wp_pure]
        intro seen _ _
        have seenReady : ready (ctx.observe protocol seen) :=
          confirmable.plain _ plain
        refine ⟨fun _ _ => ⟨fun _ => ?_, fun _ => seenReady⟩, fun _ => seenReady⟩
        refine confirmable.confirmPaymentNested_wp ?_ env _
        exact early
    | paymentFailed =>
        obtain rfl := Option.some.inj registered
        exact booked _ (by
          simp [Webhooks.handlePaymentFailed, bookkeeping, Bookkeeping])
    | refundSucceeded =>
        obtain rfl := Option.some.inj registered
        exact booked _ (by
          simp [Webhooks.handleRefundSucceeded, bookkeeping, Bookkeeping])
  unfold Webhooks.dispatch
  split
  · exact start
  · rename_i handler registered
    simp only [Prog.wp_tryCatch, Prog.wp_bind, Prog.wp_pure]
    refine Prog.wp_mono (handled handler registered) ?_
    rintro (error | value) later ready
    · exact Prog.wp_ofExcept.mpr ⟨fun _ _ => ready, fun _ _ => ready⟩
    · exact ready

/-- The calls that can lead to a confirmation, and the start of a payment. -/
def Confirms : PaymentCall → Prop
  | .startPayment _ _ _ | .confirmPayment _ _ | .confirmOrderPayment _ _
  | .devConfirm _ _ _ | .ingest _ _ _ | .redeliver _ _ => True
  | _ => False

/-- All callers of the confirmation are safe. -/
theorem safe
    (confirmable : Confirmable protocol ready)
    (commit : ∀ ctx, ready ctx → ctx.CommitOk protocol guarantee)
    {call : PaymentCall} (confirms : Confirms call) :
    call.call.Safe protocol guarantee := by
  have booked : ∀ {α : Type} (service : Tx α),
      service.Emits bookkeeping (fun _ => True) →
      (Call.atomic service).wp protocol guarantee .start
        fun _ later => later = .start := by
    intro α service emits
    refine Request.wp_atomic.mpr (Prog.wp_of_emits emits (by simp [bookkeeping])
      ?_)
    rintro (error | value) later _ grown
    · rfl
    · exact ⟨commit later (confirmable.plain later (grown.all (by simp))), rfl⟩
  have created : ∀ env id order gateway,
      (createPaymentRow env id order gateway).Emits bookkeeping
        fun _ => True := by
    simp [createPaymentRow, Tx.create, bookkeeping, Bookkeeping]
  have started : ∀ env id order actor,
      (startPayment env id order actor).Emits bookkeeping fun _ => True := by
    intro env id order actor
    refine .seq (by simp) fun _ => .seq (by simp) fun _ => ?_
    refine .seq (by simp) fun found => .seq ?_ fun payment => ?_
    · cases found <;> simp [created]
    · simp [bookkeeping, Bookkeeping]
  have confirming := confirmable.confirmPayment_wp commit
  cases call with
  | startPayment env id actor =>
      simp only [Request.Safe, PaymentCall.call, Call.performOn, Call.perform,
        Call.get, Request.wp_bind, Request.wp_load, Request.wp_orFail,
        Ctx.start_observe, implies_true, and_true]
      intro _ _ _ copy _
      exact Request.wp_mono (booked _ (.seq (started env id copy actor)
        (by simp))) fun _ _ _ => trivial
  | confirmPayment env id =>
      exact Request.wp_mono (confirming env id) fun _ _ _ => trivial
  | confirmOrderPayment env id =>
      simp only [Request.Safe, PaymentCall.call, confirmOrderPayment, Call.get,
        Request.wp_bind, Request.wp_load, Request.wp_orFail,
        Request.wp_require, Request.wp_ite, Ctx.start_observe, implies_true,
        and_true]
      intro _ _ _ copy _ _ state _ _ _
      refine ⟨fun _ => Request.wp_mono (booked _ (created env id copy _)) ?_,
        fun _ => Request.wp_mono (confirming env id) fun _ _ _ => trivial⟩
      rintro (error | value) later rfl
      · trivial
      · exact Request.wp_mono (confirming env id) fun _ _ _ => trivial
  | devConfirm env id actor =>
      simp only [Request.Safe, PaymentCall.call, devConfirm, Call.get,
        Request.wp_bind, Request.wp_load, Request.wp_orFail,
        Request.wp_require, Request.wp_ite, Ctx.start_observe, implies_true,
        and_true]
      intro _ _ _ copy _ _ state _ _
      refine ⟨fun _ => Request.wp_mono (booked _ (started env id copy _)) ?_,
        fun _ => Request.wp_mono (confirming env id) fun _ _ _ => trivial⟩
      rintro (error | value) later rfl
      · trivial
      · exact Request.wp_mono (confirming env id) fun _ _ _ => trivial
  | ingest env provider verified =>
      simp only [Request.Safe, PaymentCall.call, Call.perform, Webhooks.ingest,
        Request.wp_atomic, Prog.wp_bind, Prog.wp_ofExcept, Prog.wp_pure,
        implies_true, and_true]
      intro webhook _
      have stored : (Webhooks.getOrCreateEvent provider webhook).Emits
          webhookOnly fun _ => True := by
        simp [Webhooks.getOrCreateEvent, webhookOnly, Stmt.table]
      refine Prog.wp_of_emits stored (by simp [webhookOnly]) ?_
      rintro (error | ⟨event, created⟩) later _ grown
      · trivial
      have early : ∀ stmt ∈ later.writes, stmt.table = .webhookEvents := by
        obtain ⟨extra, split, all⟩ := grown.writes
        rw [split]
        exact all
      simp only [Prog.wp_bind, Prog.wp_require, Prog.wp_ite, Prog.wp_pure,
        Prog.wp_exec, implies_true, and_true]
      refine fun _ => ⟨fun _ => commit _ (confirmable.plain _ ?_), fun _ => ?_⟩
      · exact fun stmt member => bookkeeping_of_webhook (early stmt member)
      · refine Prog.wp_mono (confirmable.dispatch_wp early env _ _) ?_
        rintro (error | failure) last ready
        · trivial
        · exact commit _ (confirmable.grow _ _ ready (.push rfl))
  | redeliver env eventId =>
      simp only [Request.Safe, PaymentCall.call, Call.performOn, Call.perform,
        Call.get, Webhooks.redeliver, Request.wp_bind, Request.wp_load,
        Request.wp_orFail, Request.wp_atomic, Prog.wp_bind, Prog.wp_exec,
        Prog.wp_pure, Ctx.start_observe, implies_true, and_true]
      intro _ _ _ copy _
      refine Prog.wp_mono (confirmable.dispatch_wp (by simp) env _ _) ?_
      rintro (error | failure) later ready
      · trivial
      · exact commit _ (confirmable.grow _ _ ready (.push rfl))
  | _ => exact confirms.elim

end Confirmable

end Payments

end KnowledgeMarketplace
