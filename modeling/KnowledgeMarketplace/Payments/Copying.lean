import KnowledgeMarketplace.Operations.Effects
import KnowledgeMarketplace.Transaction.Derived

/-!
# Booking from copies

Payments, payouts and ledger entries copy the order, the payment or the payout
that they are about.  If copies of stored rows are fine and what is booked from
fine copies is good, then the work on orders, payments and disputes is good.
-/

namespace KnowledgeMarketplace

open Transaction

namespace Payments

/-- A locked row has what the invariant says of all rows. -/
theorem getForUpdate_derives
    {invariant : Db → Prop} {good : Effect Stmt → Prop} {ρ : Type}
    {row : Row} {find : Db → Option ρ} {model : String} {result : ρ → Prop}
    (reads : ∀ db, invariant db →
      ∀ found, find db = some found → result found) :
    (Tx.getForUpdate row find model).Derives invariant good fun outcome =>
      ∀ found, outcome = .ok found → result found := by
  simp only [Tx.getForUpdate, Tx.get, Prog.derives_bind,
    Prog.derives_lockRow, Prog.derives_read, Prog.derives_orFail,
    reduceCtorEq, false_implies, implies_true, and_true, Except.ok.injEq,
    forall_eq']
  exact reads

/-- An entry that is booked from a payment of an order. -/
structure BookedFrom
    (id : OrderId) (order : Order) (payment : Payment) (entry : LedgerEntry) :
    Prop where
  about : entry.order = id
  currency : entry.currency = payment.currency
  unpaid : entry.entryType ≠ .payout
  credited : entry.entryType = .expertCredit → entry.user = some order.expert

/-- A payout is settled for the expert that it was scheduled for. -/
structure SettledFrom (payout : Payout) (entry : LedgerEntry) : Prop where
  about : entry.order = payout.order
  currency : entry.currency = payout.currency
  user : entry.user = some payout.expert

/-- The order, the expert and the currency of a payout stay. -/
@[mk_iff] structure KeepsPayee (set : Payout → Payout) : Prop where
  order : ∀ stored, (set stored).order = stored.order
  expert : ∀ stored, (set stored).expert = stored.expert
  currency : ∀ stored, (set stored).currency = stored.currency

/-- Copies of stored rows are fine, and what is booked from them is good. -/
structure Copying
    (invariant : Db → Prop) (good : Effect Stmt → Prop)
    (fineOrder : OrderId → Order → Prop) (finePayment : Payment → Prop)
    (finePayout : Payout → Prop) : Prop where
  workflow : Workflow good
  savepoint : good .savepoint
  kept : ∀ stmt, good (.write stmt) → ∀ db, invariant db →
    invariant (stmt.apply db)
  orders : ∀ db, invariant db → ∀ id order,
    db.orders.row id = some order → fineOrder id order
  payments : ∀ db, invariant db → db.payments.All finePayment
  payouts : ∀ db, invariant db → db.payouts.All finePayout
  moved : ∀ id order toStatus, fineOrder id order →
    fineOrder id { order with status := toStatus }
  thawed : ∀ id, good (.write (.saveOrder id fun stored =>
    { stored with hasOpenDispute := false }))
  opened : ∀ id order payment, fineOrder id order →
    payment.currency = order.currency → good (.write (.insertPayment id payment))
  rearmed : ∀ env id order, fineOrder id order →
    good (.write (.savePayment id (rearm env order)))
  paymentSaved : ∀ id set, (∀ stored, (set stored).currency = stored.currency) →
    good (.write (.savePayment id set)) ∧ good (.write (.updatePayment id set))
  booked : ∀ id order payment entry, fineOrder id order → finePayment payment →
    BookedFrom id order payment entry → good (.write (.appendLedger entry))
  refunded : ∀ key payment refund, finePayment payment →
    refund.currency = payment.currency → good (.write (.insertRefund key refund))
  refundSaved : ∀ key set, (∀ stored, (set stored).currency = stored.currency) →
    good (.write (.saveRefund key set))
  scheduled : ∀ key id order payout, fineOrder id order → payout.order = id →
    payout.expert = order.expert → payout.currency = order.currency →
      good (.write (.insertPayout key payout))
  payoutSaved : ∀ key set, KeepsPayee set → good (.write (.savePayout key set))
  settled : ∀ payout entry, finePayout payout → SettledFrom payout entry →
    good (.write (.appendLedger entry))

namespace Copying

variable {invariant : Db → Prop} {good : Effect Stmt → Prop}
  {fineOrder : OrderId → Order → Prop} {finePayment : Payment → Prop}
  {finePayout : Payout → Prop}

/-! ## Orders -/

/-- A payout is scheduled for the expert of the order. -/
theorem schedulePayout
    (copying : Copying invariant good fineOrder finePayment finePayout)
    {id : OrderId} {order : Order} (fine : fineOrder id order) (env : Env) :
    (Payments.schedulePayout env id order).Derives invariant good
      fun _ => True := by
  have scheduled : ∀ key amount status reference reason settledAt, good (.write
      (.insertPayout key ⟨id, order.expert, amount, order.currency, status,
        reference, reason, settledAt⟩)) :=
    fun key _ _ _ _ _ => copying.scheduled key id order _ fine rfl rfl rfl
  simp [Payments.schedulePayout, Tx.create, scheduled]

/-- A moved order is as fine as the stored one. -/
theorem transition
    (copying : Copying invariant good fineOrder finePayment finePayout)
    (id : OrderId) (toStatus : OrderStatus) (eventType : OrderEventType)
    (actor : Option Actor) (data : OrderEventData) :
    (Orders.transition id toStatus eventType actor data).Derives
      invariant good fun outcome =>
        ∀ order, outcome = .ok order → fineOrder id order := by
  have saved := copying.workflow.ordering.saved id _ (.status toStatus)
  have told : ∀ event, good (.write (.recordEvent event)) := fun _ =>
    copying.workflow.elsewhere _ (by simp [Stmt.table])
  simp only [Orders.transition, Orders.getForUpdate, Orders.recordEvent,
    Tx.getForUpdate, Tx.get, Prog.derives_bind, Prog.derives_lockRow,
    Prog.derives_read, Prog.derives_orFail, Prog.derives_require,
    Prog.derives_exec, Prog.derives_pure, saved, told, reduceCtorEq,
    false_implies, implies_true, and_true, true_and, Except.ok.injEq, forall_eq']
  exact fun db holds order found _ =>
    copying.moved id order toStatus (copying.orders db holds id order found)

/-- The request moves along. -/
theorem moveRequest
    (copying : Copying invariant good fineOrder finePayment finePayout)
    (env : Env) (id : RequestId) (fromStatuses : List RequestStatus)
    (toStatus : RequestStatus) (reason : String) :
    (Orders.moveRequest env id fromStatuses toStatus reason).Derives
      invariant good fun _ => True :=
  Prog.Emits.derives (Orders.moveRequest_emits fun _ _ =>
    copying.workflow.moved _ _ _ _ _)

theorem approveDelivery
    (copying : Copying invariant good fineOrder finePayment finePayout)
    (env : Env) (id : OrderId) (actor : Option Actor)
    (source : ApprovalSource) :
    (Orders.approveDelivery env id actor source).Derives invariant good
      fun _ => True := by
  have elsewhere := copying.workflow.elsewhere
  refine .seq (by simp [Orders.getForUpdate, Tx.getForUpdate, Tx.get])
    fun order => .seq (by simp) fun _ => .seq (by simp) fun _ => ?_
  refine .seq (by simp) fun delivery => .seq ?_ fun _ => ?_
  · exact Prog.derives_forEach fun _ _ => by simp [elsewhere, Stmt.table]
  refine .seq (by simp [copying.workflow.completed]) fun _ => ?_
  refine .bind (copying.transition _ _ _ _ _) fun completed fine => ?_
  refine .seq (by simp [Orders.recordEvent, elsewhere, Stmt.table]) fun _ => ?_
  refine .seq (copying.moveRequest _ _ _ _ _) fun _ => ?_
  exact .seq (copying.schedulePayout fine env) fun _ => trivial

theorem orderCall
    (copying : Copying invariant good fineOrder finePayment finePayout)
    (call : OrderCall) :
    call.call.Derives invariant good fun _ => True := by
  cases call with
  | approveDelivery env id actor source =>
      exact Request.derives_atomic.mpr
        (.seq (copying.approveDelivery env id actor source) fun _ => trivial)
  | cancel env id actor reason =>
      have ended := copying.workflow.ended id _ (.cancelled env.now actor.id (clip 200 reason))
      have voided : (voidPaymentForOrder env id).Emits good fun _ => True :=
        Prog.emits_updateWhere
          ⟨fun _ => (copying.paymentSaved _ _ (by simp)).2, fun _ => trivial⟩
      refine Request.derives_atomic.mpr (.seq ?_ fun _ => trivial)
      refine .seq (by simp [Orders.getForUpdate, Tx.getForUpdate, Tx.get])
        fun order => .seq (by simp) fun _ => .seq (by simp) fun _ => ?_
      refine .seq (by simp) fun _ => .seq (by simp [ended]) fun _ => ?_
      refine .seq ((copying.transition _ _ _ _ _).mono fun _ _ => trivial)
        fun cancelled => .seq voided.derives fun _ => ?_
      exact copying.moveRequest _ _ _ _ _
  | autoApproveDue env =>
      refine .seq (by simp) fun due => Request.derives_forEach fun item _ => ?_
      have one : ∀ env, (Orders.autoApproveOne env item.1).Derives
          invariant good fun _ => True := by
        intro env
        refine .seq ?_ fun order => Prog.derives_ite.mpr
          ⟨fun _ => copying.approveDelivery env item.1 none .auto,
            fun _ => trivial⟩
        simp [Orders.getForUpdate, Tx.getForUpdate, Tx.get]
      refine Request.derives_tryCatch.mpr (Request.Derives.mono
        (Request.derives_atomic.mpr (one _)) ?_)
      rintro (error | value) _
      · cases error <;> simp
      · trivial
  | _ =>
      exact Request.Emits.derives
        (orderCall_works copying.workflow.ordering
          (fun _ => copying.workflow.ended) copying.workflow.apart trivial id)

/-! ## Payments -/

theorem createPaymentRow
    (copying : Copying invariant good fineOrder finePayment finePayout)
    {id : OrderId} {order : Order} (fine : fineOrder id order) (env : Env)
    (gateway : GatewayName) :
    (Payments.createPaymentRow env id order gateway).Derives invariant good
      fun _ => True := by
  have opened : good (.write (.insertPayment id
      { gateway
        providerReference := some (newReference env gateway)
        amountMinor := order.amount
        currency := order.currency })) :=
    copying.opened id order _ fine rfl
  simp [Payments.createPaymentRow, Tx.create, opened]

theorem startPayment
    (copying : Copying invariant good fineOrder finePayment finePayout)
    {id : OrderId} {order : Order} (fine : fineOrder id order) (env : Env)
    (actor : Actor) :
    (Payments.startPayment env id order actor).Derives invariant good
      fun _ => True := by
  refine .seq (by simp) fun _ => .seq (by simp) fun _ => ?_
  refine .seq (by simp) fun found => .seq ?_ fun payment => ?_
  · cases found with
    | none => exact copying.createPaymentRow fine env _
    | some payment => trivial
  · simp [copying.rearmed env id order fine]

theorem confirmPaymentAtomic
    (copying : Copying invariant good fineOrder finePayment finePayout)
    (env : Env) (id : OrderId) :
    (Payments.confirmPaymentAtomic env id).Derives invariant good
      fun _ => True := by
  have ordering := copying.workflow.ordering
  refine .seq (by simp [Tx.get]) fun _ => ?_
  refine .bind (getForUpdate_derives fun db holds => copying.orders db holds id)
    fun order fine => ?_
  refine .bind (getForUpdate_derives fun db holds =>
    copying.payments db holds id) fun payment paid => ?_
  have booked : ∀ entry, BookedFrom id order payment entry →
      (Payments.ledger entry).Derives invariant good fun _ => True :=
    fun entry books => by
      simp [Payments.ledger, copying.booked id order payment entry fine paid books]
  refine .seq (by simp) fun _ => .seq (by simp) fun _ => ?_
  refine .seq (by simp) fun _ => .seq (by simp) fun _ => ?_
  refine .seq (by simp) fun _ => .seq (by simp) fun _ => ?_
  refine .seq (by simp) fun _ => .seq ?_ fun _ => ?_
  · exact Prog.derives_exec.mpr ⟨(copying.paymentSaved _ _ (by simp)).2, trivial⟩
  refine .seq (booked _ ⟨rfl, rfl, by simp, by simp⟩) fun _ => ?_
  refine .seq (booked _ ⟨rfl, rfl, by simp, by simp⟩) fun _ => ?_
  refine .seq (booked _ ⟨rfl, rfl, by simp, fun _ => rfl⟩) fun _ => ?_
  refine .seq (by simp [Tx.get]) fun order => ?_
  refine .seq (by simp) fun _ => .seq (by simp) fun _ => ?_
  refine .seq (by simp [ordering.saved _ _ (.paid env.now)]) fun _ => ?_
  refine .bind (copying.transition _ _ _ _ _) fun _ _ => ?_
  refine .seq ?_ fun _ => copying.moveRequest _ _ _ _ _
  simp [Orders.recordEvent, ordering.told, jobMarks]

theorem markPaymentFailed
    (copying : Copying invariant good fineOrder finePayment finePayout)
    (id : OrderId) (reason : String) :
    (Payments.markPaymentFailed id reason).Emits good fun _ => True :=
  .seq (Prog.emits_updateWhere
    ⟨fun _ => (copying.paymentSaved _ _ (by simp)).2, fun _ => trivial⟩)
    (by simp)

theorem confirmPayment
    (copying : Copying invariant good fineOrder finePayment finePayout)
    (env : Env) (id : OrderId) :
    (Payments.confirmPayment env id).Derives invariant good fun _ => True := by
  refine Request.derives_tryCatch.mpr (Request.Derives.mono
    (Request.derives_atomic.mpr (copying.confirmPaymentAtomic env id)) ?_)
  rintro (error | value) _
  · have failed := fun reason => copying.markPaymentFailed id reason
    refine Request.Emits.derives ?_
    cases error with
    | attemptFailed reason =>
        exact .seq (Request.emits_atomic.mpr (failed reason)) (by simp)
    | _ => simp
  · trivial

theorem dispatch
    (copying : Copying invariant good fineOrder finePayment finePayout)
    (env : Env) (eventType : EventType) (data : EventData) :
    (Webhooks.dispatch env eventType data).Derives invariant good
      fun _ => True := by
  have nested : ∀ id, (confirmPaymentNested env id).Derives invariant good
      fun _ => True := by
    intro id
    refine Prog.derives_attempt copying.kept copying.savepoint
      ((copying.confirmPaymentAtomic env id).mono ?_)
    rintro (error | value) _
    · refine Prog.Emits.derives ?_
      cases error with
      | attemptFailed reason =>
          exact .seq (copying.markPaymentFailed id reason) (by simp)
      | _ => simp
    · trivial
  have handled : ∀ handler, Webhooks.handlers env data eventType = some handler →
      handler.Derives invariant good fun _ => True := by
    intro handler registered
    cases eventType with
    | paymentSucceeded =>
        obtain rfl := Option.some.inj registered
        refine .seq (by simp) fun found => .seq (by simp) fun found => ?_
        exact Prog.derives_ite.mpr ⟨fun _ => nested _, fun _ => trivial⟩
    | paymentFailed =>
        obtain rfl := Option.some.inj registered
        refine .seq (by simp) fun found => Prog.derives_forEach fun _ _ => ?_
        exact Prog.derives_exec.mpr ⟨(copying.paymentSaved _ _
          (by simp [Webhooks.failedByProvider])).1, trivial⟩
    | refundSucceeded =>
        obtain rfl := Option.some.inj registered
        refine .seq (by simp) fun found => Prog.derives_forEach fun _ _ => ?_
        exact Prog.derives_exec.mpr
          ⟨copying.refundSaved _ _ (by simp), trivial⟩
    | other name => cases registered
  unfold Webhooks.dispatch
  split
  · trivial
  · rename_i handler registered
    refine Prog.derives_tryCatch.mpr (Prog.Derives.mono
      (.seq (handled handler registered) fun _ => trivial) ?_)
    rintro (error | value) _
    · simp
    · trivial

theorem issueRefund
    (copying : Copying invariant good fineOrder finePayment finePayout)
    (env : Env) (id : OrderId) (amountMinor : Int) (reason : RefundReason)
    (initiatedBy : Option Actor) :
    (Payments.issueRefund env id amountMinor reason initiatedBy).Derives
      invariant good fun _ => True := by
  refine .seq (by simp) fun _ => ?_
  refine .bind (getForUpdate_derives fun db holds =>
    copying.payments db holds id) fun payment paid => ?_
  refine .seq (by simp) fun _ => .seq (by simp) fun _ => ?_
  have ordered : (Tx.get (fun db => db.orders.row id) "Order").Derives invariant
      good fun outcome => ∀ order, outcome = .ok order → fineOrder id order := by
    simpa [Tx.get] using fun db holds order found =>
      copying.orders db holds id order found
  refine .bind ordered fun order fine => ?_
  have booked : ∀ entry, BookedFrom id order payment entry →
      (Payments.ledger entry).Derives invariant good fun _ => True :=
    fun entry books => by
      simp [Payments.ledger, copying.booked id order payment entry fine paid books]
  refine .seq (by simp) fun parts => .seq (by simp) fun reference => ?_
  refine .seq ?_ fun _ => .seq (booked _ ⟨rfl, rfl, by simp, by simp⟩)
    fun _ => ?_
  · have inserted := fun refund => copying.refunded env.key payment refund paid
    refine .seq (by simp) fun _ => .seq (by simp) fun _ => .seq (by simp) fun _ => ?_
    exact Prog.derives_exec.mpr ⟨inserted _ rfl, trivial⟩
  have saved := (copying.paymentSaved id (fun stored =>
    { stored with
      refundedMinor := (Payments.refunded amountMinor payment).refundedMinor
      status := (Payments.refunded amountMinor payment).status }) fun _ => rfl).2
  have commission : ∀ result : Unit, Prog.Derives invariant good (fun _ => True)
      (if parts.1 ≠ 0 then do
        ledger
          { entryType := .commission
            amountMinor := -parts.1
            currency := payment.currency
            order := id }
        Tx.exec (.updatePayment id _)
      else Tx.exec (.updatePayment id _)) := fun _ =>
    Prog.derives_ite.mpr
      ⟨fun _ => .seq (booked _ ⟨rfl, rfl, by simp, by simp⟩)
        fun _ => Prog.derives_exec.mpr ⟨saved, trivial⟩,
        fun _ => Prog.derives_exec.mpr ⟨saved, trivial⟩⟩
  exact Prog.derives_ite.mpr
    ⟨fun _ => .seq (booked _ ⟨rfl, rfl, by simp, fun _ => rfl⟩) commission,
      fun _ => commission ()⟩

/-- The copy of an order is fine. -/
theorem getOrder
    (copying : Copying invariant good fineOrder finePayment finePayout)
    (id : OrderId) :
    (Call.get (PaymentCall.findOrder id) "Order").Derives invariant good
      fun outcome => ∀ order, outcome = .ok order → fineOrder id order := by
  simp only [Call.get, Request.derives_bind, Request.derives_load,
    Request.derives_orFail, reduceCtorEq, false_implies, implies_true,
    and_true, Except.ok.injEq, forall_eq']
  exact fun db holds order found => copying.orders db holds id order found

theorem markPayoutFailed
    (copying : Copying invariant good fineOrder finePayment finePayout)
    (id : PayoutId) (actor : Option Actor) (reason : String) :
    (Payments.markPayoutFailed id actor reason).Emits good fun _ => True := by
  refine .seq (by simp) fun _ => .seq ?_ fun payout => .seq (by simp) fun _ => ?_
  · simp [getPayoutForUpdate, Tx.getForUpdate, Tx.get]
  · exact Prog.emits_exec.mpr
      ⟨copying.payoutSaved _ _ (by simp [keepsPayee_iff]), trivial⟩

theorem paymentCall
    (copying : Copying invariant good fineOrder finePayment finePayout)
    (call : PaymentCall) : call.call.Derives invariant good fun _ => True := by
  have elsewhere := copying.workflow.elsewhere
  cases call with
  | startPayment env id actor =>
      exact .bind (copying.getOrder id) fun copy fine =>
        Request.derives_atomic.mpr
          (.seq (copying.startPayment fine env actor) fun _ => trivial)
  | confirmPayment env id => exact copying.confirmPayment env id
  | confirmOrderPayment env id =>
      refine .bind (copying.getOrder id) fun copy fine => ?_
      refine .seq (by simp) fun _ => .seq (by simp) fun payment => ?_
      refine .seq (by simp) fun _ => Request.derives_ite.mpr
        ⟨fun _ => .seq ?_ fun _ => copying.confirmPayment env id,
          fun _ => copying.confirmPayment env id⟩
      exact Request.derives_atomic.mpr (copying.createPaymentRow fine env _)
  | devConfirm env id actor =>
      refine .bind (copying.getOrder id) fun copy fine => ?_
      refine .seq (by simp) fun _ => .seq (by simp) fun payment => ?_
      refine Request.derives_ite.mpr
        ⟨fun _ => .seq ?_ fun _ => copying.confirmPayment env id,
          fun _ => copying.confirmPayment env id⟩
      exact Request.derives_atomic.mpr (copying.startPayment fine env actor)
  | voidPayment env id =>
      refine Request.derives_atomic.mpr
        (.seq (Prog.Emits.derives (Prog.emits_updateWhere
          ⟨fun _ => (copying.paymentSaved _ _ (by simp)).2,
            fun _ => trivial⟩)) fun _ => trivial)
  | ingest env provider verified =>
      refine Request.derives_atomic.mpr (.seq ?_ fun _ => trivial)
      refine .seq (by simp) fun webhook => .seq ?_ fun found => ?_
      · simp [Webhooks.getOrCreateEvent, elsewhere, Stmt.table]
      refine .seq (by simp) fun _ => Prog.derives_ite.mpr
        ⟨fun _ => trivial,
          fun _ => .seq (copying.dispatch env _ _) fun _ => ?_⟩
      simp [elsewhere, Stmt.table]
  | redeliver env eventId =>
      refine .seq (by simp [Call.get]) fun copy =>
        Request.derives_atomic.mpr (.seq ?_ fun _ => trivial)
      exact .seq (copying.dispatch env _ _) fun _ => by
        simp [elsewhere, Stmt.table]
  | issueRefund env id amountMinor reason initiatedBy =>
      exact Request.derives_atomic.mpr (.seq
        (copying.issueRefund env id amountMinor reason initiatedBy)
        fun _ => trivial)
  | schedulePayout env id =>
      exact .bind (copying.getOrder id) fun copy fine =>
        Request.derives_atomic.mpr
          (.seq (copying.schedulePayout fine env) fun _ => trivial)
  | settlePayout env id actor =>
      refine Request.derives_atomic.mpr (.seq ?_ fun _ => trivial)
      refine .seq (by simp) fun _ => ?_
      refine .bind (getForUpdate_derives fun db holds =>
        copying.payouts db holds id) fun payout fine => ?_
      refine .seq (by simp) fun _ => .seq (by simp) fun _ => ?_
      refine .seq ?_ fun order => .seq (by simp) fun _ => ?_
      · simp [Orders.getForUpdate, Tx.getForUpdate, Tx.get]
      refine .seq (by simp) fun reference => .seq ?_ fun _ => ?_
      · exact Prog.derives_exec.mpr
          ⟨copying.payoutSaved _ _ (by simp [keepsPayee_iff]), trivial⟩
      · exact Prog.derives_exec.mpr
          ⟨copying.settled payout _ fine ⟨rfl, rfl, rfl⟩, trivial⟩
  | payoutSweeper env =>
      refine Request.derives_bind.mpr
        (Request.derives_load.mpr fun db holds => ?_)
      refine Request.derives_forEach fun item member => ?_
      obtain ⟨⟨key, order⟩, index⟩ := item
      have fine : fineOrder key order := by
        have listed := List.fst_mem_of_mem_zipIdx member
        simp only [List.mem_filterMap, Option.map_eq_some_iff,
          Prod.mk.injEq] at listed
        obtain ⟨_, -, found, stored, rfl, rfl⟩ := listed
        exact copying.orders db holds _ _ stored
      exact .seq (Request.derives_atomic.mpr
        (copying.schedulePayout fine _)) fun _ => trivial
  | markPayoutFailed id actor reason =>
      exact Request.derives_atomic.mpr
        (.seq (copying.markPayoutFailed id actor reason).derives
          fun _ => trivial)
  | configure config =>
      simp [PaymentCall.call, Call.exec, elsewhere, Stmt.table]

/-! ## Disputes -/

theorem disputeCall
    (copying : Copying invariant good fineOrder finePayment finePayout)
    (call : DisputeCall) : call.call.Derives invariant good fun _ => True := by
  have ordering := copying.workflow.ordering
  have elsewhere := copying.workflow.elsewhere
  cases call with
  | resolve env id actor outcome notes amount =>
      refine .seq (by simp [Call.get]) fun dispute =>
        Request.derives_atomic.mpr (.seq ?_ fun _ => trivial)
      refine .seq (by simp) fun _ => .seq (by simp) fun _ => ?_
      refine .seq (by simp) fun _ => .seq ?_ fun order => ?_
      · simp [Orders.getForUpdate, Tx.getForUpdate, Tx.get]
      refine .seq (by simp) fun payment => .seq ?_ fun _ => ?_
      · refine Prog.derives_ite.mpr ⟨fun _ => ?_, fun _ => trivial⟩
        refine .seq (by simp) fun payment => .seq (by simp) fun amount => ?_
        refine .seq (copying.issueRefund env id amount _ actor) fun _ => ?_
        refine Prog.derives_ite.mpr ⟨fun _ => ?_, fun _ => trivial⟩
        refine .seq (by simp) fun payout => Prog.derives_forEach fun key _ => ?_
        exact (copying.markPayoutFailed key actor _).derives
      refine .seq (by simp [Disputes.freeze, copying.thawed]) fun _ => ?_
      refine .seq ?_ fun _ => .seq ?_ fun _ => ?_
      · refine Prog.derives_ite.mpr ⟨fun _ => ?_, fun _ => trivial⟩
        refine .seq (by simp) fun payout => .seq (by simp) fun balance => ?_
        refine Prog.derives_forEach fun key _ => Prog.derives_exec.mpr ⟨?_, trivial⟩
        exact copying.payoutSaved _ _ (by simp [keepsPayee_iff])
      · refine Prog.derives_ite.mpr ⟨fun _ => ?_, fun _ => ?_⟩
        · exact .bind (copying.transition _ _ _ _ _) fun _ _ => trivial
        · simp [Orders.recordEvent, ordering.told, jobMarks]
      · simp [elsewhere, Stmt.table]
  | _ => exact Request.Emits.derives (disputeCall_works ordering trivial)

end Copying

end Payments

end KnowledgeMarketplace
