import KnowledgeMarketplace.Payments.EventOrder
import KnowledgeMarketplace.Transaction.Sequence

/-!
# Failed attempts

A failed confirmation is rolled back and then recorded in a block of its own,
which a webhook nests in its own transaction.  The student can start the payment
again; the retry ends as a first success would have ended.
-/

namespace KnowledgeMarketplace

open Transaction

namespace Payments

variable {id : OrderId} {db : Db}

/-! ## One failure -/

/-- The gateway is asked about the order's payment, and reports a failure. -/
def Declines (id : OrderId) (db : Db) : Prop :=
  ∃ order payment, Asked id db order payment ∧ answer payment = .ok false

/-- The gateway is asked and reports success, and the work can start. -/
def Accepts (id : OrderId) (db : Db) : Prop :=
  ∃ order payment request, Succeeds id db order payment request

/-- What a failure makes of a payment: an open attempt becomes a failed one. -/
def afterFailure (payment : Payment) : Payment :=
  if attemptOpen payment then
    { payment with status := .failed, failureReason := failureReported }
  else payment

/-- The failure shows on the payment only. -/
structure Unharmed (id : OrderId) (db next : Db) : Prop where
  orders : next.orders = db.orders
  requests : next.requests = db.requests
  ledger : next.ledger = db.ledger
  timeline : next.orderEvents = db.orderEvents
  payments : ∀ other, next.payments.row other =
    if other = id then (db.payments.row id).map afterFailure
    else db.payments.row other

/-- The caller confirms the payment of the order. -/
inductive Attempts (id : OrderId) (db : Db) : PaymentCall → Prop where
  | admin (env : Env) : Attempts id db (.confirmPayment env id)
  | operator {env : Env} : env.paymentGateway = .manual →
      Attempts id db (.confirmOrderPayment env id)
  | devConfirm {env : Env} (actor : Actor) : env.devSelfConfirm = true →
      Attempts id db (.devConfirm env id actor)
  | ingest {env : Env} {provider : GatewayName}
      {webhook : Webhooks.VerifiedWebhook} {payment : Payment} :
      webhook.eventType = .paymentSucceeded →
      Webhooks.paymentByReference webhook.data.paymentReference db =
        some (id, payment) →
      (∀ event, db.webhookEvents.row webhook.eventId = some event →
        event.provider = provider ∧ event.status ≠ .processed) →
      Attempts id db (.ingest env provider (.ok webhook))
  | redeliver {env : Env} {eventId : String} {event : WebhookEvent}
      {payment : Payment} :
      db.webhookEvents.row eventId = some event →
      event.eventType = .paymentSucceeded →
      Webhooks.paymentByReference event.payload.paymentReference db =
        some (id, payment) →
      Attempts id db (.redeliver env eventId)

/-- What is recorded fits into its column. -/
theorem clip_failureReported : clip 255 failureReported = failureReported := by
  decide

/-- The record of a failure. -/
theorem markPaymentFailed_post {goal : Except Error Unit → Db → Prop}
    (recorded : ∀ next, Unharmed id db next →
      next.webhookEvents = db.webhookEvents → goal (.ok ()) next) :
    (markPaymentFailed id failureReported).Post db goal := by
  by_cases attempt : (db.payments.row id).any attemptOpen = true
  · obtain ⟨payment, stored, opened⟩ := (Option.any_eq_true _ _).mp attempt
    have runs : (markPaymentFailed id failureReported).eval db =
        (.ok (), (Stmt.updatePayment id fun stored =>
          { stored with
            status := .failed
            failureReason := clip 255 failureReported }).apply db) := by
      simp [markPaymentFailed, Tx.updateWhere, Prog.updateWhere,
        Prog.updateEach, Prog.bind_eq, Prog.bind, Prog.eval, attempt]
    have harmless : Unharmed id db ((Stmt.updatePayment id fun stored =>
          { stored with
            status := .failed
            failureReason := clip 255 failureReported }).apply db) := by
      refine ⟨rfl, rfl, rfl, rfl, fun other => ?_⟩
      rw [clip_failureReported]
      simp only [Stmt.apply, Table.row_modify]
      split_ifs with same
      · subst same
        simp [stored, afterFailure, opened]
      · rfl
    unfold Prog.Post
    rw [runs]
    exact recorded _ harmless rfl
  · have runs : (markPaymentFailed id failureReported).eval db = (.ok (), db) := by
      simp [markPaymentFailed, Tx.updateWhere, Prog.updateWhere,
        Prog.updateEach, Prog.bind_eq, Prog.bind, Prog.eval, attempt]
    have harmless : Unharmed id db db := by
      refine ⟨rfl, rfl, rfl, rfl, fun other => ?_⟩
      split_ifs with same
      · subst same
        cases stored : db.payments.row other with
        | none => rfl
        | some payment =>
            have closed : attemptOpen payment = false := by
              simpa [stored] using attempt
            simp [afterFailure, closed]
      · rfl
    unfold Prog.Post
    rw [runs]
    exact recorded _ harmless rfl

/-- The confirmation on its own. -/
theorem confirmPayment_leaves (declines : Declines id db) (env : Env) :
    (confirmPayment env id).Leaves db [] fun result next _ =>
      result = .error attemptFailedError ∧ Unharmed id db next := by
  obtain ⟨order, payment, asked, refused⟩ := declines
  refine Request.leaves_tryCatch.mpr (Request.leaves_atomic.mpr
    (asked.declined refused ?_ env))
  refine Request.leaves_bind.mpr (Request.leaves_atomic.mpr ?_)
  exact markPaymentFailed_post fun next harmless _ => ⟨rfl, harmless⟩

/-- The confirmation nested in the transaction of a webhook. -/
theorem confirmPaymentNested_unharmed (declines : Declines id db) (env : Env) :
    (confirmPaymentNested env id).Post db fun result next =>
      result = .error attemptFailedError ∧ Unharmed id db next ∧
        next.webhookEvents = db.webhookEvents := by
  obtain ⟨order, payment, asked, refused⟩ := declines
  refine Prog.post_attempt.mpr (asked.declined refused ?_ env)
  refine Prog.post_bind.mpr (markPaymentFailed_post fun next harmless events => ?_)
  exact ⟨rfl, harmless, events⟩

theorem row_of_paymentByReference
    {reference : String} {payment : Payment}
    (found : Webhooks.paymentByReference reference db = some (id, payment)) :
    db.payments.row id = some payment := by
  simp only [Webhooks.paymentByReference, Option.bind_eq_some_iff,
    Option.map_eq_some_iff, Prod.mk.injEq] at found
  obtain ⟨other, _, same, there, rfl, rfl⟩ := found
  exact there

/-- The event of a success whose payment the gateway declines. -/
theorem dispatch_post
    {data : EventData} {payment : Payment} (declines : Declines id db)
    (found : Webhooks.paymentByReference data.paymentReference db =
      some (id, payment)) (env : Env) :
    (Webhooks.dispatch env .paymentSucceeded data).Post db fun result next =>
      (∃ failure, result = .ok failure) ∧ Unharmed id db next ∧
        next.webhookEvents = db.webhookEvents := by
  have unconfirmed : payment.status ≠ .succeeded := by
    obtain ⟨order, other, asked, _⟩ := declines
    rw [Option.some.inj ((row_of_paymentByReference found).symm.trans
      asked.paymentRow)]
    exact asked.unconfirmed
  refine Prog.post_tryCatch.mpr (Prog.post_bind.mpr (Prog.post_bind.mpr
    (Prog.post_read.mpr (Prog.post_bind.mpr (Prog.post_orFail.mpr
      ⟨fun pair same => ?_, fun missing => ?_⟩)))))
  · obtain rfl := Option.some.inj (found.symm.trans same)
    refine Prog.post_ite.mpr ⟨fun _ => ?_, fun confirmed => ?_⟩
    · refine (confirmPaymentNested_unharmed declines env).mono ?_
      rintro result next ⟨rfl, harmless, events⟩
      exact ⟨⟨_, rfl⟩, harmless, events⟩
    · exact absurd unconfirmed confirmed
  · exact nomatch found.symm.trans missing

/-- The operator's confirmation finds the payment. -/
theorem run_confirmOrderPayment
    {env : Env} {order : Order} {payment : Payment}
    (asked : Asked id db order payment) (manual : env.paymentGateway = .manual) :
    (PaymentCall.confirmOrderPayment env id).call.run db =
      Request.run (confirmPayment env id) db := by
  have left : (PaymentCall.confirmOrderPayment env id).call.Leaves db []
      fun result next _ =>
        (result, next) = Request.run (confirmPayment env id) db := by
    simp only [PaymentCall.call, PaymentCall.findOrder, Call.get,
      confirmOrderPayment, Request.leaves_bind, Request.leaves_require,
      Request.leaves_load, Request.leaves_orFail, Request.leaves_ite,
      applyAll_nil, manual, asked.orderRow, asked.paymentRow, Option.all_some,
      asked.unconfirmed, ne_eq, not_false_eq_true, decide_true,
      not_true_eq_false, reduceCtorEq, false_implies, forall_const, and_true,
      true_and, Option.some.injEq, forall_eq']
    exact Request.leaves_iff_run.mpr rfl
  exact Request.leaves_iff_run.mp left

/-- So does the one by the student on a development system. -/
theorem run_devConfirm
    {env : Env} {order : Order} {payment : Payment} (actor : Actor)
    (asked : Asked id db order payment) (enabled : env.devSelfConfirm = true) :
    (PaymentCall.devConfirm env id actor).call.run db =
      Request.run (confirmPayment env id) db := by
  have left : (PaymentCall.devConfirm env id actor).call.Leaves db []
      fun result next _ =>
        (result, next) = Request.run (confirmPayment env id) db := by
    simp only [PaymentCall.call, PaymentCall.findOrder, Call.get,
      devConfirm, Request.leaves_bind, Request.leaves_require,
      Request.leaves_load, Request.leaves_orFail, Request.leaves_ite,
      applyAll_nil, enabled, asked.orderRow, asked.paymentRow,
      not_true_eq_false, reduceCtorEq, false_implies, forall_const, and_true,
      true_and, not_false_eq_true, Option.some.injEq, forall_eq']
    exact Request.leaves_iff_run.mpr rfl
  exact Request.leaves_iff_run.mp left

/-- Only the events differ. -/
structure SameBooks (db base : Db) : Prop where
  orders : base.orders = db.orders
  requests : base.requests = db.requests
  payments : base.payments = db.payments
  ledger : base.ledger = db.ledger
  timeline : base.orderEvents = db.orderEvents

theorem Asked.congr
    {base : Db} {order : Order} {payment : Payment}
    (asked : Asked id db order payment) (same : SameBooks db base) :
    Asked id base order payment :=
  { asked with
    orderRow := same.orders ▸ asked.orderRow
    paymentRow := same.payments ▸ asked.paymentRow }

theorem Unharmed.congr
    {base next : Db} (unharmed : Unharmed id base next)
    (same : SameBooks db base) : Unharmed id db next where
  orders := unharmed.orders.trans same.orders
  requests := unharmed.requests.trans same.requests
  ledger := unharmed.ledger.trans same.ledger
  timeline := unharmed.timeline.trans same.timeline
  payments := same.payments ▸ unharmed.payments

/-- The event is stored, and nothing else is touched. -/
theorem getOrCreateEvent_post
    {provider : GatewayName} (webhook : Webhooks.VerifiedWebhook)
    (stored : ∀ event, db.webhookEvents.row webhook.eventId = some event →
      event.provider = provider ∧ event.status ≠ .processed) :
    (Webhooks.getOrCreateEvent provider webhook).Post db fun result next =>
      ∃ event created, result = .ok (event, created) ∧
        event.provider = provider ∧
        ¬(created = false ∧ event.status = .processed) ∧
        SameBooks db next := by
  refine Prog.post_bind.mpr (Prog.post_read.mpr ?_)
  cases there : db.webhookEvents.row webhook.eventId with
  | some event =>
      obtain ⟨same, pending⟩ := stored event there
      exact ⟨event, false, rfl, same, fun both => pending both.2,
        ⟨rfl, rfl, rfl, rfl, rfl⟩⟩
  | none =>
      refine Prog.post_bind.mpr (Prog.post_lockRow.mpr
        (Prog.post_bind.mpr (Prog.post_read.mpr ?_)))
      rw [there]
      exact ⟨_, true, rfl, rfl, nofun, ⟨rfl, rfl, rfl, rfl, rfl⟩⟩

/-- An event that arrives is stored, dispatched and concluded. -/
theorem ingest_reaches
    {env : Env} {provider : GatewayName} {webhook : Webhooks.VerifiedWebhook}
    {goal : Db → Prop}
    (stored : ∀ event, db.webhookEvents.row webhook.eventId = some event →
      event.provider = provider ∧ event.status ≠ .processed)
    (dispatched : ∀ base, SameBooks db base →
      (Webhooks.dispatch env webhook.eventType webhook.data).Post base
        fun result next => (∃ failure, result = .ok failure) ∧ goal next)
    (concluded : ∀ set next, goal next →
      goal ((Stmt.saveWebhookEvent webhook.eventId set).apply next)) :
    goal (Request.run
      (Call.perform (Webhooks.ingest env provider (.ok webhook))) db).2 := by
  refine Call.perform_reaches (Prog.post_bind.mpr (Prog.post_ofExcept.mpr
    ⟨fun verified same => ?_, nofun⟩))
  obtain rfl := Except.ok.inj same
  refine Prog.post_bind.mpr ((getOrCreateEvent_post webhook stored).mono ?_)
  rintro _ base ⟨event, created, rfl, own, fresh, same⟩
  refine Prog.post_bind.mpr (Prog.post_require.mpr
    ⟨fun _ => Prog.post_ite.mpr ⟨fun known => absurd known fresh, fun _ => ?_⟩,
      fun other => absurd own other⟩)
  refine Prog.post_bind.mpr ((dispatched base same).mono ?_)
  rintro _ next ⟨⟨failure, rfl⟩, reached⟩
  exact Prog.post_bind.mpr
    (Prog.post_exec.mpr ⟨⟨true, rfl⟩, concluded _ next reached⟩)

/-- Every caller reaches the one confirmation, directly or for an event. -/
theorem Attempts.reaches
    {call : PaymentCall} {order : Order} {payment : Payment} {goal : Db → Prop}
    (attempts : Attempts id db call) (asked : Asked id db order payment)
    (direct : ∀ env, goal (Request.run (confirmPayment env id) db).2)
    (nested : ∀ env base data, SameBooks db base →
      Webhooks.paymentByReference data.paymentReference base =
        some (id, payment) →
      (Webhooks.dispatch env .paymentSucceeded data).Post base
        fun result next => (∃ failure, result = .ok failure) ∧ goal next)
    (concluded : ∀ eventId set next, goal next →
      goal ((Stmt.saveWebhookEvent eventId set).apply next)) :
    goal ((Operation.payment call).after db) := by
  unfold Operation.after
  cases attempts with
  | admin env => exact direct env
  | operator manual =>
      change goal ((PaymentCall.confirmOrderPayment _ id).call.run db).2
      rw [run_confirmOrderPayment asked manual]
      exact direct _
  | devConfirm actor enabled =>
      change goal ((PaymentCall.devConfirm _ id actor).call.run db).2
      rw [run_devConfirm actor asked enabled]
      exact direct _
  | @ingest env provider webhook other success found stored =>
      obtain rfl := Option.some.inj
        ((row_of_paymentByReference found).symm.trans asked.paymentRow)
      refine ingest_reaches stored (fun base same => ?_) (concluded _)
      have there : Webhooks.paymentByReference webhook.data.paymentReference
          base = some (id, other) := by
        unfold Webhooks.paymentByReference
        rw [same.payments]
        exact found
      rw [success]
      exact nested env base webhook.data same there
  | @redeliver env eventId event other stored success found =>
      obtain rfl := Option.some.inj
        ((row_of_paymentByReference found).symm.trans asked.paymentRow)
      have copied : (fun db : Db => db.webhookEvents.row eventId) db =
          some event := stored
      change goal (Request.run (Call.performOn
        (fun db : Db => db.webhookEvents.row eventId) "WebhookEvent"
          fun copy => Webhooks.redeliver env eventId copy) db).2
      rw [Call.run_performOn_some copied]
      refine Call.perform_reaches (Prog.post_bind.mpr ?_)
      rw [success]
      refine (nested env db event.payload ⟨rfl, rfl, rfl, rfl, rfl⟩ found).mono ?_
      rintro _ next ⟨⟨failure, rfl⟩, reached⟩
      exact Prog.post_exec.mpr ⟨⟨(), rfl⟩, concluded _ _ next reached⟩

/-- A failure that any caller finds shows on the payment only. -/
theorem Attempts.unharmed
    {call : PaymentCall} (attempts : Attempts id db call)
    (declines : Declines id db) :
    Unharmed id db ((Operation.payment call).after db) := by
  obtain ⟨order, payment, asked, refused⟩ := declines
  refine attempts.reaches asked (fun env => ?_) (fun env base data same found => ?_)
    fun eventId set next kept =>
      ⟨kept.orders, kept.requests, kept.ledger, kept.timeline, kept.payments⟩
  · exact (Request.leaves_iff_run.mp
      (confirmPayment_leaves ⟨order, payment, asked, refused⟩ env)).2
  · refine (dispatch_post ⟨order, payment, asked.congr same, refused⟩ found
      env).mono ?_
    rintro result next ⟨answered, unharmed, _⟩
    exact ⟨answered, unharmed.congr same⟩

/-! ## Retries -/

/-- What a successful confirmation leaves of an order. -/
structure Started
    (id : OrderId) (order : Order) (payment : Payment)
    (request : ServiceRequest) (db next : Db) : Prop where
  orderRow : ∃ env, next.orders.row id = some (begun env order)
  requestRow : next.requests.row order.request = some (atWork request)
  ledger : next.ledger = db.ledger ++
    Webhooks.income (payment.providerReference.getD "") id order

/-- A success that any caller finds starts the work. -/
theorem Attempts.starts
    {call : PaymentCall} {order : Order} {payment : Payment}
    {request : ServiceRequest} (attempts : Attempts id db call)
    (succeeds : Succeeds id db order payment request) :
    Started id order payment request db ((Operation.payment call).after db) := by
  refine attempts.reaches succeeds.asked (fun env => ?_)
    (fun env base data same found => ?_)
    fun eventId set next started =>
      ⟨started.orderRow, started.requestRow, started.ledger⟩
  · obtain ⟨next, yields, booked⟩ := succeeds.yields env
    have left : (confirmPayment env id).Leaves db [] fun _ next _ =>
        Started id order payment request db next := by
      refine Request.leaves_tryCatch.mpr (Request.leaves_atomic.mpr ?_)
      exact yields.post ⟨⟨env, booked.orderRow⟩, booked.requestRow, booked.ledger⟩
    exact Request.leaves_iff_run.mp left
  · have present : Succeeds id base order payment request :=
      { succeeds with
        asked := succeeds.asked.congr same
        requestRow := same.requests ▸ succeeds.requestRow }
    obtain ⟨next, yields, booked⟩ := present.yields env
    have dispatched : (Webhooks.dispatch env .paymentSucceeded data).Yields base
        none next :=
      .tryCatch (.bind (.bind .read (.bind (.orFail found)
        (.ite_true succeeds.asked.unconfirmed (.attempt yields)))) .pure)
    exact dispatched.post ⟨⟨none, rfl⟩, ⟨env, booked.orderRow⟩,
      booked.requestRow, same.ledger ▸ booked.ledger⟩

/-- Before the success, only payments and events change. -/
structure Untouched (base db : Db) : Prop where
  orders : db.orders = base.orders
  requests : db.requests = base.requests
  ledger : db.ledger = base.ledger

/-- A confirmation that fails, or a start of the payment. -/
inductive Tries (id : OrderId) : PaymentCall → Db → Prop where
  | failure {call : PaymentCall} {db : Db} :
      Attempts id db call → Declines id db → Tries id call db
  | start {db : Db} (env : Env) (actor : Actor) :
      Tries id (.startPayment env id actor) db

/-- The start of a payment writes its row only. -/
theorem startPayment_untouched
    {base : Db} (untouched : Untouched base db) (env : Env) (actor : Actor) :
    Untouched base
      ((Operation.payment (.startPayment env id actor)).after db) := by
  have ends : Call.Ends (PaymentCall.startPayment env id actor).call db
      (Untouched base) := by
    refine Call.performOn_ends fun copy _ => ?_
    simp only [startPayment, createPaymentRow, Tx.create, Prog.post_bind,
      Prog.post_require, Prog.post_read, Prog.post_orElse, Prog.post_ofExcept,
      Prog.post_lockRow, Prog.post_exec, Prog.post_ite, Prog.post_pure,
      reduceCtorEq, false_implies, implies_true, and_true]
    have kept : ∀ payments, Untouched base { db with payments } :=
      fun _ => ⟨untouched.orders, untouched.requests, untouched.ledger⟩
    intro _ _
    exact ⟨fun found _ _ => ⟨fun _ _ _ => untouched, fun _ _ _ _ => kept _⟩,
      fun _ _ _ _ _ => ⟨fun _ _ _ => kept _, fun _ _ _ _ => kept _⟩⟩
  exact ends.lasting untouched

theorem Tries.untouched
    {call : PaymentCall} {base : Db} (tries : Tries id call db)
    (untouched : Untouched base db) :
    Untouched base ((Operation.payment call).after db) := by
  cases tries with
  | failure attempts declines =>
      have kept := attempts.unharmed declines
      exact ⟨kept.orders.trans untouched.orders,
        kept.requests.trans untouched.requests,
        kept.ledger.trans untouched.ledger⟩
  | start env actor => exact startPayment_untouched untouched env actor

/-- Failures and starts of the payment, and then a success. -/
structure Tried (id : OrderId) (trials : List PaymentCall) (db last : Db) :
    Prop where
  met : Request.AllMeet PaymentCall.call (Tries id) trials db
  success : ∃ call,
    Attempts id (Request.afterAll PaymentCall.call trials db) call ∧
    Accepts id (Request.afterAll PaymentCall.call trials db) ∧
    last = (Operation.payment call).after
      (Request.afterAll PaymentCall.call trials db)

/-- The order without its time of payment. -/
def untimed (order : Order) : Order :=
  { order with paidAt := order.paidAt.map fun _ => 0 }

/-- The entry without the reference of the provider. -/
def unreferenced (entry : LedgerEntry) : LedgerEntry :=
  { entry with providerObjectId := "" }

/-- Two ends of a start that differ in references and times only. -/
structure SameEnd (id : OrderId) (db last other : Db) : Prop where
  order : (last.orders.row id).map untimed = (other.orders.row id).map untimed
  request : ∀ order, last.orders.row id = some order →
    last.requests.row order.request = other.requests.row order.request
  ledger : ∃ booked rebooked, last.ledger = db.ledger ++ booked ∧
    other.ledger = db.ledger ++ rebooked ∧
    booked.map unreferenced = rebooked.map unreferenced

/-- What is tried comes to the same end. -/
theorem Tried.started
    {trials : List PaymentCall} {last : Db} (tried : Tried id trials db last) :
    ∃ order payment request, db.orders.row id = some order ∧
      db.requests.row order.request = some request ∧
      Started id order payment request db last := by
  obtain ⟨met, call, attempts, ⟨order, payment, request, succeeds⟩, rfl⟩ := tried
  have untouched : Untouched db (Request.afterAll PaymentCall.call trials db) :=
    met.keeps (Untouched db) (fun call current tries kept => tries.untouched kept)
      ⟨rfl, rfl, rfl⟩
  have started := attempts.starts succeeds
  exact ⟨order, payment, request, untouched.orders ▸ succeeds.asked.orderRow,
    untouched.requests ▸ succeeds.requestRow, started.orderRow,
    started.requestRow, untouched.ledger ▸ started.ledger⟩

/-- Whatever was tried, and whatever the payment was, the end is the same. -/
theorem Tried.sameEnd
    {trials others : List PaymentCall} {last fresh other : Db}
    (tried : Tried id trials db last) (first : Tried id others fresh other)
    (untouched : Untouched db fresh) : SameEnd id db last other := by
  obtain ⟨order, payment, request, stored, present, started⟩ := tried.started
  obtain ⟨again, repaid, rerequest, restored, represent, restarted⟩ :=
    first.started
  rw [untouched.orders] at restored
  rw [untouched.requests] at represent
  obtain rfl := Option.some.inj (stored.symm.trans restored)
  obtain rfl := Option.some.inj (present.symm.trans represent)
  obtain ⟨env, orderRow⟩ := started.orderRow
  obtain ⟨later, otherRow⟩ := restarted.orderRow
  refine ⟨?_, fun found there => ?_,
    _, _, started.ledger,
    restarted.ledger.trans (congrArg (· ++ _) untouched.ledger), rfl⟩
  · rw [orderRow, otherRow]
    rfl
  · obtain rfl := Option.some.inj (orderRow.symm.trans there)
    exact started.requestRow.trans restarted.requestRow.symm

/-! ## Starting again -/

/-- A confirmation that fails. -/
def Fails (id : OrderId) (call : PaymentCall) (db : Db) : Prop :=
  Attempts id db call ∧ Declines id db

/-- The order waits, and its last attempt is over. -/
def Stopped (id : OrderId) (db : Db) : Prop :=
  ∃ order payment, Asked id db order payment ∧ payment.status ≠ .pending

/-- A failure ends the attempt. -/
theorem Fails.stopped {call : PaymentCall} (fails : Fails id call db) :
    Stopped id ((Operation.payment call).after db) := by
  obtain ⟨attempts, order, payment, asked, refused⟩ := fails
  have unharmed := attempts.unharmed ⟨order, payment, asked, refused⟩
  have stored : ((Operation.payment call).after db).payments.row id =
      some (afterFailure payment) := by
    rw [unharmed.payments id, if_pos rfl, asked.paymentRow]
    rfl
  have orderRow : ((Operation.payment call).after db).orders.row id =
      some order := unharmed.orders ▸ asked.orderRow
  by_cases opened : attemptOpen payment = true
  · have failed : afterFailure payment =
        { payment with status := .failed, failureReason := failureReported } := by
      simp [afterFailure, opened]
    rw [failed] at stored
    exact ⟨order, _, ⟨orderRow, asked.waiting, stored, nofun, ⟨nofun, nofun⟩,
      asked.matched, asked.named⟩, nofun⟩
  · have same : afterFailure payment = payment := by
      simp [afterFailure, opened]
    rw [same] at stored
    refine ⟨order, payment, { asked with orderRow, paymentRow := stored },
      fun pending => opened ?_⟩
    simp [attemptOpen, pending]

/-- After any number of failures the last attempt is over. -/
theorem stopped_of_failures
    {failures : List PaymentCall} (some : failures ≠ [])
    (failed : Request.AllMeet PaymentCall.call (Fails id) failures db) :
    Stopped id (Request.afterAll PaymentCall.call failures db) := by
  cases failures with
  | nil => exact absurd rfl some
  | cons call rest =>
      exact failed.2.keeps (Stopped id) (fun _ _ fails _ => fails.stopped)
        failed.1.stopped

/-- The student can start the payment on manual rails. -/
structure CanStart
    (env : Env) (actor : Actor) (id : OrderId) (db : Db) : Prop where
  manual : env.paymentGateway = .manual
  fresh : referenceUsed (newReference env .manual) db = false
  order : ∃ order request, db.orders.row id = some order ∧
    order.student = actor.id ∧ order.paidAt = none ∧
    db.requests.row order.request = some request

/-- The start by the student makes a new attempt, which can succeed. -/
theorem Stopped.rearmed
    {env : Env} {actor : Actor} (stopped : Stopped id db)
    (can : CanStart env actor id db) :
    Accepts id ((Operation.payment (.startPayment env id actor)).after db) := by
  obtain ⟨manual, fresh, order, request, stored, student, unpaid, present⟩ := can
  obtain ⟨copy, payment, asked, ended⟩ := stopped
  obtain rfl := Option.some.inj (stored.symm.trans asked.orderRow)
  have starts : (startPayment env id order actor).Yields db
      (rearm env order payment)
      ((Stmt.savePayment id (rearm env order)).apply db) := by
    refine .bind (.require student) <| .bind (.require asked.waiting) <|
      .bind .read <| .bind ?_ <| .bind (.require asked.unconfirmed) <|
      .ite_false (fun both => ended both.1) <| .bind .read <|
      .bind (.require ?_) <| .bind .exec .pure
    · rw [asked.paymentRow]
      rfl
    · rw [manual, fresh]
      exact Bool.false_ne_true
  have copied : PaymentCall.findOrder id db = some order := stored
  have left : (Operation.payment (.startPayment env id actor)).after db =
      (Stmt.savePayment id (rearm env order)).apply db :=
    congrArg Prod.snd ((Call.run_performOn_some copied).trans
      (Call.run_perform starts))
  obtain ⟨truthful, given⟩ := Webhooks.issued_truthful env
  rw [left]
  refine ⟨order, rearm env order payment, request,
    ⟨stored, asked.waiting, ?_, nofun, ⟨nofun, nofun⟩, ⟨rfl, rfl⟩, ?_⟩, ?_,
    unpaid, present⟩
  · simp [Stmt.apply, asked.paymentRow]
  · simp [rearm, truthy, manual, given]
  · simp only [answer, rearm, manual]
    exact truthful

/--
A confirmation that fails leaves the order, its request, the ledger and the
timeline alone, and ends the payment's attempt if it is open.  After any number
of failures the student can start again, and the success ends as a first try
would have ended.
-/
theorem failed_attempts_retryable (id : OrderId) (db : Db) :
    (∀ call, Attempts id db call → Declines id db →
      Unharmed id db ((Operation.payment call).after db)) ∧
    (∀ trials last, Tried id trials db last →
      ∀ fresh, Untouched db fresh → ∀ env actor first,
        Tried id [.startPayment env id actor] fresh first →
          SameEnd id db last first) ∧
    ∀ failures, failures ≠ [] →
      Request.AllMeet PaymentCall.call (Fails id) failures db →
      let reached := Request.afterAll PaymentCall.call failures db
      ∀ env actor, CanStart env actor id reached →
        Accepts id
          ((Operation.payment (.startPayment env id actor)).after reached) := by
  refine ⟨fun call attempts declines => attempts.unharmed declines,
    fun trials last tried fresh untouched env actor first started =>
      tried.sameEnd started untouched,
    fun failures some failed env actor can => ?_⟩
  exact (stopped_of_failures some failed).rearmed can

/-- The provider fails the first attempt of a payment. -/
def failing : Db where
  requests := .insert .empty 10 { student := 1, status := .matched }
  orders := .insert .empty 40 Webhooks.waitingOrder
  payments := .insert .empty 40
    { gateway := .manual
      providerReference := some "fail-1"
      amountMinor := 5000 }

/-- The order's payment has not been started. -/
def unstarted : Db :=
  { failing with payments := .empty }

/-- The operator confirms the payment. -/
def operatorConfirms (env : Env) : PaymentCall :=
  .confirmOrderPayment env 40

/-- The student starts the payment. -/
def studentStarts (env : Env) : PaymentCall :=
  .startPayment env 40 ⟨1, false⟩

theorem failing_declines : Declines 40 failing :=
  ⟨Webhooks.waitingOrder, _,
    ⟨rfl, rfl, rfl, nofun, ⟨nofun, nofun⟩, ⟨rfl, rfl⟩, by decide⟩,
    by decide +kernel⟩

/-- The operator fails, the student starts again and the operator succeeds. -/
theorem failing_retried :
    Unharmed 40 failing
      ((Operation.payment (operatorConfirms { now := 1 })).after failing) ∧
    SameEnd 40 failing
      (Request.afterAll PaymentCall.call
        [operatorConfirms { now := 1 }, studentStarts { now := 2, hex := "a" },
          operatorConfirms { now := 3 }] failing)
      (Request.afterAll PaymentCall.call
        [studentStarts { now := 0, hex := "b" }, operatorConfirms { now := 0 }]
        unstarted) := by
  have operator : ∀ db now, Attempts 40 db (operatorConfirms { now }) :=
    fun db now => .operator rfl
  have can : CanStart { now := 2, hex := "a" } ⟨1, false⟩ 40
      (Request.afterAll PaymentCall.call [operatorConfirms { now := 1 }]
        failing) :=
    ⟨rfl, by decide +kernel, Webhooks.waitingOrder,
      { student := 1, status := .matched }, by decide +kernel, rfl, rfl,
      by decide +kernel⟩
  obtain ⟨unharmed, sameEnd, rearmed⟩ := failed_attempts_retryable 40 failing
  have accepts := rearmed [operatorConfirms { now := 1 }] (by simp)
    ⟨⟨operator _ _, failing_declines⟩, trivial⟩ _ _ can
  refine ⟨unharmed _ (operator _ _) failing_declines, ?_⟩
  refine sameEnd [operatorConfirms { now := 1 }, studentStarts { now := 2, hex := "a" }]
    _ ⟨⟨.failure (operator _ _) failing_declines, .start _ _, trivial⟩,
      operatorConfirms { now := 3 }, operator _ _, accepts, rfl⟩
    unstarted ⟨rfl, rfl, rfl⟩ { now := 0, hex := "b" } ⟨1, false⟩ _
    ⟨⟨.start _ _, trivial⟩, operatorConfirms { now := 0 }, operator _ _, ?_, rfl⟩
  exact ⟨Webhooks.waitingOrder,
    { gateway := .manual
      providerReference := some "manual-pay-b"
      amountMinor := 5000 },
    { student := 1, status := .matched },
    ⟨by decide +kernel, rfl, by decide +kernel, nofun, ⟨nofun, nofun⟩,
      ⟨rfl, rfl⟩, by decide⟩, by decide +kernel, rfl, by decide +kernel⟩

/-- The provider reports a failure of the first attempt. -/
def cardDeclined : Webhooks.VerifiedWebhook where
  eventId := "evt-1"
  eventType := .paymentFailed
  data := { paymentReference := "fail-1", reason := "Card declined" }

/-- A failure of an attempt that has failed does not change the reason. -/
theorem old_reason_kept :
    ¬∀ (id : OrderId) (db : Db) (call : PaymentCall),
      Attempts id db call → Declines id db →
        (((Operation.payment call).after db).payments.row id).map
          (fun payment => (payment.status, payment.failureReason)) =
            some (.failed, failureReported) := by
  intro recorded
  have declined := recorded 40
    ((Operation.payment (.ingest { now := 1 } .manual (.ok cardDeclined))).after
      failing) (operatorConfirms { now := 2 }) (.operator rfl) ?_
  · revert declined
    decide +kernel
  · exact ⟨Webhooks.waitingOrder,
      { gateway := .manual
        providerReference := some "fail-1"
        amountMinor := 5000
        status := .failed
        failureReason := "Card declined" },
      ⟨by decide +kernel, rfl, by decide +kernel, nofun, ⟨nofun, nofun⟩,
        ⟨rfl, rfl⟩, by decide⟩, by decide +kernel⟩

end Payments

end KnowledgeMarketplace
