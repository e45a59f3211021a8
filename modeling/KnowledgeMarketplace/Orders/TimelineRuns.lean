import KnowledgeMarketplace.Orders.Creation
import KnowledgeMarketplace.Orders.Timeline

/-!
# Services keep the timeline

Each service that moves an order writes the status and its event next to each
other, so every commit is a batch after which the timelines agree.
-/

namespace KnowledgeMarketplace

open Transaction

namespace Orders

/-- The service commits batches that keep the timelines. -/
abbrev Narrates {α : Type} (service : Tx α) : Prop :=
  service.Batches rowLocks Retells

/-- A silent statement at the end of a batch. -/
theorem Retells.concat
    {stmts : List Stmt} {stmt : Stmt} (before : Retells stmts)
    (mute : silent (.write stmt)) : Retells (stmts ++ [stmt]) :=
  before.append (retells_of_silent mute)

theorem narrates_of_silent
    {α : Type} {service : Tx α} (mute : service.Emits silent fun _ => True) :
    Narrates service :=
  Prog.batches_of_emits mute (by simp [silent]) fun _ _ => Retells.concat

/-- An event that tells a status by its type. -/
theorem tell_of_status
    {event : OrderEvent} {status : OrderStatus}
    (tells : statusOf event.eventType = some status)
    (work : status ≠ .disputed) (told : Told) :
    tell told event = { told with status := some status } := by
  unfold tell
  cases shape : event.eventType <;> simp_all [statusOf]

/-- What `transition` writes if it succeeds. -/
theorem transition_wp
    {protocol : Protocol Db Row Stmt} {ctx : Ctx Db Row Stmt} {id : OrderId}
    {toStatus : OrderStatus} {eventType : OrderEventType} {actor : Option Actor}
    {goal : Except Error Order → Ctx Db Row Stmt → Prop}
    (errors : ∀ error later, later.writes = ctx.writes →
      goal (.error error) later)
    (success : ∀ order later, later.writes = ctx.writes ++
      moving id toStatus [{ order := id, eventType, actor := actor.map Actor.id }] →
      ctx.Extends (fun _ => True) later → goal (.ok order) later) :
    (transition id toStatus eventType actor).wp protocol ctx goal := by
  simp only [transition, recordEvent, getForUpdate, Tx.getForUpdate, Tx.get,
    Prog.wp_bind, Prog.wp_lockRow, Prog.wp_read, Prog.wp_orFail,
    Prog.wp_require, Prog.wp_exec, Prog.wp_pure]
  intro _ _ _
  refine ⟨fun found _ => ⟨fun _ => success _ _ (by simp [moving]) ?_,
    fun _ => errors _ _ rfl⟩, fun _ => errors _ _ rfl⟩
  exact .trans .take (.trans .observe (.trans (.push trivial) (.push trivial)))

/-- Moving an order and telling so, then going on. -/
theorem narrates_move
    {α : Type} {id : OrderId} {toStatus : OrderStatus}
    {eventType : OrderEventType} {actor : Option Actor} {rest : Order → Tx α}
    (tells : statusOf eventType = some toStatus) (work : toStatus ≠ .disputed)
    (next : ∀ order, Narrates (rest order)) :
    Narrates (transition id toStatus eventType actor >>= rest) := by
  intro ctx before
  refine Prog.wp_bind.mpr (transition_wp (fun error later same => ?_)
    fun order later writes _ => next order later ?_)
  · exact same ▸ before
  · rw [writes]
    exact before.append (retells_moving (by simp) fun told =>
      tell_of_status tells work told)

/-- The same if the move is told twice. -/
theorem narrates_moveTwice
    {α : Type} {id : OrderId} {toStatus : OrderStatus}
    {eventType again : OrderEventType} {actor : Option Actor}
    {rest : Order → Tx α} (tells : statusOf eventType = some toStatus)
    (also : statusOf again = some toStatus) (work : toStatus ≠ .disputed)
    (next : ∀ order, Narrates (rest order)) :
    Narrates (do
      let order ← transition id toStatus eventType actor
      recordEvent id again actor
      rest order) := by
  intro ctx before
  refine Prog.wp_bind.mpr (transition_wp (fun error later same => ?_)
    fun order later writes _ => ?_)
  · exact same ▸ before
  refine Prog.wp_bind.mpr (next order _ ?_)
  have twice : Retells (moving id toStatus
      [{ order := id, eventType, actor := actor.map Actor.id },
        { order := id, eventType := again, actor := actor.map Actor.id }]) := by
    refine retells_moving (by simp) fun told => ?_
    simp only [List.foldl_cons, List.foldl_nil]
    rw [tell_of_status also work, tell_of_status tells work]
  rw [Ctx.push_writes, writes, List.append_assoc]
  exact before.append twice

/-! ## Work on an order -/

/-- Reading and checking tells nothing. -/
theorem getForUpdate_silent (id : OrderId) :
    (getForUpdate id).Emits silent fun _ => True := by
  simp [getForUpdate, Tx.getForUpdate, Tx.get]

theorem moveRequest_silent
    (env : Env) (id : RequestId) (fromStatuses : List RequestStatus)
    (toStatus : RequestStatus) (reason : String) :
    (moveRequest env id fromStatuses toStatus reason).Emits silent
      fun _ => True :=
  moveRequest_emits fun _ _ => by simp [ServiceRequests.transition, silent]

theorem markPaid_narrates
    (env : Env) (id : OrderId) (order : Order) (actor : Option Actor) :
    Narrates (markPaid env id order actor) := by
  refine .seq (narrates_of_silent (by simp)) fun _ => ?_
  refine .seq (narrates_of_silent (by simp)) fun _ => ?_
  refine .seq (narrates_of_silent (by simp [silent])) fun _ => ?_
  exact narrates_moveTwice rfl rfl (by simp) fun _ =>
    narrates_of_silent (moveRequest_silent _ _ _ _ _)

theorem submitDelivery_narrates
    (env : Env) (id : OrderId) (expert : Actor) (summary : String)
    (attachments : Except Error Unit) :
    Narrates (submitDelivery env id expert summary attachments) := by
  refine .seq (narrates_of_silent (getForUpdate_silent id)) fun order => ?_
  refine .seq (narrates_of_silent (by simp)) fun _ => ?_
  refine .seq (narrates_of_silent (by simp)) fun _ => ?_
  refine .seq (narrates_of_silent (by simp)) fun _ => ?_
  refine .seq (narrates_of_silent (by simp)) fun _ => ?_
  refine .seq (narrates_of_silent (by simp [Tx.create, silent])) fun _ => ?_
  refine .seq (narrates_of_silent (by simp [silent])) fun _ => ?_
  refine narrates_move ?_ (by simp) fun _ => narrates_of_silent (by simp)
  split_ifs <;> rfl

theorem requestRevision_narrates
    (env : Env) (id : OrderId) (student : Actor) (note : String) :
    Narrates (requestRevision env id student note) := by
  refine .seq (narrates_of_silent (getForUpdate_silent id)) fun order => ?_
  refine .seq (narrates_of_silent (by simp)) fun _ => ?_
  refine .seq (narrates_of_silent (by simp)) fun _ => ?_
  refine .seq (narrates_of_silent (by simp)) fun _ => ?_
  refine .seq (narrates_of_silent (by simp)) fun _ => ?_
  refine .seq (narrates_of_silent (by simp)) fun found => ?_
  refine .seq (narrates_of_silent (by simp)) fun delivery => ?_
  refine .seq (narrates_of_silent (by simp [silent])) fun _ => ?_
  refine .seq (narrates_of_silent (by simp [silent])) fun _ => ?_
  exact narrates_moveTwice rfl rfl (by simp) fun _ =>
    narrates_of_silent (by simp)

theorem approveDelivery_narrates
    (env : Env) (id : OrderId) (actor : Option Actor)
    (source : ApprovalSource) :
    Narrates (approveDelivery env id actor source) := by
  refine .seq (narrates_of_silent (getForUpdate_silent id)) fun order => ?_
  refine .seq (narrates_of_silent (by simp)) fun _ => ?_
  refine .seq (narrates_of_silent (by simp)) fun _ => ?_
  refine .seq (narrates_of_silent (by simp)) fun delivery => ?_
  refine .seq (narrates_of_silent (by simp [silent])) fun _ => ?_
  refine .seq (narrates_of_silent (by simp [silent])) fun _ => ?_
  refine narrates_moveTwice ?_ rfl (by simp) fun completed => ?_
  · split_ifs <;> rfl
  refine .seq (narrates_of_silent (moveRequest_silent _ _ _ _ _)) fun _ => ?_
  exact narrates_of_silent (by simp [Payments.schedulePayout, Tx.create, silent])

theorem cancel_narrates
    (env : Env) (id : OrderId) (actor : Actor) (reason : String) :
    Narrates (cancel env id actor reason) := by
  refine .seq (narrates_of_silent (getForUpdate_silent id)) fun order => ?_
  refine .seq (narrates_of_silent (by simp)) fun _ => ?_
  refine .seq (narrates_of_silent (by simp)) fun _ => ?_
  refine .seq (narrates_of_silent (by simp)) fun _ => ?_
  refine .seq (narrates_of_silent (by simp [silent])) fun _ => ?_
  refine narrates_move rfl (by simp) fun cancelled => ?_
  refine .seq (narrates_of_silent ?_) fun _ =>
    narrates_of_silent (moveRequest_silent _ _ _ _ _)
  exact Prog.emits_updateWhere ⟨fun _ => trivial, fun _ => trivial⟩

theorem cancelUnpaid_narrates (env : Env) (id : OrderId) :
    Narrates (cancelUnpaid env id) := by
  refine .seq (narrates_of_silent (by simp [silent])) fun _ => ?_
  exact narrates_move rfl (by simp) fun _ => narrates_of_silent (by simp)

theorem autoApproveOne_narrates (env : Env) (id : OrderId) :
    Narrates (autoApproveOne env id) := by
  refine .seq (narrates_of_silent (getForUpdate_silent id)) fun order => ?_
  split_ifs
  · exact approveDelivery_narrates env id none .auto
  · exact narrates_of_silent (by simp)

end Orders

namespace Payments

open Orders

/-- A confirmation books the payment, then activates the order. -/
theorem confirmPaymentAtomic_narrates (env : Env) (id : OrderId) :
    Narrates (confirmPaymentAtomic env id) := by
  have booked : ∀ entry, (ledger entry).Emits silent fun _ => True := by
    simp [ledger, silent]
  refine .seq (narrates_of_silent (by simp [Tx.get])) fun _ => ?_
  refine .seq (narrates_of_silent (getForUpdate_silent id)) fun order => ?_
  refine .seq (narrates_of_silent ?_) fun payment => ?_
  · simp [getForUpdate, Tx.getForUpdate, Tx.get]
  refine .seq (narrates_of_silent (by simp)) fun _ => ?_
  refine .seq (narrates_of_silent (by simp)) fun _ => ?_
  refine .seq (narrates_of_silent (by simp)) fun _ => ?_
  refine .seq (narrates_of_silent (by simp)) fun _ => ?_
  refine .seq (narrates_of_silent (by simp)) fun _ => ?_
  refine .seq (narrates_of_silent (by simp)) fun succeeded => ?_
  refine .seq (narrates_of_silent (by simp)) fun _ => ?_
  refine .seq (narrates_of_silent (by simp [silent])) fun _ => ?_
  refine .seq (narrates_of_silent (booked _)) fun _ => ?_
  refine .seq (narrates_of_silent (booked _)) fun _ => ?_
  refine .seq (narrates_of_silent (booked _)) fun _ => ?_
  refine .seq (narrates_of_silent (by simp [Tx.get])) fun current => ?_
  exact markPaid_narrates env id current none

theorem markPaymentFailed_silent (id : OrderId) (reason : String) :
    (markPaymentFailed id reason).Emits silent fun _ => True :=
  .seq (Prog.emits_updateWhere ⟨fun _ => trivial, fun _ => trivial⟩)
    fun _ => trivial

theorem confirmPaymentNested_narrates (env : Env) (id : OrderId) :
    Narrates (confirmPaymentNested env id) := by
  refine .attempt ?_ (confirmPaymentAtomic_narrates env id) fun error => ?_
  · exact confirmPaymentAtomic_emits (by simp) (by simp) (by simp) (by simp)
      (by simp) (by simp [ServiceRequests.transition])
  · cases error with
    | attemptFailed reason =>
        exact .seq (narrates_of_silent (markPaymentFailed_silent id reason))
          fun _ => narrates_of_silent (by simp)
    | _ => exact narrates_of_silent (by simp)

end Payments

namespace Webhooks

open Orders

theorem dispatch_narrates
    (env : Env) (eventType : EventType) (data : EventData) :
    Narrates (dispatch env eventType data) := by
  have recovered : ∀ handler : Tx Unit, Narrates handler →
      Narrates (Tx.tryCatch (do handler; return none) fun error =>
        Tx.ofExcept (recover error)) := fun handler narrates =>
    .tryCatch (.seq narrates fun _ => narrates_of_silent (by simp))
      fun error => narrates_of_silent (by simp)
  cases eventType with
  | paymentSucceeded =>
      refine recovered _ ?_
      refine .seq (narrates_of_silent (by simp)) fun found => ?_
      refine .seq (narrates_of_silent (by simp)) fun pair => ?_
      obtain ⟨id, payment⟩ := pair
      simp only []
      split_ifs
      · exact Payments.confirmPaymentNested_narrates env id
      · exact narrates_of_silent (by simp)
  | paymentFailed =>
      exact recovered _ (narrates_of_silent (by
        simp [handlePaymentFailed, silent]))
  | refundSucceeded =>
      exact recovered _ (narrates_of_silent (by
        simp [handleRefundSucceeded, silent]))
  | other name => exact narrates_of_silent (Prog.emits_pure.mpr trivial)

theorem ingest_narrates
    (env : Env) (provider : GatewayName)
    (verified : Except Error VerifiedWebhook) :
    Narrates (ingest env provider verified) := by
  refine .seq (narrates_of_silent (by simp)) fun webhook => ?_
  refine .seq (narrates_of_silent (by simp [getOrCreateEvent, silent]))
    fun pair => ?_
  obtain ⟨event, created⟩ := pair
  refine .seq (narrates_of_silent (by simp)) fun _ => ?_
  split_ifs
  · exact narrates_of_silent (by simp)
  · exact .seq (dispatch_narrates _ _ _) fun _ =>
      narrates_of_silent (by simp [silent])

theorem redeliver_narrates (env : Env) (eventId : String) (event : WebhookEvent) :
    Narrates (redeliver env eventId event) :=
  .seq (dispatch_narrates _ _ _) fun _ => narrates_of_silent (by simp [silent])

end Webhooks

/-! ## Requests -/

section

open Orders

/-- The request commits batches that keep the timelines. -/
abbrev Call.Narrates {α : Type} (call : Call α) : Prop :=
  Request.Batches rowLocks Retells call

theorem Call.narrates_atomic
    {α : Type} {service : Tx α} (narrates : Orders.Narrates service) :
    Call.Narrates (Call.atomic service) :=
  .atomic (fun _ fine => rowLocks_commit fun _ _ => fine) retells_nil narrates

theorem Call.narrates_perform
    {α : Type} {service : Tx α} (narrates : Orders.Narrates service) :
    Call.Narrates (Call.perform service) :=
  Call.narrates_atomic (.seq narrates fun _ => narrates_of_silent (by simp))

/-- Reading first, outside a transaction. -/
theorem Call.narrates_get
    {ρ : Type} (find : Db → Option ρ) (model : String) :
    Call.Narrates (Call.get find model) := by
  simp [Call.get, Request.Batches]

theorem Call.narrates_performOn
    {ρ α : Type} {find : Db → Option ρ} {model : String} {service : ρ → Tx α}
    (narrates : ∀ copy, Orders.Narrates (service copy)) :
    Call.Narrates (Call.performOn find model service) :=
  .seq (Call.narrates_get find model)
    fun copy => Call.narrates_perform (narrates copy)

theorem OrderCall.narrates
    {call : OrderCall} (work : ¬call.Deadlines) : Call.Narrates call.call := by
  cases call with
  | submitDelivery => exact Call.narrates_perform (submitDelivery_narrates _ _ _ _ _)
  | requestRevision => exact Call.narrates_perform (requestRevision_narrates _ _ _ _)
  | approveDelivery => exact Call.narrates_perform (approveDelivery_narrates _ _ _ _)
  | cancel => exact Call.narrates_perform (cancel_narrates _ _ _ _)
  | autoApproveDue env =>
      refine .seq (by simp [Request.Batches]) fun due => .forEach fun item _ => ?_
      refine .tryCatch (Call.narrates_atomic (autoApproveOne_narrates _ _))
        fun error => ?_
      cases error <;> simp [Request.Batches]
  | sweepUnpaid env =>
      refine Call.narrates_perform (.seq (narrates_of_silent (by simp)) fun stale => ?_)
      exact .seq (.forEach fun id _ => cancelUnpaid_narrates env id)
        fun _ => narrates_of_silent (by simp)
  | awaitingPaymentSweeper =>
      simp [OrderCall.call, Orders.awaitingPaymentSweeper, Request.Batches]
  | _ => exact absurd trivial work

/-- The payment services that can confirm a payment. -/
def PaymentCall.Confirms : PaymentCall → Prop
  | .confirmPayment _ _ | .confirmOrderPayment _ _ | .devConfirm _ _ _
  | .ingest _ _ _ | .redeliver _ _ => True
  | _ => False

theorem PaymentCall.Confirms.narrates
    {call : PaymentCall} (confirms : call.Confirms) :
    Call.Narrates call.call := by
  have confirm : ∀ env id, Call.Narrates (Payments.confirmPayment env id) := by
    intro env id
    refine .tryCatch (Call.narrates_atomic
      (Payments.confirmPaymentAtomic_narrates env id)) fun error => ?_
    cases error with
    | attemptFailed reason =>
        exact .seq (Call.narrates_atomic (narrates_of_silent
          (Payments.markPaymentFailed_silent id reason)))
          fun _ => by simp [Request.Batches]
    | _ => simp [Request.Batches]
  cases call with
  | confirmPayment env id => exact confirm env id
  | confirmOrderPayment env id =>
      refine .seq (Call.narrates_get _ _) fun order => ?_
      refine .seq (by simp [Request.Batches]) fun _ => ?_
      refine .seq (by simp [Request.Batches]) fun payment => ?_
      refine .seq (by simp [Request.Batches]) fun _ => ?_
      have created := Call.narrates_atomic (narrates_of_silent (by
        simp [Payments.createPaymentRow, Tx.create, silent] :
          (Payments.createPaymentRow env id order env.paymentGateway).Emits
            silent fun _ => True))
      split_ifs
      · exact .seq created fun _ => confirm env id
      · exact confirm env id
  | devConfirm env id actor =>
      refine .seq (Call.narrates_get _ _) fun order => ?_
      refine .seq (by simp [Request.Batches]) fun _ => ?_
      refine .seq (by simp [Request.Batches]) fun payment => ?_
      have started := Call.narrates_atomic (narrates_of_silent (by
        simp [Payments.startPayment, Payments.createPaymentRow, Tx.create, silent] :
          (Payments.startPayment env id order actor).Emits
            silent fun _ => True))
      split_ifs
      · exact .seq started fun _ => confirm env id
      · exact confirm env id
  | ingest env provider verified =>
      exact Call.narrates_perform (Webhooks.ingest_narrates _ _ _)
  | redeliver env eventId =>
      exact Call.narrates_performOn fun copy => Webhooks.redeliver_narrates _ _ _
  | _ => exact confirms.elim

/-- The other payment services tell nothing. -/
theorem PaymentCall.emits_silent
    {call : PaymentCall} (other : ¬call.Confirms) :
    call.call.Emits silent fun _ => True := by
  cases call with
  | startPayment =>
      simp [PaymentCall.call, Call.performOn, Call.perform, Call.get,
        Payments.startPayment, Payments.createPaymentRow, Tx.create, silent]
  | voidPayment =>
      refine Request.emits_atomic.mpr (.seq (Prog.emits_updateWhere
        ⟨fun _ => trivial, fun _ => trivial⟩) (by simp))
  | payoutSweeper env =>
      refine .seq (by simp) fun due => Request.emits_forEach fun item _ => ?_
      simp [Payments.schedulePayout, Tx.create, silent]
  | issueRefund | schedulePayout | settlePayout | markPayoutFailed | configure =>
      simp [PaymentCall.call, Call.performOn, Call.perform, Call.get, Call.exec,
        Payments.issueRefund, Payments.schedulePayout, Payments.settlePayout,
        Payments.markPayoutFailed, Payments.getForUpdate,
        Payments.getPayoutForUpdate, Payments.ledger, Orders.getForUpdate,
        Tx.getForUpdate, Tx.get, Tx.create, silent]
  | _ => exact absurd trivial other

/-! ## Requests that depend on what they have seen -/

/-- From agreeing timelines to agreeing timelines, given what was seen. -/
def Recounts (seen : Db) (stmts : List Stmt) (db : Db) : Prop :=
  KeepsPriors seen db → TimelineAgrees db → Retold db (applyAll stmts db)

theorem Call.Narrates.looks
    {call : Call Unit} (narrates : Call.Narrates call) :
    Proc.Looks rowLocks Recounts call :=
  narrates.safe.looks (fun _ => trivial)
    fun _ _ state retells _ agrees => retells state agrees

theorem looks_of_silent
    {call : Call Unit} (mute : call.Emits silent fun _ => True) :
    Proc.Looks rowLocks Recounts call := by
  have safe : call.Safe rowLocks fun stmts _ => Retells stmts :=
    rowLocks_safe mute fun _ all _ => retells_of_all all
  exact safe.looks (fun _ => trivial)
    fun _ _ state retells _ agrees => retells state agrees

/-- A created order is told by the event that the factory records. -/
theorem creatable_retells :
    Creatable rowLocks fun ctx : Ctx Db Row Stmt =>
      ∀ state, ctx.known state → TimelineAgrees state →
        Retold state (applyAll ctx.writes state) where
  orderRow _ _ _ same := same
  plain ctx none state _ agrees := none ▸ ⟨.refl state, agrees⟩
  grow base later before grown state known agrees := by
    obtain ⟨extra, writes, all⟩ := grown.writes
    have early := before state (grown.known state known) agrees
    have mute : Retells extra := retells_of_all fun stmt member => by
      have table := all stmt member
      cases stmt <;> first
        | trivial
        | simp [matching, Stmt.table] at table
    rw [writes, applyAll_append]
    exact early.trans (mute _ early.agrees)
  created _ _ _ _ before leaves waiting _ created state known agrees :=
    created.retold waiting leaves (before state · ·) known agrees

theorem DisputeCall.looks (call : DisputeCall) :
    call.call.Looks rowLocks Recounts := by
  cases call with
  | openDispute env id actor reason description evidence =>
      refine Proc.looks_of_safe (fun seen => Call.perform_safe ?_) nofun
      refine Disputes.openDispute_opens (fun _ _ => trivial)
        fun order later opens => ?_
      exact rowLocks_commit fun state known _ agrees => opens.retold known agrees
  | resolve env id actor outcome notes amount =>
      refine Call.performOn_looks fun seen copy found => ?_
      refine Disputes.resolve_closes (fun _ _ => trivial)
        fun order later closes => ?_
      exact rowLocks_commit fun state known past agrees =>
        closes.retold found known past agrees
  | takeCase | awaitResponse | resumeReview | close =>
      refine looks_of_silent ?_
      simp [DisputeCall.call, DisputeCall.onDispute, Call.performOn,
        Call.perform, Call.get, Disputes.takeCase, Disputes.awaitResponse,
        Disputes.resumeReview, Disputes.close, Disputes.transition, silent]

/-- Every operation keeps the timelines, given what it has seen. -/
theorem Operation.recounts (operation : Operation) :
    operation.call.Looks rowLocks Recounts := by
  by_cases triages : operation.Triages
  · by_cases converges : operation.Converges
    · exact creatable_retells.converges_looks (fun seen ctx retells =>
        rowLocks_commit fun state known _ => retells state known) converges
    · exact looks_of_silent (triages.emits
        (fun stmt table => by cases stmt <;> simp_all [Stmt.table, silent])
        converges)
  rcases operation with _ | _ | _ | call | call | call <;>
    try exact absurd trivial triages
  · by_cases deadlines : call.Deadlines
    · refine looks_of_silent (deadlines.emits (fun stmt table => ?_)
        (fun _ eventType _ listed => ?_) (by simp [silent]))
      · cases stmt <;> simp_all [Stmt.table, silent]
      · cases eventType <;> simp_all [silent, statusOf]
    · exact (OrderCall.narrates deadlines).looks
  · by_cases confirms : call.Confirms
    · exact confirms.narrates.looks
    · exact looks_of_silent (PaymentCall.emits_silent confirms)
  · exact call.looks

/--
In every interleaving of operations, reading the events of an order gives the
stored status, if it did so at the start.
-/
theorem timeline_replays
    {db : Db} {operations : Nat → Operation} {system : Marketplace}
    (start : TimelineAgrees db)
    (reach : System.Reach (fun _ _ => True)
      (Marketplace.start db operations) system) :
    ∀ id order, system.committed.orders.row id = some order →
      (replay (timeline id system.committed)).status = some order.status := by
  have informed := reach.informed KeepsPriors.refl KeepsPriors.trans
    (fun _ _ _ => trivial) trivial (fun client => (operations client).recounts)
    (fun _ look stmts state _ past recounts agrees =>
      have retold := recounts past agrees
      ⟨retold.priors, retold.agrees⟩) start
  exact informed.2.status

end

/-- An open request with the offer of an expert; there are no orders yet. -/
def offered : Db where
  experts := .insert .empty 2 ⟨true, true, []⟩
  requests := .insert .empty 10 { student := 1, status := .opened }
  offers := .insert .empty 20 { request := 10, expert := 2, amount := 5000 }

theorem offered_agrees : Orders.TimelineAgrees offered where
  status _ _ none := nomatch none
  prior _ _ none := nomatch none

/-- The order is paid, delivered, disputed without fault and sent back. -/
def suspended : Nat → Operation
  | 0 => .offer (.accept { now := 1, key := 40 } ⟨1, false⟩ 20)
  | 1 => .payment (.confirmOrderPayment { now := 2, hex := "a" } 40)
  | 2 => .order (.submitDelivery { now := 3, key := 50 } 40 ⟨2, false⟩
      "The full report, with both chapters." (.ok ()))
  | 3 => .dispute (.openDispute { now := 4 } 40 ⟨1, false⟩
      .qualityBelowExpectations "The report misses two chapters." (.ok ()))
  | 4 => .dispute (.takeCase 40 (some ⟨9, true⟩))
  | 5 => .dispute (.resolve { now := 5, key := 70 } 40 (some ⟨9, true⟩)
      .noFaultClose "Both chapters are there, in the annex." none)
  | _ => .order (.requestRevision { now := 6 } 40 ⟨1, false⟩
      "Please move the annex to the front.")

/-- The seven requests run one after the other. -/
def suspendedRun : Marketplace :=
  (Marketplace.start offered suspended).runAll
    ((List.range 7).flatMap (turns · 40))

/-- The events tell the status through the dispute and after it. -/
theorem timeline_replays_suspended :
    (∀ id order, suspendedRun.committed.orders.row id = some order →
      (Orders.replay (Orders.timeline id suspendedRun.committed)).status =
        some order.status) ∧
      (suspendedRun.committed.orders.row 40).map Order.status =
        some .revisionRequested :=
  ⟨timeline_replays offered_agrees (System.reach_runAll _ _), by decide +kernel⟩

end KnowledgeMarketplace
