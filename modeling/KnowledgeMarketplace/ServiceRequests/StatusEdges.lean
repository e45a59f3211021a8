import KnowledgeMarketplace.Assignments.FirstAccept
import KnowledgeMarketplace.Disputes.Rules
import KnowledgeMarketplace.Lifecycle.Model

/-!
# The status of a request moves along edges

Every save of a request comes from a copy that its transaction, or its view,
has read before.  As long as no such copy is out of date when its save
commits, all operations together move each stored status along edges of the
table, and a request never gets a second order.
-/

namespace KnowledgeMarketplace

open Transaction

namespace ServiceRequests

open Orders (HasOrder SingleOrder hasOrder_congr hasOrder_insert)

/-- The status stays or moves along an edge. -/
def Follows (before after : RequestStatus) : Prop :=
  after = before ∨ (transitions before after).isSome

/-- No edge leaves the statuses of a request with an order. -/
theorem converged_of_follows
    {before after : RequestStatus}
    (follows : Follows before after) (holds : converged before = true) :
    converged after = true := by
  rcases follows with rfl | edge
  · exact holds
  · cases before <;> cases after <;> simp_all [transitions, converged]

/-- Every stored request is still stored, and its status follows the edges. -/
def MovesAlongEdges (before after : Db) : Prop :=
  ∀ id request, before.requests.row id = some request →
    ∃ later, after.requests.row id = some later ∧
      Follows request.status later.status

/-- A save that changes the stored status comes from an up-to-date copy. -/
def Fresh : Stmt → Db → Prop
  | .saveRequest id loaded set, db =>
      ∀ stored, db.requests.row id = some stored →
        stored.status = loaded ∨ (set stored).status = stored.status
  | _, _ => True

/-- Requests have at most one order, and only converged requests have one. -/
structure OrdersConverge (db : Db) : Prop where
  single : SingleOrder db
  settled : ∀ request id, HasOrder request id db →
    ∃ row, db.requests.row request = some row ∧ converged row.status = true

/-- The request lock protects the request and the set of its orders. -/
def statusEdges : Protocol Db Row Stmt where
  Inv := OrdersConverge
  Same
    | .request id, first, second =>
        first.requests.row id = second.requests.row id ∧
          ∀ order, HasOrder id order first ↔ HasOrder id order second
    | .order id, first, second => first.orders.row id = second.orders.row id
    | _, _, _ => True
  Condition := Along Fresh
  same_refl := by intro row state; cases row <;> simp
  same_trans := by intro row first second third; cases row <;> simp +contextual

/-- The statement moves every stored status along edges. -/
def Moves (stmt : Stmt) (db : Db) : Prop :=
  MovesAlongEdges db (stmt.apply db)

/-! ## Statements that create no order -/

theorem movesAlongEdges_of_same
    {before after : Db} (same : after.requests = before.requests) :
    MovesAlongEdges before after :=
  fun _ request stored => ⟨request, same ▸ stored, .inl rfl⟩

/-- Moving along edges without touching the orders is harmless. -/
theorem harmless_of_moves
    {stmt : Stmt} {admitted : Stmt → Db → Prop}
    (moves : ∀ db, admitted stmt db → Moves stmt db)
    (orders : ∀ db, admitted stmt db → ∀ request id,
      HasOrder request id (stmt.apply db) ↔ HasOrder request id db) :
    statusEdges.Harmless admitted Moves stmt where
  keeps db inv fresh := by
    refine ⟨fun request first second firstHas secondHas => ?_,
      fun request id has => ?_⟩
    · exact inv.single request first second
        ((orders db fresh _ _).mp firstHas) ((orders db fresh _ _).mp secondHas)
    · obtain ⟨row, stored, holds⟩ :=
        inv.settled request id ((orders db fresh _ _).mp has)
      obtain ⟨later, after, follows⟩ := moves db fresh request row stored
      exact ⟨later, after, converged_of_follows follows holds⟩
  meets db _ fresh := moves db fresh
  frame db row _ fresh free := by
    cases row with
    | request id =>
        exact ⟨(Stmt.apply_request_row free).symm,
          fun order => (orders db fresh id order).symm⟩
    | order id => exact (Stmt.apply_order_row free).symm
    | _ => trivial

/-- Effects that move requests along edges and create no order. -/
def gentle : Effect Stmt → Prop
  | .write (.saveRequest _ loaded set) =>
      ∀ stored, stored.status = loaded → Follows loaded (set stored).status
  | .write (.updateRequest _ set) => ∀ stored, (set stored).status = stored.status
  | .write (.insertOrder _ _) => False
  | .write (.saveOrder _ set) => ∀ stored, (set stored).request = stored.request
  | _ => True

/-- Changing one row along an edge moves all requests along edges. -/
theorem movesAlongEdges_modify
    {db after : Db} {id : RequestId} {set : ServiceRequest → ServiceRequest}
    (requests : after.requests = db.requests.modify id set)
    (follows : ∀ stored, db.requests.row id = some stored →
      Follows stored.status (set stored).status) :
    MovesAlongEdges db after := by
  intro other request stored
  rw [requests]
  by_cases same : other = id
  · subst same
    exact ⟨set request, by simp [stored], follows request stored⟩
  · exact ⟨request, by simp [same, stored], .inl rfl⟩

/-- A gentle statement is harmless when its copy is up to date. -/
theorem harmless_of_gentle
    {stmt : Stmt} (fine : gentle (.write stmt)) :
    statusEdges.Harmless Fresh Moves stmt := by
  refine harmless_of_moves (fun db fresh => ?_) (fun db _ request id => ?_)
  · cases stmt with
    | saveRequest id loaded set =>
        refine movesAlongEdges_modify rfl fun stored present => ?_
        rcases fresh stored present with same | unchanged
        · exact same ▸ fine stored same
        · exact .inl unchanged
    | insertRequest id value =>
        exact fun other request stored =>
          ⟨request, Table.row_insert_of_some id value stored, .inl rfl⟩
    | updateRequest id set =>
        exact movesAlongEdges_modify rfl fun stored _ => .inl (fine stored)
    | _ => exact movesAlongEdges_of_same rfl
  · cases stmt with
    | saveOrder key set =>
        unfold HasOrder
        constructor
        · rintro ⟨order, stored, about⟩
          rcases Table.row_modify_cases stored with
            ⟨_, old⟩ | ⟨rfl, old, before, rfl⟩
          · exact ⟨order, old, about⟩
          · exact ⟨old, before, (fine old).symm.trans about⟩
        · rintro ⟨order, stored, about⟩
          by_cases same : id = key
          · subst same
            exact ⟨set order, by simp [Stmt.apply, stored],
              (fine order).trans about⟩
          · exact ⟨order, by simp [Stmt.apply, same, stored], about⟩
    | insertOrder key order => exact fine.elim
    | _ => exact Iff.rfl

/-! ## Operations that create no order -/

/-- A checked transition of an up-to-date copy follows an edge. -/
theorem transition_gentle
    (env : Env) (id : RequestId) (request : ServiceRequest)
    (toStatus : RequestStatus) (reason : String) :
    (transition env id request toStatus reason).Emits gentle fun _ => True := by
  simp +contextual [transition, moved, gentle, Follows]

theorem requestCall_gentle
    {call : RequestCall} (other : ∀ env, call ≠ .expireDue env) :
    call.call.Emits gentle fun _ => True := by
  cases call with
  | expireDue env => exact absurd rfl (other env)
  | create env student payload =>
      simp [RequestCall.call, Call.perform, createRequest, Tx.create, gentle]
  | updateDraft env owner id payload =>
      simp +contextual [RequestCall.call, Call.performOn, Call.perform,
        Call.get, updateDraft, gentle, Follows, Payload.assign]
  | publish env owner id attested =>
      simp +contextual [RequestCall.call, Call.get, publish, Call.exec,
        transition, moved, gentle, Follows]
  | cancel env owner id reason =>
      simp +contextual [RequestCall.call, Call.performOn, Call.perform,
        Call.get, cancel, transition, moved, gentle, Follows]
  | reopen env owner id =>
      simp +contextual [RequestCall.call, Call.performOn, Call.perform,
        Call.get, reopen, transition, moved, gentle, Follows]

theorem offerCall_gentle
    {call : OfferCall}
    (other : ∀ env student offer, call ≠ .accept env student offer) :
    call.call.Emits gentle fun _ => True := by
  cases call with
  | accept env student offer => exact absurd rfl (other env student offer)
  | _ =>
    simp [OfferCall.call, OfferCall.onOffer, Call.get, Call.exec,
      Bidding.submit, Bidding.updateOffer, Bidding.withdraw,
      Bidding.resubmit, Bidding.decline, Bidding.expertGuard,
      Bidding.limitGuard, Bidding.saveOfferCount, Tx.create, gentle]

theorem managedCall_gentle
    {call : ManagedCall} (other : ¬Assignments.IsAccept (.managed call)) :
    call.call.Emits gentle fun _ => True := by
  cases call with
  | acceptInvitation env expert id amount => exact absurd trivial other
  | acceptDirect env expert id => exact absurd trivial other
  | _ =>
    simp +contextual [ManagedCall.call, Call.performOn, Call.perform,
      Call.get, Assignments.approvePool, Assignments.assignDirect,
      Assignments.supersedeDirect, Assignments.setQuote,
      Assignments.rejectManaged, Assignments.declineInvitation,
      Assignments.declineDirect, Assignments.expireDue,
      Assignments.inviteAll, Assignments.expertGuard, Tx.create,
      transition, moved, gentle, Follows]

theorem orderCall_gentle (call : OrderCall) :
    call.call.Emits gentle fun _ => True := by
  have approve : ∀ env id actor source,
      (Orders.approveDelivery env id actor source).Emits gentle
        fun _ => True :=
    fun env id actor source => Orders.approveDelivery_emits
      (by simp [gentle]) (by simp [gentle]) (by simp [gentle])
      (by simp [gentle]) (fun _ _ => transition_gentle _ _ _ _ _)
      (by simp [gentle])
  have single : ∀ env id,
      (Orders.autoApproveOne env id).Emits gentle fun _ => True := by
    intro env id
    refine .seq (by simp [Orders.getForUpdate, Tx.getForUpdate, Tx.get]) ?_
    intro order
    simpa using fun _ _ => approve env id none .auto
  cases call with
  | approveDelivery env id actor source =>
      exact Request.emits_atomic.mpr (.seq (approve _ _ _ _) (by simp))
  | autoApproveDue env =>
      refine .seq (by simp) fun due => Request.emits_forEach fun item _ => ?_
      refine Request.emits_tryCatch.mpr (Request.Emits.mono
        (Request.emits_atomic.mpr (single _ item.1)) ?_)
      rintro (error | value) _
      · cases error <;> simp
      · trivial
  | sweepUnpaid env =>
      refine Request.emits_atomic.mpr (.seq (.seq (by simp) fun stale => ?_) ?_)
      · refine .seq (Prog.emits_forEach (fun id _ => ?_) trivial) (by simp)
        simp [Orders.cancelUnpaid, Orders.transition, Orders.getForUpdate,
          Orders.recordEvent, Tx.getForUpdate, Tx.get, gentle]
      · exact fun _ => trivial
  | cancel env id actor reason =>
      simp +contextual [OrderCall.call, Call.perform, Orders.cancel,
        Orders.transition, Orders.getForUpdate, Orders.recordEvent,
        Orders.moveRequest, Payments.voidPaymentForOrder, Tx.get,
        Tx.getForUpdate, transition, moved, gentle, Follows]
  | proposeDeadline | respondDeadlineProposal | deadlineReminder
  | autoApproveWarning | flagOverdue =>
      refine OrderCall.Deadlines.emits (fun stmt table => ?_)
        (fun _ _ _ _ => trivial) (fun _ _ _ => rfl) trivial
      cases stmt <;> simp_all [Stmt.table, gentle]
  | _ =>
      simp [OrderCall.call, Call.perform, Orders.submitDelivery,
        Orders.requestRevision, Orders.awaitingPaymentSweeper,
        Orders.transition, Orders.getForUpdate, Orders.recordEvent,
        Tx.get, Tx.getForUpdate, Tx.create, gentle]

theorem disputeCall_gentle (call : DisputeCall) :
    call.call.Emits gentle fun _ => True := by
  cases call with
  | resolve env id actor outcome notes amount =>
      refine .seq (by simp [Call.get]) fun copy =>
        Request.emits_atomic.mpr (.seq ?_ (by simp))
      refine Disputes.resolve_emits (fun _ => Payments.issueRefund_emits
        (by simp [gentle]) (by simp [gentle]) (by simp [gentle]))
        ?_ ?_ ?_ ?_ ?_ <;> simp [gentle]
  | _ =>
      simp [DisputeCall.call, DisputeCall.onDispute, Call.performOn,
        Call.perform, Call.get, Disputes.openDispute, Disputes.freeze,
        Disputes.takeCase, Disputes.awaitResponse, Disputes.resumeReview,
        Disputes.close, Disputes.transition, Orders.transition,
        Orders.getForUpdate, Orders.recordEvent, Tx.get, Tx.getForUpdate,
        Tx.create, gentle]

theorem paymentCall_gentle (call : PaymentCall) :
    call.call.Emits gentle fun _ => True := by
  have confirmed : ∀ env id,
      (Payments.confirmPaymentAtomic env id).Emits gentle fun _ => True :=
    fun env id => Payments.confirmPaymentAtomic_emits
      (by simp [gentle]) (by simp [gentle]) (by simp [gentle])
      (by simp [gentle]) (by simp [gentle])
      (fun _ _ => transition_gentle _ _ _ _ _)
  have confirming : ∀ env id,
      (Payments.confirmPayment env id).Emits gentle fun _ => True := by
    intro env id
    refine Request.emits_tryCatch.mpr (Request.Emits.mono
      (Request.emits_atomic.mpr (confirmed env id)) ?_)
    rintro (error | value) _
    · cases error <;> simp [Payments.markPaymentFailed, gentle]
    · trivial
  have dispatched : ∀ env eventType data,
      (Webhooks.dispatch env eventType data).Emits gentle fun _ => True :=
    fun env eventType data => Webhooks.dispatch_emits (by simp [gentle])
      (confirmed env) (by simp [gentle]) (by simp [gentle]) (by simp [gentle])
  have created : ∀ env id order gateway,
      (Payments.createPaymentRow env id order gateway).Emits gentle
        fun _ => True := by
    simp [Payments.createPaymentRow, Tx.create, gentle]
  have started : ∀ env id order actor,
      (Payments.startPayment env id order actor).Emits gentle
        fun _ => True := by
    intro env id order actor
    refine .seq (by simp) fun _ => .seq (by simp) fun _ => ?_
    refine .seq (by simp) fun found => .seq ?_ fun payment => ?_
    · cases found <;> simp [Prog.emits_orElse, created]
    · simp [gentle]
  cases call with
  | startPayment env id actor =>
      exact .seq (by simp [Call.get]) fun copy =>
        Request.emits_atomic.mpr (.seq (started env id copy actor) (by simp))
  | confirmPayment env id => exact confirming env id
  | confirmOrderPayment env id =>
      refine .seq (by simp [Call.get]) fun copy => .seq (by simp) fun _ => ?_
      refine .seq (by simp) fun payment => .seq (by simp) fun _ => ?_
      simp only [Request.emits_ite]
      exact ⟨fun _ => .seq (Request.emits_atomic.mpr (created _ _ _ _))
        fun _ => confirming env id, fun _ => confirming env id⟩
  | devConfirm env id actor =>
      refine .seq (by simp [Call.get]) fun copy => .seq (by simp) fun _ => ?_
      refine .seq (by simp) fun payment => ?_
      simp only [Request.emits_ite]
      exact ⟨fun _ => .seq (Request.emits_atomic.mpr (started _ _ _ _))
        fun _ => confirming env id, fun _ => confirming env id⟩
  | ingest env provider verified =>
      exact Request.emits_atomic.mpr (.seq (Webhooks.ingest_emits
        (by simp [gentle]) (by simp [gentle]) (dispatched env)) (by simp))
  | redeliver env eventId =>
      refine .seq (by simp [Call.get]) fun copy =>
        Request.emits_atomic.mpr (.seq ?_ (by simp))
      exact Webhooks.redeliver_emits (by simp [gentle]) (dispatched env)
  | issueRefund env id amount reason initiatedBy =>
      exact Request.emits_atomic.mpr (.seq (Payments.issueRefund_emits
        (by simp [gentle]) (by simp [gentle]) (by simp [gentle])) (by simp))
  | payoutSweeper env =>
      refine .seq (by simp) fun due => Request.emits_forEach fun item _ => ?_
      simp [Payments.schedulePayout, Tx.create, gentle]
  | _ =>
      simp [PaymentCall.call, Call.performOn, Call.perform, Call.get,
        Call.exec, Payments.voidPaymentForOrder, Payments.schedulePayout,
        Payments.settlePayout, Payments.markPayoutFailed,
        Payments.getPayoutForUpdate, Payments.ledger, Orders.getForUpdate,
        Tx.get, Tx.getForUpdate, Tx.create, gentle]

/-- Operations that are not the bulk expiry and create no order are gentle. -/
theorem operation_gentle
    {operation : Operation}
    (expiry : ∀ env, operation ≠ .request (.expireDue env))
    (accept : ∀ env student offer,
      operation ≠ .offer (.accept env student offer))
    (managed : ¬Assignments.IsAccept operation) :
    operation.call.Emits gentle fun _ => True := by
  cases operation with
  | request call =>
      exact requestCall_gentle fun env same => expiry env (same ▸ rfl)
  | offer call =>
      exact offerCall_gentle fun env student offer same =>
        accept env student offer (same ▸ rfl)
  | managed call => exact managedCall_gentle managed
  | order call => exact orderCall_gentle call
  | payment call => exact paymentCall_gentle call
  | dispute call => exact disputeCall_gentle call

/-! ## The bulk expiry -/

/-- A row of a bulk update moves along an edge. -/
def Settled : Stmt → Db → Prop
  | .updateRequest id set, db =>
      ∀ stored, db.requests.row id = some stored →
        Follows stored.status (set stored).status
  | _, _ => False

/-- A settled row of a bulk update is harmless. -/
theorem harmless_of_settled (stmt : Stmt) :
    statusEdges.Harmless Settled Moves stmt := by
  cases stmt with
  | updateRequest id set =>
      exact harmless_of_moves (fun db settled =>
        movesAlongEdges_modify rfl settled) fun _ _ _ _ => Iff.rfl
  | _ =>
      exact harmless_of_moves (fun _ settled => settled.elim)
        fun _ settled => settled.elim

/-- Expiring requests in bulk is safe. -/
theorem expireDue_safe (env : Env) :
    (RequestCall.expireDue env).call.Safe statusEdges (Along Moves) := by
  simp only [Request.Safe, RequestCall.call, Call.perform, Request.wp_atomic,
    Prog.wp_bind, Prog.wp_pure, expireDue]
  refine Prog.wp_updateWhere
    (fun ctx => ∀ state, ctx.known state → Along Settled ctx.writes state)
    ?start ?skip ?round ?finish
  case start => simp
  case skip =>
    exact fun _ _ _ kept _ _ later known => kept later known.1
  case round =>
    intro id current seen kept _ _ matched later known
    simp only [Ctx.push_known, Ctx.observe_known, Ctx.take_known] at known
    simp only [Ctx.push_writes, Ctx.observe_writes, Ctx.take_writes,
      along_append, along_cons, along_nil, and_true]
    refine ⟨kept later known.1, fun stored present => ?_⟩
    have same := (known.2 (.request id) (by simp)).1
    rw [← applyAll_request_congr same] at present
    simp only [present, stale, Option.any_some, Bool.and_eq_true,
      decide_eq_true_eq] at matched
    exact .inr (by simp [matched.1, transitions])
  case finish =>
    intro _ later settled
    refine ⟨fun state inv known _ rows => ?_, trivial⟩
    obtain ⟨kept, moves, frame⟩ := Protocol.Harmless.all _ _
      (fun stmt _ => harmless_of_settled stmt) inv (settled state known)
    exact ⟨kept, moves, fun row free => frame row fun inside => free (rows row inside)⟩

/-! ## Acceptances -/

/-- Statements outside the tables of requests and orders. -/
def Apart (stmt : Stmt) : Prop :=
  stmt.table ≠ .requests ∧ stmt.table ≠ .orders

/-- An acceptance that holds the lock of a request without order. -/
structure Matching
    (id : RequestId) (request : ServiceRequest) (ctx : Ctx Db Row Stmt) :
    Prop where
  apart : ∀ stmt ∈ ctx.writes, Apart stmt
  locked : ctx.held (.request id)
  stored : ∀ state, ctx.known state →
    state.requests.row id = some request
  unmatched : ∀ state, ctx.known state → ∀ order, ¬HasOrder id order state

/-- A locked request that has not converged has no order. -/
theorem Matching.seen
    {id : RequestId} {request : ServiceRequest} {ctx : Ctx Db Row Stmt}
    {seen : Db}
    (apart : ∀ stmt ∈ ctx.writes, Apart stmt)
    (locked : ctx.held (.request id)) (inv : OrdersConverge seen)
    (stored : seen.requests.row id = some request)
    (waiting : converged request.status = false) :
    Matching id request (ctx.observe statusEdges seen) where
  apart := apart
  locked := locked
  stored state known := (known.2 _ locked).1 ▸ stored
  unmatched state known order has := by
    obtain ⟨row, present, holds⟩ :=
      inv.settled id order (((known.2 _ locked).2 order).mpr has)
    obtain rfl : request = row := Option.some.inj (stored.symm.trans present)
    simp [waiting] at holds

/-- Statements on other tables do not disturb an acceptance. -/
theorem Matching.of_extends
    {id : RequestId} {request : ServiceRequest} {base later : Ctx Db Row Stmt}
    (matching : Matching id request base) (grown : base.Extends Apart later) :
    Matching id request later where
  apart := by
    obtain ⟨extra, split, all⟩ := grown.writes
    intro stmt member
    rw [split] at member
    exact (List.mem_append.mp member).elim (matching.apart stmt) (all stmt)
  locked := grown.held _ matching.locked
  stored state known := matching.stored state (grown.known state known)
  unmatched state known := matching.unmatched state (grown.known state known)

/-- A statement on another table is gentle. -/
theorem gentle_of_apart {stmt : Stmt} (apart : Apart stmt) :
    gentle (.write stmt) := by
  cases stmt <;> simp_all [Apart, gentle, Stmt.table]

/-- A statement on another table is up to date. -/
theorem fresh_of_apart {stmt : Stmt} (apart : Apart stmt) (db : Db) :
    Fresh stmt db := by
  cases stmt <;> simp_all [Apart, Fresh, Stmt.table]

/-- Matching the request saves the locked copy along an edge. -/
theorem Matching.markMatched
    {env : Env} {id : RequestId} {request : ServiceRequest}
    {ctx : Ctx Db Row Stmt}
    {goal : Except Error ServiceRequest → Ctx Db Row Stmt → Prop}
    (errors : ∀ error later, goal (.error error) later)
    (next : ∀ matched set, (∀ stored, (set stored).status = .matched) →
      (transitions request.status .matched).isSome →
      goal (.ok matched) (ctx.push (.saveRequest id request.status set))) :
    (ServiceRequests.markMatched env id request).wp statusEdges ctx goal := by
  simp only [ServiceRequests.markMatched, transition, Prog.wp_bind,
    Prog.wp_require, Prog.wp_exec, Prog.wp_pure]
  exact ⟨fun edge => next _ _ (fun _ => rfl) edge, fun _ => errors _ _⟩

/-- The end of an acceptance: the factory creates the request's only order. -/
theorem Matching.create
    {env : Env} {id : RequestId} {request copy : ServiceRequest}
    {expert : UserId} {amount : Option Int} {currency : String}
    {source : OrderSource} {offerId : Option OfferId} {ctx : Ctx Db Row Stmt}
    {set : ServiceRequest → ServiceRequest}
    {goal : Except Error OrderId → Ctx Db Row Stmt → Prop}
    (matching : Matching id request ctx)
    (sets : ∀ stored, (set stored).status = .matched)
    (edge : (transitions request.status .matched).isSome)
    (errors : ∀ error later, goal (.error error) later)
    (success : ∀ key later, later.CommitOk statusEdges (Along Moves) →
      goal (.ok key) later) :
    (Orders.createOrderForRequest env id copy expert amount currency source
      offerId).wp statusEdges
      (ctx.push (.saveRequest id request.status set)) goal := by
  have leaves : Orders.LeavesOrders
      (ctx.push (.saveRequest id request.status set)).writes := by
    intro stmt member
    rcases List.mem_append.mp member with early | last
    · exact (matching.apart stmt early).2
    · simp [List.mem_singleton.mp last, Stmt.table]
  refine Orders.createOrderForRequest_wp (fun _ _ _ same => same) leaves
    errors ?_
  intro order later made created
  have about := made.request
  refine success env.key later fun state inv known _ rows => ?_
  have start := created.known state known
  have stored := matching.stored state start
  -- the statements before the order is inserted
  have harmless : ∀ stmt ∈ ctx.writes ++ [.saveRequest id request.status set],
      statusEdges.Harmless Fresh Moves stmt := by
    intro stmt member
    rcases List.mem_append.mp member with early | last
    · exact harmless_of_gentle (gentle_of_apart (matching.apart stmt early))
    · rw [List.mem_singleton.mp last]
      exact harmless_of_gentle fun stored _ => .inr (by rw [sets]; exact edge)
  have earlier : (applyAll ctx.writes state).requests = state.requests :=
    applyAll_frame Db.requests fun stmt member _ =>
      Stmt.apply_requests (matching.apart stmt member).1
  have fresh : Along Fresh
      (ctx.writes ++ [.saveRequest id request.status set]) state := by
    refine along_append.mpr ⟨along_of_forall state fun stmt member db =>
      fresh_of_apart (matching.apart stmt member) db, ?_, trivial⟩
    intro found present
    rw [earlier, stored] at present
    exact .inl (by rw [Option.some.inj present])
  obtain ⟨kept, moves, frame⟩ := Protocol.Harmless.all _ _ harmless inv fresh
  -- the insertion of the order
  obtain ⟨event, _, _, split⟩ := created.writes
  have final : applyAll later.writes state =
      (Stmt.recordEvent event).apply ((Stmt.insertOrder env.key order).apply
        (applyAll (ctx.writes ++ [.saveRequest id request.status set])
          state)) := by
    simp [split]
  have orders := leaves.applyAll_orders state
  have requests : (applyAll (ctx.writes ++
      [.saveRequest id request.status set]) state).requests.row id =
        some (set request) := by
    simp [Stmt.apply, earlier, stored]
  rw [final]
  change (applyAll (ctx.writes ++ _) state).orders = _ at orders
  generalize applyAll (ctx.writes ++ [.saveRequest id request.status set])
    state = middle at kept frame orders requests ⊢
  have unmatched : ∀ key, ¬HasOrder order.request key middle := by
    rw [about]
    exact fun key has => matching.unmatched state start key
      ((hasOrder_congr orders id key).mp has)
  have added : ∀ other key, HasOrder other key ((Stmt.recordEvent event).apply
      ((Stmt.insertOrder env.key order).apply middle)) ↔
        HasOrder other key middle ∨ key = env.key ∧ order.request = other :=
    hasOrder_insert (orders ▸ created.fresh state known) rfl
  refine ⟨⟨kept.single.insert unmatched added, ?_⟩, ?_, ?_⟩
  · intro other key has
    rcases (added other key).mp has with old | ⟨-, rfl⟩
    · exact kept.settled other key old
    · rw [about]
      exact ⟨set request, requests, by rw [sets]; rfl⟩
  · rw [split]
    refine along_append.mpr ⟨moves, ?_, ?_, trivial⟩ <;>
      exact movesAlongEdges_of_same rfl
  · intro row free
    have before := frame row fun inside => free (rows row (by
      rw [split, rowsOf, List.flatMap_append]
      exact List.mem_append_left _ inside))
    cases row with
    | request other =>
        refine ⟨before.1, fun key => (before.2 key).trans ?_⟩
        refine Iff.symm ((added other key).trans (or_iff_left ?_))
        rintro ⟨-, rfl⟩
        exact free (about ▸ created.held _ (.inr matching.locked))
    | order other =>
        refine Eq.trans before (Table.row_insert_other _ _ ?_).symm
        rintro rfl
        exact free created.locked
    | _ => trivial

/-- Effects on other tables than requests and orders. -/
def elsewhere : Effect Stmt → Prop
  | .write stmt => Apart stmt
  | .savepoint => False

/-- Selecting an offer is safe. -/
theorem accept_safe (env : Env) (student : Actor) (offer : OfferId) :
    (OfferCall.accept env student offer).call.Safe statusEdges (Along Moves) := by
  simp only [Request.Safe, OfferCall.call, Call.perform, Bidding.accept,
    Bidding.getForUpdate, Bidding.getRequestForUpdate,
    Bidding.createOrderFromOffer, Tx.getForUpdate, Tx.get,
    Request.wp_atomic, Prog.wp_bind, Prog.wp_pure, Prog.wp_read,
    Prog.wp_require, Prog.wp_lockRow, Prog.wp_orFail, Prog.wp_exec,
    Ctx.start_writes, Ctx.take_writes, Ctx.observe_writes, applyAll_nil,
    implies_true, and_true]
  intro first _ _ found _ second inv _ request stored _ _ _ waiting third _ _ _
  have matching : Matching found.request request
      (Ctx.observe statusEdges
        ((Ctx.observe statusEdges (Ctx.start.take (.offer offer)) first).take
          (.request found.request)) second) :=
    .seen (by simp) (by simp) inv stored (by simp [waiting, converged])
  have declines : (Bidding.declineSiblings env found.request offer).Emits
      elsewhere fun _ => True := by
    simp [Bidding.declineSiblings, elsewhere, Apart, Stmt.table]
  refine Prog.wp_of_emits declines (by simp [elsewhere]) ?_
  rintro (error | count) later _ grown
  · trivial
  · have saved := matching.of_extends <|
      Ctx.Extends.observe.trans <| (Ctx.Extends.push ?_).trans grown
    refine Matching.markMatched (fun _ _ => trivial) ?_
    exact fun _ set sets edge => saved.create sets edge
      (fun _ _ => trivial) fun _ _ commits => commits
    simp [Apart, Stmt.table]

/-- Accepting an invitation is safe. -/
theorem acceptInvitation_safe
    (env : Env) (expert : Actor) (id : InvitationId)
    (expectedAmount : Option Int) :
    (ManagedCall.acceptInvitation env expert id expectedAmount).call.Safe
      statusEdges (Along Moves) := by
  simp only [Request.Safe, ManagedCall.call, Call.performOn, Call.perform,
    Call.get, Assignments.acceptInvitation, Assignments.expertGuard,
    Assignments.getInvitationForUpdate, Bidding.getRequestForUpdate,
    Assignments.matchedGuard, Tx.getForUpdate, Tx.get,
    Request.wp_bind, Request.wp_load, Request.wp_orFail,
    Request.wp_atomic, Prog.wp_bind, Prog.wp_pure, Prog.wp_read,
    Prog.wp_require, Prog.wp_lockRow, Prog.wp_orFail, Prog.wp_exec,
    Prog.wp_tryCatch, Prog.wp_throw,
    Ctx.start_writes, Ctx.take_writes, Ctx.observe_writes, applyAll_nil,
    Ctx.start_observe, implies_true, and_true]
  intro _ _ _ copy _ _ _ _ _ _ first _ _ found _ second inv _ request stored _
    waiting third _ _ _
  have matching : Matching found.request request
      (Ctx.observe statusEdges
        ((Ctx.observe statusEdges (Ctx.start.take (.invitation id)) first).take
          (.request found.request)) second) := by
    refine .seen (by simp) (by simp) inv stored ?_
    rcases waiting with waiting | waiting <;> simp [waiting, converged]
  have declines : (Assignments.declineOthers env found.request id).Emits
      elsewhere fun _ => True := by
    simp [Assignments.declineOthers, elsewhere, Apart, Stmt.table]
  refine Prog.wp_of_emits declines (by simp [elsewhere]) ?_
  rintro (error | count) later _ grown
  · trivial
  · have saved := matching.of_extends <|
      Ctx.Extends.observe.trans <| (Ctx.Extends.push ?_).trans grown
    refine Matching.markMatched (fun _ _ => trivial) ?_
    exact fun _ set sets edge => saved.create sets edge
      (fun _ _ => trivial) fun _ _ commits => commits
    simp [Apart, Stmt.table]

/-- Accepting an assignment is safe. -/
theorem acceptDirect_safe
    (env : Env) (expert : Actor) (id : AssignmentId) :
    (ManagedCall.acceptDirect env expert id).call.Safe
      statusEdges (Along Moves) := by
  simp only [Request.Safe, ManagedCall.call, Call.performOn, Call.perform,
    Call.get, Assignments.acceptDirect, Assignments.expertGuard,
    Assignments.getAssignmentForUpdate, Bidding.getRequestForUpdate,
    Assignments.matchedGuard, Tx.getForUpdate, Tx.get,
    Request.wp_bind, Request.wp_load, Request.wp_orFail,
    Request.wp_atomic, Prog.wp_bind, Prog.wp_pure, Prog.wp_read,
    Prog.wp_require, Prog.wp_lockRow, Prog.wp_orFail, Prog.wp_exec,
    Ctx.start_writes, Ctx.take_writes, Ctx.observe_writes, applyAll_nil,
    Ctx.start_observe, implies_true, and_true]
  intro _ _ _ copy _ _ _ _ _ _ first _ _ found _ second inv _ request stored _
    waiting third _ _ _
  have matching : Matching found.request request
      (Ctx.observe statusEdges
        ((Ctx.observe statusEdges (Ctx.start.take (.assignment id)) first).take
          (.request found.request)) second) := by
    refine .seen (by simp) (by simp) inv stored ?_
    rcases waiting with waiting | waiting <;> simp [waiting, converged]
  refine Matching.markMatched (fun _ _ => trivial) fun _ set sets edge => ?_
  refine Matching.create (matching.of_extends <|
    Ctx.Extends.observe.trans (.push ?_)) sets edge
    (fun _ _ => trivial) fun _ _ commits => commits
  simp [Apart, Stmt.table]

/-- Every operation is safe. -/
theorem operation_safe (operation : Operation) :
    operation.call.Safe statusEdges (Along Moves) := by
  by_cases managed : Assignments.IsAccept operation
  · rcases operation with _ | _ | call | _ | _ | _ <;>
      try exact managed.elim
    cases call with
    | acceptInvitation env expert id expectedAmount =>
        exact acceptInvitation_safe env expert id expectedAmount
    | acceptDirect env expert id => exact acceptDirect_safe env expert id
    | _ => exact managed.elim
  by_cases expiry : ∃ env, operation = .request (.expireDue env)
  · obtain ⟨env, rfl⟩ := expiry
    exact expireDue_safe env
  by_cases accept : ∃ env student offer,
      operation = .offer (.accept env student offer)
  · obtain ⟨env, student, offer, rfl⟩ := accept
    exact accept_safe env student offer
  refine (operation_gentle (fun env same => expiry ⟨env, same⟩)
    (fun env student offer same => accept ⟨env, student, offer, same⟩)
    managed).safe_of_harmless (fun _ fine => harmless_of_gentle fine)
    (fun _ _ fresh => fresh) fun _ _ _ moves => moves

/--
While no commit saves an out-of-date status, every statement of every commit
moves the stored statuses along edges, and no request has two orders.
-/
theorem status_moves_along_edges
    (start : Db) (converge : OrdersConverge start)
    (operations : Nat → Operation) (system : Marketplace)
    (reach : System.Reach (Along Fresh)
      (Marketplace.start start operations) system) :
    SingleOrder system.committed ∧
      ∀ event stmts, system.committing event = some stmts →
        Along Fresh stmts system.committed →
          Along Moves stmts system.committed := by
  have sound : system.Sound statusEdges fun _ => Along Moves :=
    reach.sound
      (System.sound_init converge fun client => operation_safe (operations client))
  refine ⟨sound.inv.single, fun event stmts commits fresh => ?_⟩
  cases event with
  | kill client result => simp [System.committing] at commits
  | run client =>
      refine sound.guaranteed (fun others same => ?_) commits
      rw [commits] at same
      exact Option.some.inj same ▸ fresh

/-- An expired request with a pending offer. -/
def expiredRequest : Db :=
  { experts := .insert (.insert .empty 2 ⟨true, true, [1]⟩) 3 ⟨true, true, [1]⟩
    requests := .insert .empty 10 { student := 1, status := .expired }
    offers := .insert .empty 20 { request := 10, expert := 2, amount := 5000 } }

/-- The student re-opens twice and selects an offer after each. -/
def impatient : Nat → Operation
  | 0 => .request (.reopen { now := 1 } 1 10)
  | 1 => .request (.reopen { now := 1 } 1 10)
  | 2 => .offer (.accept { now := 2, key := 40 } ⟨1, false⟩ 20)
  | 3 => .offer (.submit { now := 3, key := 21 } 3 10 6000 "USD")
  | _ => .offer (.accept { now := 4, key := 41 } ⟨1, false⟩ 21)

/-- No order exists yet. -/
theorem expiredRequest_converge : OrdersConverge expiredRequest where
  single := by rintro _ _ _ ⟨order, stored, _⟩; simp [expiredRequest] at stored
  settled := by rintro _ _ ⟨order, stored, _⟩; simp [expiredRequest] at stored

/-- The statements before the out-of-date save of the first re-opening. -/
def staleTurns : List Turn :=
  turns 0 1 ++ turns 1 10 ++ turns 2 30 ++ turns 0 2

/-- The stored status of the request. -/
def storedStatus (system : Marketplace) : Option RequestStatus :=
  (system.committed.requests.row 10).map ServiceRequest.status

/--
A re-opening that was read before another one, and before the selection of an
offer, opens the matched request again; a second offer is then selected too.
-/
theorem stale_reopen_breaks_edges :
    let system := (Marketplace.start expiredRequest impatient).runAll staleTurns
    let next := system.step (.run 0)
    let last := next.runAll (turns 3 10 ++ turns 4 30)
    OrdersConverge expiredRequest ∧
      storedStatus system = some .matched ∧ storedStatus next = some .opened ∧
      ¬MovesAlongEdges system.committed next.committed ∧
      ¬SingleOrder last.committed := by
  intro system next last
  have before : storedStatus system = some .matched := by decide +kernel
  have after : storedStatus next = some .opened := by decide +kernel
  have first : (last.committed.orders.row 40).map Order.request = some 10 := by
    decide +kernel
  have second : (last.committed.orders.row 41).map Order.request = some 10 := by
    decide +kernel
  refine ⟨expiredRequest_converge, before, after, fun moves => ?_,
    fun single => ?_⟩
  · obtain ⟨request, stored, matched⟩ := Option.map_eq_some_iff.mp before
    obtain ⟨later, present, follows⟩ := moves 10 request stored
    have opened : later.status = .opened := by
      simpa [storedStatus, present] using after
    rw [matched, opened] at follows
    simp [Follows, transitions] at follows
  · obtain ⟨one, oneStored, oneAbout⟩ := Option.map_eq_some_iff.mp first
    obtain ⟨two, twoStored, twoAbout⟩ := Option.map_eq_some_iff.mp second
    have same := single 10 40 41 ⟨one, oneStored, oneAbout⟩
      ⟨two, twoStored, twoAbout⟩
    exact absurd same (by decide)

/-- A re-opening alone is a run without out-of-date saves. -/
theorem status_moves_along_edges_reopen :
    SingleOrder ((Marketplace.start expiredRequest impatient).runAll
      (turns 0 4)).committed := by
  refine (status_moves_along_edges expiredRequest expiredRequest_converge
    impatient _ ?_).1
  have quiet : ∀ {system : Marketplace} {client : Nat},
      system.committing (.run client : Turn) = none →
      system.Admits (Along Fresh) (.run client : Turn) := by
    intro system client none stmts commits
    simp [none] at commits
  refine .step (.run 0) (.step (.run 0) (.step (.run 0) (.step (.run 0) .refl
    (quiet rfl)) (quiet rfl)) (quiet rfl)) ?_
  intro stmts commits
  obtain rfl := Option.some.inj commits
  refine ⟨fun stored present => .inl ?_, fun stored present => .inl ?_, trivial⟩
  all_goals
    obtain rfl := Option.some.inj present
    rfl

end ServiceRequests

end KnowledgeMarketplace
