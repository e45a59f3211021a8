import KnowledgeMarketplace.Orders.DeliverySteps

/-!
# Services keep the delivery history

Payments, cancellations and disputes move an order without filing anything.  A
dispute that is closed without fault sends the order back to its earlier status,
which is a step of the loop only while the order is disputed.
-/

namespace KnowledgeMarketplace

open Transaction

namespace Orders

/-- What is pending keeps the loops sound and files no delivery. -/
def Ready (ctx : Ctx Db Row Stmt) : Prop :=
  ∀ state, ctx.known state → Advances state (applyAll ctx.writes state) ∧
    ∀ id, filed id (applyAll ctx.writes state) = filed id state

theorem ready_of_winding
    {ctx : Ctx Db Row Stmt} (all : ∀ stmt ∈ ctx.writes, winding (.write stmt)) :
    Ready ctx :=
  fun state _ => advances_of_winding all state

/-- Statements that leave the loops alone can be added. -/
theorem Ready.grow
    {base later : Ctx Db Row Stmt} (ready : Ready base)
    (grown : base.Extends (fun stmt => winding (.write stmt)) later) :
    Ready later := by
  obtain ⟨extra, writes, all⟩ := grown.writes
  intro state known
  rw [writes, applyAll_append]
  have early := ready state (grown.known state known)
  have late := advances_of_winding all (applyAll base.writes state)
  exact ⟨early.1.trans late.1, fun id => (late.2 id).trans (early.2 id)⟩

theorem Ready.refine
    {base later : Ctx Db Row Stmt} (ready : Ready base)
    (refines : later.Refines base) : Ready later := by
  intro state known
  rw [refines.writes]
  exact ready state (refines.known state known)

theorem Ready.commit
    {ctx : Ctx Db Row Stmt} (ready : Ready ctx) :
    ctx.CommitOk deliveryLocks Advancing :=
  deliveryLocks_commit fun state known =>
    ⟨(ready state known).1, fun id _ => (ready state known).2 id⟩

theorem steady_of_followUp
    {stmt : Stmt} (follow : Payments.FollowUp stmt) : steady (.write stmt) := by
  rcases follow with table | table <;>
    cases stmt <;> simp_all [Stmt.table, steady]

/-- The booking ends with the activation of the order. -/
theorem booking_activates
    (env : Env) (id : OrderId) (order : Order) (payment : Payment) :
    ∃ booked, Payments.booking env id order payment =
        booked ++ moving id .active [] ∧
      ∀ stmt ∈ booked, steady (.write stmt) := by
  refine ⟨[_, _, _, _, _], rfl, ?_⟩
  simp [steady, keepsLoop_iff]

/-- The confirmation takes the order from waiting to work. -/
theorem ready_confirmed
    {base later : Ctx Db Row Stmt} {env : Env} {id : OrderId} {order : Order}
    {payment : Payment} (ready : Ready base)
    (confirmed : Payments.Confirmed base later env id order payment) :
    Ready later := by
  obtain ⟨extra, writes, follow⟩ := confirmed.writes
  intro state known
  have early := ready state (confirmed.known state known)
  have row : (applyAll base.writes state).orders.row id = some order := by
    rw [confirmed.orders]
    exact confirmed.orderRow state known
  rw [writes]
  simp only [applyAll_append]
  generalize applyAll base.writes state = middle at early row
  obtain ⟨loop, stored, waiting⟩ : ∃ loop, loopOf id middle = some loop ∧
      loop.status = .awaitingPayment :=
    ⟨_, Option.map_eq_some_iff.mpr ⟨order, row, rfl⟩, confirmed.waiting⟩
  obtain ⟨booked, split, calm⟩ := booking_activates env id order payment
  have followed : ∀ stmt ∈ extra, steady (.write stmt) := fun stmt member =>
    steady_of_followUp (follow stmt member)
  have started : Turned id middle
      (applyAll (moving id .active []) (applyAll booked middle)) loop
      { loop with status := .active } :=
    (Turned.steady stored calm).andThen fun still => .move still
  have turned := started.andThen fun moved => .steady moved followed
  rw [split, applyAll_append]
  exact ⟨early.1.trans (turned.advances (.pay waiting)),
    fun other => (turned.files rfl other).trans (early.2 other)⟩

/-- All callers of the confirmation keep the loops sound. -/
theorem confirmable_loops :
    Payments.Confirmable deliveryLocks Ready where
  orderRow := deliveryLocks_order
  paymentRow _ _ _ same := same.1
  plain ctx all := ready_of_winding fun stmt member => by
    have booked := all stmt member
    cases stmt <;> trivial
  grow base later ready grown := ready.grow (grown.weaken fun stmt table => by
    cases stmt <;> simp_all [Stmt.table, winding, steady])
  failed id reason ctx ready := by
    have emits : (Payments.markPaymentFailed id reason).Emits winding
        fun _ => True :=
      .seq (Prog.emits_updateWhere ⟨fun _ => trivial, fun _ => trivial⟩)
        fun _ => trivial
    exact Prog.wp_of_emits emits (by simp [winding, steady])
      fun _ _ _ grown => ready.grow grown
  confirmed _ _ _ _ _ _ ready confirmed := ready_confirmed ready confirmed

/-- A new order waits for its payment and has no deliveries. -/
theorem Created.ready
    {base later : Ctx Db Row Stmt} {key : OrderId} {order : Order}
    (created : Created base later key order)
    (waiting : order.status = .awaitingPayment)
    (unrevised : order.revisionsUsed = 0) (leaves : LeavesOrders base.writes)
    (before : Ready base) : Ready later := by
  obtain ⟨event, _, _, writes⟩ := created.writes
  intro state known
  have fresh := created.fresh state known
  have early := before state (created.known state known)
  rw [writes, applyAll_append]
  rw [← leaves.applyAll_orders state] at fresh
  generalize applyAll base.writes state = middle at early fresh
  refine ⟨early.1.trans ⟨.refl middle, fun history => ?_⟩, early.2⟩
  have rows : ∀ id found, (middle.orders.insert key order).row id = some found →
      middle.orders.row id = some found ∨ id = key ∧ found = order := by
    intro id found stored
    rcases Table.row_insert_cases stored with old | ⟨here, same, _⟩
    · exact .inl old
    · exact .inr ⟨here, same⟩
  refine ⟨fun id loop present => ?_, fun id absent => ?_⟩
  · obtain ⟨found, stored, rfl⟩ := Option.map_eq_some_iff.mp present
    rcases rows id found stored with old | ⟨rfl, rfl⟩
    · exact history.sound id _ (by simp [loopOf, old]; rfl)
    · exact Loop.sound_new waiting unrevised (history.known id fresh)
  · by_cases here : id = key
    · subst here
      have stored := Table.row_insert_self order fresh
      cases absent.symm.trans stored
    · exact history.known id ((Table.row_insert_other _ _ here).symm.trans absent)

/-- All services that create orders keep the loops sound. -/
theorem creatable_loops : Creatable deliveryLocks Ready where
  orderRow := deliveryLocks_order
  plain ctx none := ready_of_winding (by simp [none])
  grow base later ready grown := ready.grow (grown.weaken fun stmt table => by
    cases stmt <;> simp_all [matching, Stmt.table, winding, steady])
  created _ _ _ _ ready leaves waiting unrevised created :=
    created.ready waiting unrevised leaves ready

end Orders

namespace Disputes

open Orders

theorem steady_of_clearing
    {id : OrderId} {stmt : Stmt} (clears : clearing id (.write stmt)) :
    steady (.write stmt) := by
  cases stmt with
  | saveOrder key set =>
      obtain ⟨_, unset⟩ := clears
      exact ⟨fun _ => by rw [unset], fun _ => by rw [unset], fun _ => by rw [unset]⟩
  | insertOrder | insertDispute | insertDelivery | saveDelivery | saveDispute =>
      simp [clearing, Stmt.table] at clears
  | _ => trivial

/-- The first dispute of an order remembers a status. -/
theorem turned_insertDispute
    {id : OrderId} {dispute : Dispute} {loop : Loop} {db : Db}
    (stored : loopOf id db = some loop) (first : db.disputes.row id = none) :
    Turned id db ((Stmt.insertDispute id dispute).apply db) loop
      { loop with prior := some dispute.priorOrderStatus } := by
  obtain ⟨order, present, rfl⟩ := Option.map_eq_some_iff.mp stored
  refine ⟨stored, ?_, fun other different => ⟨?_, rfl⟩, fun other found kept => ?_⟩
  · have row := Table.row_insert_self dispute first
    exact Option.map_eq_some_iff.mpr ⟨order, present, by
      simp [Order.loop, priorOf, Stmt.apply, row]; rfl⟩
  · simp [loopOf, priorOf, Stmt.apply, different]
    rfl
  · exact ⟨found, Table.row_insert_of_some id dispute kept, rfl⟩

/-- Filing a dispute suspends the loop of the order. -/
theorem Opens.ready
    {id : OrderId} {order : Order} {later : Ctx Db Row Stmt}
    (opens : Opens id order later) : Ready later := by
  obtain ⟨dispute, flags, prior, _, choice, writes⟩ := opens.writes
  intro state known
  have stored := opens.held state known
  have first := opens.first state known
  rw [writes]
  have calm : ∀ stmt ∈ flags, steady (.write stmt) := by
    rcases choice with rfl | rfl <;> simp [steady, keepsLoop_iff]
  obtain ⟨loop, found, working⟩ : ∃ loop, loopOf id state = some loop ∧
      loop.status = order.status ∧ loop.prior = none :=
    ⟨_, Option.map_eq_some_iff.mpr ⟨order, stored, rfl⟩, rfl, by
      simp [Order.loop, priorOf, first]⟩
  have raised : Turned id state
      (applyAll flags ((Stmt.insertDispute id dispute).apply state)) loop
      { loop with prior := some dispute.priorOrderStatus } :=
    (turned_insertDispute found first).andThen fun mid => .steady mid calm
  have turned : Turned id state (applyAll (moving id .disputed
      [{ order := id, eventType := .disputeOpened }])
        (applyAll flags ((Stmt.insertDispute id dispute).apply state))) loop
      { loop with status := .disputed, prior := some loop.status } := by
    rw [working.1, ← prior]
    exact raised.andThen fun mid => .move mid
  simp only [applyAll_append]
  exact ⟨turned.advances (.suspend working.2), turned.files rfl⟩

/-- A resolution ends the loop of the order, or takes it up where it was. -/
theorem Closes.continues
    {id : OrderId} {order : Order} {copy : Dispute} {outcome : DisputeOutcome}
    {later : Ctx Db Row Stmt} {seen : Db}
    (closes : Closes id order copy outcome later)
    (found : seen.disputes.row id = some copy) :
    ∀ state, later.known state → Continues seen later.writes state ∧
      ∀ other, filed other (applyAll later.writes state) = filed other state := by
  obtain ⟨cleared, moved, set, clears, moves, kept, writes⟩ := closes.writes
  intro state known
  have stored := closes.held state known
  have early : ∀ stmt ∈ cleared, steady (.write stmt) := fun stmt member =>
    steady_of_clearing (clears stmt member)
  have last : ∀ stmt ∈ [Stmt.saveDispute id copy.status set],
      steady (.write stmt) := by
    simpa [steady] using fun stored => (kept stored).2
  cases moves with
  | stays target =>
      have calm : ∀ stmt ∈ later.writes, steady (.write stmt) := by
        rw [writes]
        simp only [List.forall_mem_append]
        exact ⟨⟨early, List.forall_mem_singleton.mpr trivial⟩, last⟩
      have same := steady_applyAll calm state
      exact ⟨fun _ _ => advances_of_same same.1 same.2, fun other =>
        (same.2 other).filed⟩
  | moves edge =>
      obtain ⟨loop, here, status, stays⟩ : ∃ loop,
          loopOf id state = some loop ∧ loop.status = order.status ∧
            loop.prior = priorOf id state :=
        ⟨_, Option.map_eq_some_iff.mpr ⟨order, stored, rfl⟩, rfl, rfl⟩
      let event : OrderEvent :=
        { order := id, eventType := .disputeResolved,
          data := .nestedOutcome outcome }
      have turned : Turned id state (applyAll later.writes state) loop
          { loop with status := newStatus copy outcome } := by
        rw [writes, applyAll_append, applyAll_append]
        have cleaned := Turned.steady here early
        have moved : Turned id _ (applyAll (moving id (newStatus copy outcome)
            [event]) (applyAll cleared state)) loop
              { loop with status := newStatus copy outcome } :=
          .move cleaned.moved
        exact (cleaned.andThen fun _ => moved).andThen fun mid => .steady mid last
      refine ⟨fun restores past => turned.advances ?_, turned.files rfl⟩
      have recorded : Stmt.recordEvent event ∈ later.writes := by
        simp [writes, event]
      have restored := restores _ recorded id
      obtain ⟨dispute, kept, same⟩ := past id copy found
      cases outcome with
      | noFaultClose =>
          have disputed := restored (by simp [Orders.restored, event])
          refine @Loop.Step.resume loop copy.priorOrderStatus ?_ ?_
          · simpa [stored, status] using disputed
          · simp [stays, priorOf, kept, same]
      | refundStudentFull => exact .finish (.inr rfl) rfl
      | refundStudentPartial | releaseExpert | split =>
          exact .finish (.inl rfl) rfl

end Disputes

/-! ## Operations -/

open Orders

theorem winding_of_transition
    {id : OrderId} {toStatus : OrderStatus} {eventType : OrderEventType}
    {actor : Option Actor} (ended : toStatus = .completed ∨ toStatus = .cancelled) :
    (transition id toStatus eventType actor).Emits winding fun _ => True := by
  have ends : EndsLoop fun stored => { stored with status := toStatus } :=
    ⟨ended.imp (fun same _ => same) fun same _ => same, fun _ => rfl, fun _ => rfl⟩
  simp [transition, getForUpdate, recordEvent, Tx.getForUpdate, Tx.get, winding,
    steady, ends]

theorem cancel_winding
    (env : Env) (id : OrderId) (actor : Actor) (reason : String) :
    (cancel env id actor reason).Emits winding fun _ => True := by
  refine .seq (by simp [getForUpdate, Tx.getForUpdate, Tx.get]) fun order => ?_
  refine .seq (by simp) fun _ => .seq (by simp) fun _ => .seq (by simp) fun _ => ?_
  refine .seq (by simp [winding, keepsLoop_iff]) fun _ => ?_
  refine .seq (winding_of_transition (.inr rfl)) fun cancelled => ?_
  refine .seq (Prog.emits_updateWhere ⟨fun _ => trivial, fun _ => trivial⟩)
    fun _ => ?_
  exact moveRequest_emits fun _ _ => by
    simp [ServiceRequests.transition, winding, steady]

theorem sweepUnpaid_winding (env : Env) :
    (sweepUnpaid env).Emits winding fun _ => True := by
  have single : ∀ id, (cancelUnpaid env id).Emits winding fun _ => True :=
    fun id => .seq (by simp [winding, keepsLoop_iff])
      fun _ => .seq (winding_of_transition (.inr rfl)) (by simp)
  refine .seq (by simp) fun stale => .seq (Prog.emits_forEach ?_ trivial) (by simp)
  exact fun id _ => (single id).mono fun _ _ _ _ => trivial

theorem autoApproveOne_advances (env : Env) (id : OrderId) :
    (autoApproveOne env id).wp deliveryLocks .start
      (Ctx.Finishes deliveryLocks Advancing) := by
  simp only [autoApproveOne, getForUpdate, Tx.getForUpdate, Tx.get,
    Prog.wp_bind, Prog.wp_lockRow, Prog.wp_read, Prog.wp_orFail, Prog.wp_ite,
    Prog.wp_pure, Ctx.start_writes, Ctx.take_writes, applyAll_nil,
    Ctx.finishes_error, implies_true, and_true]
  intro seen _ _ order _
  refine ⟨fun _ => approveDelivery_advances env id none .auto rfl, fun _ => ?_⟩
  exact Ready.commit (ready_of_winding (by simp))

theorem OrderCall.safe (call : OrderCall) :
    call.call.Safe deliveryLocks Advancing := by
  by_cases deadlines : call.Deadlines
  · have emits : call.call.Emits winding fun _ => True := deadlines.emits
      (fun stmt table => by cases stmt <;> simp_all [Stmt.table, winding, steady])
      (fun _ _ _ _ => trivial)
      fun _ _ => .inl ⟨fun _ => rfl, fun _ => rfl, fun _ => rfl⟩
    exact safe_of_winding emits
  cases call with
  | submitDelivery => exact Call.perform_safe (submitDelivery_advances _ _ _ _ _)
  | requestRevision => exact Call.perform_safe (requestRevision_advances _ _ _ _)
  | approveDelivery =>
      exact Call.perform_safe (approveDelivery_advances _ _ _ _ rfl)
  | cancel env id actor reason =>
      exact safe_of_winding (Request.emits_atomic.mpr
        (.seq (cancel_winding env id actor reason) (by simp)))
  | autoApproveDue env =>
      simp only [OrderCall.call, Orders.autoApproveDue, Request.Safe,
        Request.wp_bind, Request.wp_load, Ctx.start_observe]
      intro state _ _
      refine Request.wp_mono (Request.wp_forEach fun item _ => ?_) fun _ _ _ => ?_
      · refine Request.wp_tryCatch.mpr (Request.wp_atomic.mpr
          (Prog.wp_mono (autoApproveOne_advances _ item.1) ?_))
        rintro (error | value) later fine
        · cases error <;> simp
        · exact ⟨fine, rfl⟩
      · trivial
  | sweepUnpaid env =>
      exact safe_of_winding (Request.emits_atomic.mpr
        (.seq (sweepUnpaid_winding env) (by simp)))
  | awaitingPaymentSweeper =>
      refine safe_of_winding ?_
      simp [OrderCall.call, Orders.awaitingPaymentSweeper]
  | _ => exact absurd trivial deadlines

/-- Row locks are the weaker locks. -/
theorem refined_wp
    {α : Type} {service : Tx α}
    {goal : Except Error α → Ctx Db Row Stmt → Prop}
    (holds : service.wp rowLocks .start goal) :
    service.wp deliveryLocks .start fun result later =>
      ∃ base, goal result base ∧ later.Refines base :=
  have weaker : ∀ row first second, deliveryLocks.Same row first second →
      rowLocks.Same row first second := fun _ _ _ same => same.1
  Prog.wp_refine (fun _ _ => trivial) weaker holds
    ⟨rfl, rfl, fun _ known => known⟩

theorem DisputeCall.continues (call : DisputeCall) :
    call.call.Looks deliveryLocks Continues := by
  cases call with
  | openDispute env id actor reason description evidence =>
      refine looks_of_advancing (Call.perform_safe ?_)
      have opens : (Disputes.openDispute env id actor reason description
          evidence).wp rowLocks .start fun result later =>
            ∀ value, result = .ok value → ∃ order, Disputes.Opens id order later :=
        Disputes.openDispute_opens nofun fun order later opens _ _ =>
          ⟨order, opens⟩
      refine Prog.wp_mono (refined_wp opens) ?_
      rintro (error | value) later ⟨base, opened, refines⟩
      · trivial
      obtain ⟨order, opens⟩ := opened value rfl
      exact (Ready.refine opens.ready refines).commit
  | resolve env id actor outcome notes amount =>
      refine Call.performOn_looks fun seen copy found => ?_
      have closes : (Disputes.resolve env id copy actor outcome notes
          amount).wp rowLocks .start fun result later =>
            ∀ value, result = .ok value →
              ∃ order, Disputes.Closes id order copy outcome later :=
        Disputes.resolve_closes nofun fun order later closes _ _ =>
          ⟨order, closes⟩
      refine Prog.wp_mono (refined_wp closes) ?_
      rintro (error | value) later ⟨base, closed, refines⟩
      · trivial
      obtain ⟨order, closes⟩ := closed value rfl
      refine deliveryLocks_commit fun state known => ?_
      have fine := closes.continues found state (refines.known state known)
      rw [refines.writes]
      exact ⟨fine.1, fun other _ => fine.2 other⟩
  | takeCase | awaitResponse | resumeReview | close =>
      refine looks_of_advancing (safe_of_winding ?_)
      simp [DisputeCall.call, DisputeCall.onDispute, Call.performOn,
        Call.perform, Call.get, Disputes.takeCase, Disputes.awaitResponse,
        Disputes.resumeReview, Disputes.close, Disputes.transition, winding,
        steady]

/-- The payment services that do not confirm a payment leave the loops alone. -/
theorem PaymentCall.winding
    {call : PaymentCall} (other : ¬Payments.Confirmable.Confirms call) :
    call.call.Emits winding fun _ => True := by
  cases call with
  | voidPayment =>
      refine Request.emits_atomic.mpr (.seq (Prog.emits_updateWhere
        ⟨fun _ => trivial, fun _ => trivial⟩) (by simp))
  | payoutSweeper env =>
      refine .seq (by simp) fun due => Request.emits_forEach fun item _ => ?_
      simp [Payments.schedulePayout, Tx.create, Orders.winding, steady]
  | issueRefund | schedulePayout | settlePayout | markPayoutFailed | configure =>
      simp [PaymentCall.call, Call.performOn, Call.perform, Call.get, Call.exec,
        Payments.issueRefund, Payments.schedulePayout, Payments.settlePayout,
        Payments.markPayoutFailed, Payments.getForUpdate,
        Payments.getPayoutForUpdate, Payments.ledger, Orders.getForUpdate,
        Tx.getForUpdate, Tx.get, Tx.create, Orders.winding, steady]
  | _ => exact absurd trivial other

/-- Every operation keeps the loops sound, given what it has seen. -/
theorem Operation.continues (operation : Operation) :
    operation.call.Looks deliveryLocks Continues := by
  by_cases triages : operation.Triages
  · by_cases converges : operation.Converges
    · exact creatable_loops.converges_looks (fun seen ctx ready =>
        deliveryLocks_commit fun state known =>
          ⟨fun _ _ => (ready state known).1, fun id _ => (ready state known).2 id⟩)
        converges
    · exact looks_of_advancing (safe_of_winding (triages.emits
        (fun stmt table => by
          cases stmt <;> simp_all [Stmt.table, winding, steady]) converges))
  rcases operation with _ | _ | _ | call | call | call <;>
    try exact absurd trivial triages
  · exact looks_of_advancing call.safe
  · by_cases confirms : Payments.Confirmable.Confirms call
    · exact looks_of_advancing (confirmable_loops.safe
        (fun ctx ready => ready.commit) confirms)
    · exact looks_of_advancing (safe_of_winding (PaymentCall.winding confirms))
  · exact call.continues

/--
In every interleaving of operations in which only disputed orders are restored,
the deliveries of an order agree with its status and its counters, and the
number of the next delivery is not used.
-/
theorem delivery_history
    {db : Db} {operations : Nat → Operation} {system : Marketplace}
    (start : DeliveryHistory db)
    (reach : System.Reach RestoresDisputed
      (Marketplace.start db operations) system) :
    DeliveryHistory system.committed ∧
      ∀ id order, system.committed.orders.row id = some order →
        order.status ∈ [.active, .revisionRequested] →
          revisionUsed id
            (if order.status = .revisionRequested then order.revisionsUsed else 0)
            system.committed = false := by
  have informed := reach.informed KeepsPriors.refl KeepsPriors.trans
    (fun _ _ _ => trivial) trivial (fun client => (operations client).continues)
    (fun _ _ _ state restores past advances history =>
      have moved : Advances state _ := advances restores past
      ⟨moved.priors, moved.history history⟩) start
  refine ⟨informed.2, fun id order stored working => ?_⟩
  exact next_unused (informed.2.sound id _
    (Option.map_eq_some_iff.mpr ⟨order, stored, rfl⟩)) (by simpa using working)

instance (stmts : List Stmt) (db : Db) : Decidable (RestoresDisputed stmts db) :=
  inferInstanceAs (Decidable (∀ stmt ∈ stmts, ∀ id ∈ restored stmt,
    (db.orders.row id).any (·.status = .disputed) = true))

theorem offered_history : DeliveryHistory offered where
  sound _ _ none := nomatch none
  known _ _ _ := rfl

/-- A delivered order keeps its history through a dispute and a revision. -/
theorem delivery_history_suspended :
    let last := suspendedRun.committed
    (DeliveryHistory last ∧ ∀ id order, last.orders.row id = some order →
      order.status ∈ [.active, .revisionRequested] →
        revisionUsed id
          (if order.status = .revisionRequested then order.revisionsUsed else 0)
          last = false) ∧
      (loopOf 40 last).any (fun loop => loop.status = .revisionRequested &&
        loop.revisionsUsed = 1) = true :=
  ⟨delivery_history offered_history
    (System.reach_of_admitsAll .refl (by decide +kernel)), by decide +kernel⟩

/-- Two reviewers close the same dispute without fault. -/
def restoredTwice : Nat → Operation
  | 6 => .dispute (.resolve { now := 5, key := 71 } 40 (some ⟨8, true⟩)
      .noFaultClose "Both chapters are there, in the annex." none)
  | 7 => .order (.requestRevision { now := 6 } 40 ⟨1, false⟩
      "Please move the annex to the front.")
  | client => suspended client

/-- The second reviewer has read the dispute before the first one closes it. -/
def restoredTwiceRun : Marketplace :=
  (Marketplace.start offered restoredTwice).runAll
    ((List.range 5).flatMap (turns · 40) ++ turns 6 1 ++ turns 5 40 ++
      turns 7 40 ++ turns 6 40)

/--
The revision that the student has asked for is undone by the second reviewer:
the order is delivered, and its delivery still has to be revised.
-/
theorem restored_twice_breaks_history :
    (loopOf 40 restoredTwiceRun.committed).map
        (fun loop => (loop.status, loop.revisionsUsed, loop.filed 50)) =
      some (.delivered, 1, some (0, .revisionRequested)) ∧
      ¬DeliveryHistory restoredTwiceRun.committed := by
  have shown : (loopOf 40 restoredTwiceRun.committed).map
      (fun loop => (loop.status, loop.revisionsUsed, loop.filed 50)) =
        some (.delivered, 1, some (0, .revisionRequested)) := by decide +kernel
  refine ⟨shown, fun history => ?_⟩
  obtain ⟨loop, stored, columns⟩ := Option.map_eq_some_iff.mp shown
  simp only [Prod.mk.injEq] at columns
  obtain ⟨count, counted⟩ := history.sound 40 loop stored
  have fits := counted.fits
  rw [columns.1] at fits
  have two : count = 1 + 1 := columns.2.1 ▸ fits.1
  obtain ⟨key, found⟩ := counted.numbered.every 1 (two ▸ Nat.lt_succ_self 1)
  rw [filed_of_loopOf stored] at found
  have used := revisionUsed_iff.mpr ⟨key, found⟩
  have unused : revisionUsed 40 1 restoredTwiceRun.committed = false := by
    decide +kernel
  exact absurd (used.symm.trans unused) nofun

end KnowledgeMarketplace
