import KnowledgeMarketplace.Database.Locks
import KnowledgeMarketplace.Disputes.Services
import KnowledgeMarketplace.Orders.Rules

/-!
# What dispute services write
-/

namespace KnowledgeMarketplace

open Transaction

namespace Disputes

variable {good : Effect Stmt → Prop}

/-- What resolving a dispute writes, besides its refund. -/
theorem resolve_emits
    {env : Env} {id : OrderId} {dispute : Dispute} {actor : Option Actor}
    {outcome : DisputeOutcome} {notes : String}
    {refundAmountMinor : Option Int}
    (refunded : ∀ amount,
      (Payments.issueRefund env id amount .disputeResolution actor).Emits good
        fun _ => True)
    (payout : ∀ key set, good (.write (.savePayout key set)))
    (unfrozen : good (.write (.saveOrder id fun stored =>
      { stored with hasOpenDispute := false })))
    (moved : ∀ status, good (.write (.saveOrder id fun stored =>
      { stored with status })))
    (event : ∀ value, value.eventType = .disputeResolved →
      good (.write (.recordEvent value)))
    (resolved : (transitions dispute.status .resolved).isSome →
      good (.write (.saveDispute id dispute.status fun stored =>
        { stored with
          outcome := some outcome
          resolutionNotes := strip notes
          resolvedBy := actor.map Actor.id
          resolvedAt := some env.now
          status := .resolved }))) :
    (resolve env id dispute actor outcome notes refundAmountMinor).Emits good
      fun _ => True := by
  have refunding : ∀ payment,
      (refundOutcome env id actor outcome payment refundAmountMinor).Emits good
        fun _ => True := by
    intro payment
    simp only [refundOutcome, Prog.emits_ite, Prog.emits_pure, implies_true,
      and_true]
    refine fun _ => .seq (by simp) fun payment => .seq (by simp) fun amount => ?_
    refine .seq (refunded amount) fun _ => ?_
    simp [voidScheduledPayout, Payments.markPayoutFailed,
      Payments.getPayoutForUpdate, Tx.getForUpdate, Tx.get, payout]
  unfold resolve
  refine .seq (by simp) fun _ => ?_
  refine Prog.emits_bind.mpr (Prog.emits_require.mpr
    ⟨fun edge => .seq (by simp) fun _ => ?_, fun _ => trivial⟩)
  refine .seq (by simp [Orders.getForUpdate, Tx.getForUpdate, Tx.get])
    fun order => .seq (by simp) fun payment => ?_
  refine .seq (refunding payment) fun _ => ?_
  refine .seq (by simp [freeze, unfrozen]) fun _ => ?_
  refine .seq (by simp [adjustPayout, payout]) fun _ => .seq ?_ fun _ => ?_
  · simp [moveOrder, Orders.transition, Orders.getForUpdate,
      Orders.recordEvent, Tx.getForUpdate, Tx.get, moved, event]
  · simpa using resolved edge

/-! ## What a resolution commits -/

/-- No statements, or those of one refund. -/
def Reimburses
    (protocol : Protocol Db Row Stmt) (base later : Ctx Db Row Stmt)
    (env : Env) (id : OrderId) (actor : Option Actor) (money : List Stmt) :
    Prop :=
  money = [] ∨ ∃ amountMinor payment order reference parts,
    Payments.Refunding protocol base later env id amountMinor payment order
      parts ∧
    money = Payments.refunding env id amountMinor .disputeResolution actor
      payment order reference parts

/-- A refund inside a larger block that has written nothing before it. -/
theorem Reimburses.widen
    {protocol : Protocol Db Row Stmt} {base middle later last : Ctx Db Row Stmt}
    {env : Env} {id : OrderId} {actor : Option Actor} {money : List Stmt}
    (reimburses : Reimburses protocol middle later env id actor money)
    (writes : middle.writes = base.writes)
    (before : ∀ state, middle.known state → base.known state)
    (after : ∀ state, last.known state → later.known state) :
    Reimburses protocol base last env id actor money := by
  rcases reimburses with
    rfl | ⟨amount, payment, order, reference, parts, refunding, rfl⟩
  · exact .inl rfl
  · exact .inr ⟨amount, payment, order, reference, parts,
      refunding.widen writes before after, rfl⟩

/-- Statements that correct payouts, or unfreeze and move the order. -/
def Aftermath (id : OrderId) : Stmt → Prop
  | .savePayout _ _ => True
  | .saveOrder key set => key = id ∧ KeepsBooking set
  | _ => False

/-- Effects on payouts and the order after the refund of a resolution. -/
def aftermath (id : OrderId) : Effect Stmt → Prop
  | .write stmt => Aftermath id stmt
  | .savepoint => False

/-- What is known after the resolution of a dispute. -/
structure Resolved
    (protocol : Protocol Db Row Stmt) (base later : Ctx Db Row Stmt) (env : Env) (id : OrderId)
    (dispute : Dispute) (actor : Option Actor) : Prop where
  underReview : dispute.status = .underReview
  known : ∀ state, later.known state → base.known state
  writes : ∃ money extra data set,
    Reimburses protocol base later env id actor money ∧
    (∀ stmt ∈ extra, Aftermath id stmt) ∧
    (∀ stored, (set stored).status = .resolved) ∧
    later.writes = base.writes ++ money ++ extra ++
      [.recordEvent { order := id, eventType := .disputeResolved, data },
        .saveDispute id dispute.status set]

variable {protocol : Protocol Db Row Stmt} {ctx : Ctx Db Row Stmt}

/-- The refund of an outcome, and the payout that it voids. -/
theorem refundOutcome_wp
    {env : Env} {id : OrderId} {actor : Option Actor}
    {outcome : DisputeOutcome} {payment : Option Payment}
    {refundAmountMinor : Option Int}
    {goal : Except Error Unit → Ctx Db Row Stmt → Prop}
    (errors : ∀ error later, goal (.error error) later)
    (success : ∀ money extra later,
      Reimburses protocol ctx later env id actor money →
      (∀ stmt ∈ extra, Aftermath id stmt) →
      (∀ state, later.known state → ctx.known state) →
      later.writes = ctx.writes ++ money ++ extra → goal (.ok ()) later) :
    (refundOutcome env id actor outcome payment refundAmountMinor).wp protocol
      ctx goal := by
  simp only [refundOutcome, Prog.wp_ite, Prog.wp_bind, Prog.wp_pure,
    Prog.wp_orFail, Prog.wp_ofExcept, errors, implies_true, and_true]
  refine ⟨fun _ found _ amount _ => ?_, fun _ =>
    success [] [] ctx (.inl rfl) (by simp) (fun _ known => known) (by simp)⟩
  refine Payments.issueRefund_wp (fun _ _ => trivial) ?_
  intro paid order reference parts later refunding writes
  have money : Reimburses protocol ctx later env id actor (Payments.refunding
      env id amount .disputeResolution actor paid order reference parts) :=
    .inr ⟨amount, paid, order, reference, parts, refunding, rfl⟩
  refine ⟨fun _ => ?_, fun _ =>
    success _ [] later money (by simp) refunding.known (by simp [writes])⟩
  have voided : (voidScheduledPayout id actor).Emits (aftermath id)
      fun _ => True := by
    simp [voidScheduledPayout, Payments.markPayoutFailed,
      Payments.getPayoutForUpdate, Tx.getForUpdate, Tx.get, aftermath,
      Aftermath]
  refine Prog.wp_of_emits voided (by simp [aftermath]) ?_
  rintro (error | value) last _ grown
  · exact errors error last
  · obtain ⟨extra, after, all⟩ := grown.writes
    exact success _ extra last (money.widen rfl
      (fun _ known => known) grown.known) all
      (fun state holds => refunding.known state (grown.known state holds))
      (by simp [after, writes])

/-- A resolution refunds at most once and records itself once, or fails. -/
theorem resolve_wp
    {env : Env} {id : OrderId} {dispute : Dispute} {actor : Option Actor}
    {outcome : DisputeOutcome} {notes : String}
    {refundAmountMinor : Option Int}
    {goal : Except Error Unit → Ctx Db Row Stmt → Prop}
    (errors : ∀ error later, goal (.error error) later)
    (success : ∀ later, Resolved protocol ctx later env id dispute actor →
      goal (.ok ()) later) :
    (resolve env id dispute actor outcome notes refundAmountMinor).wp protocol
      ctx goal := by
  simp only [resolve, Orders.getForUpdate, Tx.getForUpdate, Tx.get,
    Prog.wp_bind, Prog.wp_read, Prog.wp_require, Prog.wp_lockRow,
    Prog.wp_orFail, Prog.wp_exec, errors, implies_true, and_true]
  intro _ edge _ first _ _ order _ second _ _
  have underReview : dispute.status = .underReview := by
    cases status : dispute.status <;> simp_all [transitions]
  refine refundOutcome_wp (fun _ _ => trivial) ?_
  intro money voided afterRefund reimburses voids knownRefund splitRefund
  have unfrozen : (freeze id order false).Emits (aftermath id)
      fun _ => True := by
    simp [freeze, aftermath, Aftermath, keepsBooking_iff]
  have adjusted : (adjustPayout id outcome).Emits (aftermath id)
      fun _ => True := by
    simp [adjustPayout, aftermath, Aftermath]
  refine Prog.wp_of_emits unfrozen (by simp [aftermath]) ?_
  rintro (error | value) afterFreeze _ freezes
  · trivial
  refine Prog.wp_of_emits adjusted (by simp [aftermath]) ?_
  rintro (error | value) afterAdjust _ adjusts
  · trivial
  obtain ⟨frozen, splitFreeze, allFrozen⟩ := freezes.writes
  obtain ⟨fixed, splitAdjust, allFixed⟩ := adjusts.writes
  have writes : afterAdjust.writes = ctx.writes ++ money ++
      (voided ++ frozen ++ fixed) := by
    simp [splitAdjust, splitFreeze, splitRefund]
  have known : ∀ state, afterAdjust.known state → ctx.known state := by
    intro state holds
    have before := knownRefund state (freezes.known state
      (adjusts.known state holds))
    simp only [Ctx.observe_known, Ctx.take_known] at before
    exact before.1.1
  have reimbursed : Reimburses protocol ctx afterAdjust env id actor money :=
    reimburses.widen rfl
      (fun state holds => by
        simp only [Ctx.observe_known, Ctx.take_known] at holds
        exact holds.1.1)
      fun state holds => freezes.known state (adjusts.known state holds)
  have all : ∀ stmt ∈ voided ++ frozen ++ fixed, Aftermath id stmt := by
    intro stmt member
    simp only [List.mem_append] at member
    rcases member with (member | member) | member
    · exact voids stmt member
    · exact allFrozen stmt member
    · exact allFixed stmt member
  let save : Dispute → Dispute := fun stored =>
    { stored with
      outcome := some outcome
      resolutionNotes := strip notes
      resolvedBy := actor.map Actor.id
      resolvedAt := some env.now
      status := .resolved }
  simp only [moveOrder, Orders.transition, Orders.getForUpdate,
    Orders.recordEvent, Tx.getForUpdate, Tx.get, Prog.wp_ite, Prog.wp_bind,
    Prog.wp_read, Prog.wp_require, Prog.wp_lockRow, Prog.wp_orFail,
    Prog.wp_exec, Prog.wp_pure, implies_true, and_true]
  constructor
  · intro _ third _ _ _ _ _
    refine success _ ⟨underReview, fun state holds => ?_, money,
      voided ++ frozen ++ fixed ++ [.saveOrder id fun stored =>
        { stored with status := newStatus dispute outcome }],
      .nestedOutcome outcome, save,
      reimbursed.widen rfl (fun _ known => known) fun state holds => ?_,
      ?_, fun _ => rfl, by simp [writes, save]⟩
    · simp only [Ctx.push_known, Ctx.observe_known, Ctx.take_known] at holds
      exact known state holds.1
    · simp only [Ctx.push_known, Ctx.observe_known, Ctx.take_known] at holds
      exact holds.1
    · intro stmt member
      rcases List.mem_append.mp member with before | last
      · exact all stmt before
      · rw [List.mem_singleton.mp last]
        exact ⟨rfl, by simp [keepsBooking_iff]⟩
  · intro _
    exact success _ ⟨underReview, known, money, _, .outcome outcome, save,
      reimbursed.widen rfl (fun _ known => known) fun _ holds => holds, all,
      fun _ => rfl, by simp [writes, save]⟩

/-! ## What a resolution does to its order -/

/-- Effects before the order moves: money, corrections and the flag. -/
def clearing (id : OrderId) : Effect Stmt → Prop
  | .write (.saveOrder key set) =>
      key = id ∧ ∀ stored, set stored = { stored with hasOpenDispute := false }
  | .write (.savePayout _ set) => ∀ stored, (set stored).order = stored.order
  | .write stmt => stmt.table ∈ [.payments, .refunds, .ledger]
  | .savepoint => False

/-- Up to the flag, the order stays as it is until it moves. -/
theorem row_of_clearing
    {id : OrderId} {stmts : List Stmt}
    (clears : ∀ stmt ∈ stmts, clearing id (.write stmt)) {db : Db}
    {order : Order} (stored : db.orders.row id = some order) :
    ∃ flag, (applyAll stmts db).orders.row id =
      some { order with hasOpenDispute := flag } := by
  refine applyAll_keeps (fun now : Db => ∃ flag, now.orders.row id =
    some { order with hasOpenDispute := flag }) (fun stmt member now before => ?_)
    ⟨order.hasOpenDispute, stored⟩
  obtain ⟨flag, row⟩ := before
  have fine := clears stmt member
  cases stmt with
  | saveOrder key set =>
      obtain ⟨rfl, unfreezes⟩ := fine
      exact ⟨false, by simp [Stmt.apply, row, unfreezes]⟩
  | savePayout | updatePayment | savePayment | insertPayment | insertRefund
  | saveRefund | appendLedger => exact ⟨flag, row⟩
  | _ => simp [clearing, Stmt.table] at fine

/-- The order moves along an edge, or is where it should be. -/
inductive OrderMoves (id : OrderId) (order : Order) (toStatus : OrderStatus)
    (outcome : DisputeOutcome) : List Stmt → Prop where
  | stays : toStatus = order.status → OrderMoves id order toStatus outcome
      [.recordEvent { order := id, eventType := .disputeResolved,
                      data := .outcome outcome }]
  | moves : (Orders.transitions order.status toStatus).isSome →
      OrderMoves id order toStatus outcome
        [.saveOrder id fun stored => { stored with status := toStatus },
          .recordEvent { order := id, eventType := .disputeResolved,
                         data := .nestedOutcome outcome }]

/-- What a resolution has done to the order that it holds. -/
structure Closes (id : OrderId) (order : Order) (dispute : Dispute)
    (outcome : DisputeOutcome) (later : Ctx Db Row Stmt) : Prop where
  underReview : dispute.status = .underReview
  held : ∀ state, later.known state → state.orders.row id = some order
  writes : ∃ cleared moved set,
    (∀ stmt ∈ cleared, clearing id (.write stmt)) ∧
    OrderMoves id order (newStatus dispute outcome) outcome moved ∧
    (∀ stored : Dispute, (set stored).status = .resolved ∧
      (set stored).priorOrderStatus = stored.priorOrderStatus) ∧
    later.writes = cleared ++ moved ++ [.saveDispute id dispute.status set]

/-- The refund and its corrections clear the order. -/
theorem refundOutcome_clears
    (env : Env) (id : OrderId) (actor : Option Actor)
    (outcome : DisputeOutcome) (payment : Option Payment)
    (refundAmountMinor : Option Int) :
    (refundOutcome env id actor outcome payment refundAmountMinor).Emits
      (clearing id) fun _ => True := by
  simp [refundOutcome, voidScheduledPayout, Payments.issueRefund,
    Payments.getForUpdate, Payments.ledger, Payments.markPayoutFailed,
    Payments.getPayoutForUpdate, Tx.getForUpdate, Tx.get, Tx.create, clearing,
    Stmt.table]

/-- A resolution clears the order that it has locked, and moves it. -/
theorem resolve_closes
    {env : Env} {id : OrderId} {dispute : Dispute} {actor : Option Actor}
    {outcome : DisputeOutcome} {notes : String}
    {refundAmountMinor : Option Int}
    {goal : Except Error Unit → Ctx Db Row Stmt → Prop}
    (errors : ∀ error later, goal (.error error) later)
    (success : ∀ order later, Closes id order dispute outcome later →
      goal (.ok ()) later) :
    (resolve env id dispute actor outcome notes refundAmountMinor).wp rowLocks
      .start goal := by
  simp only [resolve, Orders.getForUpdate, Tx.getForUpdate, Tx.get,
    Prog.wp_bind, Prog.wp_read, Prog.wp_require, Prog.wp_lockRow,
    Prog.wp_orFail, Prog.wp_exec, errors, implies_true, and_true,
    Ctx.start_writes, Ctx.take_writes, applyAll_nil]
  intro _ edge _ first _ _ order stored second _ _
  have underReview : dispute.status = .underReview := by
    cases status : dispute.status <;> simp_all [transitions]
  refine Prog.wp_of_emits (refundOutcome_clears _ _ _ _ _ _)
    (by simp [clearing]) ?_
  rintro (error | value) refunded _ refunds
  · trivial
  have freezes : (freeze id order false).Emits (clearing id) fun _ => True := by
    simp [freeze, clearing]
  refine Prog.wp_of_emits freezes (by simp [clearing]) ?_
  rintro (error | value) unfrozen _ unfreezes
  · trivial
  have adjusts : (adjustPayout id outcome).Emits (clearing id)
      fun _ => True := by
    simp [adjustPayout, clearing]
  refine Prog.wp_of_emits adjusts (by simp [clearing]) ?_
  rintro (error | value) adjusted _ corrects
  · trivial
  have grown := (refunds.trans unfreezes).trans corrects
  obtain ⟨cleared, writes, all⟩ := grown.writes
  have held : ∀ state, adjusted.known state →
      state.orders.row id = some order := by
    intro state known
    have before := grown.known state known
    simp only [Ctx.observe_known, Ctx.take_known] at before
    have same : first.orders.row id = state.orders.row id :=
      before.1.2 (.order id) (by simp)
    exact same.symm.trans stored
  have writes : adjusted.writes = cleared := by simpa using writes
  simp only [moveOrder, Orders.transition, Orders.getForUpdate,
    Orders.recordEvent, Tx.getForUpdate, Tx.get, Prog.wp_ite, Prog.wp_bind,
    Prog.wp_read, Prog.wp_require, Prog.wp_lockRow, Prog.wp_orFail,
    Prog.wp_exec, Prog.wp_pure, implies_true, and_true]
  constructor
  · intro _ third _ known current found edge
    obtain ⟨flag, row⟩ := row_of_clearing all (held third known)
    rw [Ctx.take_writes, writes, row] at found
    obtain rfl := Option.some.inj found
    refine success order _ ⟨underReview, fun state known => ?_, cleared, _, _,
      all, .moves edge, ?_, by simp [writes]; rfl⟩
    · simp only [Ctx.push_known, Ctx.observe_known, Ctx.take_known] at known
      exact held state known.1
    · exact fun _ => ⟨rfl, rfl⟩
  · intro same
    refine success order _ ⟨underReview, held, cleared, _, _, all,
      .stays (not_ne_iff.mp same), ?_, by simp [writes]; rfl⟩
    exact fun _ => ⟨rfl, rfl⟩

/-! ## What filing a dispute does to its order -/

/-- What filing a dispute has done to the order that it holds. -/
structure Opens (id : OrderId) (order : Order) (later : Ctx Db Row Stmt) :
    Prop where
  held : ∀ state, later.known state → state.orders.row id = some order
  first : ∀ state, later.known state → state.disputes.row id = none
  disputable : order.status = .completed ∨ order.status ∈ disputableStatuses
  writes : ∃ dispute flags,
    dispute.priorOrderStatus = order.status ∧ dispute.status = .opened ∧
    (flags = [] ∨ flags = [.saveOrder id fun stored =>
      { stored with hasOpenDispute := true }]) ∧
    later.writes = [.insertDispute id dispute] ++ flags ++
      [.saveOrder id fun stored => { stored with status := .disputed },
        .recordEvent { order := id, eventType := .disputeOpened }]

/-- An order whose status allows a dispute. -/
theorem disputable_status
    {now : Time} {config : PlatformConfig} {order : Order}
    (allowed : disputable now config order = .ok ()) :
    order.status = .completed ∨ order.status ∈ disputableStatuses := by
  unfold disputable at allowed
  split_ifs at allowed with completed _ listed
  · exact .inl completed
  · exact .inr listed

/-- Freezing writes the flag, or finds it written. -/
theorem freeze_wp
    {id : OrderId} {order : Order} {frozen : Bool}
    {goal : Except Error Unit → Ctx Db Row Stmt → Prop}
    (success : ∀ flags later,
      (flags = [] ∨ flags = [.saveOrder id fun stored =>
        { stored with hasOpenDispute := frozen }]) →
      later.writes = ctx.writes ++ flags →
      (∀ state, later.known state → ctx.known state) → goal (.ok ()) later) :
    (freeze id order frozen).wp protocol ctx goal := by
  simp only [freeze, Prog.wp_ite, Prog.wp_exec, Prog.wp_pure]
  exact ⟨fun _ => success _ _ (.inr rfl) rfl fun _ known => known,
    fun _ => success [] ctx (.inl rfl) (by simp) fun _ known => known⟩

/-- Filing a dispute freezes the order that it has locked, and moves it. -/
theorem openDispute_opens
    {env : Env} {id : OrderId} {actor : Actor} {reason : DisputeReason}
    {description : String} {evidence : Except Error Unit}
    {goal : Except Error Unit → Ctx Db Row Stmt → Prop}
    (errors : ∀ error later, goal (.error error) later)
    (success : ∀ order later, Opens id order later → goal (.ok ()) later) :
    (openDispute env id actor reason description evidence).wp rowLocks .start
      goal := by
  simp only [openDispute, Orders.getForUpdate, Tx.getForUpdate, Tx.get,
    Tx.create, Prog.wp_bind, Prog.wp_lockRow, Prog.wp_read, Prog.wp_orFail,
    Prog.wp_ofExcept, Prog.wp_require, Prog.wp_exec, Prog.wp_pure,
    Ctx.start_writes, Ctx.take_writes, applyAll_nil, errors, implies_true,
    and_true]
  intro first _ _ order stored _ _ _ _ _ _ _ _ _ allowed _ fourth _ _ unused
    _ _
  refine freeze_wp fun flags frozen choice writes grown => ?_
  simp only [Orders.transition, Orders.getForUpdate, Orders.recordEvent,
    Tx.getForUpdate, Tx.get, Prog.wp_bind, Prog.wp_read, Prog.wp_require,
    Prog.wp_lockRow, Prog.wp_orFail, Prog.wp_exec, Prog.wp_pure, implies_true,
    and_true]
  intro _ _ _ _ _ _
  have kept : ∀ state, frozen.known state →
      SameRow (.order id) first state ∧ SameRow (.dispute id) fourth state := by
    intro state known
    have before := grown state known
    simp only [Ctx.push_known, Ctx.observe_known, Ctx.take_known] at before
    exact ⟨before.1.1.1.2 (.order id) (by simp), before.2 (.dispute id) (by simp)⟩
  refine success order _ ⟨fun state known => ?_, fun state known => ?_,
    disputable_status allowed, _, flags, rfl, rfl, choice, by simp [writes]; rfl⟩
  · simp only [Ctx.push_known, Ctx.observe_known, Ctx.take_known] at known
    exact (kept state known.1).1.symm.trans stored
  · simp only [Ctx.push_known, Ctx.observe_known, Ctx.take_known] at known
    exact (kept state known.1).2.symm.trans (by simpa using unused)

end Disputes

end KnowledgeMarketplace
