import KnowledgeMarketplace.Database.Locks
import KnowledgeMarketplace.Operations.Routine
import KnowledgeMarketplace.Payments.Confirmation

/-!
# Settled payments

Confirmations, refunds and cancellations decide under the lock of the payment.
The webhook of a failure and the re-arming of a payment save a copy that was
read without it; as long as such a save finds an unsettled payment, a payment
that has succeeded stays succeeded or refunded.
-/

namespace KnowledgeMarketplace

open Transaction

namespace Payments

/-- The payment has succeeded and may have been refunded since. -/
def settled (payment : Payment) : Bool :=
  payment.status = .succeeded || payment.status = .partiallyRefunded ||
    payment.status = .refunded

/-- The payment of the order is settled. -/
def Settled (order : OrderId) (db : Db) : Prop :=
  ∃ payment, db.payments.row order = some payment ∧ settled payment = true

instance (order : OrderId) (db : Db) : Decidable (Settled order db) :=
  decidable_of_iff ((db.payments.row order).any settled = true)
    (Option.any_eq_true _ _)

/-- The payment that a statement saves from a copy read without a lock. -/
def savedUnlocked : Stmt → Option OrderId
  | .savePayment order _ => some order
  | _ => none

/-- A save of a copy that was read without a lock finds no settled payment. -/
def FindsUnsettled (stmt : Stmt) (db : Db) : Prop :=
  ∀ order ∈ savedUnlocked stmt, ¬Settled order db

instance (stmt : Stmt) (db : Db) : Decidable (FindsUnsettled stmt db) :=
  inferInstanceAs (Decidable (∀ order ∈ savedUnlocked stmt, ¬Settled order db))

/-- Settled payments stay settled, unless a save without lock finds one. -/
def StaySettled (stmts : List Stmt) (db : Db) : Prop :=
  Along FindsUnsettled stmts db →
    ∀ order, Settled order db → Settled order (applyAll stmts db)

/-- The locks of orders and payments protect their rows. -/
def paymentLocks : Protocol Db Row Stmt where
  Inv _ := True
  Same := SameRow
  Condition _ _ := True
  same_refl := sameRow_refl
  same_trans := sameRow_trans

/-- Effects whose updates under the lock keep a settled payment settled. -/
def steady : Effect Stmt → Prop
  | .write (.updatePayment _ set) =>
      ∀ stored, settled stored = true → settled (set stored) = true
  | .savepoint => False
  | _ => True

theorem steady_routine : Routine steady where
  elsewhere stmt other := by cases stmt <;> simp_all [Stmt.table, steady]
  created _ _ _ := trivial
  saved _ _ _ := trivial

/-- A steady statement keeps settled payments settled. -/
theorem settled_of_steady
    {stmt : Stmt} (fine : steady (.write stmt)) {db : Db}
    (finds : FindsUnsettled stmt db) {order : OrderId}
    (before : Settled order db) : Settled order (stmt.apply db) := by
  obtain ⟨payment, stored, holds⟩ := before
  cases stmt with
  | savePayment id set =>
      have different : order ≠ id := by
        rintro rfl
        exact finds _ rfl ⟨payment, stored, holds⟩
      exact ⟨payment, by simp [Stmt.apply, different, stored], holds⟩
  | updatePayment id set =>
      by_cases same : order = id
      · subst same
        exact ⟨set payment, by simp [Stmt.apply, stored], fine payment holds⟩
      · exact ⟨payment, by simp [Stmt.apply, same, stored], holds⟩
  | insertPayment id value =>
      exact ⟨payment, Table.row_insert_of_some id value stored, holds⟩
  | _ => exact ⟨payment, stored, holds⟩

/-- Steady statements can be added to any transaction. -/
theorem lasting_of_steady
    {stmt : Stmt} (fine : steady (.write stmt)) :
    Ctx.Lasting paymentLocks (fun _ _ => True) StaySettled stmt where
  harmless :=
    { keeps := fun _ _ _ => trivial
      meets := fun _ _ _ => trivial
      frame := fun db row _ _ free => sameRow_apply db row free }
  lasts stmts db _ _ stay along order before := by
    obtain ⟨earlier, finds, -⟩ := along_append.mp along
    rw [applyAll_append]
    exact settled_of_steady fine finds (stay earlier order before)

/-- Nothing is unsettled by committing nothing. -/
theorem staySettled_nil (db : Db) : StaySettled [] db :=
  fun _ _ before => before

/-- The contexts that may commit. -/
def Steady : Ctx Db Row Stmt → Prop :=
  Ctx.Committable paymentLocks (fun _ _ => True) StaySettled

/-- Contexts with steady statements only may commit. -/
theorem Steady.of_writes
    {ctx : Ctx Db Row Stmt}
    (all : ∀ stmt ∈ ctx.writes, steady (.write stmt)) : Steady ctx :=
  Ctx.committable_of_lasting (fun db _ => staySettled_nil db)
    fun stmt member => lasting_of_steady (all stmt member)

/-- Steady statements and more knowledge keep a context steady. -/
theorem Steady.of_extends
    {base later : Ctx Db Row Stmt} (ready : Steady base)
    (grown : base.Extends (fun stmt => steady (.write stmt)) later) :
    Steady later :=
  Ctx.Committable.of_extends ready
    (grown.weaken fun _ fine => lasting_of_steady fine)

/-- A payment that is known to be unsettled may be changed at will. -/
theorem Steady.update
    {ctx : Ctx Db Row Stmt} {id : OrderId} {set : Payment → Payment}
    (ready : Steady ctx)
    (unsettled : ∀ state, ctx.known state →
      ¬Settled id (applyAll ctx.writes state)) :
    Steady (ctx.push (.updatePayment id set)) := by
  intro state inv known _
  obtain ⟨-, stay, frame⟩ :=
    ready state inv known (along_of_forall state fun _ _ _ => trivial)
  refine ⟨trivial, fun along order before => ?_, fun row free => ?_⟩
  · obtain ⟨earlier, -⟩ := along_append.mp along
    have still := stay earlier order before
    have different : order ≠ id := by
      rintro rfl
      exact unsettled state known still
    obtain ⟨payment, stored, holds⟩ := still
    exact ⟨payment, by simp [Stmt.apply, different, stored], holds⟩
  · exact paymentLocks.same_applyAll
      (fun stmt _ db free => sameRow_apply db row free) free state

/-- An update of an open attempt finds an unsettled payment. -/
theorem Steady.updateOpen
    {ctx : Ctx Db Row Stmt} {id : OrderId} {set : Payment → Payment}
    {goal : Except Error Nat → Ctx Db Row Stmt → Prop}
    (ready : Steady ctx)
    (finish : ∀ count later, Steady later → goal (.ok count) later) :
    (Tx.updateWhere (fun _ => [id])
      (fun id db => (db.payments.row id).any attemptOpen) .payment
      (fun id => .updatePayment id set)).wp paymentLocks ctx goal := by
  refine Prog.wp_updateWhere Steady (fun _ => ready.of_extends .observe)
    ?skip ?round finish
  case skip =>
    exact fun _ _ _ ready _ _ => ready.of_extends (.trans .take .observe)
  case round =>
    intro key current seen ready _ _ attempt
    refine (ready.of_extends (.trans .take .observe)).update ?_
    intro state known
    rintro ⟨payment, stored, holds⟩
    have same := known.2 (.payment key) (by simp)
    have found : (applyAll current.writes seen).payments.row key =
        some payment := (applyAll_payment_congr same).trans stored
    simp [found, attemptOpen] at attempt
    rcases attempt with (status | status) | status <;>
      simp [settled, status] at holds

/-! ## The operations -/

/-- The confirmation and its callers are steady. -/
theorem steady_confirmable : Confirmable paymentLocks Steady where
  orderRow _ _ _ same := same
  paymentRow _ _ _ same := same
  plain _ all := .of_writes fun stmt member => by
    have fine := all stmt member
    cases stmt <;> simp_all [Bookkeeping, steady]
  grow _ _ ready grown := ready.of_extends <| grown.weaken fun stmt fine => by
    cases stmt <;> simp_all [Stmt.table, steady]
  failed id reason ctx ready := by
    simp only [markPaymentFailed, Prog.wp_bind, Prog.wp_pure]
    exact ready.updateOpen fun _ _ ready => ready
  confirmed base later env id order payment ready confirmed := by
    obtain ⟨extra, split, follow⟩ := confirmed.writes
    rw [List.append_assoc] at split
    refine Ctx.Committable.append ready confirmed.known split ?_
    intro stmt member
    refine lasting_of_steady ?_
    rcases List.mem_append.mp member with booked | followed
    · simp only [booking, List.mem_cons, List.not_mem_nil, or_false] at booked
      rcases booked with rfl | rfl | rfl | rfl | rfl | rfl <;>
        simp [steady, settled]
    · rcases follow stmt followed with table | table <;>
        cases stmt <;> simp_all [Stmt.table, steady]

theorem steady_commit (ctx : Ctx Db Row Stmt) (ready : Steady ctx) :
    ctx.CommitOk paymentLocks StaySettled :=
  ready.commitOk fun _ state _ => along_of_forall state fun _ _ _ => trivial

/-- A request whose effects are steady is safe. -/
theorem safe_of_steady
    {call : Call Unit} (emits : call.Emits steady fun _ => True) :
    call.Safe paymentLocks StaySettled :=
  emits.safe_of_lasting (fun _ fine => lasting_of_steady fine)
    (fun db _ => staySettled_nil db)
    fun _ state _ => along_of_forall state fun _ _ _ => trivial

/-- A refund leaves a settled payment. -/
theorem issueRefund_steady
    (env : Env) (id : OrderId) (amountMinor : Int) (reason : RefundReason)
    (initiatedBy : Option Actor) :
    (issueRefund env id amountMinor reason initiatedBy).Emits steady
      fun _ => True := by
  refine issueRefund_emits (by simp [steady]) (by simp [steady])
    fun payment stored _ => ?_
  by_cases full : payment.amountMinor ≤ payment.refundedMinor + amountMinor <;>
    simp [refunded, settled, full]

/-- Cancelling an order closes an open attempt only. -/
theorem cancel_safe
    (env : Env) (id : OrderId) (actor : Actor) (reason : String) :
    (OrderCall.cancel env id actor reason).call.Safe paymentLocks
      StaySettled := by
  simp only [Request.Safe, OrderCall.call, Call.perform, Orders.cancel,
    Orders.transition, Orders.getForUpdate, Orders.recordEvent,
    Tx.getForUpdate, Tx.get, voidPaymentForOrder, Request.wp_atomic,
    Prog.wp_bind, Prog.wp_pure, Prog.wp_read, Prog.wp_require,
    Prog.wp_lockRow, Prog.wp_orFail, Prog.wp_exec, implies_true, and_true]
  intro _ _ _ order _ _ _ _ _ _ _ copy _ _
  refine Steady.updateOpen (.of_writes ?_) fun _ voided ready => ?_
  · simp [steady]
  have moved : (Orders.moveRequest env copy.request [.matched, .inProgress]
      .cancelled reason).Emits steady fun _ => True :=
    Orders.moveRequest_emits fun _ _ =>
      steady_routine.catalog.workflow.moved _ _ _ _ _
  refine Prog.wp_of_emits moved (by simp [steady]) ?_
  rintro (error | value) later _ grown
  · trivial
  · exact steady_commit later (ready.of_extends grown)

/-- Every operation of the marketplace is safe. -/
theorem operation_safe (operation : Operation) :
    operation.call.Safe paymentLocks StaySettled := by
  by_cases routine : operation.IsRoutine
  · exact safe_of_steady (routine.emits steady_routine)
  rcases operation with _ | _ | _ | call | call | call <;>
    try exact absurd trivial routine
  · cases call with
    | cancel env id actor reason => exact cancel_safe env id actor reason
    | _ => exact absurd trivial routine
  · by_cases confirms : Confirmable.Confirms call
    · exact steady_confirmable.safe steady_commit confirms
    cases call with
    | voidPayment env id =>
        simp only [Request.Safe, Operation.call, PaymentCall.call,
          Call.perform, voidPaymentForOrder, Request.wp_atomic, Prog.wp_bind,
          Prog.wp_pure]
        refine Steady.updateOpen (.of_writes (by simp)) ?_
        exact fun _ later ready => ⟨steady_commit later ready, trivial⟩
    | issueRefund env id amount reason initiatedBy =>
        exact safe_of_steady <| Request.emits_atomic.mpr
          (.seq (issueRefund_steady _ _ _ _ _) (by simp))
    | settlePayout env id actor =>
        refine safe_of_steady ?_
        simp [Operation.call, PaymentCall.call, Call.perform, settlePayout,
          getPayoutForUpdate, ledger, Orders.getForUpdate, Tx.get,
          Tx.getForUpdate, steady]
    | _ => first
        | exact absurd trivial confirms
        | exact absurd trivial routine
  · cases call with
    | resolve env id actor outcome notes amount =>
        refine safe_of_steady <| .seq (by simp [Call.get]) fun copy =>
          Request.emits_atomic.mpr (.seq ?_ (by simp))
        refine Disputes.resolve_emits
          (fun _ => issueRefund_steady _ _ _ _ _) ?_ ?_ ?_ ?_ ?_ <;>
          simp [steady]
    | _ => exact absurd trivial routine

/--
In any interleaving of all operations: once a payment is settled, it stays
settled for as long as no commit saves an unlocked copy over a settled payment.
-/
theorem settled_stays_settled
    (start : Db) (operations : Nat → Operation) (schedule : List Turn)
    (order : OrderId) (later : Marketplace)
    (reach : System.Reach (Along FindsUnsettled)
      ((Marketplace.start start operations).runAll schedule) later)
    (before : Settled order
      ((Marketplace.start start operations).runAll schedule).committed) :
    Settled order later.committed := by
  have sound : ((Marketplace.start start operations).runAll schedule).Sound
      paymentLocks fun _ => StaySettled :=
    (System.reach_runAll (Marketplace.start start operations) schedule).sound
      (System.sound_init trivial fun client => operation_safe (operations client))
  exact (reach.lasts sound (fun _ _ _ => trivial)
    (fun _ _ _ finds stay holds => stay finds order holds) before).2

/-- An order that awaits its payment, with a pending payment. -/
def pendingPayment : Db :=
  { requests := .insert .empty 10 { student := 1, status := .matched }
    orders := .insert .empty 40
      { request := 10
        student := 1
        expert := 2
        source := .openBid
        amount := 5000
        commissionAmount := 750
        expertAmount := 4250
        createdAt := 0 }
    payments := .insert .empty 40
      { gateway := .manual
        providerReference := some "manual-pay-1"
        amountMinor := 5000 } }

/-- The payment is confirmed and partly refunded; then its failure arrives. -/
def lateFailure : Nat → Operation
  | 0 => .payment (.confirmPayment { now := 1 } 40)
  | 1 => .payment
      (.issueRefund { now := 2, key := 70 } 40 1000 .mutual (some ⟨9, true⟩))
  | _ => .payment (.ingest { now := 3 } .manual
      (.ok ⟨"evt-1", .paymentFailed, { paymentReference := "manual-pay-1" }⟩))

/-- The stored status of the payment. -/
def paymentStatus (system : Marketplace) : Option PaymentStatus :=
  (system.committed.payments.row 40).map Payment.status

/-- A failure that arrives after a refund fails a succeeded payment. -/
theorem late_failure_unsettles :
    let confirmed := (Marketplace.start pendingPayment lateFailure).runAll
      (turns 0 40)
    let refunded := confirmed.runAll (turns 1 20)
    let failed := refunded.runAll (turns 2 20)
    paymentStatus confirmed = some .succeeded ∧
      paymentStatus refunded = some .partiallyRefunded ∧
      paymentStatus failed = some .failed ∧
      Settled 40 confirmed.committed ∧ ¬Settled 40 failed.committed := by
  decide +kernel

/-- A confirmed payment stays settled when it is partly refunded. -/
theorem settled_stays_settled_refund :
    Settled 40 (((Marketplace.start pendingPayment lateFailure).runAll
      (turns 0 40)).runAll (turns 1 20)).committed :=
  settled_stays_settled pendingPayment lateFailure (turns 0 40) 40 _
    (System.reach_of_admitsAll .refl (by decide +kernel)) (by decide +kernel)

end Payments

end KnowledgeMarketplace
