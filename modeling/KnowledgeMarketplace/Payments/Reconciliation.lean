import KnowledgeMarketplace.Database.Locks
import KnowledgeMarketplace.Operations.Effects
import KnowledgeMarketplace.Payments.LedgerIdentity

/-!
# Reconciliation of refunds

What a payment says about its refunds, the rows of these refunds and their
entries in the ledger are the same amount.  A resolution reads the refundable
balance without a lock, but the refund checks it again under the lock of the
payment, so the amount never exceeds the payment.
-/

namespace KnowledgeMarketplace

open Transaction

namespace Payments

/-- The amount of a refund, if it belongs to the payment. -/
def refundOf (id : OrderId) (refund : Refund) : Option Int :=
  if refund.payment = id then some refund.amountMinor else none

/-- The sum of the refunds of a payment. -/
def refundedTotal (id : OrderId) (db : Db) : Int :=
  (db.refunds.collect (refundOf id)).sum

/-- The three records of what was refunded agree, within the payment. -/
structure Reconciled (id : OrderId) (payment : Payment) (db : Db) : Prop where
  rows : payment.refundedMinor = refundedTotal id db
  ledger : payment.refundedMinor = -total db.ledger id .refund
  nonneg : 0 ≤ payment.refundedMinor
  capped : payment.refundedMinor ≤ payment.amountMinor

/-- The refunds of every payment are reconciled. -/
def RefundsReconciled (db : Db) : Prop :=
  ∀ id payment, db.payments.row id = some payment → Reconciled id payment db

/-- Row locks under which the refunds stay reconciled. -/
def reconciling : Protocol Db Row Stmt :=
  { rowLocks with Inv := RefundsReconciled }

/-! ## Statements that refund nothing -/

/-- Statements that keep what was paid and refunded. -/
def Unrefunding : Stmt → Prop
  | .insertPayment _ _ => False
  | .savePayment _ set | .updatePayment _ set => KeepsAmounts set
  | .insertRefund _ _ => False
  | .saveRefund _ set => KeepsRefund set
  | .appendLedger entry => entry.entryType ≠ .refund
  | _ => True

/-- Effects that keep what was paid and refunded. -/
def unrefunding : Effect Stmt → Prop
  | .write stmt => Unrefunding stmt
  | .savepoint => True

theorem unrefunding_catalog : Catalog unrefunding where
  elsewhere stmt other := by
    cases stmt <;> simp_all [Stmt.table, unrefunding, Unrefunding]
  created _ _ _ := trivial
  saved _ _ _ := trivial
  frozen _ := trivial

theorem unrefunding_collection : Collection unrefunding where
  savepoint := trivial
  updated _ _ keeps := keeps
  saved _ _ keeps := keeps
  processed _ _ keeps := keeps
  ledger entry booked := fun same => by simp [same] at booked

/-- The same records of refunds reconcile the same payment. -/
theorem Reconciled.congr
    {id : OrderId} {payment other : Payment} {db after : Db}
    (reconciled : Reconciled id payment db)
    (amount : other.amountMinor = payment.amountMinor)
    (refunded : other.refundedMinor = payment.refundedMinor)
    (rows : refundedTotal id after = refundedTotal id db)
    (ledger : total after.ledger id .refund = total db.ledger id .refund) :
    Reconciled id other after where
  rows := by rw [refunded, rows, reconciled.rows]
  ledger := by rw [refunded, ledger, reconciled.ledger]
  nonneg := refunded ▸ reconciled.nonneg
  capped := by rw [refunded, amount]; exact reconciled.capped

/-- A change of payments that keeps the amounts keeps refunds reconciled. -/
theorem reconciled_of_payments
    {id : OrderId} {set : Payment → Payment} {db : Db}
    (keeps : KeepsAmounts set) (before : RefundsReconciled db) :
    RefundsReconciled { db with payments := db.payments.modify id set } := by
  intro other payment stored
  rcases Table.row_modify_cases stored with
    ⟨-, found⟩ | ⟨rfl, old, found, rfl⟩
  · exact (before other payment found).congr rfl rfl rfl rfl
  · exact (before other old found).congr (keeps.amount old)
      (keeps.refunded old) rfl rfl

/-- Such a statement keeps refunds reconciled. -/
theorem reconciled_of_unrefunding
    {stmt : Stmt} (fine : Unrefunding stmt) {db : Db}
    (before : RefundsReconciled db) : RefundsReconciled (stmt.apply db) := by
  cases stmt with
  | insertPayment id value => exact fine.elim
  | insertRefund id value => exact fine.elim
  | savePayment id set => exact reconciled_of_payments fine before
  | updatePayment id set => exact reconciled_of_payments fine before
  | saveRefund id set =>
      intro other payment stored
      refine (before other payment stored).congr rfl rfl ?_ rfl
      have keeps : KeepsRefund set := fine
      simp only [refundedTotal, Stmt.apply]
      rw [Table.collect_modify fun old _ => by
        simp [refundOf, keeps.payment, keeps.amount]]
  | appendLedger entry =>
      intro other payment stored
      refine (before other payment stored).congr rfl rfl rfl ?_
      have different : entry.entryType ≠ .refund := fine
      simp [Stmt.apply, total, different]
  | _ =>
      exact fun other payment stored =>
        (before other payment stored).congr rfl rfl rfl rfl

/-- Such a statement can be added to any transaction. -/
theorem lasting_of_unrefunding {stmt : Stmt} (fine : Unrefunding stmt) :
    Ctx.Lasting reconciling (fun _ _ => True) (fun _ _ => True) stmt where
  harmless :=
    { keeps := fun _ before _ => reconciled_of_unrefunding fine before
      meets := fun _ _ _ => trivial
      frame := fun db row _ _ free => sameRow_apply db row free }
  lasts _ _ _ _ _ := trivial

/-- The contexts that may commit. -/
def Reconciling : Ctx Db Row Stmt → Prop :=
  Ctx.Committable reconciling (fun _ _ => True) fun _ _ => True

/-! ## A refund -/

/-- A refund that its payment covers keeps refunds reconciled. -/
theorem reconciled_refunding
    {env : Env} {id : OrderId} {amountMinor : Int} {reason : RefundReason}
    {initiatedBy : Option Actor} {payment : Payment} {order : Order}
    {reference : String} {parts : Int × Int} {db : Db}
    (before : RefundsReconciled db)
    (stored : db.payments.row id = some payment)
    (unused : db.refunds.row env.key = none) (positive : 0 < amountMinor)
    (capped : amountMinor ≤ payment.amountMinor - payment.refundedMinor) :
    RefundsReconciled (applyAll (refunding env id amountMinor reason
      initiatedBy payment order reference parts) db) := by
  have refunds : ∀ other, refundedTotal other (applyAll (refunding env id
      amountMinor reason initiatedBy payment order reference parts) db) =
      refundedTotal other db + if id = other then amountMinor else 0 := by
    intro other
    by_cases credit : parts.2 = 0 <;> by_cases commission : parts.1 = 0 <;>
      by_cases same : id = other <;>
      simp [refunding, refundedTotal, Stmt.apply, credit, commission,
        Table.collect_insert unused, refundOf, same]
  have ledger : ∀ other, total (applyAll (refunding env id amountMinor reason
      initiatedBy payment order reference parts) db).ledger other .refund =
      total db.ledger other .refund - if id = other then amountMinor else 0 := by
    intro other
    by_cases credit : parts.2 = 0 <;> by_cases commission : parts.1 = 0 <;>
      by_cases same : id = other <;>
      simp [refunding, Stmt.apply, credit, commission, total_append,
        total_cons, same] <;> omega
  have payments : (applyAll (refunding env id amountMinor reason initiatedBy
      payment order reference parts) db).payments =
      db.payments.modify id fun stored =>
        { stored with
          refundedMinor := (refunded amountMinor payment).refundedMinor
          status := (refunded amountMinor payment).status } := by
    by_cases credit : parts.2 = 0 <;> by_cases commission : parts.1 = 0 <;>
      simp [refunding, Stmt.apply, credit, commission]
  intro other found row
  rw [payments] at row
  rcases Table.row_modify_cases row with ⟨different, old⟩ | ⟨rfl, old, had, rfl⟩
  · refine (before other found old).congr rfl rfl ?_ ?_
    · simp [refunds, Ne.symm different]
    · simp [ledger, Ne.symm different]
  · obtain rfl := Option.some.inj (stored.symm.trans had)
    have first := before other payment stored
    have rows := first.rows
    have booked := first.ledger
    have nonneg := first.nonneg
    exact
      { rows := by simp [refunds, refunded]; omega
        ledger := by simp [ledger, refunded]; omega
        nonneg := by simp [refunded]; omega
        capped := by simp [refunded]; omega }

/-- A refund may commit what it has checked. -/
theorem Reconciling.refund
    {later : Ctx Db Row Stmt} {env : Env} {id : OrderId} {amountMinor : Int}
    {payment : Payment} {order : Order} {parts : Int × Int}
    (checked : Refunding reconciling .start later env id amountMinor payment
      order parts)
    (reason : RefundReason) (initiatedBy : Option Actor) (reference : String) :
    Reconciling ⟨later.held, refunding env id amountMinor reason initiatedBy
      payment order reference parts, later.known⟩ := by
  intro state inv known _
  obtain ⟨seen, same, stored⟩ := checked.paymentRow state known
  obtain ⟨first, unchanged, unused⟩ := checked.unused state known
  have row : state.payments.row id = some payment := same.symm.trans stored
  have fresh : state.refunds.row env.key = none := unchanged.symm.trans unused
  exact ⟨reconciled_refunding inv row fresh checked.positive checked.capped,
    trivial, fun row free => rowLocks_frame state row free⟩

theorem reconciling_commit (ctx : Ctx Db Row Stmt) (ready : Reconciling ctx) :
    ctx.CommitOk reconciling fun _ _ => True :=
  ready.commitOk fun _ state _ => along_of_forall state fun _ _ _ => trivial

/-- A refund by staff is safe. -/
theorem issueRefund_reconciling
    (env : Env) (id : OrderId) (amountMinor : Int) (reason : RefundReason)
    (initiatedBy : Option Actor) :
    (PaymentCall.issueRefund env id amountMinor reason initiatedBy).call.Safe
      reconciling fun _ _ => True := by
  simp only [Request.Safe, PaymentCall.call, Call.perform, Request.wp_atomic,
    Prog.wp_bind, Prog.wp_pure]
  refine issueRefund_wp (fun _ _ => trivial) ?_
  intro payment order reference parts later checked writes
  have same : later = ⟨later.held, refunding env id amountMinor reason
      initiatedBy payment order reference parts, later.known⟩ :=
    Ctx.ext rfl writes rfl
  rw [same]
  exact ⟨reconciling_commit _
    (Reconciling.refund checked reason initiatedBy reference), trivial⟩

/-- A resolution is safe. -/
theorem resolve_reconciling
    (env : Env) (id : OrderId) (actor : Option Actor)
    (outcome : DisputeOutcome) (notes : String)
    (refundAmountMinor : Option Int) :
    (DisputeCall.resolve env id actor outcome notes
      refundAmountMinor).call.Safe reconciling fun _ _ => True := by
  simp only [Request.Safe, DisputeCall.call, DisputeCall.onDispute,
    Call.performOn, Call.perform, Call.get, Request.wp_bind, Request.wp_load,
    Request.wp_orFail, Request.wp_atomic, Prog.wp_bind, Prog.wp_pure,
    Ctx.start_observe, implies_true, and_true]
  intro _ _ _ copy _
  refine Disputes.resolve_wp (fun _ _ => trivial) fun later resolved => ?_
  obtain ⟨money, extra, data, set, reimburses, after, -, writes⟩ := resolved.writes
  have refunded : Reconciling ⟨later.held, money, later.known⟩ := by
    rcases reimburses with
      rfl | ⟨amount, payment, order, reference, parts, checked, rfl⟩
    · exact Ctx.committable_of_lasting (fun _ _ => trivial) (by simp)
    · exact Reconciling.refund checked .disputeResolution actor reference
  have split : later.writes = money ++
      (extra ++ [.recordEvent { order := id, eventType := .disputeResolved, data },
        .saveDispute id copy.status set]) := by
    simp [writes]
  refine reconciling_commit later
    (refunded.append (fun _ known => known) split fun stmt member => ?_)
  refine lasting_of_unrefunding ?_
  simp only [List.mem_append, List.mem_cons, List.not_mem_nil, or_false]
    at member
  rcases member with member | rfl | rfl
  · have fine := after stmt member
    cases stmt <;> trivial
  · trivial
  · trivial

/-- All operations but those that start a payment are safe. -/
theorem operation_reconciling
    {operation : Operation} (unstarted : ¬operation.StartsPayment) :
    operation.call.Safe reconciling fun _ _ => True := by
  have plain : operation.call.Emits unrefunding (fun _ => True) →
      operation.call.Safe reconciling fun _ _ => True := fun emits =>
    emits.safe_of_lasting (fun _ fine => lasting_of_unrefunding fine)
      (fun _ _ => trivial)
      fun _ state _ => along_of_forall state fun _ _ _ => trivial
  by_cases schedules : operation.Schedules
  · exact plain (schedules.emits unrefunding_catalog.workflow.ordering
      (fun _ => unrefunding_catalog.workflow.completed)
      fun _ _ _ => trivial)
  by_cases fails : operation.FailsPayout
  · exact plain (fails.emits fun _ _ => trivial)
  by_cases settles : operation.Settles
  · refine plain ?_
    rcases operation with _ | _ | _ | _ | call | _ <;> try exact settles.elim
    cases call with
    | settlePayout env key actor =>
        simp [Operation.call, PaymentCall.call, Call.perform, settlePayout,
          getPayoutForUpdate, ledger, Orders.getForUpdate, Tx.get,
          Tx.getForUpdate, unrefunding, Unrefunding]
    | _ => exact settles.elim
  by_cases refunds : operation.Refunds
  · rcases operation with _ | _ | _ | _ | call | call <;>
      try exact refunds.elim
    · cases call with
      | issueRefund env id amount reason initiatedBy =>
          exact issueRefund_reconciling env id amount reason initiatedBy
      | _ => exact refunds.elim
    · cases call with
      | resolve env id actor outcome notes amount =>
          exact resolve_reconciling env id actor outcome notes amount
      | _ => exact refunds.elim
  exact plain (operation.emits_of_collection unrefunding_catalog.workflow.ordering
    unrefunding_collection (fun _ => unrefunding_catalog.workflow.ended)
    unrefunding_catalog.workflow.apart
    unrefunding_catalog.triage schedules fails settles refunds unstarted)

/-- A refund succeeds by its commit. -/
theorem byCommit_refunds
    {operation : Operation} (refunds : operation.Refunds) :
    Proc.ByCommit operation.call := by
  rcases operation with _ | _ | _ | _ | call | call <;>
    try exact refunds.elim
  · cases call with
    | issueRefund env id amount reason initiatedBy =>
        exact Request.byCommit_atomic _
    | _ => exact refunds.elim
  · cases call with
    | resolve env id actor outcome notes amount =>
        exact Call.byCommit_performOn _ _ _
    | _ => exact refunds.elim

/--
In any interleaving of refunds, resolutions and other operations that start no
payment, refunds stay reconciled; a step of a refund that does not end it with
success leaves the committed state unchanged.
-/
theorem refunds_reconciled
    (start : Db) (reconciled : RefundsReconciled start)
    (operations : Nat → Operation)
    (unstarted : ∀ client, ¬(operations client).StartsPayment)
    (schedule : List Turn) :
    RefundsReconciled
      ((Marketplace.start start operations).runAll schedule).committed ∧
    ∀ client, (operations client).Refunds →
      ∀ step ∈ (Marketplace.start start operations).trace schedule,
        step.2 = .run client →
          (step.1.step step.2).committed = step.1.committed ∨
          ((step.1.step step.2).clients client).proc = .halt (.ok ()) := by
  have sound : ((Marketplace.start start operations).runAll schedule).Sound
      reconciling fun _ _ _ => True :=
    (System.reach_runAll (Marketplace.start start operations) schedule).sound
      (System.sound_init reconciled
        fun client => operation_reconciling (unstarted client))
  refine ⟨sound.inv, fun client refunds step member run => ?_⟩
  have ends : step.1.EndsByCommit client :=
    System.trace_keeps (fun system => system.EndsByCommit client)
      (fun _ event ends => ends.step event)
      (.inr (byCommit_refunds refunds)) step member
  rcases commits : step.1.committing step.2 with _ | stmts
  · exact .inl (System.step_committed_of_none commits)
  · rw [run] at commits ⊢
    obtain ⟨value, succeeded⟩ := ends.succeeds commits
    exact .inr succeeded

/-- A paid order with a dispute under review. -/
def refundable : Db :=
  { requests := .insert .empty 10 { student := 1, status := .inProgress }
    orders := .insert .empty 40
      { request := 10
        student := 1
        expert := 2
        source := .openBid
        amount := 5000
        commissionAmount := 750
        expertAmount := 4250
        status := .disputed
        hasOpenDispute := true
        paidAt := some 1
        createdAt := 0 }
    payments := .insert .empty 40
      { gateway := .manual
        providerReference := some "manual-pay-1"
        amountMinor := 5000
        status := .succeeded }
    disputes := .insert .empty 40
      { openedBy := 1
        reason := .qualityBelowExpectations
        description := "The report misses two chapters."
        priorOrderStatus := .delivered
        status := .underReview } }

/-- A full resolution and two refunds that together exceed the payment. -/
def refundingStaff : Nat → Operation
  | 0 => .dispute (.resolve { now := 5, key := 70 } 40 (some ⟨9, true⟩)
      .refundStudentFull "Two chapters are missing." none)
  | 1 => .payment
      (.issueRefund { now := 5, key := 71 } 40 1500 .mutual (some ⟨8, true⟩))
  | _ => .payment
      (.issueRefund { now := 6, key := 72 } 40 4000 .mutual (some ⟨7, true⟩))

/-- The resolution reads the balance before the first refund commits. -/
def staleBalance : List Turn :=
  turns 1 3 ++ turns 0 10 ++ turns 1 20 ++ turns 0 40 ++ turns 2 20

/-- Only the first refund is booked; the others raise and leave no trace. -/
theorem refunds_reconciled_race :
    RefundsReconciled ((Marketplace.start refundable refundingStaff).runAll
      staleBalance).committed ∧
    ∀ client, (refundingStaff client).Refunds →
      ∀ step ∈ (Marketplace.start refundable refundingStaff).trace staleBalance,
        step.2 = .run client →
          (step.1.step step.2).committed = step.1.committed ∨
          ((step.1.step step.2).clients client).proc = .halt (.ok ()) := by
  refine refunds_reconciled refundable (fun id payment stored => ?_)
    refundingStaff ?_ staleBalance
  · simp only [refundable] at stored
    rcases Table.row_insert_cases stored with old | ⟨rfl, rfl, -⟩
    · simp at old
    · constructor <;> decide
  · rintro (_ | _ | client) starts <;> exact starts

end Payments

end KnowledgeMarketplace
