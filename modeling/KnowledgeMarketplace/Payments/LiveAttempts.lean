import KnowledgeMarketplace.Database.Locks
import KnowledgeMarketplace.Payments.SingleCharge

/-!
# Open attempts of cancelled orders

Cancelling an order voids its open payment attempt, the sweep of unpaid orders
does not, and an attempt starts on a copy of the order that may be out of date.
-/

namespace KnowledgeMarketplace

open Transaction

namespace Payments

/-- The order is cancelled. -/
def cancelled (id : OrderId) (db : Db) : Bool :=
  (db.orders.row id).any fun order => order.status = .cancelled

/-- The order has an open payment attempt. -/
def live (id : OrderId) (db : Db) : Bool :=
  (db.payments.row id).any attemptOpen

/-- No cancelled order has an open payment attempt. -/
def NoLiveAttempt (db : Db) : Prop :=
  ∀ id, cancelled id db = true → live id db = false

/-- A statement opens an attempt only if the order is not cancelled. -/
def Armed : Stmt → Db → Prop
  | .insertPayment id payment, db =>
      attemptOpen payment = true → cancelled id db = false
  | .savePayment id set, db =>
      (db.payments.row id).any (fun payment => attemptOpen (set payment)) →
        cancelled id db = false
  | _, _ => True

/-- The statement ends the attempt of an order, if one is open. -/
def ends (id : OrderId) : Stmt → Bool
  | .updatePayment key _ => key = id
  | _ => false

/-- A statement cancels an order only if its transaction ends the attempt. -/
def Ended (stmts : List Stmt) (db : Db) : Stmt → Prop
  | .saveOrder id set =>
      (db.orders.row id).any (fun order =>
        order.status ≠ .cancelled && (set order).status = .cancelled) →
        live id db = true → stmts.any (ends id) = true
  | _ => True

/-- A commit opens no attempt on a cancelled order, and leaves none behind. -/
structure Careful (stmts : List Stmt) (db : Db) : Prop where
  armed : Along Armed stmts db
  ended : ∀ stmt ∈ stmts, Ended stmts db stmt

instance : DecidableRel Armed := fun stmt db => by
  unfold Armed
  split <;> infer_instance

instance (stmts : List Stmt) (db : Db) : DecidablePred (Ended stmts db) :=
  fun stmt => by
    unfold Ended
    split <;> infer_instance

instance (stmts : List Stmt) (db : Db) : Decidable (Careful stmts db) :=
  decidable_of_iff (Along Armed stmts db ∧ ∀ stmt ∈ stmts, Ended stmts db stmt)
    ⟨fun ⟨armed, ended⟩ => ⟨armed, ended⟩, fun ⟨armed, ended⟩ => ⟨armed, ended⟩⟩

/-- What a careful commit keeps. -/
def StaysClosed (stmts : List Stmt) (db : Db) : Prop :=
  NoLiveAttempt db → Careful stmts db → NoLiveAttempt (applyAll stmts db)

/-! ## Transactions on payments -/

/-- Effects on payments, refunds and webhooks; an update ends an attempt. -/
def attempting : Effect Stmt → Prop
  | .write (.updatePayment _ set) => ∀ stored, attemptOpen (set stored) = false
  | .write stmt => Bookkeeping stmt
  | .savepoint => False

theorem live_eq_true {id : OrderId} {db : Db} :
    live id db = true ↔
      ∃ payment, db.payments.row id = some payment ∧ attemptOpen payment = true :=
  Option.any_eq_true _ _

/-- An update that ends attempts opens none. -/
theorem live_of_update
    {id key : OrderId} {set : Payment → Payment} {db : Db}
    (closes : ∀ stored, attemptOpen (set stored) = false)
    (open_ : live id ((Stmt.updatePayment key set).apply db) = true) :
    live id db = true ∧ key ≠ id := by
  obtain ⟨payment, stored, attempt⟩ := live_eq_true.mp open_
  rcases Table.row_modify_cases stored with ⟨other, old⟩ | ⟨rfl, old, _, rfl⟩
  · exact ⟨live_eq_true.mpr ⟨payment, old, attempt⟩, other.symm⟩
  · simp [closes old] at attempt

/-- Such effects leave the orders alone and are armed one by one. -/
theorem noLiveAttempt_of_attempting
    {stmt : Stmt} (fine : attempting (.write stmt)) {db : Db}
    (closed : NoLiveAttempt db) (armed : Armed stmt db) :
    NoLiveAttempt (stmt.apply db) := by
  intro id dead
  rw [Bool.eq_false_iff]
  intro open_
  have before : cancelled id db = true := by
    cases stmt with
    | insertPayment | savePayment | updatePayment | saveRefund
    | insertWebhookEvent | saveWebhookEvent => exact dead
    | _ => exact fine.elim
  have none := closed id before
  cases stmt with
  | insertPayment key value =>
      obtain ⟨payment, stored, attempt⟩ := live_eq_true.mp open_
      rcases Table.row_insert_cases stored with old | ⟨rfl, rfl, _⟩
      · exact absurd (live_eq_true.mpr ⟨payment, old, attempt⟩) (by simp [none])
      · simp [armed attempt] at before
  | savePayment key set =>
      obtain ⟨payment, stored, attempt⟩ := live_eq_true.mp open_
      rcases Table.row_modify_cases stored with
        ⟨_, old⟩ | ⟨rfl, old, found, rfl⟩
      · exact absurd (live_eq_true.mpr ⟨payment, old, attempt⟩) (by simp [none])
      · have uncancelled := armed (Option.any_eq_true _ _ |>.mpr
          ⟨old, found, attempt⟩)
        simp [uncancelled] at before
  | updatePayment key set =>
      exact absurd (live_of_update fine open_).1 (by simp [none])
  | saveRefund | insertWebhookEvent | saveWebhookEvent =>
      have before : live id db = true := open_
      simp [none] at before
  | _ => exact fine.elim

/-- Transactions on payments stay closed. -/
theorem staysClosed_of_attempting
    {stmts : List Stmt} (fine : ∀ stmt ∈ stmts, attempting (.write stmt))
    (db : Db) : StaysClosed stmts db :=
  fun closed careful => careful.armed.keeps NoLiveAttempt
    (fun stmt member _ armed before =>
      noLiveAttempt_of_attempting (fine stmt member) before armed) closed

/-! ## Transactions on orders -/

/-- Effects that open no attempt and set a status at most. -/
def working : Effect Stmt → Prop
  | .write (.insertPayment _ _) | .write (.savePayment _ _)
  | .write (.insertOrder _ _) => False
  | .write (.updatePayment _ set) => ∀ stored, attemptOpen (set stored) = false
  | .write (.saveOrder _ set) =>
      (∀ stored, (set stored).status = stored.status) ∨
        ∀ first second, (set first).status = (set second).status
  | .write _ => True
  | .savepoint => False

theorem working_elsewhere
    {stmt : Stmt} (other : stmt.table ≠ .orders ∧ stmt.table ≠ .payments) :
    working (.write stmt) := by
  cases stmt <;> simp_all [working, Stmt.table]

/-- Such effects open no attempt. -/
theorem live_of_working
    {stmt : Stmt} (fine : working (.write stmt)) {db : Db} {id : OrderId}
    (open_ : live id (stmt.apply db) = true) : live id db = true := by
  cases stmt with
  | insertPayment | savePayment | insertOrder => exact fine.elim
  | updatePayment key set => exact (live_of_update fine open_).1
  | _ => exact open_

/-- An attempt that is open afterwards was not ended. -/
theorem live_of_workings
    {stmts : List Stmt} (fine : ∀ stmt ∈ stmts, working (.write stmt)) {db : Db}
    {id : OrderId} (open_ : live id (applyAll stmts db) = true) :
    live id db = true ∧ stmts.any (ends id) = false := by
  induction stmts generalizing db with
  | nil => exact ⟨open_, rfl⟩
  | cons stmt rest inductionHypothesis =>
      obtain ⟨middle, others⟩ := inductionHypothesis
        (fun other member => fine other (List.mem_cons_of_mem _ member)) open_
      have good := fine stmt List.mem_cons_self
      refine ⟨live_of_working good middle, ?_⟩
      rw [List.any_cons, others, Bool.or_false, Bool.eq_false_iff]
      intro ends
      cases stmt with
      | updatePayment key set =>
          exact (live_of_update good middle).2 (of_decide_eq_true ends)
      | _ => simp [Payments.ends] at ends

/-- An order that is cancelled afterwards was cancelled, or one statement did. -/
theorem cancelled_of_workings
    {stmts : List Stmt} (fine : ∀ stmt ∈ stmts, working (.write stmt)) {db : Db}
    {id : OrderId} (dead : cancelled id (applyAll stmts db) = true) :
    (∃ order, db.orders.row id = some order) ∧
      (cancelled id db = true ∨ ∃ set, Stmt.saveOrder id set ∈ stmts ∧
        ∀ stored, (set stored).status = .cancelled) := by
  let Explained (now : Db) : Prop := ∀ order, now.orders.row id = some order →
    (∃ old, db.orders.row id = some old) ∧ (order.status = .cancelled →
      cancelled id db = true ∨ ∃ set, Stmt.saveOrder id set ∈ stmts ∧
        ∀ stored, (set stored).status = .cancelled)
  have explained : Explained (applyAll stmts db) := by
    refine applyAll_keeps Explained (fun stmt member now before => ?_)
      fun order stored => ⟨⟨order, stored⟩, fun same =>
        .inl (by simp [cancelled, stored, same])⟩
    intro order stored
    have good := fine stmt member
    cases stmt with
    | insertPayment | savePayment | insertOrder => exact good.elim
    | saveOrder key set =>
        rcases Table.row_modify_cases stored with
          ⟨_, old⟩ | ⟨rfl, old, found, rfl⟩
        · exact before order old
        refine ⟨(before old found).1, fun same => ?_⟩
        rcases good with keeps | sets
        · exact (before old found).2 ((keeps old).symm.trans same)
        · exact .inr ⟨set, member, fun stored => (sets stored old).trans same⟩
    | _ => exact before order stored
  obtain ⟨order, stored, same⟩ := Option.any_eq_true _ _ |>.mp dead
  exact (explained order stored).imp_right fun cancels =>
    cancels (of_decide_eq_true same)

/-- Transactions on orders stay closed. -/
theorem staysClosed_of_working
    {stmts : List Stmt} (fine : ∀ stmt ∈ stmts, working (.write stmt))
    (db : Db) : StaysClosed stmts db := by
  intro closed careful id dead
  rw [Bool.eq_false_iff]
  intro open_
  obtain ⟨before, unended⟩ := live_of_workings fine open_
  obtain ⟨⟨order, stored⟩, already | ⟨set, member, cancels⟩⟩ :=
    cancelled_of_workings fine dead
  · simp [closed id already] at before
  · have alive : order.status ≠ .cancelled := by
      intro same
      have already : cancelled id db = true := by simp [cancelled, stored, same]
      simp [closed id already] at before
    have ended := careful.ended _ member
      (by simp [stored, alive, cancels]) before
    simp [unended] at ended

/-! ## The operations around the payment of an order -/

/-- Contexts whose writes are all of one kind. -/
def Closing (ctx : Ctx Db Row Stmt) : Prop :=
  (∀ stmt ∈ ctx.writes, attempting (.write stmt)) ∨
    ∀ stmt ∈ ctx.writes, working (.write stmt)

/-- Such contexts may commit. -/
theorem Closing.commitOk {ctx : Ctx Db Row Stmt} (closing : Closing ctx) :
    ctx.CommitOk rowLocks StaysClosed :=
  rowLocks_commit fun state _ => closing.elim
    (fun fine => staysClosed_of_attempting fine state)
    (fun fine => staysClosed_of_working fine state)

theorem attempting_of_bookkeeping
    {stmt : Stmt} (fine : Bookkeeping stmt) : attempting (.write stmt) := by
  cases stmt with
  | insertPayment | savePayment | saveRefund | insertWebhookEvent
  | saveWebhookEvent => trivial
  | _ => exact fine.elim

/-- The confirmation and its callers keep to one kind in each transaction. -/
theorem closing_confirmable : Confirmable rowLocks Closing where
  orderRow _ _ _ same := same
  paymentRow _ _ _ same := same
  plain _ all := .inl fun stmt member => attempting_of_bookkeeping (all stmt member)
  grow base later closing grown := by
    refine closing.imp (fun fine => ?_) fun fine => ?_
    · refine (grown.weaken fun stmt webhook => ?_).all fine
      exact attempting_of_bookkeeping (bookkeeping_of_webhook webhook)
    · refine (grown.weaken fun stmt webhook => ?_).all fine
      cases stmt <;> simp_all [Stmt.table, working]
  failed id reason ctx closing := by
    have emits : (markPaymentFailed id reason).Emits
        (fun effect => attempting effect ∧ working effect) fun _ => True := by
      simp [markPaymentFailed, attempting, working, attemptOpen]
    refine Prog.wp_of_emits emits (by simp [attempting]) ?_
    intro _ later _ grown
    exact closing.imp (grown.weaken fun _ fine => fine.1).all
      (grown.weaken fun _ fine => fine.2).all
  confirmed base later env id order payment closing confirmed := by
    obtain ⟨extra, split, follow⟩ := confirmed.writes
    refine .inr fun stmt member => ?_
    rw [split, List.mem_append, List.mem_append] at member
    rcases member with (early | booked) | late
    · exact working_elsewhere (confirmed.early stmt early)
    · simp only [booking, List.mem_cons, List.not_mem_nil, or_false] at booked
      rcases booked with rfl | rfl | rfl | rfl | rfl | rfl <;>
        simp [working, attemptOpen]
    · rcases follow stmt late with table | table <;>
        exact working_elsewhere (by simp [table])

/-- Cancellations, voiding and the sweep are work on orders. -/
theorem paysOrder_working
    {operation : Operation} (pays : PaysOrder operation)
    (other : ∀ call, operation = .payment call → ¬Confirmable.Confirms call) :
    operation.call.Emits working fun _ => True := by
  rcases operation with _ | _ | _ | call | call | _ <;> try exact pays.elim
  · cases call with
    | cancel env id actor reason =>
        simp [Operation.call, OrderCall.call, Call.perform, Orders.cancel,
          Orders.transition, Orders.getForUpdate, Orders.recordEvent,
          Orders.moveRequest, Payments.voidPaymentForOrder,
          ServiceRequests.transition, Tx.get, Tx.getForUpdate, working,
          attemptOpen]
    | sweepUnpaid env =>
        refine Request.emits_atomic.mpr (.seq (.seq (by simp) fun stale => ?_)
          fun _ => trivial)
        refine .seq (Prog.emits_forEach (fun id _ => ?_) trivial) (by simp)
        simp [Orders.cancelUnpaid, Orders.transition, Orders.getForUpdate,
          Orders.recordEvent, Tx.getForUpdate, Tx.get, working]
    | awaitingPaymentSweeper =>
        simp [Operation.call, OrderCall.call, Orders.awaitingPaymentSweeper]
    | _ => exact pays.elim
  · cases call with
    | voidPayment env id =>
        simp [Operation.call, PaymentCall.call, Call.perform,
          voidPaymentForOrder, working, attemptOpen]
    | startPayment | confirmPayment | confirmOrderPayment | devConfirm | ingest
    | redeliver => exact absurd trivial (other _ rfl)
    | _ => exact pays.elim

/-- Every operation around the payment of an order is safe. -/
theorem paysOrder_staysClosed
    {operation : Operation} (pays : PaysOrder operation) :
    operation.call.Safe rowLocks StaysClosed := by
  by_cases confirms : ∃ call, operation = .payment call ∧
      Confirmable.Confirms call
  · obtain ⟨call, rfl, confirms⟩ := confirms
    exact closing_confirmable.safe (fun _ closing => closing.commitOk) confirms
  · exact rowLocks_safe (paysOrder_working pays fun call same holds =>
      confirms ⟨call, same, holds⟩) fun _ fine => staysClosed_of_working fine

/--
In every interleaving whose commits open no attempt on a cancelled order and
cancel no order that has an open attempt without ending it, no cancelled order
has an open attempt.
-/
theorem no_live_attempt
    {db : Db} {operations : Nat → Operation} {system : Marketplace}
    (pays : ∀ client, PaysOrder (operations client)) (start : NoLiveAttempt db)
    (reach : System.Reach Careful (Marketplace.start db operations) system) :
    NoLiveAttempt system.committed := by
  have sound : (Marketplace.start db operations).Sound rowLocks
      fun _ => StaysClosed :=
    System.sound_init trivial fun client => paysOrder_staysClosed (pays client)
  exact (reach.lasts sound (fun _ _ _ => trivial)
    (fun _ _ _ careful stays closed => stays closed careful) start).2

/-- An order that waits for its payment, without an attempt. -/
def unattempted : Db :=
  { awaiting with payments := .empty }

/-- The student pays, the expert cancels, the worker sweeps, staff confirm. -/
def closers : Nat → Operation
  | 0 => .payment (.startPayment { now := 1, hex := "a" } 40 ⟨1, false⟩)
  | 1 => .order (.cancel { now := 1 } 40 ⟨2, false⟩ "no time")
  | 2 => .order (.sweepUnpaid { now := days 4 })
  | _ => .payment (.confirmOrderPayment { now := 2, hex := "b" } 40)

/-- The student's page has read the order when the expert cancels it. -/
def cancelledMeanwhile : List Turn :=
  turns 0 2 ++ turns 1 20 ++ turns 0 20

/-- The sweep, a late start and a late confirmation leave an open attempt. -/
theorem cancelled_order_stays_live :
    let swept := (Marketplace.start awaiting closers).runAll (turns 2 20)
    let started := (Marketplace.start unattempted closers).runAll
      cancelledMeanwhile
    let confirmed := (Marketplace.start unattempted closers).runAll
      (turns 1 20 ++ turns 3 20)
    ¬NoLiveAttempt swept.committed ∧ ¬NoLiveAttempt started.committed ∧
      ¬NoLiveAttempt confirmed.committed := by
  refine ⟨fun closed => ?_, fun closed => ?_, fun closed => ?_⟩ <;>
    exact absurd (closed 40 (by decide +kernel)) (by decide +kernel)

/-- The attempt is pending when the cancellation commits, and ends with it. -/
theorem no_live_attempt_voided :
    NoLiveAttempt ((Marketplace.start unattempted closers).runAll
      (turns 0 20 ++ turns 1 20 ++ turns 2 20)).committed := by
  have start : NoLiveAttempt unattempted := fun _ _ => rfl
  refine no_live_attempt (fun client => ?_) start
    (System.reach_of_admitsAll .refl (by decide +kernel))
  rcases client with _ | _ | _ | _ <;> trivial

end Payments

end KnowledgeMarketplace
