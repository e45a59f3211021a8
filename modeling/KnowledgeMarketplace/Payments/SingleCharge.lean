import KnowledgeMarketplace.Database.Locks
import KnowledgeMarketplace.Payments.Confirmation

/-!
# An order is charged once

Whoever confirms a payment holds the lock of its order, which still awaits the
payment.  No operation leads back to that status, so the ledger never holds a
second charge.
-/

namespace KnowledgeMarketplace

open Transaction

namespace Payments

/-- The order has left `awaiting_payment` and is paid. -/
def Paid (order : OrderId) (db : Db) : Prop :=
  ∃ row, db.orders.row order = some row ∧ row.status ≠ .awaitingPayment ∧
    row.paidAt ≠ none

/-- The order awaits its payment. -/
def Unpaid (order : OrderId) (db : Db) : Prop :=
  ∃ row, db.orders.row order = some row ∧ row.status = .awaitingPayment ∧
    row.paidAt = none

/-- One charge, with its commission and credit, and only for a paid order. -/
structure ChargedOnce (db : Db) : Prop where
  once : ∀ order, booked .charge order db ≤ 1
  commission : ∀ order,
    booked .commission order db = booked .charge order db
  credit : ∀ order,
    booked .expertCredit order db = booked .charge order db
  paid : ∀ order, 0 < booked .charge order db → Paid order db

/-- A commit that charges an order also makes it paid. -/
def ChargesWhenPaid (stmts : List Stmt) (db : Db) : Prop :=
  ∀ order, booked .charge order db < booked .charge order (applyAll stmts db) →
    Unpaid order db ∧ Paid order (applyAll stmts db)

/-- The locks of orders and payments protect their rows. -/
def singleCharge : Protocol Db Row Stmt where
  Inv := ChargedOnce
  Same := SameRow
  Condition _ _ := True
  same_refl := sameRow_refl
  same_trans := sameRow_trans

/-- Effects that book nothing and neither pay nor re-open an order. -/
def calm : Effect Stmt → Prop
  | .write (.appendLedger _) | .write (.insertOrder _ _) => False
  | .write (.saveOrder _ set) => ∀ stored, (set stored).paidAt = stored.paidAt ∧
      ((set stored).status = .awaitingPayment →
        stored.status = .awaitingPayment)
  | .savepoint => False
  | _ => True

/-- A calm statement books nothing. -/
theorem booked_of_calm
    {stmt : Stmt} (fine : calm (.write stmt)) (db : Db)
    (entryType : EntryType) (order : OrderId) :
    booked entryType order (stmt.apply db) = booked entryType order db := by
  cases stmt with
  | appendLedger entry => exact fine.elim
  | _ => rfl

/-- A calm statement leaves paid orders paid. -/
theorem paid_of_calm
    {stmt : Stmt} (fine : calm (.write stmt)) {db : Db} {order : OrderId}
    (paid : Paid order db) : Paid order (stmt.apply db) := by
  obtain ⟨row, stored, left, paidAt⟩ := paid
  cases stmt with
  | saveOrder id set =>
      by_cases same : order = id
      · subst same
        exact ⟨set row, by simp [Stmt.apply, stored],
          fun waiting => left ((fine row).2 waiting),
          by rw [(fine row).1]; exact paidAt⟩
      · exact ⟨row, by simp [Stmt.apply, same, stored], left, paidAt⟩
  | insertOrder id value => exact fine.elim
  | _ => exact ⟨row, stored, left, paidAt⟩

/-- Calm statements can be added to any transaction. -/
theorem lasting_of_calm
    {stmt : Stmt} (fine : calm (.write stmt)) :
    Ctx.Lasting singleCharge (fun _ _ => True) ChargesWhenPaid stmt where
  harmless :=
    { keeps := fun db inv _ => by
        constructor <;> intro order <;>
          simp only [store_apply, booked_of_calm fine]
        · exact inv.once order
        · exact inv.commission order
        · exact inv.credit order
        · exact fun charged => paid_of_calm fine (inv.paid order charged)
      meets := fun _ _ _ => trivial
      frame := fun db row _ _ free => sameRow_apply db row free }
  lasts stmts db _ _ charges order more := by
    simp only [applyAll_append, applyAll_cons, applyAll_nil, store_apply,
      booked_of_calm fine] at more ⊢
    exact (charges order more).imp_right (paid_of_calm fine)

/-! ## The confirmation -/

/-- The ledger after a confirmation. -/
theorem booked_booking
    (env : Env) (id : OrderId) (row : Order) (payment : Payment) (db : Db)
    (entryType : EntryType) (order : OrderId) :
    booked entryType order (applyAll (booking env id row payment) db) =
      booked entryType order db +
        if order = id ∧ (entryType = .charge ∨ entryType = .commission ∨
          entryType = .expertCredit) then 1 else 0 := by
  by_cases same : id = order <;> cases entryType <;>
    simp [booked, booking, Stmt.apply, List.countP_append, same, eq_comm]

/-- The order of a confirmation is paid afterwards, the others are untouched. -/
theorem row_booking
    (env : Env) (id : OrderId) (row : Order) (payment : Payment) (db : Db)
    (order : OrderId) :
    (applyAll (booking env id row payment) db).orders.row order =
      if order = id then
        (db.orders.row id).map fun stored =>
          { stored with paidAt := some env.now, status := .active }
      else db.orders.row order := by
  by_cases same : order = id
  · subst same
    simp [booking, Stmt.apply, Function.comp_def]
  · simp [booking, Stmt.apply, same]

/-- The order of a confirmation is paid. -/
theorem paid_booking
    {env : Env} {id : OrderId} {row : Order} {payment : Payment} {db : Db}
    (stored : db.orders.row id = some row) :
    Paid id (applyAll (booking env id row payment) db) :=
  ⟨{ row with paidAt := some env.now, status := .active },
    by simp [row_booking, stored], by simp, by simp⟩

/-- The other orders stay paid. -/
theorem paid_booking_other
    {env : Env} {id order : OrderId} {row : Order} {payment : Payment} {db : Db}
    (different : order ≠ id) (paid : Paid order db) :
    Paid order (applyAll (booking env id row payment) db) := by
  obtain ⟨found, stored, left⟩ := paid
  exact ⟨found, by simp [row_booking, different, stored], left⟩

/-- A confirmation charges an order that was not charged before. -/
theorem booking_chargedOnce
    {env : Env} {id : OrderId} {row : Order} {payment : Payment} {db : Db}
    (inv : ChargedOnce db) (stored : db.orders.row id = some row)
    (waiting : row.status = .awaitingPayment) :
    ChargedOnce (applyAll (booking env id row payment) db) := by
  have uncharged : booked .charge id db = 0 := by
    by_contra charged
    obtain ⟨found, present, left, -⟩ :=
      inv.paid id (Nat.pos_of_ne_zero charged)
    exact left (Option.some.inj (stored.symm.trans present) ▸ waiting)
  constructor <;> intro order <;> simp only [booked_booking]
  · have once := inv.once order
    by_cases same : order = id <;> simp [same, uncharged, once]
  · simp [inv.commission order]
  · simp [inv.credit order]
  · intro charged
    by_cases same : order = id
    · subst same
      exact paid_booking stored
    · exact paid_booking_other same <|
        inv.paid order (by simpa [same] using charged)

/-- The contexts that may commit. -/
def Chargeable : Ctx Db Row Stmt → Prop :=
  Ctx.Committable singleCharge (fun _ _ => True) ChargesWhenPaid

/-- A confirmation may commit where the statements before it may. -/
theorem Chargeable.confirmed
    {base later : Ctx Db Row Stmt} {env : Env} {id : OrderId}
    {order : Order} {payment : Payment} (chargeable : Chargeable base)
    (confirmed : Confirmed base later env id order payment) :
    Chargeable later := by
  obtain ⟨extra, split, follow⟩ := confirmed.writes
  have middle : Chargeable ⟨later.held,
      base.writes ++ booking env id order payment, later.known⟩ := by
    intro state inv known _
    obtain ⟨kept, charges, -⟩ := chargeable state inv
      (confirmed.known state known) (along_of_forall state fun _ _ _ => trivial)
    have stored := confirmed.orderRow state known
    have present := (confirmed.orders state).symm ▸ stored
    refine ⟨?_, fun other more => ?_, fun row free =>
      singleCharge.same_applyAll
        (fun stmt _ db free => sameRow_apply db row free) free state⟩
    · rw [applyAll_append]
      exact booking_chargedOnce kept present confirmed.waiting
    rw [applyAll_append] at more ⊢
    by_cases same : other = id
    · subst same
      exact ⟨⟨order, stored, confirmed.waiting, confirmed.unpaid⟩,
        paid_booking present⟩
    · exact (charges other (by simpa [booked_booking, same] using more)).imp_right
        (paid_booking_other same)
  refine middle.append (fun _ known => known) split fun stmt member =>
    lasting_of_calm ?_
  rcases follow stmt member with table | table <;>
    cases stmt <;> simp_all [Stmt.table, calm]

/-! ## All operations around the payment of an order -/

/-- Bookkeeping of the callers is calm. -/
theorem calm_of_bookkeeping
    {stmt : Stmt} (fine : Bookkeeping stmt) : calm (.write stmt) := by
  cases stmt <;> simp_all [Bookkeeping, calm]

/-- The confirmation and its callers keep the protocol. -/
theorem chargeable_confirmable : Confirmable singleCharge Chargeable where
  orderRow _ _ _ same := same
  paymentRow _ _ _ same := same
  plain _ all := Ctx.committable_of_lasting
    (fun _ _ order more => absurd more (lt_irrefl _))
    fun stmt member => lasting_of_calm (calm_of_bookkeeping (all stmt member))
  grow _ _ chargeable grown := chargeable.of_extends <|
    grown.weaken fun _ fine =>
      lasting_of_calm (calm_of_bookkeeping (bookkeeping_of_webhook fine))
  failed id reason ctx chargeable := by
    have emits : (markPaymentFailed id reason).Emits calm fun _ => True := by
      simp [markPaymentFailed, calm]
    exact Prog.wp_of_emits emits (by simp [calm]) fun _ _ _ grown =>
      chargeable.of_extends (grown.weaken fun _ fine => lasting_of_calm fine)
  confirmed _ _ _ _ _ _ chargeable confirmed := chargeable.confirmed confirmed

/-- The operations around the payment of an order. -/
def PaysOrder : Operation → Prop
  | .payment (.startPayment _ _ _) | .payment (.confirmPayment _ _)
  | .payment (.confirmOrderPayment _ _) | .payment (.devConfirm _ _ _)
  | .payment (.ingest _ _ _) | .payment (.redeliver _ _)
  | .payment (.voidPayment _ _) | .order (.cancel _ _ _ _)
  | .order (.sweepUnpaid _) | .order .awaitingPaymentSweeper => True
  | _ => False

/-- The operations without confirmation are calm. -/
theorem paysOrder_calm
    {operation : Operation} (pays : PaysOrder operation)
    (other : ∀ call, operation = .payment call → ¬Confirmable.Confirms call) :
    operation.call.Emits calm fun _ => True := by
  rcases operation with _ | _ | _ | call | call | _ <;> try exact pays.elim
  · cases call <;> try exact pays.elim
    case cancel env id actor reason =>
      simp [Operation.call, OrderCall.call, Call.perform, Orders.cancel,
        Orders.transition, Orders.getForUpdate, Orders.recordEvent,
        Orders.moveRequest, Payments.voidPaymentForOrder,
        ServiceRequests.transition, Tx.get, Tx.getForUpdate, calm]
    case sweepUnpaid env =>
      refine Request.emits_atomic.mpr (.seq (.seq (by simp) fun stale => ?_) ?_)
      · refine .seq (Prog.emits_forEach (fun id _ => ?_) trivial) (by simp)
        simp [Orders.cancelUnpaid, Orders.transition, Orders.getForUpdate,
          Orders.recordEvent, Tx.getForUpdate, Tx.get, calm]
      · exact fun _ => trivial
    case awaitingPaymentSweeper =>
      simp [Operation.call, OrderCall.call, Orders.awaitingPaymentSweeper]
  · cases call <;> try exact pays.elim
    case voidPayment env id =>
      simp [Operation.call, PaymentCall.call, Call.perform,
        voidPaymentForOrder, calm]
    all_goals exact absurd trivial (other _ rfl)

/-- Every operation around the payment of an order is safe. -/
theorem paysOrder_safe {operation : Operation} (pays : PaysOrder operation) :
    operation.call.Safe singleCharge ChargesWhenPaid := by
  by_cases confirms : ∃ call, operation = .payment call ∧
      Confirmable.Confirms call
  · obtain ⟨call, rfl, confirms⟩ := confirms
    exact chargeable_confirmable.safe (fun _ chargeable =>
      chargeable.commitOk fun _ state _ =>
        along_of_forall state fun _ _ _ => trivial) confirms
  · exact (paysOrder_calm pays fun call same holds =>
      confirms ⟨call, same, holds⟩).safe_of_lasting
        (fun _ fine => lasting_of_calm fine)
        (fun _ _ order more => absurd more (lt_irrefl _))
        fun _ state _ => along_of_forall state fun _ _ _ => trivial

/--
At any time of any interleaving, an order has at most one charge, with exactly
as many commissions and credits, and a charged order is paid.  The turn that
charges an order finds it unpaid and leaves it paid.
-/
theorem order_charged_once
    (start : Db) (once : ChargedOnce start)
    (operations : Nat → Operation)
    (pays : ∀ client, PaysOrder (operations client))
    (schedule : List Turn) :
    let system := (Marketplace.start start operations).runAll schedule
    ChargedOnce system.committed ∧
      ∀ client order,
        let next := system.turn client
        booked .charge order system.committed <
            booked .charge order next.committed →
          Unpaid order system.committed ∧ Paid order next.committed := by
  intro system
  have sound : system.Sound singleCharge fun _ => ChargesWhenPaid :=
    (System.reach_runAll (Marketplace.start start operations) schedule).sound
      (System.sound_init once fun client => paysOrder_safe (pays client))
  refine ⟨sound.inv, fun client order more => ?_⟩
  rcases commits : system.committing (.run client : Turn) with _ | stmts
  · have same : (system.turn client).committed = system.committed :=
      System.step_committed_of_none commits
    rw [same] at more
    exact absurd more (lt_irrefl _)
  · have after : (system.turn client).committed =
        applyAll stmts system.committed :=
      System.step_committed_of_some commits
    rw [after] at more ⊢
    exact sound.guaranteed (fun _ _ => trivial) commits order more

/-- An order that awaits its payment, with a pending payment. -/
def awaiting : Db :=
  { requests := .insert .empty 10 { student := 1, status := .matched }
    orders := .insert .empty 40
      { request := 10
        student := 1
        expert := 2
        source := .openBid
        amount := 5000
        commissionAmount := 750
        expertAmount := 4250
        createdAt := 0 }
    payments := .insert .empty 40
      { gateway := .manual
        providerReference := some "manual-pay-1"
        amountMinor := 5000 } }

/-- An operator, the student's page, a webhook and the expert race. -/
def racers : Nat → Operation
  | 0 => .payment (.confirmOrderPayment { now := 1 } 40)
  | 1 => .payment (.devConfirm { now := 1, devSelfConfirm := true } 40 ⟨1, false⟩)
  | 2 => .payment (.ingest { now := 1 } .manual
      (.ok ⟨"evt-1", .paymentSucceeded, { paymentReference := "manual-pay-1" }⟩))
  | _ => .order (.cancel { now := 1 } 40 ⟨2, false⟩ "no time")

/-- The operator locks the order first; then every client runs in rounds. -/
def rounds : List Turn :=
  turns 0 5 ++ (List.replicate 40
    (turns 0 1 ++ turns 1 1 ++ turns 2 1 ++ turns 3 1)).flatten

/-- The operator's confirmation wins. -/
theorem order_charged_once_race :
    ChargedOnce ((Marketplace.start awaiting racers).runAll rounds).committed ∧
      booked .charge 40
        ((Marketplace.start awaiting racers).runAll rounds).committed = 1 := by
  have once : ChargedOnce awaiting := by
    constructor <;> simp [awaiting, booked]
  have pays : ∀ client, PaysOrder (racers client) := by
    rintro (_ | _ | _ | client) <;> trivial
  exact ⟨(order_charged_once awaiting once racers pays rounds).1,
    by decide +kernel⟩

end Payments

end KnowledgeMarketplace
