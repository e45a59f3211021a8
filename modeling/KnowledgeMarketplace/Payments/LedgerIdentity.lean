import KnowledgeMarketplace.Database.Locks
import KnowledgeMarketplace.Operations.Routine
import KnowledgeMarketplace.Payments.Confirmation

/-!
# The ledger identity

What came in for an order is what was allocated: `charge + refund` equals
`commission + expert_credit + fee`.  A confirmation books the split of the
order, and a refund the proportional parts of its amount.
-/

namespace KnowledgeMarketplace

open Transaction

namespace Payments

/-- The two sides of an order's ledger are equal. -/
def Identity (order : OrderId) (db : Db) : Prop :=
  chargePlusRefund db.ledger order = allocations db.ledger order

/-- The ledger identity holds, and every order's split adds up. -/
structure LedgerBalanced (db : Db) : Prop where
  identity : ∀ order, Identity order db
  split : ∀ id order, db.orders.row id = some order → order.Balanced

/-- The locks of orders and payments protect their rows. -/
def ledgerIdentity : Protocol Db Row Stmt where
  Inv := LedgerBalanced
  Same := SameRow
  Condition _ _ := True
  same_refl := sameRow_refl
  same_trans := sameRow_trans

/-! ## Sums of the ledger -/

theorem total_cons
    (entry : LedgerEntry) (rest : List LedgerEntry) (order : OrderId)
    (entryType : EntryType) :
    total (entry :: rest) order entryType =
      (if entry.order = order ∧ entry.entryType = entryType then
        entry.amountMinor else 0) + total rest order entryType := by
  by_cases counts : entry.order = order ∧ entry.entryType = entryType <;>
    simp [total, counts]

@[simp] theorem total_nil (order : OrderId) (entryType : EntryType) :
    total [] order entryType = 0 :=
  rfl

/-- Entries whose own two sides are equal keep the identity. -/
theorem identity_append
    {db after : Db} {entries : List LedgerEntry} {order : OrderId}
    (before : Identity order db) (ledger : after.ledger = db.ledger ++ entries)
    (balanced : chargePlusRefund entries order = allocations entries order) :
    Identity order after := by
  simp only [Identity, chargePlusRefund, allocations, ledger, total_append]
    at before balanced ⊢
  omega

/-- A balanced ledger passes the nightly check. -/
theorem ledgerCheck_of_identity
    {db : Db} (identity : ∀ order, Identity order db) :
    (ledgerCheck db).2 = [] := by
  refine List.filterMap_eq_nil_iff.mpr fun order _ => ?_
  exact if_pos (identity order)

/-! ## Statements that keep the identity by themselves -/

/-- Effects that book no income and no allocation, and keep booked splits. -/
def neutral : Effect Stmt → Prop
  | .write (.appendLedger entry) => entry.entryType = .payout
  | .write (.insertOrder _ order) => order.Balanced
  | .write (.saveOrder _ set) => KeepsBooking set
  | .savepoint => False
  | _ => True

theorem neutral_elsewhere
    {stmt : Stmt} (other : stmt.table ≠ .orders ∧ stmt.table ≠ .ledger) :
    neutral (.write stmt) := by
  cases stmt <;> simp_all [Stmt.table, neutral]

theorem neutral_routine : Routine neutral where
  elsewhere stmt other := neutral_elsewhere <| by
    simp only [List.mem_cons, not_or] at other
    exact ⟨other.1, other.2.2.1⟩
  created _ _ balanced := balanced
  saved _ _ keeps := keeps

/-- Neutral statements keep the identity. -/
theorem identity_of_neutral
    {stmt : Stmt} (fine : neutral (.write stmt)) {db : Db} {order : OrderId}
    (before : Identity order db) : Identity order (stmt.apply db) := by
  cases stmt with
  | appendLedger entry =>
      have payout : entry.entryType = .payout := fine
      refine identity_append before rfl ?_
      simp [chargePlusRefund, allocations, total_cons, payout]
  | _ => exact before

/-- Statements that keep the splits of orders. -/
def KeepsSplit : Stmt → Prop
  | .insertOrder _ order => order.Balanced
  | .saveOrder _ set => KeepsBooking set
  | _ => True

theorem keepsSplit_of_neutral {stmt : Stmt} (fine : neutral (.write stmt)) :
    KeepsSplit stmt := by
  cases stmt <;> first | exact fine | trivial

/-- Splits that add up still do after such a statement. -/
theorem balanced_of_keepsSplit
    {stmt : Stmt} (fine : KeepsSplit stmt) {db : Db}
    (before : ∀ id order, db.orders.row id = some order → order.Balanced) :
    ∀ id order, (stmt.apply db).orders.row id = some order →
      order.Balanced := by
  intro id order stored
  cases stmt with
  | insertOrder key value =>
      rcases Table.row_insert_cases stored with old | ⟨-, rfl, -⟩
      · exact before id order old
      · exact fine
  | saveOrder key set =>
      have keeps : KeepsBooking set := fine
      rcases Table.row_modify_cases stored with
        ⟨-, old⟩ | ⟨rfl, old, present, rfl⟩
      · exact before id order old
      · have balanced := before id old present
        unfold Order.Balanced at balanced ⊢
        rw [keeps.amount, keeps.commission, keeps.expert, balanced]
  | _ => exact before id order stored

/-- Neutral statements can be added to any transaction. -/
theorem lasting_of_neutral
    {stmt : Stmt} (fine : neutral (.write stmt)) :
    Ctx.Lasting ledgerIdentity (fun _ _ => True) (fun _ _ => True) stmt where
  harmless :=
    { keeps := fun _ inv _ =>
        ⟨fun order => identity_of_neutral fine (inv.identity order),
          balanced_of_keepsSplit (keepsSplit_of_neutral fine) inv.split⟩
      meets := fun _ _ _ => trivial
      frame := fun db row _ _ free => sameRow_apply db row free }
  lasts _ _ _ _ _ := trivial

/-- The contexts that may commit. -/
def Balancing : Ctx Db Row Stmt → Prop :=
  Ctx.Committable ledgerIdentity (fun _ _ => True) fun _ _ => True

/-- Contexts with neutral statements only may commit. -/
theorem Balancing.of_writes
    {ctx : Ctx Db Row Stmt}
    (all : ∀ stmt ∈ ctx.writes, neutral (.write stmt)) : Balancing ctx :=
  Ctx.committable_of_lasting (fun _ _ => trivial)
    fun stmt member => lasting_of_neutral (all stmt member)

/-- Neutral statements after a context that may commit. -/
theorem Balancing.append
    {base later : Ctx Db Row Stmt} (stmts : List Stmt)
    (ready : Balancing base)
    (known : ∀ state, later.known state → base.known state)
    (writes : later.writes = base.writes ++ stmts)
    (all : ∀ stmt ∈ stmts, neutral (.write stmt)) : Balancing later :=
  Ctx.Committable.append ready known writes fun stmt member =>
    lasting_of_neutral (all stmt member)

/-- Neutral statements and more knowledge. -/
theorem Balancing.of_extends
    {base later : Ctx Db Row Stmt} (ready : Balancing base)
    (grown : base.Extends (fun stmt => neutral (.write stmt)) later) :
    Balancing later :=
  Ctx.Committable.of_extends ready
    (grown.weaken fun _ fine => lasting_of_neutral fine)

/-- Statements that keep the ledger and the splits balanced together. -/
theorem Balancing.group
    {base later : Ctx Db Row Stmt} (stmts : List Stmt)
    (ready : Balancing base)
    (known : ∀ state, later.known state → base.known state)
    (writes : later.writes = base.writes ++ stmts)
    (keeps : ∀ state, later.known state → LedgerBalanced state →
      LedgerBalanced (applyAll base.writes state) →
      LedgerBalanced (applyAll stmts (applyAll base.writes state))) :
    Balancing later := by
  intro state inv holds _
  obtain ⟨kept, -, -⟩ := ready state inv (known state holds)
    (along_of_forall state fun _ _ _ => trivial)
  refine ⟨?_, trivial, fun row free => ?_⟩
  · rw [writes, applyAll_append]
    exact keeps state holds inv kept
  · exact ledgerIdentity.same_applyAll
      (fun stmt _ db free => sameRow_apply db row free) free state

theorem balancing_commit (ctx : Ctx Db Row Stmt) (ready : Balancing ctx) :
    ctx.CommitOk ledgerIdentity fun _ _ => True :=
  ready.commitOk fun _ state _ => along_of_forall state fun _ _ _ => trivial

/-! ## Confirmations and refunds -/

/-- The booked split adds up to the payment. -/
theorem bookedSplit_sum
    {order : Order} {payment : Payment} (balanced : order.Balanced)
    (matched : payment.amountMinor = order.amount) :
    (bookedSplit order payment).1 + (bookedSplit order payment).2 =
      payment.amountMinor := by
  unfold bookedSplit
  split
  · exact commissionSplit_sum _ _
  · exact balanced.trans matched.symm

/-- A confirmation books a split that adds up to the charge. -/
theorem booking_balanced
    {env : Env} {id : OrderId} {order : Order} {payment : Payment} {db : Db}
    (before : LedgerBalanced db)
    (sum : (bookedSplit order payment).1 + (bookedSplit order payment).2 =
      payment.amountMinor) :
    LedgerBalanced (applyAll (booking env id order payment) db) where
  identity other := by
    refine identity_append (before.identity other)
      (by simp [booking, Stmt.apply]; rfl) ?_
    by_cases same : id = other <;>
      simp [chargePlusRefund, allocations, total_cons, same]
    omega
  split := by
    refine applyAll_keeps
      (fun db : Db => ∀ id order, db.orders.row id = some order →
        order.Balanced) (fun stmt member db => ?_) before.split
    refine balanced_of_keepsSplit ?_
    simp only [booking, List.mem_cons, List.not_mem_nil, or_false] at member
    rcases member with rfl | rfl | rfl | rfl | rfl | rfl <;>
      simp [KeepsSplit, keepsBooking_iff]

/-- The parts of a refund add up to its amount. -/
theorem reversal_sum
    {amountMinor : Int} {order : Order} {parts : Int × Int}
    (split : reversal amountMinor order = .ok parts) :
    parts.1 + parts.2 = amountMinor := by
  unfold reversal at split
  split at split
  · rename_i commission credit allocated
    have sum := (allocate_ok allocated).1
    simp only [Except.ok.injEq] at split
    subst split
    simpa using sum
  · simp at split
  · simp at split

/-- A refund takes back what it allocates back. -/
theorem refunding_balanced
    {env : Env} {id : OrderId} {amountMinor : Int} {reason : RefundReason}
    {initiatedBy : Option Actor} {payment : Payment} {order : Order}
    {reference : String} {parts : Int × Int} {db : Db}
    (before : LedgerBalanced db)
    (split : reversal amountMinor order = .ok parts) :
    LedgerBalanced (applyAll (refunding env id amountMinor reason initiatedBy
      payment order reference parts) db) where
  identity other := by
    have sum := reversal_sum split
    by_cases credit : parts.2 = 0 <;> by_cases commission : parts.1 = 0 <;>
      refine identity_append (before.identity other)
        (by simp [refunding, Stmt.apply, credit, commission]; rfl) ?_ <;>
      by_cases same : id = other <;>
      simp [chargePlusRefund, allocations, total_cons, same] <;>
      omega
  split := by
    refine applyAll_keeps
      (fun db : Db => ∀ id order, db.orders.row id = some order →
        order.Balanced) (fun stmt member db => ?_) before.split
    refine balanced_of_keepsSplit ?_
    rcases refunding_tables stmt member with table | table | table <;>
      cases stmt <;> simp_all [Stmt.table, KeepsSplit]

/-! ## The operations -/

theorem neutral_of_bookkeeping
    {stmt : Stmt} (fine : Bookkeeping stmt) : neutral (.write stmt) := by
  cases stmt <;> trivial

/-- The confirmation and its callers keep the identity. -/
theorem balancing_confirmable : Confirmable ledgerIdentity Balancing where
  orderRow _ _ _ same := same
  paymentRow _ _ _ same := same
  plain _ all := .of_writes fun stmt member =>
    neutral_of_bookkeeping (all stmt member)
  grow _ _ ready grown := ready.of_extends <| grown.weaken fun _ webhook =>
    neutral_of_bookkeeping (bookkeeping_of_webhook webhook)
  failed id reason ctx ready := by
    have emits : (markPaymentFailed id reason).Emits neutral fun _ => True := by
      simp [markPaymentFailed, neutral]
    exact Prog.wp_of_emits emits (by simp [neutral]) fun _ _ _ grown =>
      ready.of_extends grown
  confirmed base later env id order payment ready confirmed := by
    obtain ⟨extra, writes, follow⟩ := confirmed.writes
    have booked : Balancing ⟨later.held,
        base.writes ++ booking env id order payment, later.known⟩ := by
      refine ready.group _ confirmed.known rfl fun state known inv kept => ?_
      have balanced := inv.split id order (confirmed.orderRow state known)
      exact booking_balanced kept
        (bookedSplit_sum balanced confirmed.matched.1)
    refine booked.append _ (fun _ known => known) writes fun stmt member => ?_
    rcases follow stmt member with table | table <;>
      exact neutral_elsewhere (by simp [table])

/-- A request whose effects are neutral is safe. -/
theorem safe_of_neutral
    {call : Call Unit} (emits : call.Emits neutral fun _ => True) :
    call.Safe ledgerIdentity fun _ _ => True :=
  emits.safe_of_lasting (fun _ fine => lasting_of_neutral fine)
    (fun _ _ => trivial)
    fun _ state _ => along_of_forall state fun _ _ _ => trivial

/-- A refund is safe. -/
theorem issueRefund_safe
    (env : Env) (id : OrderId) (amountMinor : Int) (reason : RefundReason)
    (initiatedBy : Option Actor) :
    (PaymentCall.issueRefund env id amountMinor reason initiatedBy).call.Safe
      ledgerIdentity fun _ _ => True := by
  simp only [Request.Safe, PaymentCall.call, Call.perform, Request.wp_atomic,
    Prog.wp_bind, Prog.wp_pure]
  refine issueRefund_wp (fun _ _ => trivial) ?_
  intro payment order reference parts later refund writes
  have start : Balancing .start := .of_writes (by simp)
  exact ⟨balancing_commit later (start.group _ refund.known writes
    fun _ _ _ kept => refunding_balanced kept refund.split), trivial⟩

/-- What a resolution writes after its refund keeps the identity. -/
theorem neutral_of_aftermath
    {id : OrderId} {stmt : Stmt} (fine : Disputes.Aftermath id stmt) :
    neutral (.write stmt) := by
  cases stmt with
  | savePayout => trivial
  | saveOrder key set => exact fine.2
  | _ => exact fine.elim

/-- A resolution is safe. -/
theorem resolve_safe
    (env : Env) (id : OrderId) (actor : Option Actor)
    (outcome : DisputeOutcome) (notes : String)
    (refundAmountMinor : Option Int) :
    (DisputeCall.resolve env id actor outcome notes refundAmountMinor).call.Safe
      ledgerIdentity fun _ _ => True := by
  simp only [Request.Safe, DisputeCall.call, DisputeCall.onDispute,
    Call.performOn, Call.perform, Call.get, Request.wp_bind, Request.wp_load,
    Request.wp_orFail, Request.wp_atomic, Prog.wp_bind, Prog.wp_pure,
    Ctx.start_observe, implies_true, and_true]
  intro _ _ _ copy _
  refine Disputes.resolve_wp (fun _ _ => trivial) fun later resolved => ?_
  obtain ⟨money, extra, data, set, reimburses, after, -, writes⟩ := resolved.writes
  have start : Balancing .start := .of_writes (by simp)
  have refunded : Balancing ⟨later.held, money, later.known⟩ := by
    refine start.group money resolved.known (by simp) fun _ _ _ kept => ?_
    rcases reimburses with
      rfl | ⟨amount, payment, order, reference, parts, refund, rfl⟩
    · exact kept
    · exact refunding_balanced kept refund.split
  refine balancing_commit later (refunded.append
    (extra ++ [.recordEvent { order := id, eventType := .disputeResolved, data },
      .saveDispute id copy.status set]) (fun _ known => known) ?_ ?_)
  · simp [writes]
  · intro stmt member
    simp only [List.mem_append, List.mem_cons, List.not_mem_nil, or_false]
      at member
    rcases member with member | rfl | rfl
    · exact neutral_of_aftermath (after stmt member)
    · trivial
    · trivial

/-- Every operation of the marketplace is safe. -/
theorem balancing_safe (operation : Operation) :
    operation.call.Safe ledgerIdentity fun _ _ => True := by
  by_cases routine : operation.IsRoutine
  · exact safe_of_neutral (routine.emits neutral_routine)
  rcases operation with _ | _ | _ | call | call | call <;>
    try exact absurd trivial routine
  · cases call with
    | cancel env id actor reason =>
        refine safe_of_neutral ?_
        simp [Operation.call, OrderCall.call, Call.perform, Orders.cancel,
          Orders.transition, Orders.getForUpdate, Orders.recordEvent,
          Orders.moveRequest, voidPaymentForOrder, Tx.get, Tx.getForUpdate,
          ServiceRequests.transition, neutral, keepsBooking_iff]
    | _ => exact absurd trivial routine
  · by_cases confirms : Confirmable.Confirms call
    · exact balancing_confirmable.safe balancing_commit confirms
    cases call with
    | voidPayment env id =>
        refine safe_of_neutral ?_
        simp [Operation.call, PaymentCall.call, Call.perform,
          voidPaymentForOrder, neutral]
    | issueRefund env id amount reason initiatedBy =>
        exact issueRefund_safe env id amount reason initiatedBy
    | settlePayout env id actor =>
        refine safe_of_neutral ?_
        simp [Operation.call, PaymentCall.call, Call.perform, settlePayout,
          getPayoutForUpdate, ledger, Orders.getForUpdate, Tx.get,
          Tx.getForUpdate, neutral]
    | _ => first
        | exact absurd trivial confirms
        | exact absurd trivial routine
  · cases call with
    | resolve env id actor outcome notes amount =>
        exact resolve_safe env id actor outcome notes amount
    | _ => exact absurd trivial routine

/--
At any time of any interleaving of all operations, the two sides of every
order's ledger are equal, and the nightly check reports no violation.
-/
theorem ledger_identity
    (start : Db) (balanced : LedgerBalanced start)
    (operations : Nat → Operation) (schedule : List Turn) :
    let db := ((Marketplace.start start operations).runAll schedule).committed
    (∀ order, Identity order db) ∧ (ledgerCheck db).2 = [] := by
  intro db
  have sound : ((Marketplace.start start operations).runAll schedule).Sound
      ledgerIdentity fun _ _ _ => True :=
    (System.reach_runAll (Marketplace.start start operations) schedule).sound
      (System.sound_init balanced fun client => balancing_safe (operations client))
  exact ⟨sound.inv.identity, ledgerCheck_of_identity sound.inv.identity⟩

/-- An unpaid order without booked commission, with a pending payment. -/
def withoutCommission : Db :=
  { requests := .insert .empty 10 { student := 1, status := .matched }
    orders := .insert .empty 40
      { request := 10
        student := 1
        expert := 2
        source := .openBid
        amount := 5000
        expertAmount := 5000
        createdAt := 0 }
    payments := .insert .empty 40
      { gateway := .manual
        providerReference := some "manual-pay-1"
        amountMinor := 5000 } }

/-- The payment is confirmed; support refunds twice. -/
def refunders : Nat → Operation
  | 0 => .payment (.confirmPayment { now := 1 } 40)
  | 1 => .payment
      (.issueRefund { now := 2, key := 70 } 40 333 .mutual (some ⟨9, true⟩))
  | _ => .payment
      (.issueRefund { now := 2, key := 71 } 40 1000 .mutual (some ⟨9, true⟩))

/-- The commission is computed at the confirmation, and kept by the refunds. -/
theorem ledger_identity_refunds :
    let db := ((Marketplace.start withoutCommission refunders).runAll
      (turns 0 40 ++ turns 1 5 ++ turns 2 20 ++ turns 1 20 ++ turns 2 20)
        ).committed
    (ledgerCheck db).2 = [] ∧ total db.ledger 40 .commission = 750 ∧
      chargePlusRefund db.ledger 40 = 3667 := by
  have balanced : LedgerBalanced withoutCommission := by
    refine ⟨fun _ => rfl, fun id order stored => ?_⟩
    simp only [withoutCommission, Table.row_insert, Table.row_empty,
      and_true, Option.ite_none_right_eq_some, Option.some.injEq] at stored
    obtain ⟨-, rfl⟩ := stored
    rfl
  exact ⟨(ledger_identity withoutCommission balanced refunders _).2,
    by decide +kernel, by decide +kernel⟩

end Payments

end KnowledgeMarketplace
