import KnowledgeMarketplace.Operations.Effects
import KnowledgeMarketplace.Operations.Runs
import KnowledgeMarketplace.Transaction.Alone

/-!
# Preview, snapshot and booking of the commission

An expert sees the split at the default rate, the factory stores the split at
the configured rate, and the confirmation books the stored split, or, if its
commission is zero, a split at the rate that the order's row carries.  The
factory never sets that rate.
-/

namespace KnowledgeMarketplace

open Transaction

/-- The commission and the expert's part that an order was created with. -/
def Order.split (order : Order) : Int × Int :=
  (order.commissionAmount, order.expertAmount)

/-- The columns that the booking of a payment depends on stay. -/
@[mk_iff] structure KeepsPrice (set : Order → Order) : Prop where
  amount : ∀ stored, (set stored).amount = stored.amount
  rate : ∀ stored, (set stored).commissionRate = stored.commissionRate
  split : ∀ stored, (set stored).split = stored.split

theorem KeepsTerms.keepsPrice
    {set : Order → Order} (keeps : KeepsTerms set) : KeepsPrice set where
  amount := keeps.amount
  rate := keeps.rate
  split stored := by simp [Order.split, keeps.commission, keeps.expertAmount]

namespace Payments

/-! ## The price of an order is final -/

/-- The order is stored with an amount, a rate and a split. -/
structure PricedAt
    (id : OrderId) (amount : Int) (rate : CommissionRate) (split : Int × Int)
    (db : Db) : Prop where
  priced : ∃ order, db.orders.row id = some order ∧ order.amount = amount ∧
    order.commissionRate = rate ∧ order.split = split

/-- Saves of orders keep their price. -/
def keepsPrices : Effect Stmt → Prop
  | .write (.saveOrder _ set) => KeepsPrice set
  | _ => True

theorem keepsPrices_elsewhere
    (stmt : Stmt) (other : stmt.table ≠ .orders) :
    keepsPrices (.write stmt) := by
  cases stmt with
  | saveOrder key set => exact absurd rfl other
  | _ => trivial

theorem keepsPrices_catalog : Catalog keepsPrices where
  elsewhere stmt other := keepsPrices_elsewhere stmt fun same => by
    simp [same] at other
  created _ _ _ := trivial
  saved _ _ keeps := keeps.keepsPrice
  frozen _ := by simp [keepsPrices, keepsPrice_iff, Order.split]

/-- No operation changes the price of an order. -/
theorem operation_keepsPrices (operation : Operation) :
    operation.call.Emits keepsPrices fun _ => True :=
  Operation.emits_of_accounts keepsPrices_catalog.workflow.ordering trivial
    (fun stmt table => keepsPrices_elsewhere stmt fun same => by
      simp [same] at table)
    (fun _ => by simp [keepsPrices, keepsPrice_iff, Order.split])
    (fun _ => keepsPrices_catalog.workflow.completed)
    (fun _ => keepsPrices_catalog.workflow.ended)
    keepsPrices_catalog.workflow.apart keepsPrices_catalog.triage

variable {id : OrderId} {amount : Int} {rate : CommissionRate}
  {split : Int × Int} {db : Db}

/-- A statement that keeps prices keeps the price of the order. -/
theorem PricedAt.apply
    {stmt : Stmt} (keeps : keepsPrices (.write stmt))
    (before : PricedAt id amount rate split db) :
    PricedAt id amount rate split (stmt.apply db) := by
  obtain ⟨order, stored, sameAmount, sameRate, sameSplit⟩ := before
  cases stmt with
  | saveOrder key set =>
      by_cases same : id = key
      · subst same
        exact ⟨set order, by simp [Stmt.apply, stored],
          (keeps.amount order).trans sameAmount,
          (keeps.rate order).trans sameRate,
          (keeps.split order).trans sameSplit⟩
      · exact ⟨order, by simp [Stmt.apply, same, stored], sameAmount,
          sameRate, sameSplit⟩
  | insertOrder key value =>
      exact ⟨order, Table.row_insert_of_some key value stored, sameAmount,
        sameRate, sameSplit⟩
  | _ => exact ⟨order, stored, sameAmount, sameRate, sameSplit⟩

/-- Operations keep the price of the order. -/
theorem PricedAt.afterAll
    (before : PricedAt id amount rate split db) (operations : List Operation) :
    PricedAt id amount rate split (Operation.afterAll operations db) := by
  induction operations generalizing db with
  | nil => exact before
  | cons operation rest inductionHypothesis =>
      refine inductionHypothesis ?_
      exact (operation_keepsPrices operation).keeps _
        (fun stmt keeps current => PricedAt.apply keeps) before

/-! ## The three splits -/

/-- The factory stores the split at the configured rate, and no rate. -/
theorem createOrderForRequest_priced
    (env : Env) (requestId : RequestId) (request : ServiceRequest)
    (expert : UserId) (amount : Int) (currency : String)
    (source : OrderSource) (offerId : Option OfferId) (db : Db) :
    (Orders.createOrderForRequest env requestId request expert (some amount)
      currency source offerId).Post db fun result next =>
        ∀ id, result = .ok id → PricedAt id amount .openDefault
          (commissionSplit amount (Orders.rateForSource db.config source))
          next := by
  simp only [Orders.createOrderForRequest, Orders.recordEvent, Tx.create,
    Prog.post_bind, Prog.post_require, Prog.post_read, Prog.post_orFail,
    Prog.post_lockRow, Prog.post_exec, Prog.post_pure, reduceCtorEq,
    false_implies, implies_true, and_true, Option.some.injEq]
  rintro - _ rfl unused _ ⟨⟩
  have stored : ∀ order,
      (db.orders.insert env.key order).row env.key = some order :=
    fun order => Table.row_insert_self order (by simpa using unused)
  exact ⟨_, stored _, rfl, rfl, rfl⟩

/-- The commission that is left of an order. -/
def commissionBalance (order : OrderId) (db : Db) : Int :=
  total db.ledger order .commission

/-- The COMMISSION and the EXPERT_CREDIT that were added for an order. -/
def bookedBetween (id : OrderId) (before after : Db) : Int × Int :=
  (commissionBalance id after - commissionBalance id before,
    expertCreditBalance id after - expertCreditBalance id before)

/-- What a confirmation that runs alone reads and writes. -/
structure Confirms
    (env : Env) (id : OrderId) (order : Order) (payment : Payment)
    (db next : Db) : Prop where
  orderRow : db.orders.row id = some order
  paymentRow : db.payments.row id = some payment
  matched : payment.amountMinor = order.amount
  writes : ∃ extra, next =
    applyAll extra (applyAll (booking env id order payment) db) ∧
      ∀ stmt ∈ extra, FollowUp stmt

/-- A confirmation that succeeds alone writes its booking. -/
theorem confirmPaymentAtomic_confirms (env : Env) (id : OrderId) (db : Db) :
    (confirmPaymentAtomic env id).Post db fun result next =>
      result = .ok () → ∃ order payment,
        Confirms env id order payment db next := by
  have rule : (confirmPaymentAtomic env id).wp (Protocol.alone db) .start
      fun result later => result = .ok () → ∃ order payment,
        Confirmed .start later env id order payment :=
    confirmPaymentAtomic_wp (fun _ _ _ same => by rw [same])
      (fun _ _ _ same => by rw [same]) (by simp) (by simp)
      fun order payment later confirmed _ => ⟨order, payment, confirmed⟩
  refine (Prog.post_of_wp_start rule rfl).mono ?_
  rintro result next ⟨later, confirmed, known, rfl⟩ success
  obtain ⟨order, payment, confirmed⟩ := confirmed success
  obtain ⟨extra, writes, follow⟩ := confirmed.writes
  exact ⟨order, payment, confirmed.orderRow db known,
    confirmed.paymentRow db known, confirmed.matched.1, extra,
    by simp [writes], follow⟩

/-- The ledger after a confirmation is the one after its booking. -/
theorem applyAll_followUp_ledger
    {extra : List Stmt} (follow : ∀ stmt ∈ extra, FollowUp stmt) (db : Db) :
    (applyAll extra db).ledger = db.ledger :=
  applyAll_frame Db.ledger fun stmt member _ =>
    Stmt.apply_ledger fun same => by
      simpa [FollowUp, same] using follow stmt member

/-- The confirmation books the order's split, or one at the order's rate. -/
theorem Confirms.books
    {env : Env} {order : Order} {payment : Payment} {next : Db}
    (confirms : Confirms env id order payment db next)
    (priced : PricedAt id amount rate split db) :
    bookedBetween id db next =
      if split.1 = 0 then commissionSplit amount rate else split := by
  obtain ⟨stored, row, rfl, rfl, rfl⟩ := priced
  obtain rfl := Option.some.inj (row.symm.trans confirms.orderRow)
  obtain ⟨extra, rfl, follow⟩ := confirms.writes
  simp only [bookedBetween, commissionBalance, expertCreditBalance,
    applyAll_followUp_ledger follow, booking, applyAll_cons, applyAll_nil,
    store_apply, Stmt.apply, total_append, bookedSplit, confirms.matched]
  by_cases zero : stored.commissionAmount = 0 <;>
    simp [total, Order.split, zero]

/-- Preview, order and ledger show one commission, and the rate it came from. -/
structure OneCommission
    (amount : Int) (configured : CommissionRate) (order : Order)
    (booked : Int × Int) : Prop where
  previewed : order.split = Bidding.netPreview amount
  booked : booked = order.split
  recorded : order.commissionRate = configured

/--
With any operations between the creation and the confirmation of an order: the
three splits are the same exactly if the configured rate and the default rate
split the amount alike, and the recorded rate is the one that produced them
exactly if the configured rate is the default rate.
-/
theorem one_commission_iff
    (db next confirmed : Db) (env later : Env) (requestId : RequestId)
    (request : ServiceRequest) (expert : UserId) (amount : Int)
    (currency : String) (source : OrderSource) (offerId : Option OfferId)
    (id : OrderId) (operations : List Operation)
    (created : (Orders.createOrderForRequest env requestId request expert
      (some amount) currency source offerId).eval db = (.ok id, next))
    (confirms : (confirmPaymentAtomic later id).eval
      (Operation.afterAll operations next) = (.ok (), confirmed)) :
    ∃ order, next.orders.row id = some order ∧
      (OneCommission amount (Orders.rateForSource db.config source) order
          (bookedBetween id (Operation.afterAll operations next) confirmed) ↔
        Orders.rateForSource db.config source = .openDefault) ∧
      (order.split = Bidding.netPreview amount ∧
          bookedBetween id (Operation.afterAll operations next) confirmed =
            order.split ↔
        commissionSplit amount (Orders.rateForSource db.config source) =
          commissionSplit amount .openDefault) := by
  have creates := createOrderForRequest_priced env requestId request expert
    amount currency source offerId db
  simp only [Prog.Post, created] at creates
  have priced := creates id rfl
  have confirming := confirmPaymentAtomic_confirms later id
    (Operation.afterAll operations next)
  simp only [Prog.Post, confirms] at confirming
  obtain ⟨_, _, books⟩ := confirming trivial
  have booked := books.books (priced.afterAll operations)
  obtain ⟨order, row, -, recorded, split⟩ := priced
  -- a recomputed split is the one that was previewed
  have agrees : commissionSplit amount (Orders.rateForSource db.config source)
      = commissionSplit amount .openDefault →
      bookedBetween id (Operation.afterAll operations next) confirmed =
        order.split := by
    intro same
    rw [booked, split, ← same, ite_self]
  refine ⟨order, row, ⟨fun one => ?_, fun same => ?_⟩, fun both => ?_,
    fun same => ⟨?_, agrees same⟩⟩
  · exact one.recorded.symm.trans recorded
  · exact ⟨by rw [split, same, Bidding.netPreview], agrees (by rw [same]),
      recorded.trans same.symm⟩
  · rw [← split, both.1, Bidding.netPreview]
  · rw [split, same, Bidding.netPreview]

/-- An open request with an offer of 5000, while the open market is free. -/
def freeMarket (rate : CommissionRate) : Db :=
  { config := { openCommissionRate := rate }
    experts := .insert .empty 2
      { approved := true, available := true, subjects := [] }
    requests := .insert .empty 10
      { student := 1, status := .opened, offerCount := 1 }
    offers := .insert .empty 20 { request := 10, expert := 2, amount := 5000 } }

/-- The student accepts the offer; the order has the key 40. -/
def acceptOffer : Operation :=
  .offer (.accept { now := 5, key := 40 } ⟨1, false⟩ 20)

/-- The student starts the payment of the order. -/
def startCheckout : Operation :=
  .payment (.startPayment { now := 6, hex := "a1" } 40 ⟨1, false⟩)

/-- The confirmation of the payment. -/
def confirmCheckout : Operation :=
  .payment (.confirmPayment { now := 7 } 40)

/-- The factory creates the order of the offer under the key 40. -/
def orderFactory : Tx OrderId :=
  Orders.createOrderForRequest { now := 5, key := 40 } 10
    { student := 1, status := .matched } 2 (some 5000) "USD" .openBid (some 20)

/-- At the default rate the three splits of an offer of 5000 agree. -/
theorem one_commission_default :
    let created := orderFactory.eval (freeMarket .openDefault)
    let started := Operation.afterAll [startCheckout] created.2
    let confirmed := (confirmPaymentAtomic { now := 7 } 40).eval started
    ∃ order, created.2.orders.row 40 = some order ∧
      OneCommission 5000 .openDefault order
        (bookedBetween 40 started confirmed.2) := by
  intro created started confirmed
  obtain ⟨order, row, one, -⟩ := one_commission_iff
    (freeMarket .openDefault) created.2 confirmed.2 { now := 5, key := 40 }
    { now := 7 } 10 { student := 1, status := .matched } 2 5000 "USD" .openBid
    (some 20) 40 [startCheckout]
    (Prod.ext (by decide +kernel) rfl) (Prod.ext (by decide +kernel) rfl)
  exact ⟨order, row, one.mpr rfl⟩

/--
At a configured rate of zero the expert sees 750 and 4250, the order stores 0
and 5000, and the ledger books 750 and 4250 again.
-/
theorem zero_rate_splits :
    let accepted := acceptOffer.after (freeMarket ⟨0, by decide⟩)
    let started := startCheckout.after accepted
    Bidding.netPreview 5000 = (750, 4250) ∧
      (accepted.orders.row 40).map Order.split = some (0, 5000) ∧
      (accepted.orders.row 40).map Order.commissionRate =
        some .openDefault ∧
      bookedBetween 40 started (confirmCheckout.after started) =
        (750, 4250) := by
  decide +kernel

end Payments

end KnowledgeMarketplace
