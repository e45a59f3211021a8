import KnowledgeMarketplace.Operations.Runs
import KnowledgeMarketplace.Payments.SinglePayout

/-!
# Completeness of the payout sweep

The sweep starts from payments that have succeeded.  A refund changes that
status, so completed orders with a partial refund are not found.
-/

namespace KnowledgeMarketplace

open Transaction

namespace Payments

/-- A completed order without a dispute or a payout, with enough credit. -/
structure Owed (id : OrderId) (db : Db) : Prop where
  completed : ∃ order, db.orders.row id = some order ∧
    order.status = .completed ∧ order.hasOpenDispute = false
  unpaid : hasPayout id db = false
  enough : db.config.payoutMinMinor ≤ expertCreditBalance id db

/-- The order was completed, has no payout, and its credit is large enough. -/
def owed (id : OrderId) (db : Db) : Bool :=
  ((db.orders.row id).any fun order =>
    order.status = .completed && !order.hasOpenDispute) &&
    !hasPayout id db && db.config.payoutMinMinor ≤ expertCreditBalance id db

/-- `owed` decides `Owed`. -/
theorem owed_iff {id : OrderId} {db : Db} : owed id db = true ↔ Owed id db := by
  simp only [owed, Bool.and_eq_true, Option.any_eq_true, decide_eq_true_eq,
    Bool.not_eq_true']
  exact ⟨fun ⟨⟨completed, unpaid⟩, enough⟩ => ⟨completed, unpaid, enough⟩,
    fun ⟨completed, unpaid, enough⟩ => ⟨⟨completed, unpaid⟩, enough⟩⟩

instance (id : OrderId) : DecidablePred (Owed id) :=
  fun _ => decidable_of_iff _ owed_iff

/-- The order has a payout of the amount. -/
def PaidOut (id : OrderId) (amountMinor : Int) (db : Db) : Prop :=
  ∃ key payout, db.payouts.row key = some payout ∧ payout.order = id ∧
    payout.amountMinor = amountMinor

/-- The payment of the order is recorded as succeeded, not as refunded. -/
def Charged (id : OrderId) (db : Db) : Prop :=
  ∃ payment, db.payments.row id = some payment ∧ payment.status = .succeeded

instance (id : OrderId) (db : Db) : Decidable (Charged id db) :=
  decidable_of_iff ((db.payments.row id).any (·.status = .succeeded))
    (by simp [Charged, Option.any_eq_true])

/-- An order of the list of a sweep, with its position. -/
abbrev Listed : Type := (OrderId × Order) × Nat

/-- What the sweep lists. -/
def dueOrders (db : Db) : List (OrderId × Order) :=
  (db.orders.select (payoutDue db)).filterMap fun id =>
    (db.orders.row id).map fun order => (id, order)

/-- The list of the sweep consists of the orders that are due. -/
theorem mem_dueOrders {db : Db} {id : OrderId} {order : Order} :
    (id, order) ∈ dueOrders db ↔
      db.orders.row id = some order ∧ payoutDue db id order = true := by
  simp only [dueOrders, List.mem_filterMap, Table.mem_select,
    Option.map_eq_some_iff, Prod.mk.injEq]
  constructor
  · rintro ⟨key, ⟨value, stored, due⟩, row, found, rfl, rfl⟩
    obtain rfl := Option.some.inj (stored.symm.trans found)
    exact ⟨stored, due⟩
  · rintro ⟨stored, due⟩
    exact ⟨id, ⟨order, stored, due⟩, order, stored, rfl, rfl⟩

/-- The sweep starts from payments that have succeeded. -/
theorem charged_of_due
    {db : Db} {id : OrderId} {order : Order}
    (due : payoutDue db id order = true) : Charged id db := by
  simp only [payoutDue, Bool.and_eq_true, Option.any_eq_true,
    decide_eq_true_eq] at due
  exact due.1.2

/-- No order is listed twice. -/
theorem dueOrders_nodup (db : Db) : ((dueOrders db).map Prod.fst).Nodup := by
  have keys : (dueOrders db).map Prod.fst = db.orders.select (payoutDue db) := by
    rw [dueOrders, List.map_filterMap]
    refine (List.filterMap_congr fun id member => ?_).trans List.filterMap_some
    obtain ⟨order, stored, _⟩ := Table.mem_select.mp member
    simp [stored]
  rw [keys]
  exact db.orders.nodup.filter _

/-- How far a sweep has come: the orders that remain are still unpaid. -/
structure Sweeping (env : Env) (db : Db) (rest : List Listed) (current : Db) :
    Prop where
  config : current.config = db.config
  ledger : current.ledger = db.ledger
  listed : ∀ item ∈ rest, item.1 ∈ dueOrders db
  distinct : (rest.map fun item => item.1.1).Nodup
  numbered : (rest.map Prod.snd).Nodup
  unused : ∀ item ∈ rest, current.payouts.row (env.key + item.2) = none
  unpaid : ∀ item ∈ rest, hasPayout item.1.1 current = false
  paid : ∀ id order, (id, order) ∈ dueOrders db → Owed id db →
    PaidOut id (expertCreditBalance id db) current ∨
      ∃ item ∈ rest, item.1 = (id, order)
  others : ∀ id, ¬Charged id db → hasPayout id db = false →
    hasPayout id current = false

theorem sweeping_start
    {env : Env} {db : Db}
    (fresh : ∀ key, env.key ≤ key → db.payouts.row key = none) :
    Sweeping env db (dueOrders db).zipIdx db where
  config := rfl
  ledger := rfl
  listed item member := List.fst_mem_of_mem_zipIdx member
  distinct := by
    have same : (dueOrders db).zipIdx.map (fun item => item.1.1) =
        (dueOrders db).map Prod.fst := by
      rw [← List.zipIdx_map_fst 0 (dueOrders db), List.map_map,
        List.zipIdx_map_fst]
      rfl
    exact same ▸ dueOrders_nodup db
  numbered := by
    rw [List.zipIdx_map_snd]
    exact List.nodup_range'
  unused item member := fresh _ (Nat.le_add_right _ _)
  unpaid item member := by
    have due := (mem_dueOrders.mp (List.fst_mem_of_mem_zipIdx member)).2
    simp only [payoutDue, Bool.and_eq_true, Bool.not_eq_true'] at due
    exact due.2
  paid id order member owed := by
    obtain ⟨index, bound, found⟩ := List.mem_iff_getElem.mp member
    exact .inr ⟨((id, order), index),
      List.mem_zipIdx_iff_getElem?.mpr (by simp [bound, found]), rfl⟩
  others id _ unpaid := unpaid

variable {env : Env} {db current : Db} {id : OrderId} {order : Order}
  {index : Nat} {rest : List Listed}

/-- A listed order with too little credit rolls forward. -/
theorem Sweeping.skip
    (sweeping : Sweeping env db (((id, order), index) :: rest) current)
    (low : expertCreditBalance id db < db.config.payoutMinMinor) :
    Sweeping env db rest current where
  config := sweeping.config
  ledger := sweeping.ledger
  listed item member := sweeping.listed item (List.mem_cons_of_mem _ member)
  distinct := (List.nodup_cons.mp sweeping.distinct).2
  numbered := (List.nodup_cons.mp sweeping.numbered).2
  unused item member := sweeping.unused item (List.mem_cons_of_mem _ member)
  unpaid item member := sweeping.unpaid item (List.mem_cons_of_mem _ member)
  paid other row member owed := by
    refine (sweeping.paid other row member owed).imp_right ?_
    rintro ⟨item, present, same⟩
    rcases List.mem_cons.mp present with rfl | later
    · obtain ⟨rfl, rfl⟩ := Prod.mk.inj same
      exact absurd owed.enough (by omega)
    · exact ⟨item, later, same⟩
  others := sweeping.others

/-- Another payout exists after the insertion if and only if it did before. -/
theorem hasPayout_insert_other
    {key : PayoutId} {payout : Payout} (different : payout.order ≠ id) :
    hasPayout id ((Stmt.insertPayout key payout).apply current) =
      hasPayout id current := by
  rw [Bool.eq_iff_iff]
  simp only [hasPayout, Table.any_eq_true, decide_eq_true_eq]
  constructor
  · rintro ⟨other, value, stored, about⟩
    rcases Table.row_insert_cases stored with old | ⟨rfl, rfl, _⟩
    · exact ⟨other, value, old, about⟩
    · exact absurd about different
  · rintro ⟨other, value, stored, about⟩
    exact ⟨other, value, Table.row_insert_of_some key payout stored, about⟩

/-- Another listed order gets its payout. -/
theorem Sweeping.pay
    (sweeping : Sweeping env db (((id, order), index) :: rest) current)
    {payout : Payout} (about : payout.order = id)
    (amount : payout.amountMinor = expertCreditBalance id db) :
    Sweeping env db rest
      ((Stmt.insertPayout (env.key + index) payout).apply current) where
  config := sweeping.config
  ledger := sweeping.ledger
  listed item member := sweeping.listed item (List.mem_cons_of_mem _ member)
  distinct := (List.nodup_cons.mp sweeping.distinct).2
  numbered := (List.nodup_cons.mp sweeping.numbered).2
  unused item member := by
    have later := sweeping.unused item (List.mem_cons_of_mem _ member)
    have different : env.key + item.2 ≠ env.key + index := fun same =>
      (List.nodup_cons.mp sweeping.numbered).1
        (List.mem_map.mpr ⟨item, member, by simpa using same⟩)
    exact (Table.row_insert_other _ payout different).trans later
  unpaid item member := by
    have different : payout.order ≠ item.1.1 := fun same =>
      (List.nodup_cons.mp sweeping.distinct).1
        (List.mem_map.mpr ⟨item, member, (about.symm.trans same).symm⟩)
    exact (hasPayout_insert_other different).trans
      (sweeping.unpaid item (List.mem_cons_of_mem _ member))
  paid other row member owed := by
    rcases sweeping.paid other row member owed with paid | ⟨item, present, same⟩
    · obtain ⟨key, value, stored, paid⟩ := paid
      exact .inl ⟨key, value, Table.row_insert_of_some _ payout stored, paid⟩
    rcases List.mem_cons.mp present with rfl | later
    · obtain ⟨rfl, rfl⟩ := Prod.mk.inj same
      have unused := sweeping.unused _ List.mem_cons_self
      exact .inl ⟨_, payout, Table.row_insert_self payout unused, about, amount⟩
    · exact .inr ⟨item, later, same⟩
  others other uncharged unpaid := by
    have due := (mem_dueOrders.mp (sweeping.listed _ List.mem_cons_self)).2
    have different : payout.order ≠ other := by
      rintro rfl
      exact uncharged (about ▸ charged_of_due due)
    exact (hasPayout_insert_other different).trans
      (sweeping.others other uncharged unpaid)

/-- One round of the sweep pays the next listed order or skips it. -/
theorem Sweeping.round
    (sweeping : Sweeping env db (((id, order), index) :: rest) current) :
    (schedulePayout { env with key := env.key + index } id order).Post current
      fun result next => ∃ value, result = .ok value ∧
        Sweeping env db rest next := by
  have due := (mem_dueOrders.mp (sweeping.listed _ List.mem_cons_self)).2
  simp only [payoutDue, Bool.and_eq_true, decide_eq_true_eq,
    Bool.not_eq_true'] at due
  have none : firstPayout id (fun _ => true) current = none := by
    have unpaid := sweeping.unpaid _ List.mem_cons_self
    rw [firstPayout, List.min?_eq_none_iff, List.eq_nil_iff_forall_not_mem]
    intro key member
    obtain ⟨payout, stored, about⟩ := Table.mem_select.mp member
    exact absurd ⟨key, payout, stored, by simpa using about⟩
      (Table.any_eq_true.not.mp (Bool.not_eq_true _ ▸ unpaid))
  have unused := sweeping.unused _ List.mem_cons_self
  have balance : expertCreditBalance id current = expertCreditBalance id db := by
    rw [expertCreditBalance, sweeping.ledger, expertCreditBalance]
  simp only [schedulePayout, Tx.create, Prog.post_bind, Prog.post_require,
    Prog.post_read, Prog.post_ite, Prog.post_pure, Prog.post_lockRow,
    Prog.post_exec, none, unused, due.1.1.1, due.1.1.2, balance, sweeping.config]
  simp only [ne_eq, not_true_eq_false, false_implies, not_false_eq_true,
    true_implies, true_and, Bool.false_eq_true, Option.isSome_none, and_true]
  exact ⟨fun low => ⟨_, rfl, sweeping.skip low⟩,
    fun _ => ⟨_, rfl, sweeping.pay rfl rfl⟩⟩

/-- A lone sweep comes to the end of its list. -/
theorem payoutSweeper_sweeps
    (fresh : ∀ key, env.key ≤ key → db.payouts.row key = none) :
    Sweeping env db []
      ((Operation.payment (.payoutSweeper env)).after db) := by
  have whole : (payoutSweeper env).Leaves db [] fun result next later =>
      result = .ok () ∧ Sweeping env db [] next ∧ later = [] := by
    refine Request.leaves_bind.mpr (Request.leaves_load.mpr ?_)
    refine Request.leaves_forEach_rest (Sweeping env db) ?_
      (sweeping_start fresh)
    rintro ⟨⟨id, order⟩, index⟩ rest current sweeping
    refine Request.leaves_bind.mpr (Request.leaves_atomic.mpr
      (sweeping.round.mono ?_))
    rintro result next ⟨value, rfl, swept⟩
    exact ⟨rfl, swept, rfl⟩
  exact (Request.leaves_iff_run.mp (whole.mono fun _ _ _ ends => ends.2.1))

/--
After a sweep, an order that is owed its credit has a payout of exactly that
amount if and only if its payment is recorded as succeeded.
-/
theorem payoutSweeper_complete_iff
    (env : Env) (db : Db) (id : OrderId)
    (fresh : ∀ key, env.key ≤ key → db.payouts.row key = none)
    (owed : Owed id db) :
    PaidOut id (expertCreditBalance id db)
        ((Operation.payment (.payoutSweeper env)).after db) ↔
      Charged id db := by
  have swept := payoutSweeper_sweeps fresh
  constructor
  · rintro ⟨key, payout, stored, about, _⟩
    by_contra uncharged
    have none := swept.others id uncharged owed.unpaid
    have some : hasPayout id _ = true :=
      Table.any_eq_true.mpr ⟨key, payout, stored, by simp [about]⟩
    exact absurd (none.symm.trans some) (by decide)
  · rintro ⟨payment, stored, succeeded⟩
    obtain ⟨order, present, completed, clear⟩ := owed.completed
    have unpaid := owed.unpaid
    rw [hasPayout] at unpaid
    have due : payoutDue db id order = true := by
      simp [payoutDue, completed, clear, stored, succeeded, unpaid]
    rcases swept.paid id order (mem_dueOrders.mpr ⟨present, due⟩) owed with
      paid | ⟨item, none, _⟩
    · exact paid
    · exact nomatch none

/-- An order that waits for its payment. -/
def awaitingOrder : Db :=
  { requests := .insert .empty 10 { student := 1, status := .matched }
    orders := .insert .empty 40
      { request := 10
        student := 1
        expert := 2
        source := .openBid
        amount := 5000
        commissionAmount := 750
        expertAmount := 4250
        createdAt := 0 } }

/-- The order is paid, disputed and resolved by an outcome. -/
def resolvedBy (outcome : DisputeOutcome) (refundMinor : Option Int) :
    List Operation :=
  [.payment (.startPayment { now := 1, hex := "a" } 40 ⟨1, false⟩),
    .payment (.confirmPayment { now := 2 } 40),
    .dispute (.openDispute { now := 3 } 40 ⟨1, false⟩ .qualityBelowExpectations
      "The report misses two chapters." (.ok ())),
    .dispute (.takeCase 40 (some ⟨9, true⟩)),
    .dispute (.resolve { now := 4, key := 70 } 40 (some ⟨9, true⟩) outcome
      "Both sides share the loss." refundMinor)]

/-- A fifth is refunded; the rest of the credit is never scheduled. -/
theorem payoutSweeper_skips_refunded :
    let db := Operation.afterAll (resolvedBy .refundStudentPartial (some 1000))
      awaitingOrder
    let swept := (Operation.payment (.payoutSweeper { now := 5, key := 60 })).after
      db
    Owed 40 db ∧ expertCreditBalance 40 db = 3400 ∧ ¬PaidOut 40 3400 swept := by
  intro db swept
  refine ⟨by decide +kernel, by decide +kernel, ?_⟩
  rintro ⟨key, payout, stored, _⟩
  have none : swept.payouts.keys = [] := by decide +kernel
  have member := (swept.payouts.mem_keys key).mpr (by simp [stored])
  simp [none] at member

/-- Without a refund the whole credit is scheduled. -/
theorem payoutSweeper_complete_released :
    let db := Operation.afterAll (resolvedBy .releaseExpert none) awaitingOrder
    PaidOut 40 (expertCreditBalance 40 db)
        ((Operation.payment (.payoutSweeper { now := 5, key := 60 })).after db) ↔
      Charged 40 db := by
  intro db
  refine payoutSweeper_complete_iff { now := 5, key := 60 } db 40
    (fun key _ => ?_) (by decide +kernel)
  have none : db.payouts.keys = [] := by decide +kernel
  have unused : key ∉ db.payouts.keys := by simp [none]
  rw [db.payouts.mem_keys] at unused
  exact Option.not_isSome_iff_eq_none.mp unused

end Payments

end KnowledgeMarketplace
