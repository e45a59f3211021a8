import KnowledgeMarketplace.Orders.Services
import KnowledgeMarketplace.Payments.Rules

/-!
# Interleaving rules of the order factory

The factory inserts one order under the lock of its key, so that the key is
still unused when the transaction commits.
-/

namespace KnowledgeMarketplace

open Transaction

/-- The split of an order adds up to its amount. -/
def Order.Balanced (order : Order) : Prop :=
  order.commissionAmount + order.expertAmount = order.amount

/-- What was booked on an order stays. -/
@[mk_iff] structure KeepsBooking (set : Order → Order) : Prop where
  amount : ∀ stored, (set stored).amount = stored.amount
  commission : ∀ stored,
    (set stored).commissionAmount = stored.commissionAmount
  expert : ∀ stored, (set stored).expertAmount = stored.expertAmount

/-- What the parties agreed on stays, and so does the freeze of the payout. -/
@[mk_iff] structure KeepsTerms (set : Order → Order) : Prop where
  request : ∀ stored, (set stored).request = stored.request
  student : ∀ stored, (set stored).student = stored.student
  expert : ∀ stored, (set stored).expert = stored.expert
  source : ∀ stored, (set stored).source = stored.source
  offerId : ∀ stored, (set stored).offerId = stored.offerId
  amount : ∀ stored, (set stored).amount = stored.amount
  currency : ∀ stored, (set stored).currency = stored.currency
  rate : ∀ stored, (set stored).commissionRate = stored.commissionRate
  commission : ∀ stored,
    (set stored).commissionAmount = stored.commissionAmount
  expertAmount : ∀ stored, (set stored).expertAmount = stored.expertAmount
  deadline : ∀ stored, (set stored).deadline = stored.deadline
  frozen : ∀ stored, (set stored).hasOpenDispute = stored.hasOpenDispute

theorem KeepsTerms.keepsBooking
    {set : Order → Order} (keeps : KeepsTerms set) : KeepsBooking set :=
  ⟨keeps.amount, keeps.commission, keeps.expertAmount⟩

/-- The saves of orders that set no timer, no due date and no end. -/
inductive OrderSave : (Order → Order) → Prop where
  | status (status : OrderStatus) :
      OrderSave fun stored => { stored with status }
  | paid (now : Time) : OrderSave fun stored =>
      { stored with paidAt := some now }
  | frozen : OrderSave fun stored => { stored with hasOpenDispute := true }

attribute [simp] OrderSave.status OrderSave.paid OrderSave.frozen

/-- The saves that end an order without completing it. -/
inductive OrderEnd : (Order → Order) → Prop where
  | cancelled (now : Time) (actor : UserId) (reason : String) :
      OrderEnd fun stored =>
        { stored with
          cancelledAt := some now
          cancelledBy := some actor
          cancellationReason := reason }
  | swept (now : Time) (reason : String) : OrderEnd fun stored =>
      { stored with cancelledAt := some now, cancellationReason := reason }

attribute [simp] OrderEnd.cancelled OrderEnd.swept

/-- Every such save but the freeze keeps the terms. -/
theorem OrderSave.keepsTerms
    {set : Order → Order} (save : OrderSave set) :
    KeepsTerms set ∨ set = fun stored => { stored with hasOpenDispute := true } := by
  cases save with
  | frozen => exact .inr rfl
  | _ => exact .inl (by simp [keepsTerms_iff])

theorem OrderEnd.keepsTerms
    {set : Order → Order} (save : OrderEnd set) : KeepsTerms set := by
  cases save <;> simp [keepsTerms_iff]

/-- A new order is balanced and waits for its payment. -/
structure Order.New (order : Order) : Prop where
  balanced : order.Balanced
  waiting : order.status = .awaitingPayment
  unpaid : order.paidAt = none
  unfrozen : order.hasOpenDispute = false
  unended : order.completedAt = none ∧ order.cancelledAt = none

namespace Orders

/-- An order of the request exists under this key. -/
def HasOrder (request : RequestId) (id : OrderId) (db : Db) : Prop :=
  ∃ order, db.orders.row id = some order ∧ order.request = request

/-- Every request has at most one order. -/
def SingleOrder (db : Db) : Prop :=
  ∀ request first second,
    HasOrder request first db → HasOrder request second db → first = second

/-- The order table alone decides which orders a request has. -/
theorem hasOrder_congr
    {first second : Db} (same : first.orders = second.orders)
    (request : RequestId) (id : OrderId) :
    HasOrder request id first ↔ HasOrder request id second := by
  simp [HasOrder, same]

/-- Inserting an order under an unused key adds exactly that order. -/
theorem hasOrder_insert
    {db after : Db} {key : OrderId} {order : Order}
    (fresh : db.orders.row key = none)
    (orders : after.orders = db.orders.insert key order)
    (request : RequestId) (id : OrderId) :
    HasOrder request id after ↔
      HasOrder request id db ∨ id = key ∧ order.request = request := by
  unfold HasOrder
  rw [orders]
  constructor
  · rintro ⟨found, stored, about⟩
    rcases Table.row_insert_cases stored with old | ⟨rfl, rfl, _⟩
    · exact .inl ⟨found, old, about⟩
    · exact .inr ⟨rfl, about⟩
  · rintro (⟨found, stored, about⟩ | ⟨rfl, about⟩)
    · exact ⟨found, Table.row_insert_of_some key order stored, about⟩
    · exact ⟨order, Table.row_insert_self order fresh, about⟩

/-- The first order of a request keeps requests at one order. -/
theorem SingleOrder.insert
    {db after : Db} {key : OrderId} {order : Order}
    (single : SingleOrder db)
    (unmatched : ∀ id, ¬HasOrder order.request id db)
    (added : ∀ request id, HasOrder request id after ↔
      HasOrder request id db ∨ id = key ∧ order.request = request) :
    SingleOrder after := by
  intro request first second firstHas secondHas
  rcases (added _ _).mp firstHas with oldFirst | ⟨rfl, rfl⟩ <;>
    rcases (added _ _).mp secondHas with oldSecond | ⟨rfl, same⟩
  · exact single request first second oldFirst oldSecond
  · exact absurd (same ▸ oldFirst) (unmatched first)
  · exact absurd oldSecond (unmatched second)
  · rfl

/-- Statements that touch no row of the order table. -/
def LeavesOrders (stmts : List Stmt) : Prop :=
  ∀ stmt ∈ stmts, stmt.table ≠ .orders

theorem LeavesOrders.applyAll_orders
    {stmts : List Stmt} (leaves : LeavesOrders stmts) (db : Db) :
    (applyAll stmts db).orders = db.orders :=
  applyAll_frame Db.orders fun stmt member _ =>
    Stmt.apply_orders (leaves stmt member)

/-- A later context leaves the orders to what the earlier one wrote. -/
theorem LeavesOrders.of_extends
    {base later : Ctx Db Row Stmt}
    (leaves : LeavesOrders base.writes)
    (grown : base.Extends (fun stmt => stmt.table ≠ .orders) later) :
    LeavesOrders later.writes := by
  obtain ⟨extra, split, all⟩ := grown.writes
  intro stmt member
  rw [split] at member
  rcases List.mem_append.mp member with early | late
  · exact leaves stmt early
  · exact all stmt late

/-- What is known after the factory has inserted `order` under `key`. -/
structure Created
    (base later : Ctx Db Row Stmt) (key : OrderId) (order : Order) : Prop where
  held : ∀ row, base.held row → later.held row
  locked : later.held (.order key)
  known : ∀ state, later.known state → base.known state
  fresh : ∀ state, later.known state → state.orders.row key = none
  writes : ∃ event : OrderEvent, event.order = key ∧
    event.eventType = .created ∧ later.writes =
      base.writes ++ [.insertOrder key order, .recordEvent event]

/-- The committed orders after the factory are the old ones and the new one. -/
theorem Created.applyAll_orders
    {base later : Ctx Db Row Stmt} {key : OrderId} {order : Order}
    (created : Created base later key order)
    (leaves : LeavesOrders base.writes) (db : Db) :
    (applyAll later.writes db).orders = db.orders.insert key order := by
  obtain ⟨event, _, _, split⟩ := created.writes
  simp only [split, applyAll_append, applyAll_cons, applyAll_nil, store_apply,
    Stmt.apply, leaves.applyAll_orders]

/-- A new order has the terms that the factory was called with. -/
structure MadeFor
    (request : RequestId) (expert : UserId) (amount : Option Int)
    (order : Order) : Prop where
  request : order.request = request
  expert : order.expert = expert
  amount : amount = some order.amount
  waiting : order.status = .awaitingPayment
  unrevised : order.revisionsUsed = 0

/-- The factory creates an order of the request, or fails. -/
theorem createOrderForRequest_wp
    {protocol : Protocol Db Row Stmt}
    (orderRow : ∀ id first second,
      protocol.Same (.order id) first second →
        first.orders.row id = second.orders.row id)
    {env : Env} {requestId : RequestId} {request : ServiceRequest}
    {expert : UserId} {amount : Option Int} {currency : String}
    {source : OrderSource} {offerId : Option OfferId}
    {ctx : Ctx Db Row Stmt} {goal : Except Error OrderId → Ctx Db Row Stmt → Prop}
    (leaves : LeavesOrders ctx.writes)
    (errors : ∀ error later, goal (.error error) later)
    (success : ∀ order later, MadeFor requestId expert amount order →
      Created ctx later env.key order → goal (.ok env.key) later) :
    (createOrderForRequest env requestId request expert amount currency
      source offerId).wp protocol ctx goal := by
  simp only [createOrderForRequest, recordEvent, Tx.create, Prog.wp_bind,
    Prog.wp_require, Prog.wp_read, Prog.wp_orFail, Prog.wp_lockRow,
    Prog.wp_exec, Prog.wp_pure]
  refine ⟨fun _ first _ _ => ⟨fun found priced => ?_, fun _ => errors _ _⟩,
    fun _ => errors _ _⟩
  intro seen _ _
  refine ⟨fun unused => ?_, fun _ => errors _ _⟩
  refine success _ _ ?made ⟨fun row held => ?_, ?_, fun state known => ?_,
    fun state known => ?_, ⟨_, rfl, rfl, List.append_assoc _ _ _⟩⟩
  case made => exact ⟨rfl, rfl, priced, rfl, rfl⟩
  · simp [held]
  · simp
  · simp only [Ctx.push_known, Ctx.observe_known, Ctx.take_known] at known
    exact known.1.1
  · simp only [Ctx.push_known, Ctx.observe_known] at known
    have same := known.2 (.order env.key) (by simp)
    simp only [Ctx.take_writes, Ctx.observe_writes,
      leaves.applyAll_orders] at unused
    rw [← orderRow _ _ _ same]
    simpa using unused

/-- What approving a delivery writes. -/
theorem approveDelivery_emits
    {good : Effect Stmt → Prop}
    {env : Env} {id : OrderId} {actor : Option Actor} {source : ApprovalSource}
    (delivery : ∀ key set, good (.write (.saveDelivery key set)))
    (event : ∀ value, value.order = id →
      value.eventType ∈ [.approved, .autoApproved, .completed] →
        good (.write (.recordEvent value)))
    (completed : good (.write (.saveOrder id fun stored =>
      { stored with completedAt := some env.now, autoApproveAt := none })))
    (moved : ∀ status, good (.write (.saveOrder id fun stored =>
      { stored with status })))
    (request : ∀ key copy,
      (ServiceRequests.transition env key copy .completed "").Emits good
        fun _ => True)
    (payout : ∀ value, value.status = .scheduled →
      good (.write (.insertPayout env.key value))) :
    (approveDelivery env id actor source).Emits good fun _ => True := by
  unfold approveDelivery
  refine .seq (by simp [getForUpdate, Tx.getForUpdate, Tx.get]) fun order => ?_
  refine .seq (by simp) fun _ => .seq (by simp) fun _ => ?_
  refine .seq (by simp) fun found => .seq (by simp [delivery]) fun _ => ?_
  refine .seq (by simpa using completed) fun _ => .seq ?_ fun done => ?_
  · have approved : ∀ actor, good (.write (.recordEvent
        { order := id
          eventType := if source = .auto then .autoApproved else .approved
          actor })) :=
      fun _ => event _ rfl (by split <;> simp)
    simp [transition, recordEvent, getForUpdate, Tx.getForUpdate, Tx.get,
      moved, approved]
  refine .seq (by simp [recordEvent, event]) fun _ => ?_
  refine .seq (moveRequest_emits request) fun _ => ?_
  simp [Payments.schedulePayout, Tx.create, payout]

end Orders

end KnowledgeMarketplace
