import KnowledgeMarketplace.Lifecycle.Model
import KnowledgeMarketplace.Transaction.Alone

/-!
# The life cycle of a database

What single statements and the shared parts of services do to it.
-/

namespace KnowledgeMarketplace

open Transaction

/-- The columns of the life cycle. -/
def Order.state (order : Order) : OrderState :=
  ⟨order.request, order.status, order.hasOpenDispute⟩

/-- The columns of the life cycle. -/
def Dispute.state (dispute : Dispute) : DisputeState :=
  ⟨dispute.status, dispute.priorOrderStatus⟩

/-- The life cycle that the committed rows are in. -/
def Db.lifecycle (db : Db) : Lifecycle where
  requests id := (db.requests.row id).map ServiceRequest.status
  orders id := (db.orders.row id).map Order.state
  disputes id := (db.disputes.row id).map Dispute.state

variable {db : Db}

theorem lifecycle_request
    {id : RequestId} {request : ServiceRequest}
    (stored : db.requests.row id = some request) :
    db.lifecycle.requests id = some request.status := by
  simp [Db.lifecycle, stored]

theorem lifecycle_order
    {id : OrderId} {order : Order} (stored : db.orders.row id = some order) :
    db.lifecycle.orders id = some order.state := by
  simp [Db.lifecycle, stored]

theorem lifecycle_dispute
    {id : OrderId} {dispute : Dispute}
    (stored : db.disputes.row id = some dispute) :
    db.lifecycle.disputes id = some dispute.state := by
  simp [Db.lifecycle, stored]

/-- An order keeps its columns where the life cycle is the same. -/
theorem same_state
    {first second : Db} {id : OrderId} {order copy : Order}
    (stored : first.orders.row id = some order)
    (found : second.orders.row id = some copy)
    (same : second.lifecycle = first.lifecycle) : copy.state = order.state := by
  have columns := lifecycle_order found
  rw [same, lifecycle_order stored] at columns
  exact (Option.some.inj columns).symm

/-- The three tables determine the life cycle. -/
theorem lifecycle_congr
    {first second : Db} (requests : first.requests = second.requests)
    (orders : first.orders = second.orders)
    (disputes : first.disputes = second.disputes) :
    first.lifecycle = second.lifecycle := by
  simp [Db.lifecycle, requests, orders, disputes]

/-! ## Single statements -/

/-- Statements on other tables. -/
theorem lifecycle_other
    (stmt : Stmt) (other : stmt.table ∉ [.requests, .orders, .disputes]) :
    (stmt.apply db).lifecycle = db.lifecycle := by
  simp only [List.mem_cons, List.not_mem_nil, or_false, not_or] at other
  exact lifecycle_congr (Stmt.apply_requests other.1)
    (Stmt.apply_orders other.2.1) (Stmt.apply_disputes other.2.2)

/-- Saving an order changes the columns as the save does. -/
theorem lifecycle_saveOrder
    (id : OrderId) (set : Order → Order) (change : OrderState → OrderState)
    (columns : ∀ stored, (set stored).state = change stored.state) :
    ((Stmt.saveOrder id set).apply db).lifecycle =
      db.lifecycle.setOrder id change := by
  refine Lifecycle.ext rfl (funext fun other => ?_) rfl
  by_cases same : other = id
  · subst same
    simp [Db.lifecycle, Stmt.apply, Lifecycle.setOrder, Function.comp_def,
      columns]
  · simp [Db.lifecycle, Stmt.apply, Lifecycle.setOrder, same]

/-- Saving other columns of an order. -/
theorem lifecycle_saveOrder_other
    (id : OrderId) (set : Order → Order)
    (columns : ∀ stored, (set stored).state = stored.state) :
    ((Stmt.saveOrder id set).apply db).lifecycle = db.lifecycle := by
  rw [lifecycle_saveOrder id set (fun order => order) columns]
  refine Lifecycle.ext rfl (funext fun other => ?_) rfl
  by_cases same : other = id <;> simp [Lifecycle.setOrder, same]

/-- Saving a request changes its status. -/
theorem lifecycle_saveRequest
    (id : RequestId) (loaded : RequestStatus)
    (set : ServiceRequest → ServiceRequest) (status : RequestStatus)
    (columns : ∀ stored, (set stored).status = status) :
    ((Stmt.saveRequest id loaded set).apply db).lifecycle =
      db.lifecycle.setRequest id status := by
  refine Lifecycle.ext (funext fun other => ?_) rfl rfl
  by_cases same : other = id
  · subst same
    simp [Db.lifecycle, Stmt.apply, Lifecycle.setRequest, Function.comp_def,
      columns]
  · simp [Db.lifecycle, Stmt.apply, Lifecycle.setRequest, same]

/-- Changing other columns of a request. -/
theorem lifecycle_modifyRequest
    {next : Db} {id : RequestId} {set : ServiceRequest → ServiceRequest}
    (columns : ∀ stored, (set stored).status = stored.status)
    (requests : next.requests = db.requests.modify id set)
    (orders : next.orders = db.orders) (disputes : next.disputes = db.disputes) :
    next.lifecycle = db.lifecycle := by
  refine Lifecycle.ext (funext fun other => ?_)
    (by simp [Db.lifecycle, orders]) (by simp [Db.lifecycle, disputes])
  by_cases same : other = id
  · subst same
    simp [Db.lifecycle, requests, Function.comp_def, columns]
  · simp [Db.lifecycle, requests, same]

/-- Saving a dispute changes its status. -/
theorem lifecycle_saveDispute
    (id : OrderId) (loaded : DisputeStatus) (set : Dispute → Dispute)
    (status : DisputeStatus)
    (columns : ∀ stored, (set stored).state = { stored.state with status }) :
    ((Stmt.saveDispute id loaded set).apply db).lifecycle =
      db.lifecycle.setDispute id status := by
  refine Lifecycle.ext rfl rfl (funext fun other => ?_)
  by_cases same : other = id
  · subst same
    simp [Db.lifecycle, Stmt.apply, Lifecycle.setDispute, Function.comp_def,
      columns]
  · simp [Db.lifecycle, Stmt.apply, Lifecycle.setDispute, same]

/-- Inserting an order under an unused key. -/
theorem lifecycle_insertOrder
    {id : OrderId} {order : Order} (fresh : db.orders.row id = none)
    (status : order.status = .awaitingPayment)
    (frozen : order.hasOpenDispute = false) :
    ((Stmt.insertOrder id order).apply db).lifecycle =
      db.lifecycle.addOrder id order.request := by
  refine Lifecycle.ext rfl (funext fun other => ?_) rfl
  by_cases same : other = id
  · subst same
    simp [Db.lifecycle, Stmt.apply, Lifecycle.addOrder, Table.row_insert,
      fresh, Order.state, status, frozen]
  · simp [Db.lifecycle, Stmt.apply, Lifecycle.addOrder, same]

/-- Inserting a dispute about an order without one. -/
theorem lifecycle_insertDispute
    {id : OrderId} (dispute : Dispute) (fresh : db.disputes.row id = none)
    (status : dispute.status = .opened) :
    ((Stmt.insertDispute id dispute).apply db).lifecycle =
      db.lifecycle.addDispute id dispute.priorOrderStatus := by
  refine Lifecycle.ext rfl rfl (funext fun other => ?_)
  by_cases same : other = id
  · subst same
    simp [Db.lifecycle, Stmt.apply, Lifecycle.addDispute, Table.row_insert,
      fresh, Dispute.state, status]
  · simp [Db.lifecycle, Stmt.apply, Lifecycle.addDispute, same]

/-- Effects that leave the life cycle alone. -/
def idle : Effect Stmt → Prop
  | .write (.saveOrder _ set) => ∀ stored, (set stored).state = stored.state
  | .write (.saveRequest _ _ set) | .write (.updateRequest _ set) =>
      ∀ stored, (set stored).status = stored.status
  | .write stmt => stmt.table ∉ [.requests, .orders, .disputes]
  | .savepoint => True

/-- An idle statement leaves the life cycle alone. -/
theorem lifecycle_of_idle {stmt : Stmt} (fine : idle (.write stmt)) :
    (stmt.apply db).lifecycle = db.lifecycle := by
  cases stmt <;> first
    | exact lifecycle_saveOrder_other _ _ fine
    | exact lifecycle_modifyRequest fine rfl rfl rfl
    | exact lifecycle_other _ fine

/-- An idle statement after others. -/
theorem lifecycle_then
    {stmt : Stmt} {base : Lifecycle} (fine : idle (.write stmt))
    (before : db.lifecycle = base) :
    (Store.apply stmt db : Db).lifecycle = base :=
  (lifecycle_of_idle fine).trans before

/-- A block of idle statements leaves the life cycle alone. -/
theorem post_of_idle
    {α : Type} {program : Tx α} {goal : Except Error α → Db → Prop}
    (emits : program.Emits idle fun _ => True)
    (reached : ∀ result next, next.lifecycle = db.lifecycle →
      goal result next) :
    program.Post db goal := by
  refine (emits.keeps (fun next : Db => next.lifecycle = db.lifecycle)
    (fun stmt fine current same => ?_) rfl).mono
    fun result next kept => reached result next kept.2
  exact (lifecycle_of_idle fine).trans same

/-! ## Shared parts of services -/

/-- Moving an order sets its status along an edge, or fails. -/
theorem Orders.transition_post
    {id : OrderId} {toStatus : OrderStatus} {eventType : OrderEventType}
    {actor : Option Actor} {data : OrderEventData}
    {goal : Except Error Order → Db → Prop}
    (errors : ∀ error next, goal (.error error) next)
    (success : ∀ order next, db.orders.row id = some order →
      (Orders.transitions order.status toStatus).isSome →
      next.lifecycle = db.lifecycle.setStatus id toStatus →
      next.requests = db.requests →
      goal (.ok { order with status := toStatus }) next) :
    (Orders.transition id toStatus eventType actor data).Post db goal := by
  simp only [Orders.transition, Orders.getForUpdate, Orders.recordEvent,
    Tx.getForUpdate, Tx.get, Prog.post_bind, Prog.post_lockRow,
    Prog.post_read, Prog.post_orFail, Prog.post_require, Prog.post_exec,
    Prog.post_pure, errors, implies_true, and_true]
  intro order stored edge
  refine success order _ stored edge ?_ rfl
  rw [store_apply, lifecycle_other _ (by simp [Stmt.table]), store_apply]
  exact lifecycle_saveOrder _ _ _ fun _ => rfl

/-- The request follows its order, or the move fails. -/
theorem Orders.moveRequest_post
    {env : Env} {id : RequestId} {fromStatuses : List RequestStatus}
    {toStatus : RequestStatus} {reason : String}
    {goal : Except Error Unit → Db → Prop}
    (errors : ∀ error next, goal (.error error) next)
    (success : ∀ next,
      next.lifecycle = db.lifecycle.follow id fromStatuses toStatus →
      goal (.ok ()) next) :
    (Orders.moveRequest env id fromStatuses toStatus reason).Post db goal := by
  simp only [Orders.moveRequest, ServiceRequests.transition, Tx.get,
    Prog.post_bind, Prog.post_read, Prog.post_orFail, Prog.post_ite,
    Prog.post_require, Prog.post_exec, Prog.post_pure, errors, implies_true,
    and_true]
  intro request stored
  have found := lifecycle_request stored
  refine ⟨fun listed _ => success _ ?_, fun unlisted => success _ ?_⟩
  · rw [store_apply, lifecycle_saveRequest _ _ _ toStatus fun _ => rfl]
    simp [Lifecycle.follow, found, listed]
  · simp [Lifecycle.follow, found, unlisted]

end KnowledgeMarketplace
