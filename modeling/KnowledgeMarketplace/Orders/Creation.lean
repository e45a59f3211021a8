import KnowledgeMarketplace.Operations.Routine
import KnowledgeMarketplace.Orders.Rules

/-!
# Services that create an order

An offer, an invitation or an assignment is accepted: the request is matched,
and its order is created at the end of the transaction.
-/

namespace KnowledgeMarketplace

open Transaction

namespace Orders

/-- Effects before an order is created. -/
def matching : Effect Stmt → Prop
  | .write stmt => stmt.table = .requests ∨ stmt.table = .offers ∨
      stmt.table = .invitations ∨ stmt.table = .assignments
  | .savepoint => False

/-- The contexts that are `ready` to commit, with and without a new order. -/
structure Creatable
    (protocol : Protocol Db Row Stmt) (ready : Ctx Db Row Stmt → Prop) :
    Prop where
  orderRow : ∀ id first second,
    protocol.Same (.order id) first second →
      first.orders.row id = second.orders.row id
  plain : ∀ ctx, ctx.writes = [] → ready ctx
  grow : ∀ base later, ready base →
    base.Extends (fun stmt => matching (.write stmt)) later → ready later
  created : ∀ base later key order, ready base → LeavesOrders base.writes →
    order.status = .awaitingPayment → order.revisionsUsed = 0 →
      Created base later key order → ready later

/-- The service ends by creating an order, before which it leaves orders alone. -/
def Introduces
    (protocol : Protocol Db Row Stmt) (ready : Ctx Db Row Stmt → Prop)
    (guarantee : List Stmt → Db → Prop) (service : Tx OrderId) : Prop :=
  ∀ ctx : Ctx Db Row Stmt, LeavesOrders ctx.writes → ready ctx →
    service.wp protocol ctx (Ctx.Finishes protocol guarantee)

namespace Creatable

variable {protocol : Protocol Db Row Stmt} {ready : Ctx Db Row Stmt → Prop}
  {guarantee : List Stmt → Db → Prop}

theorem after
    {α : Type} {first : Tx α} {rest : α → Tx OrderId}
    (creatable : Creatable protocol ready)
    (early : first.Emits matching fun _ => True)
    (late : ∀ value, Introduces protocol ready guarantee (rest value)) :
    Introduces protocol ready guarantee (first >>= rest) := by
  intro ctx leaves before
  refine Prog.wp_bind.mpr (Prog.wp_of_emits early (by simp [matching]) ?_)
  rintro (error | value) later _ grown
  · trivial
  refine late value later ?_ (creatable.grow ctx later before grown)
  refine leaves.of_extends (grown.weaken fun stmt fine => ?_)
  rcases fine with table | table | table | table <;> simp [table]

theorem createOrderForRequest
    (creatable : Creatable protocol ready)
    (commit : ∀ ctx, ready ctx → ctx.CommitOk protocol guarantee)
    (env : Env) (id : RequestId) (request : ServiceRequest) (expert : UserId)
    (amount : Option Int) (currency : String) (source : OrderSource)
    (offerId : Option OfferId) :
    Introduces protocol ready guarantee (Orders.createOrderForRequest env id
      request expert amount currency source offerId) := by
  intro ctx leaves before
  exact createOrderForRequest_wp creatable.orderRow leaves (fun _ _ => trivial)
    fun order later made created => commit later (creatable.created ctx later
      env.key order before leaves made.waiting made.unrevised created)

/-- The locked request is matched, then its order is created. -/
theorem converge
    (creatable : Creatable protocol ready)
    (commit : ∀ ctx, ready ctx → ctx.CommitOk protocol guarantee)
    (env : Env) (id : RequestId) (request : ServiceRequest)
    (expert : UserId) (amount : ServiceRequest → Option Int)
    (currency : ServiceRequest → String) (source : OrderSource)
    (offerId : Option OfferId) :
    Introduces protocol ready guarantee (do
      let matched ← ServiceRequests.markMatched env id request
      Orders.createOrderForRequest env id matched expert (amount matched)
        (currency matched) source offerId) :=
  creatable.after (by simp [ServiceRequests.markMatched,
      ServiceRequests.transition, matching, Stmt.table])
    fun _ => creatable.createOrderForRequest commit _ _ _ _ _ _ _ _

/-- Every operation that creates an order commits at the end. -/
theorem converges_looks
    {promise : Db → List Stmt → Db → Prop} {operation : Operation}
    (creatable : Creatable protocol ready)
    (commit : ∀ seen ctx, ready ctx → ctx.CommitOk protocol (promise seen))
    (converges : operation.Converges) :
    operation.call.Looks protocol promise := by
  have start := fun seen (service : Tx OrderId)
      (introduces : Introduces protocol ready (promise seen) service) =>
    introduces .start (by simp [LeavesOrders]) (creatable.plain .start rfl)
  rcases operation with _ | call | call | _ | _ | _ <;>
    try exact converges.elim
  · cases call with
    | accept env student offer =>
        refine Proc.looks_of_safe
          (fun seen => Call.perform_safe (start seen _ ?_)) nofun
        refine creatable.after ?_ fun found => creatable.after ?_ fun request => ?_
        · simp [Bidding.getForUpdate, Tx.getForUpdate, Tx.get]
        · simp [Bidding.getRequestForUpdate, Tx.getForUpdate, Tx.get]
        refine creatable.after (by simp) fun _ => creatable.after (by simp) fun _ => ?_
        refine creatable.after (by simp) fun _ => creatable.after (by simp) fun _ => ?_
        refine creatable.after (by simp) fun _ => creatable.after (by simp) fun _ => ?_
        refine creatable.after (by simp [matching, Stmt.table]) fun _ =>
          creatable.after ?_ fun _ => ?_
        · simp [Bidding.declineSiblings, matching, Stmt.table]
        · exact creatable.converge (commit seen) _ _ _ _ _ _ _ _
    | _ => exact converges.elim
  · cases call with
    | acceptInvitation env expert id amount =>
        refine Call.performOn_looks fun seen copy _ => start seen _ ?_
        refine creatable.after (by simp [Assignments.expertGuard]) fun _ => ?_
        refine creatable.after (by simp) fun _ => creatable.after ?_ fun found =>
          creatable.after ?_ fun request => ?_
        · simp [Assignments.getInvitationForUpdate, Tx.getForUpdate, Tx.get]
        · simp [Bidding.getRequestForUpdate, Tx.getForUpdate, Tx.get]
        refine creatable.after (by simp) fun _ => creatable.after ?_ fun _ => ?_
        · simp [Assignments.matchedGuard]
        refine creatable.after (by simp [matching, Stmt.table]) fun _ =>
          creatable.after ?_ fun _ => ?_
        · simp [Assignments.declineOthers, matching, Stmt.table]
        · exact creatable.converge (commit seen) env found.request request
            expert.id (·.quoteAmount) (·.currency) .managedPool none
    | acceptDirect env expert id =>
        refine Call.performOn_looks fun seen copy _ => start seen _ ?_
        refine creatable.after (by simp [Assignments.expertGuard]) fun _ => ?_
        refine creatable.after (by simp) fun _ => creatable.after ?_ fun found =>
          creatable.after ?_ fun request => ?_
        · simp [Assignments.getAssignmentForUpdate, Tx.getForUpdate, Tx.get]
        · simp [Bidding.getRequestForUpdate, Tx.getForUpdate, Tx.get]
        refine creatable.after (by simp) fun _ => creatable.after ?_ fun _ => ?_
        · simp [Assignments.matchedGuard]
        refine creatable.after (by simp [matching, Stmt.table]) fun _ => ?_
        exact creatable.converge (commit seen) _ _ _ _ _ _ _ _
    | _ => exact converges.elim

end Creatable

end Orders

end KnowledgeMarketplace
