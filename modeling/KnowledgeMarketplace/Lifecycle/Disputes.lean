import KnowledgeMarketplace.Lifecycle.Payments

/-!
# Dispute services take business steps

Run alone, a review service finds its copy of the dispute unchanged.
-/

namespace KnowledgeMarketplace

open Transaction Lifecycle

namespace Disputes

variable {db : Db}

/-- Freezing writes the flag, or finds it written. -/
theorem freeze_post
    {id : OrderId} {order : Order} {state : OrderState} {frozen : Bool}
    {goal : Except Error Unit → Db → Prop}
    (found : db.lifecycle.orders id = some state)
    (same : state.frozen = order.hasOpenDispute)
    (success : ∀ next,
      next.lifecycle = (db.lifecycle.setOrder id fun order =>
        { order with frozen }) →
      goal (.ok ()) next) :
    (freeze id order frozen).Post db goal := by
  unfold freeze
  refine Prog.post_ite.mpr ⟨fun _ => ?_, fun unchanged => ?_⟩
  · exact success _ (lifecycle_saveOrder _ _ _ fun _ => rfl)
  · refine success _ (setOrder_self found ?_).symm
    rw [← not_ne_iff.mp unchanged, ← same]

theorem openDispute_takes
    (env : Env) (id : OrderId) (actor : Actor) (reason : DisputeReason)
    (description : String) (evidence : Except Error Unit) :
    (openDispute env id actor reason description evidence).Post db
      (Takes db (.openDispute id)) := by
  simp only [openDispute, Orders.getForUpdate, Tx.getForUpdate, Tx.get,
    Tx.create, Prog.post_bind, Prog.post_lockRow, Prog.post_read,
    Prog.post_orFail, Prog.post_require, Prog.post_ofExcept, Prog.post_exec,
    Prog.post_pure, takes_error, takes_ok, implies_true, and_true]
  intro order stored _ unused _ allowed _ _ _ _
  have fresh : db.disputes.row id = none := by simpa using unused
  have inserted := lifecycle_insertDispute
    { openedBy := actor.id
      reason
      description := strip description
      priorOrderStatus := order.status } fresh rfl
  refine freeze_post (lifecycle_order stored) rfl fun frozen freezes => ?_
  refine Orders.transition_post (fun _ _ => trivial) ?_
  intro _ next _ _ moved _
  refine Step.reaching (.openDispute (lifecycle_order stored)
    (by simp [Db.lifecycle, fresh]) ?_) ?_
  · unfold disputable at allowed
    split_ifs at allowed with completed <;> simp_all [Order.state]
  · exact moved.trans <| (congrArg (setStatus · id .disputed)
      (freezes.trans (congrArg (setOrder · id _) inserted))).trans <|
      setOrder_setOrder _ _ _ _

/-- Moves of the review keep the resolution to `resolve`. -/
theorem transition_takes
    {id : OrderId} {dispute : Dispute} {toStatus : DisputeStatus}
    {actor : Option Actor} (stored : db.disputes.row id = some dispute)
    (unresolved : toStatus ≠ .resolved) :
    (transition id dispute toStatus actor).Post db (Takes db (.review id)) := by
  simp only [transition, Prog.post_bind, Prog.post_require, Prog.post_exec,
    takes_error, takes_ok, implies_true, and_true]
  intro _ edge
  exact Step.reaching (.review (lifecycle_dispute stored) edge unresolved) <|
    lifecycle_saveDispute _ _ _ _ fun _ => rfl

theorem close_takes
    {env : Env} {id : OrderId} {dispute : Dispute} {actor : Option Actor}
    (stored : db.disputes.row id = some dispute) :
    (close env id dispute actor).Post db (Takes db (.review id)) := by
  simp only [close, Prog.post_bind, Prog.post_require, Prog.post_exec,
    takes_error, takes_ok, implies_true, and_true]
  intro _ edge
  exact Step.reaching
    (.review (lifecycle_dispute stored) edge (by simp)) <|
    lifecycle_saveDispute _ _ _ _ fun _ => rfl

/-- Refunding leaves the life cycle alone. -/
theorem refundOutcome_idle
    (env : Env) (id : OrderId) (actor : Option Actor)
    (outcome : DisputeOutcome) (payment : Option Payment)
    (refundAmountMinor : Option Int) :
    (refundOutcome env id actor outcome payment refundAmountMinor).Emits idle
      fun _ => True := by
  simp [refundOutcome, voidScheduledPayout, Payments.issueRefund,
    Payments.getForUpdate, Payments.ledger, Payments.markPayoutFailed,
    Payments.getPayoutForUpdate, Tx.getForUpdate, Tx.get, Tx.create, idle,
    Stmt.table]

/-- Moving the order sets its status along an edge, or finds it set. -/
theorem moveOrder_post
    {id : OrderId} {order : Order} {state : OrderState} {toStatus : OrderStatus}
    {outcome : DisputeOutcome} {goal : Except Error Unit → Db → Prop}
    (found : db.lifecycle.orders id = some state)
    (same : state.status = order.status)
    (errors : ∀ error next, goal (.error error) next)
    (success : ∀ next,
      toStatus = state.status ∨
        (Orders.transitions state.status toStatus).isSome →
      next.lifecycle = db.lifecycle.setStatus id toStatus →
      goal (.ok ()) next) :
    (moveOrder id order toStatus outcome).Post db goal := by
  simp only [moveOrder, Orders.recordEvent, Prog.post_ite, Prog.post_bind,
    Prog.post_exec, Prog.post_pure]
  refine ⟨fun _ => ?_, fun unchanged => ?_⟩
  · refine Orders.transition_post (fun _ _ => errors _ _) ?_
    intro copy next stored edge moved _
    have columns : copy.state = state :=
      Option.some.inj ((lifecycle_order stored).symm.trans found)
    exact success next (.inr (columns ▸ edge)) moved
  · have status : toStatus = state.status :=
      (not_ne_iff.mp unchanged).trans same.symm
    refine success _ (.inl status) ?_
    rw [store_apply, lifecycle_other _ (by simp [Stmt.table])]
    exact (setOrder_self found (by simp [status])).symm

theorem newStatus_mem (dispute : Dispute) (outcome : DisputeOutcome) :
    newStatus dispute outcome ∈
      [.cancelled, .completed, dispute.priorOrderStatus] := by
  cases outcome <;> simp [newStatus]

theorem resolve_takes
    {env : Env} {id : OrderId} {dispute : Dispute} {actor : Option Actor}
    {outcome : DisputeOutcome} {notes : String}
    {refundAmountMinor : Option Int}
    (stored : db.disputes.row id = some dispute) :
    (resolve env id dispute actor outcome notes refundAmountMinor).Post db
      fun result next =>
        Takes db (.resolve id (newStatus dispute outcome)) result next ∧
          ∀ value, result = .ok value → actor.any Actor.isStaff = true := by
  simp only [resolve, Orders.getForUpdate, Tx.getForUpdate, Tx.get,
    Prog.post_bind, Prog.post_read, Prog.post_lockRow, Prog.post_orFail,
    Prog.post_require, Prog.post_exec, takes_error, takes_ok, reduceCtorEq,
    false_implies, implies_true, and_true]
  intro staff edge _ order found
  have underReview : dispute.status = .underReview := by
    cases status : dispute.status <;> simp_all [transitions]
  refine post_of_idle (refundOutcome_idle _ _ _ _ _ _) ?_
  rintro (error | value) refunded same
  · trivial
  have state : refunded.lifecycle.orders id = some order.state :=
    same ▸ lifecycle_order found
  refine freeze_post state rfl fun unfrozen freezes => ?_
  refine post_of_idle (by simp [adjustPayout, idle, Stmt.table]) ?_
  rintro (error | value) adjusted adjusts
  · trivial
  have unfrozenState : adjusted.lifecycle.orders id =
      some { order.state with frozen := false } := by
    simp [adjusts, freezes, setOrder, state]
  refine moveOrder_post unfrozenState rfl (fun _ _ => trivial) ?_
  intro moved allowed moves
  refine ⟨?_, fun _ _ => staff⟩
  refine Step.reaching (.resolve (lifecycle_order found)
    (lifecycle_dispute stored) underReview (newStatus_mem dispute outcome)
    allowed) ?_
  calc _ = moved.lifecycle.setDispute id .resolved :=
        lifecycle_saveDispute _ _ _ _ fun _ => rfl
    _ = _ := by
        rw [moves, adjusts, freezes, same]
        exact congrArg (setDispute · id .resolved) (setOrder_setOrder _ _ _ _)

end Disputes

end KnowledgeMarketplace
