import KnowledgeMarketplace.Lifecycle.Payments

/-!
# Request services take business steps

Triage only moves requests that cannot have an order; the accepting services
match a request and create its order.
-/

namespace KnowledgeMarketplace

open Transaction Lifecycle ServiceRequests

variable {db : Db}

/-! ## Triage -/

theorem triage_refl (life : Lifecycle) : Step life .triage life :=
  .triage rfl rfl fun _ _ stored _ => stored

/-- Idle writes after triage. -/
theorem triage_then
    {life : Lifecycle} {mid next : Db} (same : next.lifecycle = mid.lifecycle)
    (triage : Step life .triage mid.lifecycle) :
    Step life .triage next.lifecycle :=
  same ▸ triage

/-- Triage may change a request that was not converged. -/
theorem triage_change
    {life : Lifecycle} {mid next : Db} (id : RequestId)
    (triage : Step life .triage mid.lifecycle)
    (unsettled : ∀ status, life.requests id = some status →
      converged status = false)
    (requests : ∀ other, other ≠ id →
      next.lifecycle.requests other = mid.lifecycle.requests other)
    (orders : next.lifecycle.orders = mid.lifecycle.orders)
    (disputes : next.lifecycle.disputes = mid.lifecycle.disputes) :
    Step life .triage next.lifecycle := by
  cases triage with
  | triage oldOrders oldDisputes kept =>
      refine .triage (orders.trans oldOrders) (disputes.trans oldDisputes) ?_
      intro other status stored settled
      by_cases same : other = id
      · subst same
        simp [unsettled status stored] at settled
      · exact (requests other same).trans (kept other status stored settled)

/-- Effects on requests that are not converged, and idle ones. -/
def triaging (db : Db) : Effect Stmt → Prop
  | .write (.saveRequest id _ set) =>
      (∀ stored, (set stored).status = stored.status) ∨
        ∀ status, db.lifecycle.requests id = some status →
          converged status = false
  | effect => idle effect

theorem triaging_keeps
    {stmt : Stmt} (fine : triaging db (.write stmt)) {current : Db}
    (triage : Step db.lifecycle .triage current.lifecycle) :
    Step db.lifecycle .triage (stmt.apply current).lifecycle := by
  cases stmt with
  | saveRequest id loaded set =>
      rcases fine with columns | unsettled
      · exact triage_then (lifecycle_of_idle columns) triage
      · refine triage_change id triage unsettled (fun other different => ?_) rfl rfl
        simp [Db.lifecycle, Stmt.apply, different]
  | _ => exact triage_then (lifecycle_of_idle fine) triage

/-- A request with such effects is triage. -/
theorem triage_of_emits
    {request : Call Unit}
    (emits : request.Emits (triaging db) fun _ => True) :
    Step db.lifecycle .triage (Request.run request db).2.lifecycle :=
  emits.keeps (fun current => Step db.lifecycle .triage current.lifecycle)
    (fun _ fine _ triage => triaging_keeps fine triage) (triage_refl _)

/-- A request on a copy that it reads first. -/
theorem triage_of_copy
    {ρ : Type} {find : Db → Option ρ} {model : String} {rest : ρ → Call Unit}
    (fine : ∀ copy, find db = some copy →
      (rest copy).Emits (triaging db) fun _ => True) :
    Step db.lifecycle .triage
      (Request.run (do let copy ← Call.get find model; rest copy : Call Unit)
        db).2.lifecycle := by
  suffices whole : Request.Leaves _ db [] fun _ next _ =>
      Step db.lifecycle .triage next.lifecycle from
    Request.leaves_iff_run.mp whole
  refine Request.leaves_bind.mpr <| Request.leaves_bind.mpr <|
    Request.leaves_load.mpr <| Request.leaves_orFail.mpr
      ⟨fun copy found => ?_, fun _ => triage_refl _⟩
  exact Request.leaves_iff_run.mpr (triage_of_emits (fine copy found))

/-- The edges into other statuses come from requests without an order. -/
theorem edge_unsettled
    {fromStatus toStatus : RequestStatus}
    (edge : (ServiceRequests.transitions fromStatus toStatus).isSome)
    (target : converged toStatus = false) : converged fromStatus = false := by
  revert edge target
  cases fromStatus <;> cases toStatus <;> decide

/-- Moving an unchanged copy to such a status is triage. -/
theorem transition_triaging
    {env : Env} {id : RequestId} {stored request : ServiceRequest}
    {toStatus : RequestStatus} {reason : String}
    (found : db.requests.row id = some stored)
    (same : request.status = stored.status)
    (target : converged toStatus = false) :
    (ServiceRequests.transition env id request toStatus reason).Emits
      (triaging db) fun _ => True := by
  simp only [ServiceRequests.transition, Prog.emits_bind, Prog.emits_require,
    Prog.emits_exec, Prog.emits_pure, implies_true, and_true]
  intro edge
  refine .inr fun status row => ?_
  rw [lifecycle_request found, ← same] at row
  exact Option.some.inj row ▸ edge_unsettled edge target

/-- A new draft is triage. -/
theorem createRequest_triage
    (env : Env) (student : UserId) (payload : Payload) :
    (createRequest env student payload).Post db fun result next =>
      ∀ value, result = .ok value →
        Step db.lifecycle .triage next.lifecycle := by
  simp only [createRequest, Tx.create, Prog.post_bind, Prog.post_ofExcept,
    Prog.post_lockRow, Prog.post_read, Prog.post_require, Prog.post_exec,
    Prog.post_pure, reduceCtorEq, false_implies, implies_true, and_true]
  intro _ _ _ _ _ _ unused _ _ _ _
  have fresh : db.requests.row env.key = none := by simpa using unused
  refine triage_change env.key (triage_refl _) ?_ ?_ rfl rfl
  · simp [Db.lifecycle, fresh]
  · intro other different
    simp [Db.lifecycle, Stmt.apply, different]

/-- The hourly expiry of stale open requests is triage. -/
theorem expireDue_triage (env : Env) :
    (ServiceRequests.expireDue env).Post db fun _ next =>
      Step db.lifecycle .triage next.lifecycle := by
  refine (Prog.post_updateWhere (fun current =>
    Step db.lifecycle .triage current.lifecycle) ?_ (triage_refl _)).mono
      fun _ _ kept => kept.1
  intro id current due triage
  refine triage_change id triage (fun status row => ?_) (fun other different => ?_)
    rfl rfl
  · obtain ⟨request, stored, overdue⟩ := (Option.any_eq_true _ _).mp due
    simp only [stale, Bool.and_eq_true, decide_eq_true_eq] at overdue
    by_contra settled
    cases triage with
    | triage _ _ kept =>
        have unchanged := kept id status row (by simpa using settled)
        rw [lifecycle_request stored, overdue.1] at unchanged
        obtain rfl := Option.some.inj unchanged
        simp [converged] at settled
  · simp [Db.lifecycle, Stmt.apply, different]

/-- Closing a request. -/
theorem cancel_takes
    {env : Env} {owner : UserId} {id : RequestId} {request : ServiceRequest}
    {reason : String} (stored : db.requests.row id = some request) :
    (ServiceRequests.cancel env owner id request reason).Post db
      fun result next => Takes db (.close id) result next ∧
        ∀ value, result = .ok value → request.student = owner := by
  simp only [ServiceRequests.cancel, ServiceRequests.transition,
    Prog.post_bind, Prog.post_require, Prog.post_exec, Prog.post_pure,
    takes_error, takes_ok, reduceCtorEq, false_implies, implies_true, and_true]
  intro own edge
  refine ⟨?_, fun _ _ => own⟩
  exact Step.reaching (.close (lifecycle_request stored) edge) <|
    lifecycle_saveRequest _ _ _ _ fun _ => rfl

/-! ## Acceptance -/

/-- The locked request is matched and its order created. -/
theorem converge_takes
    (env : Env) {id : RequestId} {request : ServiceRequest} (expert : UserId)
    (amount : ServiceRequest → Option Int) (currency : ServiceRequest → String)
    (source : OrderSource) (offerId : Option OfferId) {mid : Db}
    (stored : db.requests.row id = some request)
    (same : mid.lifecycle = db.lifecycle) :
    (do
      let matched ← markMatched env id request
      Orders.createOrderForRequest env id matched expert (amount matched)
        (currency matched) source offerId : Tx OrderId).Post mid
      fun result next => ∃ id, Takes db (.accept id env.key) result next := by
  simp only [markMatched, ServiceRequests.transition,
    Orders.createOrderForRequest, Orders.recordEvent, Tx.create,
    Prog.post_bind, Prog.post_require, Prog.post_exec, Prog.post_pure,
    Prog.post_read, Prog.post_orFail, Prog.post_lockRow, takes_error, takes_ok,
    exists_const, implies_true, and_true]
  intro edge _ _ _ unused
  have fresh : mid.orders.row env.key = none := by
    simpa [Stmt.apply] using unused
  have free : db.lifecycle.orders env.key = none := by
    rw [← same]
    simp [Db.lifecycle, fresh]
  refine ⟨id, Step.reaching (.accept (lifecycle_request stored) edge free) ?_⟩
  refine lifecycle_then (by simp [idle, Stmt.table]) ?_
  refine Eq.trans (lifecycle_insertOrder fresh rfl rfl) ?_
  refine congrArg (addOrder · env.key id) ?_
  rw [← same]
  exact lifecycle_saveRequest _ _ _ _ fun _ => rfl

theorem accept_takes (env : Env) (student : Actor) (id : OfferId) :
    (Bidding.accept env student id).Post db fun result next =>
      ∃ request, Takes db (.accept request env.key) result next := by
  simp only [Bidding.accept, Bidding.getForUpdate, Bidding.getRequestForUpdate,
    Tx.getForUpdate, Tx.get, Prog.post_bind, Prog.post_lockRow,
    Prog.post_read, Prog.post_orFail, Prog.post_require, Prog.post_exec,
    takes_error, exists_const, implies_true, and_true]
  intro offer _ request stored _ _ _ _ _
  refine post_of_idle (by simp [Bidding.declineSiblings, idle, Stmt.table]) ?_
  rintro (error | value) mid same
  · simp
  have unchanged := same.trans (lifecycle_other _ (by simp [Stmt.table]))
  simpa only [Bidding.createOrderFromOffer, Prog.post_bind, takes_error,
    exists_const] using converge_takes env offer.expert
      (fun _ => some offer.amount) (fun _ => offer.currency) .openBid (some id)
      stored unchanged

theorem acceptInvitation_takes
    (env : Env) (expert : Actor) (id : InvitationId)
    (invitation : PoolInvitation) (expectedAmount : Option Int) :
    (Assignments.acceptInvitation env expert id invitation
      expectedAmount).Post db fun result next =>
        ∃ request, Takes db (.accept request env.key) result next := by
  simp only [Assignments.acceptInvitation, Assignments.expertGuard,
    Assignments.matchedGuard, Assignments.getInvitationForUpdate,
    Bidding.getRequestForUpdate, Tx.getForUpdate, Tx.get, Prog.post_bind,
    Prog.post_lockRow, Prog.post_read, Prog.post_orFail, Prog.post_require,
    Prog.post_exec, Prog.post_tryCatch, Prog.post_throw, takes_error,
    exists_const, implies_true, and_true]
  intro _ _ found _ request stored _ _ _
  refine post_of_idle (by simp [Assignments.declineOthers, idle, Stmt.table]) ?_
  rintro (error | value) mid same
  · simp
  have unchanged := same.trans (lifecycle_other _ (by simp [Stmt.table]))
  simpa only [Prog.post_bind, takes_error, exists_const] using
    converge_takes env expert.id (·.quoteAmount) (·.currency) .managedPool none
      stored unchanged

theorem acceptDirect_takes
    (env : Env) (expert : Actor) (id : AssignmentId)
    (assignment : DirectAssignment) :
    (Assignments.acceptDirect env expert id assignment).Post db
      fun result next =>
        ∃ request, Takes db (.accept request env.key) result next := by
  simp only [Assignments.acceptDirect, Assignments.expertGuard,
    Assignments.matchedGuard, Assignments.getAssignmentForUpdate,
    Bidding.getRequestForUpdate, Tx.getForUpdate, Tx.get, Prog.post_bind,
    Prog.post_lockRow, Prog.post_read, Prog.post_orFail, Prog.post_require,
    Prog.post_exec, takes_error, exists_const, implies_true, and_true]
  intro _ _ found _ request stored _ _ _
  have unchanged : (Store.apply (Stmt.saveAssignment id fun stored =>
      { stored with status := .accepted, respondedAt := some env.now }) db :
        Db).lifecycle = db.lifecycle :=
    lifecycle_other _ (by simp [Stmt.table])
  simpa only [Prog.post_bind, takes_error, exists_const] using
    converge_takes env expert.id (fun _ => some found.amount)
      (fun _ => found.currency) .managedDirect none stored unchanged

end KnowledgeMarketplace
