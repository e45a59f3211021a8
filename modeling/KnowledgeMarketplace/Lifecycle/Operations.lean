import KnowledgeMarketplace.Lifecycle.Disputes
import KnowledgeMarketplace.Lifecycle.Requests
import KnowledgeMarketplace.Operations.Routine

/-!
# Operations take business steps

An operation that runs alone leaves the life cycle alone, takes one business
step, or, as a job of the worker, a step for each due order.
-/

namespace KnowledgeMarketplace

open Transaction Lifecycle

/-- The steps that jobs of the worker take in one transaction or call. -/
def Lifecycle.Event.IsJob : Event → Prop
  | .sweep _ | .approve _ => True
  | _ => False

namespace Operation

/-- Which operation takes a step; the other steps are never in question. -/
def Causes (operation : Operation) (db : Db) : Event → Prop
  | .close id =>
      ∃ env owner reason, operation = .request (.cancel env owner id reason) ∧
        (db.requests.row id).any (·.student = owner) = true
  | .cancel id =>
      ∃ env actor reason, operation = .order (.cancel env id actor reason) ∧
        reason ≠ "" ∧ (actor.isStaff = true ∨
          (db.orders.row id).any (·.status = .awaitingPayment) = true)
  | .approve _ => operation.Approves
  | .sweep id =>
      ∃ env, operation = .order (.sweepUnpaid env) ∧
        (db.orders.row id).any (Orders.unpaid env.now) = true
  | .resolve id toStatus =>
      ∃ env actor outcome notes amount dispute,
        operation = .dispute (.resolve env id actor outcome notes amount) ∧
        db.disputes.row id = some dispute ∧
        toStatus = Disputes.newStatus dispute outcome ∧
        actor.any Actor.isStaff = true
  | _ => True

/-- What an operation does to the life cycle. -/
inductive Evolves (operation : Operation) (db next : Db) : Prop where
  | same : next.lifecycle = db.lifecycle → Evolves operation db next
  | step (event : Event) :
      operation.Causes db event →
      Step db.lifecycle event next.lifecycle →
      Evolves operation db next
  | jobs {events : List Event} :
      Steps db.lifecycle events next.lifecycle →
      (∀ event ∈ events, event.IsJob ∧ operation.Causes db event) →
      Evolves operation db next

variable {operation : Operation} {db : Db}

/-- What all steps keep, the operation keeps. -/
theorem Evolves.keeps
    {next : Db} (evolves : operation.Evolves db next)
    (invariant : Lifecycle → Prop)
    (step : ∀ event later, operation.Causes db event →
      Step db.lifecycle event later → invariant later)
    (job : ∀ event current later, event.IsJob → operation.Causes db event →
      invariant current → Step current event later → invariant later)
    (start : invariant db.lifecycle) : invariant next.lifecycle := by
  cases evolves with
  | same unchanged => exact unchanged ▸ start
  | step event cause taken => exact step event _ cause taken
  | jobs steps all =>
      exact steps.keeps invariant (fun event member current later holds taken =>
        job event current later (all event member).1 (all event member).2 holds
          taken) start

/-- A service that runs in a transaction of its own. -/
theorem evolves_perform
    {α : Type} {service : Tx α}
    (post : service.Post db fun result next =>
      ∀ value, result = .ok value → operation.Evolves db next) :
    operation.Evolves db (Request.run (Call.perform service) db).2 := by
  suffices whole : (Call.perform service).Leaves db [] fun _ next _ =>
      operation.Evolves db next from Request.leaves_iff_run.mp whole
  refine Request.leaves_atomic.mpr (Prog.post_bind.mpr (post.mono ?_))
  rintro (error | value) next evolves
  · exact .same rfl
  · exact evolves value rfl

/-- The rest of a request on a copy that it reads first. -/
theorem evolves_onCopy
    {ρ : Type} {find : Db → Option ρ} {model : String} {rest : ρ → Call Unit}
    (onCopy : ∀ copy, find db = some copy →
      operation.Evolves db (Request.run (rest copy) db).2) :
    operation.Evolves db
      (Request.run (do let copy ← Call.get find model; rest copy : Call Unit)
        db).2 := by
  exact Call.onCopy (.same rfl) onCopy

/-- A request with idle effects. -/
theorem evolves_of_idle
    {request : Call Unit} (emits : request.Emits idle fun _ => True) :
    operation.Evolves db (Request.run request db).2 :=
  .same <| emits.keeps (fun next : Db => next.lifecycle = db.lifecycle)
    (fun _ fine _ same => (lifecycle_of_idle fine).trans same) rfl

/-- A step or nothing. -/
theorem evolves_of_leads
    {next : Db} (event : Event) (cause : operation.Causes db event)
    (leads : Leads db event next) : operation.Evolves db next :=
  leads.elim .same (.step event cause)

/-- A service that takes its step. -/
theorem evolves_of_takes
    {α : Type} {service : Tx α} (event : Event)
    (cause : operation.Causes db event)
    (takes : service.Post db (Takes db event)) :
    operation.Evolves db (Request.run (Call.perform service) db).2 :=
  evolves_perform <| takes.mono fun _ _ taken value ok =>
    .step event cause (taken value ok)

/-- A service that accepts for some request. -/
theorem evolves_of_accepts
    {α : Type} {service : Tx α} {key : OrderId}
    (accepts : service.Post db fun result next =>
      ∃ request, Takes db (.accept request key) result next) :
    operation.Evolves db (Request.run (Call.perform service) db).2 := by
  refine evolves_perform <| accepts.mono ?_
  rintro result next ⟨request, taken⟩ value ok
  exact .step (.accept request key) trivial (taken value ok)

/-- A request with triaging effects. -/
theorem evolves_of_triage
    {request : Call Unit}
    (emits : request.Emits (triaging db) fun _ => True) :
    operation.Evolves db (Request.run request db).2 :=
  .step .triage trivial (triage_of_emits emits)

/-! ## Requests, offers and assignments -/

theorem request_evolves (call : RequestCall) :
    (Operation.request call).Evolves db (call.call.run db).2 := by
  cases call with
  | create env student payload =>
      refine evolves_perform ((createRequest_triage env student payload).mono ?_)
      exact fun _ _ triage value ok => .step .triage trivial (triage value ok)
  | updateDraft env owner id payload =>
      refine evolves_onCopy fun copy found => evolves_of_triage ?_
      simp only [Call.perform, ServiceRequests.updateDraft, Request.emits_atomic,
        Prog.emits_bind, Prog.emits_require, Prog.emits_ofExcept,
        Prog.emits_exec, Prog.emits_pure, implies_true, and_true]
      intro _ draft _ _ _ _ _ _
      refine .inr fun status row => ?_
      rw [lifecycle_request found, draft] at row
      exact Option.some.inj row ▸ rfl
  | publish env owner id attested =>
      refine evolves_onCopy fun copy found => evolves_of_triage ?_
      refine .seq ?_ (by simp)
      refine .seq (by simp) fun _ => .seq (by simp) fun _ => ?_
      refine .seq (by simp) fun _ => Request.emits_ite.mpr
        ⟨fun _ => .seq ?_ fun _ => ?_, fun _ => .seq ?_ fun _ => ?_⟩
      · simp [Call.exec, triaging]
      · exact Request.emits_atomic.mpr (transition_triaging found rfl rfl)
      · simp [Call.exec, triaging]
      · exact Request.emits_atomic.mpr (transition_triaging found rfl rfl)
  | cancel env owner id reason =>
      refine evolves_onCopy fun copy found => ?_
      refine evolves_perform ((cancel_takes found).mono ?_)
      rintro result next ⟨taken, owned⟩ value ok
      refine .step (.close id) ⟨env, owner, reason, rfl, ?_⟩ (taken value ok)
      simp [show db.requests.row id = some copy from found, owned value ok]
  | reopen env owner id =>
      refine evolves_onCopy fun copy found => evolves_of_triage ?_
      refine Request.emits_atomic.mpr (.seq ?_ (by simp))
      refine .seq (by simp) fun _ => .seq (by simp) fun _ => ?_
      refine .seq (transition_triaging found rfl rfl) fun opened => ?_
      simp [triaging]
  | expireDue env =>
      refine evolves_perform ((expireDue_triage env).mono ?_)
      exact fun _ _ triage _ _ => .step .triage trivial triage

theorem offer_evolves (call : OfferCall) :
    (Operation.offer call).Evolves db (call.call.run db).2 := by
  cases call with
  | accept env student id =>
      exact evolves_of_accepts (accept_takes env student id)
  | _ =>
      refine evolves_of_idle ?_
      simp [OfferCall.call, OfferCall.onOffer, Call.get, Call.exec,
        Bidding.submit, Bidding.updateOffer, Bidding.withdraw,
        Bidding.resubmit, Bidding.decline, Bidding.expertGuard,
        Bidding.limitGuard, Bidding.saveOfferCount, Tx.create, idle, Stmt.table]

theorem managed_evolves (call : ManagedCall) :
    (Operation.managed call).Evolves db (call.call.run db).2 := by
  cases call with
  | approvePool env admin id expertIds quoteAmount =>
      refine evolves_onCopy fun copy found => evolves_of_triage ?_
      refine Request.emits_atomic.mpr (.seq ?_ (by simp))
      refine .seq (by simp) fun _ => .seq (by simp) fun _ => ?_
      refine .seq (by simp) fun _ => .seq (by simp) fun _ => ?_
      refine .seq (by simp) fun _ => .seq (by simp [triaging]) fun _ => ?_
      refine .seq (transition_triaging found rfl rfl) fun pooled => ?_
      simp [Assignments.inviteAll, Tx.create, triaging, idle, Stmt.table]
  | rejectManaged env admin id reason =>
      refine evolves_onCopy fun copy found => evolves_of_triage ?_
      refine Request.emits_atomic.mpr (.seq ?_ (by simp))
      refine .seq (by simp) fun _ => .seq (by simp) fun _ => ?_
      refine .seq (by simp) fun _ => .seq (by simp [triaging]) fun _ => ?_
      refine .seq (by simp [triaging, idle, Stmt.table]) fun _ => ?_
      exact transition_triaging found rfl rfl
  | acceptInvitation env expert id expectedAmount =>
      refine evolves_onCopy fun copy found => ?_
      exact evolves_of_accepts (acceptInvitation_takes ..)
  | acceptDirect env expert id =>
      refine evolves_onCopy fun copy found => ?_
      exact evolves_of_accepts (acceptDirect_takes ..)
  | _ =>
      refine evolves_of_idle ?_
      simp [ManagedCall.call, Call.performOn, Call.perform, Call.get,
        Assignments.assignDirect, Assignments.supersedeDirect,
        Assignments.setQuote, Assignments.declineInvitation,
        Assignments.declineDirect, Assignments.expireDue,
        Assignments.expertGuard, Tx.create, idle, Stmt.table]

/-! ## Orders, payments and disputes -/

theorem order_evolves (call : OrderCall) :
    (Operation.order call).Evolves db (call.call.run db).2 := by
  cases call with
  | submitDelivery env id expert summary attachments =>
      exact evolves_of_takes (.deliver id) trivial
        (Orders.submitDelivery_takes env id expert summary attachments)
  | requestRevision env id student note =>
      exact evolves_of_takes (.revise id) trivial
        (Orders.requestRevision_takes env id student note)
  | approveDelivery env id actor source =>
      exact evolves_of_takes (.approve id) trivial
        (Orders.approveDelivery_takes env id actor source)
  | cancel env id actor reason =>
      refine evolves_perform ((Orders.cancel_takes ..).mono ?_)
      rintro result next ⟨taken, entitled⟩ value ok
      exact .step (.cancel id) ⟨env, actor, reason, rfl, entitled value ok⟩
        (taken value ok)
  | autoApproveDue env =>
      obtain ⟨events, steps, all⟩ := Orders.autoApproveDue_takes env
      refine .jobs steps fun event member => ?_
      obtain ⟨id, rfl⟩ := all event member
      exact ⟨trivial, trivial⟩
  | sweepUnpaid env =>
      refine evolves_perform ((Orders.sweepUnpaid_takes env).mono ?_)
      intro result next swept count ok
      obtain ⟨events, steps, all⟩ := (swept count ok).steps
      refine .jobs steps fun event member => ?_
      obtain ⟨id, rfl, due⟩ := all event member
      exact ⟨trivial, env, rfl, due⟩
  | awaitingPaymentSweeper => exact .same rfl
  | _ =>
      refine evolves_of_idle (OrderCall.Deadlines.emits (fun stmt table => ?_)
        (fun _ _ _ _ => ?_) (fun _ _ _ => rfl) trivial)
      · cases stmt <;> simp_all [Stmt.table, idle]
      · simp [idle, Stmt.table]

theorem payment_evolves (call : PaymentCall) :
    (Operation.payment call).Evolves db (call.call.run db).2 := by
  cases call with
  | confirmPayment env id =>
      exact evolves_of_leads (.pay id) trivial
        (Payments.confirmPayment_leads env id)
  | confirmOrderPayment env id =>
      refine evolves_onCopy fun copy _ => ?_
      exact evolves_of_leads (.pay id) trivial
        (Payments.confirmOrderPayment_leads env id copy)
  | devConfirm env id actor =>
      refine evolves_onCopy fun copy _ => ?_
      exact evolves_of_leads (.pay id) trivial
        (Payments.devConfirm_leads env id copy actor)
  | ingest env provider verified =>
      refine evolves_perform ((Webhooks.ingest_confirms ..).mono ?_)
      rintro result next ⟨id, leads⟩ _ _
      exact evolves_of_leads (.pay id) trivial leads
  | redeliver env eventId =>
      refine evolves_onCopy fun copy _ => ?_
      refine evolves_perform ((Webhooks.redeliver_confirms ..).mono ?_)
      rintro result next ⟨id, leads⟩ _ _
      exact evolves_of_leads (.pay id) trivial leads
  | payoutSweeper env =>
      refine evolves_of_idle (.seq (by simp) fun due => ?_)
      refine Request.emits_forEach fun item _ => ?_
      simp [Payments.schedulePayout, Tx.create, idle, Stmt.table]
  | _ =>
      refine evolves_of_idle ?_
      simp [PaymentCall.call, Call.performOn, Call.perform, Call.get, Call.exec,
        Payments.startPayment, Payments.createPaymentRow,
        Payments.voidPaymentForOrder, Payments.issueRefund,
        Payments.getForUpdate, Payments.ledger, Payments.schedulePayout,
        Payments.settlePayout, Payments.markPayoutFailed,
        Payments.getPayoutForUpdate, Orders.getForUpdate, Tx.getForUpdate,
        Tx.get, Tx.create, idle, Stmt.table]

theorem dispute_evolves (call : DisputeCall) :
    (Operation.dispute call).Evolves db (call.call.run db).2 := by
  cases call with
  | openDispute env id actor reason description evidence =>
      exact evolves_of_takes (.openDispute id) trivial
        (Disputes.openDispute_takes env id actor reason description evidence)
  | takeCase id actor | awaitResponse id actor | resumeReview id actor =>
      refine evolves_onCopy fun copy found => ?_
      exact evolves_of_takes (.review id) trivial
        (Disputes.transition_takes found (by simp))
  | resolve env id actor outcome notes amount =>
      refine evolves_onCopy fun copy found => ?_
      refine evolves_perform ((Disputes.resolve_takes found).mono ?_)
      rintro result next ⟨taken, staff⟩ value ok
      exact .step (.resolve id _)
        ⟨env, actor, outcome, notes, amount, copy, rfl, found, rfl,
          staff value ok⟩ (taken value ok)
  | close env id actor =>
      refine evolves_onCopy fun copy found => ?_
      exact evolves_of_takes (.review id) trivial (Disputes.close_takes found)

/-- Operations take the business steps that they cause. -/
theorem evolves (operation : Operation) (db : Db) :
    operation.Evolves db (operation.after db) := by
  cases operation with
  | request call => exact request_evolves call
  | offer call => exact offer_evolves call
  | managed call => exact managed_evolves call
  | order call => exact order_evolves call
  | payment call => exact payment_evolves call
  | dispute call => exact dispute_evolves call

end Operation

end KnowledgeMarketplace
