import KnowledgeMarketplace.Disputes.Rules
import KnowledgeMarketplace.Operations
import KnowledgeMarketplace.Orders.Rules
import KnowledgeMarketplace.Payments.Rules

/-!
# Routine operations

Most operations write neither payments nor the ledger, and leave what was
booked on an order alone.  `Catalog` lists what the plain ones write; the other
routine operations also schedule payouts or mark them as failed.
-/

namespace KnowledgeMarketplace

open Transaction

/-- Routine statements are good. -/
structure Routine (good : Effect Stmt → Prop) : Prop where
  elsewhere : ∀ stmt,
    stmt.table ∉ [.orders, .payments, .ledger, .conversations] →
      good (.write stmt)
  created : ∀ id order, order.Balanced → good (.write (.insertOrder id order))
  saved : ∀ id set, KeepsBooking set → good (.write (.saveOrder id set))

/-- The statements of plain operations are good. -/
structure Catalog (good : Effect Stmt → Prop) : Prop where
  elsewhere : ∀ stmt,
    stmt.table ∉ [.orders, .payments, .refunds, .payouts, .ledger,
      .conversations] → good (.write stmt)
  created : ∀ id order, order.New → good (.write (.insertOrder id order))
  saved : ∀ id set, KeepsTerms set → good (.write (.saveOrder id set))
  frozen : ∀ id, good (.write (.saveOrder id fun stored =>
    { stored with hasOpenDispute := true }))

/-- The statements of work on orders and disputes are good. -/
structure Workflow (good : Effect Stmt → Prop) : Prop where
  elsewhere : ∀ stmt,
    stmt.table ∉ [.requests, .offers, .invitations, .assignments, .orders,
      .payments, .refunds, .payouts, .ledger, .conversations] →
        good (.write stmt)
  moved : ∀ env id request toStatus reason,
    (ServiceRequests.transition env id request toStatus reason).Emits good
      fun _ => True
  saved : ∀ id set, KeepsTerms set → good (.write (.saveOrder id set))
  frozen : ∀ id, good (.write (.saveOrder id fun stored =>
    { stored with hasOpenDispute := true }))

/-- The events that the jobs of the worker mark orders with. -/
def jobMarks : List OrderEventType :=
  [.deadlineReminded, .autoApproveWarned, .overdueFlagged]

/-- The statements on orders are good, but those on dates, ends and of jobs. -/
structure Ordering (good : Effect Stmt → Prop) : Prop where
  elsewhere : ∀ stmt,
    stmt.table ∉ [.requests, .offers, .invitations, .assignments, .orders,
      .orderEvents, .payments, .refunds, .payouts, .ledger,
      .conversations] → good (.write stmt)
  moved : ∀ env id request toStatus reason,
    (ServiceRequests.transition env id request toStatus reason).Emits good
      fun _ => True
  saved : ∀ id set, OrderSave set → good (.write (.saveOrder id set))
  told : ∀ event, event.eventType ∉ jobMarks → good (.write (.recordEvent event))

/-- The work on orders includes what is said of them in particular. -/
theorem Workflow.ordering
    {good : Effect Stmt → Prop} (workflow : Workflow good) : Ordering good where
  elsewhere stmt other := workflow.elsewhere stmt (by simp_all)
  moved := workflow.moved
  saved id set save := by
    rcases save.keepsTerms with keeps | rfl
    · exact workflow.saved id set keeps
    · exact workflow.frozen id
  told event _ := workflow.elsewhere _ (by simp [Stmt.table])

/-- It includes the end of an order. -/
theorem Workflow.ended
    {good : Effect Stmt → Prop} (workflow : Workflow good) (id : OrderId)
    (set : Order → Order) (save : OrderEnd set) :
    good (.write (.saveOrder id set)) :=
  workflow.saved id set save.keepsTerms

/-- It includes the approval of a delivery. -/
theorem Workflow.completed
    {good : Effect Stmt → Prop} (workflow : Workflow good) (id : OrderId)
    (now : Time) : good (.write (.saveOrder id fun stored =>
      { stored with completedAt := some now, autoApproveAt := none })) :=
  workflow.saved _ _ (by simp [keepsTerms_iff])

/-- The statements that select an expert and found an order are good. -/
structure Founding (good : Effect Stmt → Prop) : Prop where
  matched : ∀ stmt, stmt.table = .requests ∨ stmt.table = .offers ∨
    stmt.table = .invitations ∨ stmt.table = .assignments → good (.write stmt)
  created : ∀ id order, order.New → order.autoApproveAt = none →
    order.deliveryDueAt = none → good (.write (.insertOrder id order))
  told : ∀ id, good (.write (.recordEvent { order := id, eventType := .created }))

theorem Catalog.founding
    {good : Effect Stmt → Prop} (catalog : Catalog good) : Founding good where
  matched stmt table := catalog.elsewhere stmt (by
    rcases table with table | table | table | table <;> simp [table])
  created id order new _ _ := catalog.created id order new
  told _ := catalog.elsewhere _ (by simp [Stmt.table])

/-- The statements of plain operations include those of the work on orders. -/
theorem Catalog.workflow
    {good : Effect Stmt → Prop} (catalog : Catalog good) : Workflow good where
  elsewhere stmt other := catalog.elsewhere stmt (by simp_all)
  moved _ _ _ _ _ := by
    simp [ServiceRequests.transition, catalog.elsewhere, Stmt.table]
  saved := catalog.saved
  frozen := catalog.frozen

/-- Routine statements include those of plain operations. -/
theorem Routine.catalog
    {good : Effect Stmt → Prop} (routine : Routine good) : Catalog good where
  elsewhere stmt other := routine.elsewhere stmt (by simp_all)
  created id order new := routine.created id order new.balanced
  saved id set keeps := routine.saved id set keeps.keepsBooking
  frozen id := routine.saved id _ (by simp [keepsBooking_iff])

/-- Operations that only have routine effects. -/
def Operation.IsRoutine : Operation → Prop
  | .request _ | .offer _ | .managed _ => True
  | .order (.cancel _ _ _ _) => False
  | .order _ => True
  | .payment (.schedulePayout _ _) | .payment (.markPayoutFailed _ _ _)
  | .payment (.payoutSweeper _) | .payment (.configure _) => True
  | .payment _ => False
  | .dispute (.resolve _ _ _ _ _ _) => False
  | .dispute _ => True

/-- The operations on requests, offers, invitations and assignments. -/
def Operation.Triages : Operation → Prop
  | .request _ | .offer _ | .managed _ => True
  | _ => False

/-- The operations that select an expert and create an order. -/
def Operation.Converges : Operation → Prop
  | .offer (.accept _ _ _) | .managed (.acceptInvitation _ _ _ _)
  | .managed (.acceptDirect _ _ _) => True
  | _ => False

/-- The routine operations that schedule payouts. -/
def Operation.Schedules : Operation → Prop
  | .order (.approveDelivery _ _ _ _) | .order (.autoApproveDue _)
  | .payment (.schedulePayout _ _) | .payment (.payoutSweeper _) => True
  | _ => False

/-- The operations that approve deliveries. -/
def Operation.Approves : Operation → Prop
  | .order (.approveDelivery _ _ _ _) | .order (.autoApproveDue _) => True
  | _ => False

/-- The operations that end orders without completing them. -/
def Operation.Ends : Operation → Prop
  | .order (.cancel _ _ _ _) | .order (.sweepUnpaid _) => True
  | _ => False

/-- The routine operation that marks a payout as failed. -/
def Operation.FailsPayout : Operation → Prop
  | .payment (.markPayoutFailed _ _ _) => True
  | _ => False

section

variable {good : Effect Stmt → Prop}

/-! ## Matching a request -/

/-- The factory books a balanced order. -/
theorem createOrderForRequest_plain
    (founding : Founding good)
    (env : Env) (id : RequestId) (request : ServiceRequest) (expert : UserId)
    (amount : Option Int) (currency : String) (source : OrderSource)
    (offerId : Option OfferId) :
    (Orders.createOrderForRequest env id request expert amount currency source
      offerId).Emits good fun _ => True := by
  refine .seq (by simp) fun _ => .seq (by simp) fun rate => ?_
  refine .seq (by simp) fun amount => .seq ?_ fun _ => ?_
  · refine .seq (by simp) fun _ => .seq (by simp) fun _ => ?_
    refine .seq (by simp) fun _ => ?_
    exact Prog.emits_exec.mpr
      ⟨founding.created _ _ ⟨commissionSplit_sum amount rate, rfl, rfl, rfl, rfl, rfl⟩ rfl
        rfl, trivial⟩
  · simp [Orders.recordEvent, founding.told]

/-- The locked request is matched and its order created. -/
theorem converge_plain
    (founding : Founding good)
    (env : Env) (id : RequestId) (request : ServiceRequest)
    (expert : UserId) (amount : ServiceRequest → Option Int)
    (currency : ServiceRequest → String) (source : OrderSource)
    (offerId : Option OfferId) :
    (do
      let matched ← ServiceRequests.markMatched env id request
      Orders.createOrderForRequest env id matched expert (amount matched)
        (currency matched) source offerId : Tx OrderId).Emits good
      fun _ => True := by
  refine .seq ?_ fun matched => createOrderForRequest_plain founding ..
  simp [ServiceRequests.markMatched, ServiceRequests.transition,
    founding.matched, Stmt.table]

/-- Before there is an order, only requests and responses to them are written. -/
theorem Operation.Triages.emits
    (triage : ∀ stmt, stmt.table = .requests ∨ stmt.table = .offers ∨
      stmt.table = .invitations ∨ stmt.table = .assignments →
        good (.write stmt))
    {operation : Operation} (triages : operation.Triages)
    (other : ¬operation.Converges) :
    operation.call.Emits good fun _ => True := by
  cases operation with
  | request call =>
      cases call <;>
        simp [Operation.call, RequestCall.call, Call.performOn, Call.perform,
          Call.get, Call.exec, ServiceRequests.createRequest,
          ServiceRequests.updateDraft, ServiceRequests.publish,
          ServiceRequests.cancel, ServiceRequests.reopen,
          ServiceRequests.expireDue, ServiceRequests.transition, Tx.create,
          triage, Stmt.table]
  | offer call =>
      cases call with
      | accept env student offer => exact absurd trivial other
      | _ =>
        simp [Operation.call, OfferCall.call, OfferCall.onOffer, Call.get,
          Call.exec, Bidding.submit, Bidding.updateOffer, Bidding.withdraw,
          Bidding.resubmit, Bidding.decline, Bidding.expertGuard,
          Bidding.limitGuard, Bidding.saveOfferCount, Tx.create, triage,
          Stmt.table]
  | managed call =>
      cases call with
      | acceptInvitation env expert id amount => exact absurd trivial other
      | acceptDirect env expert id => exact absurd trivial other
      | _ =>
        simp [Operation.call, ManagedCall.call, Call.performOn, Call.perform,
          Call.get, Assignments.approvePool, Assignments.assignDirect,
          Assignments.supersedeDirect, Assignments.setQuote,
          Assignments.rejectManaged, Assignments.declineInvitation,
          Assignments.declineDirect, Assignments.expireDue,
          Assignments.inviteAll, Assignments.expertGuard, Tx.create,
          ServiceRequests.transition, triage, Stmt.table]
  | _ => exact triages.elim

/-- Selecting an expert founds an order. -/
theorem Operation.Converges.emits
    (founding : Founding good) {operation : Operation}
    (converges : operation.Converges) :
    operation.call.Emits good fun _ => True := by
  rcases operation with _ | call | call | _ | _ | _ <;>
    try exact converges.elim
  · cases call with
    | accept env student offer =>
        refine Request.emits_atomic.mpr (.seq ?_ (by simp))
        refine .seq (by simp [Bidding.getForUpdate, Tx.getForUpdate, Tx.get])
          fun found => .seq ?_ fun request => .seq (by simp) fun _ => ?_
        · simp [Bidding.getRequestForUpdate, Tx.getForUpdate, Tx.get]
        refine .seq (by simp) fun _ => .seq (by simp) fun _ => ?_
        refine .seq (by simp) fun _ => .seq (by simp) fun _ => ?_
        refine .seq (by simp) fun _ => .seq ?_ fun _ => .seq ?_ fun _ => ?_
        · simp [founding.matched, Stmt.table]
        · simp [Bidding.declineSiblings, founding.matched, Stmt.table]
        · exact converge_plain founding ..
    | _ => exact converges.elim
  · cases call with
    | acceptInvitation env expert id amount =>
        refine .seq (by simp [Call.get]) fun copy =>
          Request.emits_atomic.mpr (.seq ?_ (by simp))
        refine .seq (by simp [Assignments.expertGuard]) fun _ => ?_
        refine .seq (by simp) fun _ => .seq ?_ fun found => .seq ?_ fun request => ?_
        · simp [Assignments.getInvitationForUpdate, Tx.getForUpdate, Tx.get]
        · simp [Bidding.getRequestForUpdate, Tx.getForUpdate, Tx.get]
        refine .seq (by simp) fun _ => .seq ?_ fun _ => .seq ?_ fun _ => ?_
        · simp [Assignments.matchedGuard]
        · simp [founding.matched, Stmt.table]
        refine .seq ?_ fun _ => converge_plain founding env found.request request
          expert.id (·.quoteAmount) (·.currency) .managedPool none
        simp [Assignments.declineOthers, founding.matched, Stmt.table]
    | acceptDirect env expert id =>
        refine .seq (by simp [Call.get]) fun copy =>
          Request.emits_atomic.mpr (.seq ?_ (by simp))
        refine .seq (by simp [Assignments.expertGuard]) fun _ => ?_
        refine .seq (by simp) fun _ => .seq ?_ fun found => .seq ?_ fun request => ?_
        · simp [Assignments.getAssignmentForUpdate, Tx.getForUpdate, Tx.get]
        · simp [Bidding.getRequestForUpdate, Tx.getForUpdate, Tx.get]
        refine .seq (by simp) fun _ => .seq ?_ fun _ => .seq ?_ fun _ => ?_
        · simp [Assignments.matchedGuard]
        · simp [founding.matched, Stmt.table]
        · exact converge_plain founding ..
    | _ => exact converges.elim

/-! ## Work on orders and disputes -/

/-- Approving a delivery schedules a payout. -/
theorem approveDelivery_works
    (ordering : Ordering good)
    (completed : ∀ id now, good (.write (.saveOrder id fun stored =>
      { stored with completedAt := some now, autoApproveAt := none })))
    (scheduled : ∀ id payout, payout.status = .scheduled →
      good (.write (.insertPayout id payout)))
    (env : Env) (id : OrderId) (actor : Option Actor)
    (source : ApprovalSource) :
    (Orders.approveDelivery env id actor source).Emits good fun _ => True :=
  Orders.approveDelivery_emits
    (fun _ _ => ordering.elsewhere _ (by simp [Stmt.table]))
    (fun value _ listed => ordering.told value fun marks => by
      simp only [jobMarks, List.mem_cons, List.not_mem_nil, or_false] at listed marks
      rcases listed with type | type | type <;> simp [type] at marks)
    (completed _ _)
    (fun _ => ordering.saved _ _ (.status _))
    (fun _ _ => ordering.moved _ _ _ _ _)
    (fun _ status => scheduled _ _ status)

/-- The operation submits a delivery. -/
def Operation.Delivers : Operation → Prop
  | .order (.submitDelivery _ _ _ _ _) => True
  | _ => False

/-- What a delivery writes. -/
theorem Operation.Delivers.emits
    (inserted : ∀ key delivery, good (.write (.insertDelivery key delivery)))
    (saved : ∀ id now, good (.write (.saveOrder id fun stored =>
      { stored with
        deliveredAt := some now
        autoApproveAt := some (now + hours Orders.autoApproveHours)
        deliveryDueAt := none })))
    (moved : ∀ id, good (.write (.saveOrder id fun stored =>
      { stored with status := .delivered })))
    (told : ∀ event, event.eventType ∈ [.delivered, .redelivered] →
      good (.write (.recordEvent event)))
    {operation : Operation} (delivers : operation.Delivers) :
    operation.call.Emits good fun _ => True := by
  rcases operation with _ | _ | _ | call | _ | _ <;> try exact delivers.elim
  cases call with
  | submitDelivery env id expert summary attachments =>
      have either : ∀ (first : Prop) [Decidable first] actor,
          good (.write (.recordEvent
            { order := id
              eventType := if first then .delivered else .redelivered
              actor })) :=
        fun _ _ _ => told _ (by split <;> simp)
      simp [Operation.call, OrderCall.call, Call.perform,
        Orders.submitDelivery, Orders.transition, Orders.getForUpdate,
        Orders.recordEvent, Tx.get, Tx.getForUpdate, Tx.create, inserted, saved,
        moved, either]
  | _ => exact delivers.elim

/-- The operation gives an order a new due date, or declines to. -/
def Operation.Extends : Operation → Prop
  | .order (.requestRevision _ _ _ _)
  | .order (.respondDeadlineProposal _ _ _) => True
  | _ => False

/-- What a revision and the answer to a proposal write. -/
theorem Operation.Extends.emits
    (delivery : ∀ key set, good (.write (.saveDelivery key set)))
    (proposal : ∀ id set, good (.write (.saveDeadlineProposal id set)))
    (revised : ∀ id used due, good (.write (.saveOrder id fun stored =>
      { stored with
        revisionsUsed := used
        autoApproveAt := none
        deliveryDueAt := some due })))
    (extended : ∀ id due, good (.write (.saveOrder id fun stored =>
      { stored with deliveryDueAt := some due })))
    (moved : ∀ id, good (.write (.saveOrder id fun stored =>
      { stored with status := .revisionRequested })))
    (told : ∀ event, event.eventType ∈ [.revisionRequested, .deadlineExtended] →
      good (.write (.recordEvent event)))
    {operation : Operation} (extending : operation.Extends) :
    operation.call.Emits good fun _ => True := by
  rcases operation with _ | _ | _ | call | _ | _ <;> try exact extending.elim
  cases call with
  | requestRevision | respondDeadlineProposal =>
      simp [Operation.call, OrderCall.call, Call.perform,
        Orders.requestRevision, Orders.respondDeadlineProposal,
        Orders.transition, Orders.getForUpdate, Orders.recordEvent, Tx.get,
        Tx.getForUpdate, delivery, proposal, revised, extended, moved, told]
  | _ => exact extending.elim

/-- The jobs that mark orders. -/
def Operation.Marks : Operation → Prop
  | .order (.deadlineReminder _) | .order (.autoApproveWarning _)
  | .order (.flagOverdue _) => True
  | _ => False

/-- What the jobs mark orders with. -/
theorem Operation.Marks.emits
    (marked : ∀ id eventType, eventType ∈ jobMarks →
      good (.write (.recordEvent { order := id, eventType })))
    {operation : Operation} (marks : operation.Marks) :
    operation.call.Emits good fun _ => True := by
  have once : ∀ eventType due, eventType ∈ jobMarks →
      (Orders.markOnce eventType due).Emits good fun _ => True := by
    intro eventType due listed
    refine .seq (by simp) fun orders => .seq ?_ (by simp)
    refine Request.emits_forEach fun id _ => ?_
    simpa [Call.exec] using marked id eventType listed
  rcases operation with _ | _ | _ | call | _ | _ <;> try exact marks.elim
  cases call with
  | deadlineReminder env =>
      exact .seq (once _ _ (by simp [jobMarks])) (by simp)
  | autoApproveWarning env =>
      exact .seq (once _ _ (by simp [jobMarks])) (by simp)
  | flagOverdue env => exact .seq (once _ _ (by simp [jobMarks])) (by simp)
  | _ => exact marks.elim

/-- The work on orders that is told apart: due dates and the jobs that mark. -/
def Operation.Apart (operation : Operation) : Prop :=
  operation.Delivers ∨ operation.Extends ∨ operation.Marks

theorem Workflow.apart
    (workflow : Workflow good) {operation : Operation}
    (apart : operation.Apart) : operation.call.Emits good fun _ => True := by
  rcases apart with delivers | extending | marks
  · exact delivers.emits
      (fun _ _ => workflow.elsewhere _ (by simp [Stmt.table]))
      (fun _ _ => workflow.saved _ _ (by simp [keepsTerms_iff]))
      (fun _ => workflow.saved _ _ (by simp [keepsTerms_iff]))
      fun _ _ => workflow.elsewhere _ (by simp [Stmt.table])
  · exact extending.emits
      (fun _ _ => workflow.elsewhere _ (by simp [Stmt.table]))
      (fun _ _ => workflow.elsewhere _ (by simp [Stmt.table]))
      (fun _ _ _ => workflow.saved _ _ (by simp [keepsTerms_iff]))
      (fun _ _ => workflow.saved _ _ (by simp [keepsTerms_iff]))
      (fun _ => workflow.saved _ _ (by simp [keepsTerms_iff]))
      fun _ _ => workflow.elsewhere _ (by simp [Stmt.table])
  · exact marks.emits fun _ _ _ => workflow.elsewhere _ (by simp [Stmt.table])

theorem orderCall_works
    (ordering : Ordering good) {call : OrderCall}
    (ended : (Operation.order call).Ends → ∀ id set, OrderEnd set →
      good (.write (.saveOrder id set)))
    (apart : (Operation.order call).Apart → call.call.Emits good fun _ => True)
    (routine : (Operation.order call).IsRoutine)
    (other : ¬(Operation.order call).Schedules) :
    call.call.Emits good fun _ => True := by
  cases call with
  | cancel env id actor reason => exact routine.elim
  | approveDelivery env id actor source => exact absurd trivial other
  | autoApproveDue env => exact absurd trivial other
  | submitDelivery => exact apart (.inl trivial)
  | requestRevision | respondDeadlineProposal =>
      exact apart (.inr (.inl trivial))
  | deadlineReminder | autoApproveWarning | flagOverdue =>
      exact apart (.inr (.inr trivial))
  | sweepUnpaid env =>
      refine Request.emits_atomic.mpr (.seq (.seq (by simp) fun stale => ?_) ?_)
      · refine .seq (Prog.emits_forEach (fun id _ => ?_) trivial) (by simp)
        simp [ended trivial, Orders.cancelUnpaid, Orders.transition, Orders.getForUpdate,
          Orders.recordEvent, Tx.getForUpdate, Tx.get, ordering.told,
          ordering.saved, jobMarks]
      · exact fun _ => trivial
  | _ =>
      simp [OrderCall.call, Call.perform, Orders.awaitingPaymentSweeper,
        Orders.proposeDeadline, Orders.getForUpdate, Orders.recordEvent, Tx.get,
        Tx.getForUpdate, Tx.create, ordering.elsewhere, ordering.told, jobMarks,
        Stmt.table]

theorem disputeCall_works
    (ordering : Ordering good) {call : DisputeCall}
    (routine : (Operation.dispute call).IsRoutine) :
    call.call.Emits good fun _ => True := by
  cases call with
  | resolve env id actor outcome notes amount => exact routine.elim
  | _ =>
      simp [DisputeCall.call, DisputeCall.onDispute, Call.performOn,
        Call.perform, Call.get, Disputes.openDispute, Disputes.freeze,
        Disputes.takeCase, Disputes.awaitResponse, Disputes.resumeReview,
        Disputes.close, Disputes.transition, Orders.transition,
        Orders.getForUpdate, Orders.recordEvent, Tx.get, Tx.getForUpdate,
        Tx.create, ordering.elsewhere, ordering.saved, ordering.told, jobMarks,
        Stmt.table]

/-- Triage of requests, and everything before there is an order. -/
theorem Catalog.triage
    (catalog : Catalog good) {operation : Operation}
    (triages : operation.Triages) : operation.call.Emits good fun _ => True := by
  by_cases converges : operation.Converges
  · exact converges.emits catalog.founding
  · refine triages.emits (fun stmt table => catalog.elsewhere stmt ?_) converges
    rcases table with table | table | table | table <;> simp [table]

/-- Routine operations that write no payouts. -/
theorem Operation.IsRoutine.works
    (ordering : Ordering good) {operation : Operation}
    (ended : operation.Ends → ∀ id set, OrderEnd set →
      good (.write (.saveOrder id set)))
    (apart : operation.Apart → operation.call.Emits good fun _ => True)
    (triaged : operation.Triages → operation.call.Emits good fun _ => True)
    (routine : operation.IsRoutine) (unscheduled : ¬operation.Schedules)
    (unfailed : ¬operation.FailsPayout) :
    operation.call.Emits good fun _ => True := by
  cases operation with
  | request call | offer call | managed call => exact triaged trivial
  | order call => exact orderCall_works ordering ended apart routine unscheduled
  | payment call =>
      cases call with
      | configure config =>
          simp [Operation.call, PaymentCall.call, Call.exec,
            ordering.elsewhere, Stmt.table]
      | _ => first
          | exact routine.elim
          | exact absurd trivial unscheduled
          | exact absurd trivial unfailed
  | dispute call => exact disputeCall_works ordering routine

/-- The operations that schedule payouts also insert them. -/
theorem Operation.Schedules.emits
    {operation : Operation} (ordering : Ordering good)
    (completed : operation.Approves → ∀ id now,
      good (.write (.saveOrder id fun stored =>
        { stored with completedAt := some now, autoApproveAt := none })))
    (scheduled : ∀ id payout, payout.status = .scheduled →
      good (.write (.insertPayout id payout)))
    (schedules : operation.Schedules) :
    operation.call.Emits good fun _ => True := by
  rcases operation with _ | _ | _ | call | call | _ <;>
    try exact schedules.elim
  · cases call with
    | approveDelivery env id actor source =>
        have approve := approveDelivery_works ordering (completed trivial)
          scheduled env id actor source
        exact Request.emits_atomic.mpr (.seq approve (by simp))
    | autoApproveDue env =>
        have single : ∀ env id,
            (Orders.autoApproveOne env id).Emits good fun _ => True := by
          intro env id
          refine .seq (by simp [Orders.getForUpdate, Tx.getForUpdate, Tx.get]) ?_
          intro order
          simpa using fun _ _ => approveDelivery_works ordering
            (completed trivial) scheduled env id none .auto
        refine .seq (by simp) fun due => Request.emits_forEach fun item _ => ?_
        refine Request.emits_tryCatch.mpr (Request.Emits.mono
          (Request.emits_atomic.mpr (single _ item.1)) ?_)
        rintro (error | value) _
        · cases error <;> simp
        · trivial
    | _ => exact schedules.elim
  · cases call with
    | schedulePayout env id =>
        simp [Operation.call, PaymentCall.call, Call.performOn, Call.perform,
          Call.get, Payments.schedulePayout, Tx.create, scheduled]
    | payoutSweeper env =>
        refine .seq (by simp) fun due => Request.emits_forEach fun item _ => ?_
        simp [Payments.schedulePayout, Tx.create, scheduled]
    | _ => exact schedules.elim

/-- Marking a payout as failed saves the payout. -/
theorem Operation.FailsPayout.emits
    (failed : ∀ id reason, good (.write (.savePayout id fun stored =>
      { stored with status := .failed, failureReason := clip 255 reason })))
    {operation : Operation} (fails : operation.FailsPayout) :
    operation.call.Emits good fun _ => True := by
  rcases operation with _ | _ | _ | _ | call | _ <;> try exact fails.elim
  cases call with
  | markPayoutFailed id actor reason =>
      simp [Operation.call, PaymentCall.call, Call.perform,
        Payments.markPayoutFailed, Payments.getPayoutForUpdate,
        Tx.getForUpdate, Tx.get, failed]
  | _ => exact fails.elim

/-- Routine operations have routine effects. -/
theorem Operation.IsRoutine.emits
    (routine : Routine good) {operation : Operation}
    (other : operation.IsRoutine) :
    operation.call.Emits good fun _ => True := by
  by_cases schedules : operation.Schedules
  · exact schedules.emits routine.catalog.workflow.ordering
      (fun _ => routine.catalog.workflow.completed)
      fun _ _ _ => routine.elsewhere _ (by simp [Stmt.table])
  by_cases fails : operation.FailsPayout
  · exact fails.emits fun _ _ => routine.elsewhere _ (by simp [Stmt.table])
  exact other.works routine.catalog.workflow.ordering
    (fun _ => routine.catalog.workflow.ended) routine.catalog.workflow.apart routine.catalog.triage schedules fails

end

end KnowledgeMarketplace
