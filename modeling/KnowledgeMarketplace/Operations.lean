import KnowledgeMarketplace.Assignments.Services
import KnowledgeMarketplace.Bidding.Services
import KnowledgeMarketplace.Disputes.Services
import KnowledgeMarketplace.Orders.Deadlines
import KnowledgeMarketplace.Transaction.Looks

/-!
# Operations

Everything a client, the worker or an operator can ask the marketplace to do.
An operation first reads the row that its view or page loads, then runs the
service on that copy.
-/

namespace KnowledgeMarketplace

open Transaction

/-- Run a service in a transaction of its own and drop its value. -/
def Call.perform {α : Type} (service : Tx α) : Call Unit :=
  Call.atomic do
    let _ ← service
    return ()

/-- Read a row, then perform a service on that copy. -/
def Call.performOn {ρ α : Type}
    (find : Db → Option ρ) (model : String) (service : ρ → Tx α) :
    Call Unit := do
  let copy ← Call.get find model
  Call.perform (service copy)

/-- Performing a service succeeds by its commit. -/
theorem Call.byCommit_performOn {ρ α : Type}
    (find : Db → Option ρ) (model : String) (service : ρ → Tx α) :
    Proc.ByCommit (Call.performOn find model service) := by
  intro db
  change Proc.ByCommit (Proc.bind (Call.orFail (find db) _) _)
  cases find db with
  | none => exact trivial
  | some copy => exact Request.byCommit_atomic _

/-- A service that finishes well is performed safely. -/
theorem Call.perform_safe
    {α : Type} {service : Tx α} {protocol : Protocol Db Row Stmt}
    {guarantee : List Stmt → Db → Prop}
    (finishes : service.wp protocol .start (Ctx.Finishes protocol guarantee)) :
    (Call.perform service).Safe protocol guarantee := by
  refine Request.wp_atomic.mpr (Prog.wp_bind.mpr (Prog.wp_mono finishes ?_))
  rintro (error | value) later allowed
  · trivial
  · exact ⟨allowed, trivial⟩

/-- The same on a copy that is read first. -/
theorem Call.performOn_safe
    {α ρ : Type} {find : Db → Option ρ} {model : String} {service : ρ → Tx α}
    {protocol : Protocol Db Row Stmt} {guarantee : List Stmt → Db → Prop}
    (finishes : ∀ copy,
      (service copy).wp protocol .start (Ctx.Finishes protocol guarantee)) :
    (Call.performOn find model service).Safe protocol guarantee := by
  simp only [Call.performOn, Call.get, Request.Safe, Request.wp_bind,
    Request.wp_load, Request.wp_orFail, Ctx.start_observe, implies_true,
    and_true]
  exact fun _ _ _ copy _ => Call.perform_safe (finishes copy)

/-- The same if the guarantee depends on the state that the copy is read in. -/
theorem Call.performOn_looks
    {α ρ : Type} {find : Db → Option ρ} {model : String} {service : ρ → Tx α}
    {protocol : Protocol Db Row Stmt} {guarantee : Db → List Stmt → Db → Prop}
    (finishes : ∀ seen copy, find seen = some copy →
      (service copy).wp protocol .start
        (Ctx.Finishes protocol (guarantee seen))) :
    Proc.Looks protocol guarantee (Call.performOn find model service) := by
  intro seen
  refine Request.wp_bind.mpr (Request.wp_orFail.mpr
    ⟨fun copy found => Call.perform_safe (finishes seen copy found), fun _ => ?_⟩)
  trivial

/-- Requests of students on their service requests, and the hourly expiry. -/
inductive RequestCall where
  | create (env : Env) (student : UserId)
      (payload : ServiceRequests.Payload)
  | updateDraft (env : Env) (owner : UserId) (request : RequestId)
      (payload : ServiceRequests.Payload)
  | publish (env : Env) (owner : UserId) (request : RequestId)
      (attested : Bool)
  | cancel (env : Env) (owner : UserId) (request : RequestId)
      (reason : String)
  | reopen (env : Env) (owner : UserId) (request : RequestId)
  | expireDue (env : Env)

namespace RequestCall

/-- The row of a request. -/
def find (id : RequestId) (db : Db) : Option ServiceRequest :=
  db.requests.row id

/-- The request of the client. -/
def call : RequestCall → Call Unit
  | create env student payload =>
      Call.perform (ServiceRequests.createRequest env student payload)
  | updateDraft env owner id payload =>
      Call.performOn (find id) "ServiceRequest" fun copy =>
        ServiceRequests.updateDraft env owner id copy payload
  | publish env owner id attested => do
      let copy ← Call.get (find id) "ServiceRequest"
      let _ ← ServiceRequests.publish env owner id copy attested
      return ()
  | cancel env owner id reason =>
      Call.performOn (find id) "ServiceRequest" fun copy =>
        ServiceRequests.cancel env owner id copy reason
  | reopen env owner id =>
      Call.performOn (find id) "ServiceRequest" fun copy =>
        ServiceRequests.reopen env owner id copy
  | expireDue env => Call.perform (ServiceRequests.expireDue env)

end RequestCall

/-- Offers of experts on open requests, and the student's selection. -/
inductive OfferCall where
  | submit (env : Env) (expert : UserId) (request : RequestId) (amount : Int)
      (currency : String)
  | update (env : Env) (expert : UserId) (offer : OfferId)
      (amount : Option (Option Int)) (currency : Option String)
  | withdraw (env : Env) (expert : UserId) (offer : OfferId)
  | resubmit (env : Env) (expert : UserId) (offer : OfferId)
  | decline (env : Env) (student : UserId) (offer : OfferId) (reason : String)
  | accept (env : Env) (student : Actor) (offer : OfferId)

namespace OfferCall

/-- The row of an offer, joined with its request. -/
def find (id : OfferId) (db : Db) : Option (Offer × ServiceRequest) := do
  let offer ← db.offers.row id
  let request ← db.requests.row offer.request
  return (offer, request)

/-- The copy of an offer is its row. -/
theorem find_offer
    {id : OfferId} {db : Db} {copy : Offer × ServiceRequest}
    (found : find id db = some copy) : db.offers.row id = some copy.1 := by
  simp only [find, Option.bind_eq_bind, Option.pure_def,
    Option.bind_eq_some_iff, Option.some.injEq] at found
  obtain ⟨offer, stored, request, -, rfl⟩ := found
  exact stored

/-- The copy of its request is a row, too. -/
theorem find_request
    {id : OfferId} {db : Db} {copy : Offer × ServiceRequest}
    (found : find id db = some copy) :
    db.requests.row copy.1.request = some copy.2 := by
  simp only [find, Option.bind_eq_bind, Option.pure_def,
    Option.bind_eq_some_iff, Option.some.injEq] at found
  obtain ⟨offer, -, request, stored, rfl⟩ := found
  exact stored

/-- Read an offer with its request, then run a service on the copies. -/
def onOffer
    (id : OfferId) (service : Offer → ServiceRequest → Call Unit) :
    Call Unit := do
  let copy ← Call.get (find id) "Offer"
  service copy.1 copy.2

/-- The request of the client. -/
def call : OfferCall → Call Unit
  | submit env expert id amount currency => do
      let copy ← Call.get (RequestCall.find id) "ServiceRequest"
      let _ ← Bidding.submit env expert id copy amount currency
      return ()
  | update env expert id amount currency =>
      onOffer id fun offer request =>
        Bidding.updateOffer env expert id offer request amount currency
  | withdraw env expert id =>
      onOffer id fun offer request =>
        Bidding.withdraw env expert id offer request
  | resubmit env expert id =>
      onOffer id fun offer request =>
        Bidding.resubmit env expert id offer request
  | decline env student id reason =>
      onOffer id fun offer request =>
        Bidding.decline env student id offer request reason
  | accept env student id => Call.perform (Bidding.accept env student id)

end OfferCall

/-- Triage of managed requests by staff and the responses of experts. -/
inductive ManagedCall where
  | approvePool (env : Env) (admin : Option Actor) (request : RequestId)
      (expertIds : List UserId) (quoteAmount : Option Int)
  | assignDirect (env : Env) (admin : Option Actor) (request : RequestId)
      (expert : UserId) (amount : Int) (deadline : Option Time)
      (scopeNote : String)
  | supersedeDirect (env : Env) (admin : Option Actor)
      (assignment : AssignmentId)
  | setQuote (admin : Option Actor) (request : RequestId)
      (quoteAmount : Option Int) (reviewNotes : Option String)
  | rejectManaged (env : Env) (admin : Option Actor) (request : RequestId)
      (reason : String)
  | acceptInvitation (env : Env) (expert : Actor) (invitation : InvitationId)
      (expectedAmount : Option Int)
  | acceptDirect (env : Env) (expert : Actor) (assignment : AssignmentId)
  | declineInvitation (env : Env) (expert : Actor) (invitation : InvitationId)
      (reason : String)
  | declineDirect (env : Env) (expert : Actor) (assignment : AssignmentId)
      (reason : String)
  | expireDue (env : Env)

namespace ManagedCall

/-- The row of an invitation. -/
def findInvitation (id : InvitationId) (db : Db) : Option PoolInvitation :=
  db.invitations.row id

/-- The row of an assignment. -/
def findAssignment (id : AssignmentId) (db : Db) : Option DirectAssignment :=
  db.assignments.row id

/-- The request of the client. -/
def call : ManagedCall → Call Unit
  | approvePool env admin id expertIds quoteAmount =>
      Call.performOn (RequestCall.find id) "ServiceRequest" fun copy =>
        Assignments.approvePool env admin id copy expertIds quoteAmount
  | assignDirect env admin id expert amount deadline scopeNote =>
      Call.performOn (RequestCall.find id) "ServiceRequest" fun copy =>
        Assignments.assignDirect
          env admin id copy expert amount deadline scopeNote
  | supersedeDirect env admin id =>
      Call.performOn (findAssignment id) "DirectAssignment" fun copy =>
        Assignments.supersedeDirect env admin id copy
  | setQuote admin id quoteAmount reviewNotes =>
      Call.performOn (RequestCall.find id) "ServiceRequest" fun copy =>
        Assignments.setQuote admin id copy quoteAmount reviewNotes
  | rejectManaged env admin id reason =>
      Call.performOn (RequestCall.find id) "ServiceRequest" fun copy =>
        Assignments.rejectManaged env admin id copy reason
  | acceptInvitation env expert id expectedAmount =>
      Call.performOn (findInvitation id) "PoolInvitation" fun copy =>
        Assignments.acceptInvitation env expert id copy expectedAmount
  | acceptDirect env expert id =>
      Call.performOn (findAssignment id) "DirectAssignment" fun copy =>
        Assignments.acceptDirect env expert id copy
  | declineInvitation env expert id reason =>
      Call.performOn (findInvitation id) "PoolInvitation" fun copy =>
        Assignments.declineInvitation env expert id copy reason
  | declineDirect env expert id reason =>
      Call.performOn (findAssignment id) "DirectAssignment" fun copy =>
        Assignments.declineDirect env expert id copy reason
  | expireDue env => do
      let _ ← Assignments.expireDue env
      return ()

end ManagedCall

/-- Work on orders by their parties and by the worker. -/
inductive OrderCall where
  | submitDelivery (env : Env) (order : OrderId) (expert : Actor)
      (summary : String) (attachments : Except Error Unit)
  | requestRevision (env : Env) (order : OrderId) (student : Actor)
      (note : String)
  | approveDelivery (env : Env) (order : OrderId) (actor : Option Actor)
      (source : ApprovalSource)
  | cancel (env : Env) (order : OrderId) (actor : Actor) (reason : String)
  | autoApproveDue (env : Env)
  | sweepUnpaid (env : Env)
  | awaitingPaymentSweeper
  | proposeDeadline (env : Env) (order : OrderId) (actor : Actor)
      (proposedDueAt : Time) (note : String)
  | respondDeadlineProposal (order : OrderId) (actor : Actor) (accept : Bool)
  | deadlineReminder (env : Env)
  | autoApproveWarning (env : Env)
  | flagOverdue (env : Env)

namespace OrderCall

/-- The request of the client. -/
def call : OrderCall → Call Unit
  | submitDelivery env id expert summary attachments =>
      Call.perform (Orders.submitDelivery env id expert summary attachments)
  | requestRevision env id student note =>
      Call.perform (Orders.requestRevision env id student note)
  | approveDelivery env id actor source =>
      Call.perform (Orders.approveDelivery env id actor source)
  | cancel env id actor reason =>
      Call.perform (Orders.cancel env id actor reason)
  | autoApproveDue env => Orders.autoApproveDue env
  | sweepUnpaid env => Call.perform (Orders.sweepUnpaid env)
  | awaitingPaymentSweeper => do
      let _ ← Orders.awaitingPaymentSweeper
      return ()
  | proposeDeadline env id actor proposedDueAt note =>
      Call.perform (Orders.proposeDeadline env id actor proposedDueAt note)
  | respondDeadlineProposal id actor accept =>
      Call.perform (Orders.respondDeadlineProposal id actor accept)
  | deadlineReminder env => do
      let _ ← Orders.deadlineReminder env
      return ()
  | autoApproveWarning env => do
      let _ ← Orders.autoApproveWarning env
      return ()
  | flagOverdue env => do
      let _ ← Orders.flagOverdue env
      return ()

end OrderCall

/-- The proposals, answers and jobs about deadlines. -/
def OrderCall.Deadlines : OrderCall → Prop
  | .proposeDeadline _ _ _ _ _ | .respondDeadlineProposal _ _ _
  | .deadlineReminder _ | .autoApproveWarning _ | .flagOverdue _ => True
  | _ => False

/-- Work on deadlines writes proposals, marks and the due date of an order. -/
theorem OrderCall.Deadlines.emits
    {good : Effect Stmt → Prop} {call : OrderCall}
    (proposal : ∀ stmt, stmt.table = .deadlineProposals → good (.write stmt))
    (event : ∀ id eventType actor,
      eventType ∈ [.overdueFlagged, .deadlineProposed, .deadlineExtended,
        .deadlineReminded, .autoApproveWarned] →
      good (.write (.recordEvent { order := id, eventType, actor })))
    (due : ∀ id deliveryDueAt, good (.write (.saveOrder id fun stored =>
      { stored with deliveryDueAt })))
    (deadlines : call.Deadlines) : call.call.Emits good fun _ => True := by
  have inserted : ∀ id value,
      good (.write (.insertDeadlineProposal id value)) :=
    fun _ _ => proposal _ rfl
  have saved : ∀ id set, good (.write (.saveDeadlineProposal id set)) :=
    fun _ _ => proposal _ rfl
  have marks : ∀ eventType due,
      eventType ∈ [.overdueFlagged, .deadlineProposed, .deadlineExtended,
        .deadlineReminded, .autoApproveWarned] →
      (Orders.markOnce eventType due).Emits good fun _ => True := by
    intro eventType due listed
    refine .seq (by simp) fun orders => .seq ?_ (by simp)
    refine Request.emits_forEach fun id _ => ?_
    simpa [Call.exec] using event id eventType none listed
  cases call with
  | proposeDeadline env id actor proposedDueAt note =>
      simp [OrderCall.call, Call.perform, Orders.proposeDeadline,
        Orders.recordEvent, Orders.getForUpdate, Tx.getForUpdate, Tx.get,
        Tx.create, inserted, event]
  | respondDeadlineProposal id actor accept =>
      simp [OrderCall.call, Call.perform, Orders.respondDeadlineProposal,
        Orders.recordEvent, Orders.getForUpdate, Tx.getForUpdate, Tx.get,
        saved, event, due]
  | deadlineReminder env => exact .seq (marks _ _ (by simp)) (by simp)
  | autoApproveWarning env => exact .seq (marks _ _ (by simp)) (by simp)
  | flagOverdue env => exact .seq (marks _ _ (by simp)) (by simp)
  | _ => exact deadlines.elim

/-- Payments, webhooks, refunds, payouts and the platform configuration. -/
inductive PaymentCall where
  | startPayment (env : Env) (order : OrderId) (actor : Actor)
  | confirmPayment (env : Env) (order : OrderId)
  | confirmOrderPayment (env : Env) (order : OrderId)
  | devConfirm (env : Env) (order : OrderId) (actor : Actor)
  | voidPayment (env : Env) (order : OrderId)
  | ingest (env : Env) (provider : GatewayName)
      (verified : Except Error Webhooks.VerifiedWebhook)
  | redeliver (env : Env) (eventId : String)
  | issueRefund (env : Env) (order : OrderId) (amountMinor : Int)
      (reason : RefundReason) (initiatedBy : Option Actor)
  | schedulePayout (env : Env) (order : OrderId)
  | settlePayout (env : Env) (payout : PayoutId) (actor : Option Actor)
  | markPayoutFailed (payout : PayoutId) (actor : Option Actor)
      (reason : String)
  | payoutSweeper (env : Env)
  | configure (config : PlatformConfig)

namespace PaymentCall

/-- The row of an order. -/
def findOrder (id : OrderId) (db : Db) : Option Order :=
  db.orders.row id

/-- The request of the client. -/
def call : PaymentCall → Call Unit
  | startPayment env id actor =>
      Call.performOn (findOrder id) "Order" fun copy =>
        Payments.startPayment env id copy actor
  | confirmPayment env id => Payments.confirmPayment env id
  | confirmOrderPayment env id => do
      let copy ← Call.get (findOrder id) "Order"
      Payments.confirmOrderPayment env id copy
  | devConfirm env id actor => do
      let copy ← Call.get (findOrder id) "Order"
      Payments.devConfirm env id copy actor
  | voidPayment env id => Call.perform (Payments.voidPaymentForOrder env id)
  | ingest env provider verified =>
      Call.perform (Webhooks.ingest env provider verified)
  | redeliver env eventId =>
      Call.performOn (fun db => db.webhookEvents.row eventId) "WebhookEvent"
        fun copy => Webhooks.redeliver env eventId copy
  | issueRefund env id amountMinor reason initiatedBy =>
      Call.perform (Payments.issueRefund env id amountMinor reason initiatedBy)
  | schedulePayout env id =>
      Call.performOn (findOrder id) "Order" fun copy =>
        Payments.schedulePayout env id copy
  | settlePayout env id actor =>
      Call.perform (Payments.settlePayout env id actor)
  | markPayoutFailed id actor reason =>
      Call.perform (Payments.markPayoutFailed id actor reason)
  | payoutSweeper env => Payments.payoutSweeper env
  | configure config => Call.exec (.saveConfig config)

end PaymentCall

/-- Disputes, opened by the parties and reviewed by staff. -/
inductive DisputeCall where
  | openDispute (env : Env) (order : OrderId) (actor : Actor)
      (reason : DisputeReason) (description : String)
      (evidence : Except Error Unit)
  | takeCase (order : OrderId) (actor : Option Actor)
  | awaitResponse (order : OrderId) (actor : Option Actor)
  | resumeReview (order : OrderId) (actor : Option Actor)
  | resolve (env : Env) (order : OrderId) (actor : Option Actor)
      (outcome : DisputeOutcome) (resolutionNotes : String)
      (refundAmountMinor : Option Int)
  | close (env : Env) (order : OrderId) (actor : Option Actor)

namespace DisputeCall

/-- Run a service on the copy of a dispute that the caller has read. -/
def onDispute {α : Type} (id : OrderId) (service : Dispute → Tx α) :
    Call Unit :=
  Call.performOn (fun db => db.disputes.row id) "Dispute" service

/-- The request of the client. -/
def call : DisputeCall → Call Unit
  | openDispute env id actor reason description evidence =>
      Call.perform <|
        Disputes.openDispute env id actor reason description evidence
  | takeCase id actor =>
      onDispute id fun copy => Disputes.takeCase id copy actor
  | awaitResponse id actor =>
      onDispute id fun copy => Disputes.awaitResponse id copy actor
  | resumeReview id actor =>
      onDispute id fun copy => Disputes.resumeReview id copy actor
  | resolve env id actor outcome resolutionNotes refundAmountMinor =>
      onDispute id fun copy => Disputes.resolve
        env id copy actor outcome resolutionNotes refundAmountMinor
  | close env id actor =>
      onDispute id fun copy => Disputes.close env id copy actor

end DisputeCall

/-- One operation of the marketplace. -/
inductive Operation where
  | request (call : RequestCall)
  | offer (call : OfferCall)
  | managed (call : ManagedCall)
  | order (call : OrderCall)
  | payment (call : PaymentCall)
  | dispute (call : DisputeCall)

namespace Operation

/-- The request that the operation is. -/
def call : Operation → Call Unit
  | request operation => operation.call
  | offer operation => operation.call
  | managed operation => operation.call
  | order operation => operation.call
  | payment operation => operation.call
  | dispute operation => operation.call

end Operation

/-- Clients of the marketplace and the committed database. -/
abbrev Marketplace := System Db Row Stmt (Except Error Unit)

/-- One operation for each client, all about to start. -/
def Marketplace.start (db : Db) (operations : Nat → Operation) : Marketplace :=
  System.init db fun client => (operations client).call

/-- One turn of the scheduler. -/
abbrev Turn := Event (Except Error Unit)

/-- A client runs this many statements in a row. -/
def turns (client count : Nat) : List Turn :=
  List.replicate count (.run client)

end KnowledgeMarketplace
