import KnowledgeMarketplace.Bidding.Services

/-!
# Managed-service assignments

Staff route a managed request to a pool of experts or to one expert.  The
first acceptance of an invitation or assignment creates the order.
-/

namespace KnowledgeMarketplace

namespace Assignments

/-- Invitations expire after this many hours. -/
def poolTtlHours : Nat := 48

/-- Direct assignments expire after this many hours. -/
def directTtlHours : Nat := 24

/-- Only staff triage managed requests. -/
def staffGuard (actor : Option Actor) : Except Error Unit :=
  if actor.any Actor.isStaff then .ok ()
  else
    .error (.permissionDenied "Only operations staff can triage managed requests.")

/-- Only eligible experts respond to assignments. -/
def expertGuard (expert : UserId) : Tx Unit := do
  Tx.require (← Tx.read fun db => ServiceRequests.expertIsEligible db expert)
    (.permissionDenied
      "Only approved, available experts can respond to assignments.")

/-- Only managed requests are triaged. -/
def managedRequestGuard (request : ServiceRequest) : Except Error Unit :=
  if request.mode = .managed then .ok ()
  else .error (.domainError "This request is not in managed mode." "not_managed")

/-- Some order of the request exists. -/
def orderExists (request : RequestId) (db : Db) : Bool :=
  db.orders.any fun _ order => order.request = request

/-- A request converges into at most one order; `request` is the locked copy. -/
def matchedGuard (id : RequestId) (request : ServiceRequest) : Tx Unit := do
  Tx.require (request.status = .inReview ∨ request.status = .pooled)
    (.domainError "This request has already been routed or matched."
      "request_closed")
  Tx.require (¬(← Tx.read (orderExists id)))
    (.domainError "An order already exists for this request."
      "request_closed")

/-! ## Triage by staff -/

/-- The quote is not below the platform minimum. -/
def quoteGuard (quoteAmount : Option Int) : Except Error Unit :=
  if quoteAmount.any (· < Payments.minOfferMinor) then
    .error (.domainError "Quote is below the platform minimum." "offer_too_low")
  else
    .ok ()

/-- The eligible experts of a pool: the chosen ones, or those of the subject. -/
def poolCandidates
    (request : ServiceRequest) (expertIds : List UserId) (db : Db) :
    List UserId :=
  db.experts.select fun id expert =>
    expert.approved && expert.available &&
      (if expertIds ≠ [] then expertIds.contains id
      else request.subject.all expert.subjects.contains)

/-- Some invitation of this expert to this request exists. -/
def invited (request : RequestId) (expert : UserId) (db : Db) : Bool :=
  db.invitations.any fun _ invitation =>
    invitation.request = request && invitation.expert = expert

/-- Insert the invitations of a pool under consecutive keys. -/
def inviteAll
    (env : Env) (request : RequestId) (admin : UserId)
    (candidates : List UserId) : Tx Unit :=
  Tx.forEach candidates.zipIdx fun (expert, index) =>
    Tx.create (.invitation (env.key + index))
      (fun db => (db.invitations.row (env.key + index)).isSome ||
        invited request expert db)
      (.insertInvitation (env.key + index)
        { request
          expert
          expiresAt := env.now + hours poolTtlHours
          invitedBy := admin }) "PoolInvitation"

/-- `in_review -> pooled`, with invitations; `request` is the caller's copy. -/
def approvePool
    (env : Env) (admin : Option Actor) (id : RequestId)
    (request : ServiceRequest) (expertIds : List UserId)
    (quoteAmount : Option Int) : Tx Unit := do
  Tx.ofExcept (staffGuard admin)
  Tx.ofExcept (managedRequestGuard request)
  Tx.require (request.status = .inReview)
    (.domainError "Only in-review requests can be approved for pooling."
      "invalid_transition")
  Tx.ofExcept (quoteGuard quoteAmount)
  let copy := { request with
    quoteAmount := quoteAmount <|> request.quoteAmount }
  Tx.require (copy.quoteAmount ≠ none)
    (.domainError "Set a quote (quote_amount) before pooling."
      "quote_required")
  Tx.exec <| .saveRequest id copy.status fun stored =>
    { stored with quoteAmount := copy.quoteAmount }
  let pooled ← ServiceRequests.transition env id copy .pooled ""
  let candidates ← Tx.read (poolCandidates pooled expertIds)
  Tx.require (candidates ≠ [])
    (.domainError "No eligible experts match this request's subject."
      "empty_pool")
  inviteAll env id ((admin.map Actor.id).getD 0) candidates

/-- Some assignment of this expert to this request is pending. -/
def assignmentPending
    (request : RequestId) (expert : UserId) (db : Db) : Bool :=
  db.assignments.any fun _ assignment =>
    assignment.request = request && assignment.expert = expert &&
      assignment.status = .pending

/-- Propose one expert and a price; the request keeps its status. -/
def assignDirect
    (env : Env) (admin : Option Actor) (id : RequestId)
    (request : ServiceRequest) (expert : UserId) (amount : Int)
    (deadline : Option Time) (scopeNote : String) : Tx AssignmentId := do
  Tx.ofExcept (staffGuard admin)
  Tx.ofExcept (managedRequestGuard request)
  Tx.require (request.status = .inReview ∨ request.status = .pooled)
    (.domainError "This request is not awaiting assignment."
      "invalid_transition")
  expertGuard expert
  Tx.ofExcept (quoteGuard (some amount))
  Tx.require (¬(← Tx.read (assignmentPending id expert)))
    (.domainError
      "This expert already has a pending assignment for the request."
      "assignment_exists")
  Tx.exec <| .saveRequest id request.status fun stored =>
    { stored with quoteAmount := some amount }
  Tx.create (.assignment env.key)
    (fun db => (db.assignments.row env.key).isSome)
    (.insertAssignment env.key
      { request := id
        expert
        amount
        currency := request.currency
        deadline := deadline <|> request.deadline
        scopeNote := clip 500 scopeNote
        expiresAt := env.now + hours directTtlHours
        decidedByAdmin := (admin.map Actor.id).getD 0 }) "DirectAssignment"
  return env.key

/-- Withdraw a pending assignment; `assignment` is the caller's copy. -/
def supersedeDirect
    (env : Env) (admin : Option Actor) (id : AssignmentId)
    (assignment : DirectAssignment) : Tx Unit := do
  Tx.ofExcept (staffGuard admin)
  Tx.require (assignment.status = .pending)
    (.domainError "Only pending assignments can be superseded."
      "assignment_locked")
  Tx.exec <| .saveAssignment id fun stored =>
    { stored with status := .superseded, respondedAt := some env.now }

/-- A pending invitation to a request. -/
def invitationOpen (request : RequestId) (id : InvitationId) (db : Db) :
    Bool :=
  (db.invitations.row id).any fun invitation =>
    invitation.request = request && invitation.status = .pending

/-- Staff reject a managed request; `request` is the caller's copy. -/
def rejectManaged
    (env : Env) (admin : Option Actor) (id : RequestId)
    (request : ServiceRequest) (reason : String) : Tx ServiceRequest := do
  Tx.ofExcept (staffGuard admin)
  Tx.ofExcept (managedRequestGuard request)
  Tx.require (reason ≠ "")
    (.domainError "A rejection reason is required." "validation_error")
  let copy := { request with
    reviewNotes := clip 500 reason
    reviewer := admin.map Actor.id }
  Tx.exec <| .saveRequest id copy.status fun stored =>
    { stored with reviewNotes := copy.reviewNotes, reviewer := copy.reviewer }
  let _ ← Tx.updateWhere (fun db => db.invitations.keys) (invitationOpen id)
    .invitation
    (fun invitation => .saveInvitation invitation fun stored =>
      { stored with status := .expired, respondedAt := some env.now })
  ServiceRequests.transition env id copy .rejected (clip 200 reason)

/-- Suggested price guidance; `request` is the caller's copy. -/
def setQuote
    (admin : Option Actor) (id : RequestId) (request : ServiceRequest)
    (quoteAmount : Option Int) (reviewNotes : Option String) : Tx Unit := do
  Tx.ofExcept (staffGuard admin)
  Tx.ofExcept (managedRequestGuard request)
  Tx.ofExcept (quoteGuard quoteAmount)
  let copy := { request with
    quoteAmount := quoteAmount <|> request.quoteAmount
    reviewNotes := (reviewNotes.map (clip 500)).getD request.reviewNotes
    reviewer := admin.map Actor.id }
  Tx.exec <| .saveRequest id copy.status fun stored =>
    { stored with
      quoteAmount := copy.quoteAmount
      reviewNotes := copy.reviewNotes
      reviewer := copy.reviewer }

/-! ## Responses of experts -/

/-- Lock and read an invitation row. -/
def getInvitationForUpdate (id : InvitationId) : Tx PoolInvitation :=
  Tx.getForUpdate (.invitation id) (fun db => db.invitations.row id)
    "PoolInvitation"

/-- Lock and read an assignment row. -/
def getAssignmentForUpdate (id : AssignmentId) : Tx DirectAssignment :=
  Tx.getForUpdate (.assignment id) (fun db => db.assignments.row id)
    "DirectAssignment"

/-- The error of an invitation whose request another expert has matched. -/
def alreadyMatched : Error → Error
  | .domain _ =>
      .domainError "This request was already matched by another expert."
        "request_closed"
  | error => error

/-- Decline the other pending invitations to a request. -/
def declineOthers (env : Env) (request : RequestId) (chosen : InvitationId) :
    Tx Nat :=
  Tx.updateWhere (fun db => db.invitations.keys)
    (fun other db => invitationOpen request other db && other ≠ chosen)
    .invitation
    (fun other => .saveInvitation other fun stored =>
      { stored with
        status := .declined
        respondedAt := some env.now
        declineReason := "Another expert was assigned" })

/-- Accept an invitation; `invitation` is the caller's copy. -/
def acceptInvitation
    (env : Env) (expert : Actor) (id : InvitationId)
    (invitation : PoolInvitation) (expectedAmount : Option Int) :
    Tx OrderId := do
  expertGuard expert.id
  Tx.require (invitation.expert = expert.id)
    (.permissionDenied "You can only respond to your own invitations.")
  let invitation ← getInvitationForUpdate id
  let request ← Bidding.getRequestForUpdate invitation.request
  Tx.require (invitation.status = .pending ∧ env.now < invitation.expiresAt)
    (.domainError "This invitation is no longer pending." "assignment_locked")
  Tx.tryCatch (matchedGuard invitation.request request) fun error =>
    Tx.throw (alreadyMatched error)
  Tx.exec <| .saveInvitation id fun stored =>
    { stored with
      status := .accepted
      expectedAmount
      respondedAt := some env.now }
  let _ ← declineOthers env invitation.request id
  let matched ← ServiceRequests.markMatched env invitation.request request
  Orders.createOrderForRequest env invitation.request matched expert.id
    matched.quoteAmount matched.currency .managedPool none

/-- Decline an invitation; `invitation` is the caller's copy. -/
def declineInvitation
    (env : Env) (expert : Actor) (id : InvitationId)
    (invitation : PoolInvitation) (reason : String) : Tx Unit := do
  expertGuard expert.id
  Tx.require (invitation.expert = expert.id)
    (.permissionDenied "You can only respond to your own invitations.")
  Tx.require (invitation.status = .pending)
    (.domainError "This invitation is no longer pending." "assignment_locked")
  Tx.exec <| .saveInvitation id fun stored =>
    { stored with
      status := .declined
      declineReason := clip 200 reason
      respondedAt := some env.now }

/-- Accept a direct assignment; `assignment` is the caller's copy. -/
def acceptDirect
    (env : Env) (expert : Actor) (id : AssignmentId)
    (assignment : DirectAssignment) : Tx OrderId := do
  expertGuard expert.id
  Tx.require (assignment.expert = expert.id)
    (.permissionDenied "You can only respond to your own assignments.")
  let assignment ← getAssignmentForUpdate id
  let request ← Bidding.getRequestForUpdate assignment.request
  Tx.require (assignment.status = .pending ∧ env.now < assignment.expiresAt)
    (.domainError "This assignment is no longer pending." "assignment_locked")
  matchedGuard assignment.request request
  Tx.exec <| .saveAssignment id fun stored =>
    { stored with status := .accepted, respondedAt := some env.now }
  let matched ← ServiceRequests.markMatched env assignment.request request
  Orders.createOrderForRequest env assignment.request matched expert.id
    (some assignment.amount) assignment.currency .managedDirect none

/-- Decline a direct assignment; `assignment` is the caller's copy. -/
def declineDirect
    (env : Env) (expert : Actor) (id : AssignmentId)
    (assignment : DirectAssignment) (reason : String) : Tx Unit := do
  expertGuard expert.id
  Tx.require (assignment.expert = expert.id)
    (.permissionDenied "You can only respond to your own assignments.")
  Tx.require (assignment.status = .pending)
    (.domainError "This assignment is no longer pending." "assignment_locked")
  Tx.exec <| .saveAssignment id fun stored =>
    { stored with
      status := .declined
      declineReason := clip 200 reason
      respondedAt := some env.now }

/-! ## Expiry -/

/-- Expire overdue invitations and assignments in bulk; returns the number. -/
def expireDue (env : Env) : Call Nat := do
  let invitations ← Call.atomic <|
    Tx.updateWhere (fun db => db.invitations.keys)
      (fun id db => (db.invitations.row id).any fun invitation =>
        invitation.status = .pending && invitation.expiresAt ≤ env.now)
      .invitation
      (fun id => .saveInvitation id fun stored =>
        { stored with status := .expired, respondedAt := some env.now })
  let assignments ← Call.atomic <|
    Tx.updateWhere (fun db => db.assignments.keys)
      (fun id db => (db.assignments.row id).any fun assignment =>
        assignment.status = .pending && assignment.expiresAt ≤ env.now)
      .assignment
      (fun id => .saveAssignment id fun stored =>
        { stored with status := .expired, respondedAt := some env.now })
  return invitations + assignments

end Assignments

end KnowledgeMarketplace
