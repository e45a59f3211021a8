import KnowledgeMarketplace.Core.Text
import KnowledgeMarketplace.Database.Statements

/-!
# Services of service requests

Every status change goes through `transition`, which checks the caller's copy
of the request and saves the status without a lock.
-/

namespace KnowledgeMarketplace

namespace ServiceRequests

/-- A published request stays open for offers this many days. -/
def requestTtlDays : Nat := 30

/-- The version of the integrity policy a student attests to. -/
def integrityPolicyVersion : String := "2026-09"

/-- The state machine of a request: the action of each edge. -/
def transitions : RequestStatus → RequestStatus → Option String
  | .draft, .opened => some "publish"
  | .draft, .cancelled => some "cancel"
  | .opened, .matched => some "select_offer"
  | .opened, .cancelled => some "cancel"
  | .opened, .expired => some "expire"
  | .expired, .opened => some "reopen"
  | .draft, .inReview => some "submit_managed"
  | .inReview, .pooled => some "approve_pool"
  | .inReview, .rejected => some "reject_managed"
  | .inReview, .matched => some "assign_direct"
  | .inReview, .cancelled => some "cancel"
  | .pooled, .matched => some "assign_pool"
  | .pooled, .rejected => some "reject_managed"
  | .pooled, .cancelled => some "cancel"
  | .matched, .inProgress => some "order_paid"
  | .matched, .cancelled => some "cancel"
  | .inProgress, .completed => some "order_completed"
  | .inProgress, .cancelled => some "cancel"
  | _, _ => none

/-- The error of a move that is not in the table. -/
def invalidTransition (fromStatus toStatus : RequestStatus) : Error :=
  .domainError
    ("Cannot move a request from '" ++ fromStatus.value ++ "' to '" ++
      toStatus.value ++ "'.")
    "invalid_transition"

/-- The caller's copy after a move to `toStatus`. -/
def moved (env : Env) (request : ServiceRequest)
    (toStatus : RequestStatus) (reason : String) : ServiceRequest :=
  { request with
    status := toStatus
    closedReason :=
      if toStatus = .cancelled then clip 200 reason
      else request.closedReason
    closedAt :=
      if toStatus = .cancelled ∨ toStatus = .expired then some env.now
      else request.closedAt }

/-- Move a request whose copy is `request`; the save takes no lock before. -/
def transition
    (env : Env) (id : RequestId) (request : ServiceRequest)
    (toStatus : RequestStatus) (reason : String) : Tx ServiceRequest := do
  Tx.require (transitions request.status toStatus).isSome
    (invalidTransition request.status toStatus)
  let copy := moved env request toStatus reason
  Tx.exec <| .saveRequest id request.status fun stored =>
    { stored with
      status := copy.status
      closedReason := copy.closedReason
      closedAt := copy.closedAt }
  return copy

/--
The writable fields of a request; an absent field is not in the payload.  The
last two fields are the verdicts of `_clean_taxonomy` and
`_clean_attachments`, which read tables that are not modelled.
-/
structure Payload where
  mode : Option RequestMode := none
  title : Option String := none
  description : Option String := none
  subject : Option (Option Nat) := none
  budgetMin : Option (Option Int) := none
  budgetMax : Option (Option Int) := none
  currency : Option String := none
  deadline : Option (Option Time) := none
  taxonomy : Except Error Unit := .ok ()
  attachments : Except Error Unit := .ok ()

/-- A budget in the payload is positive and not inverted. -/
def cleanBudget (payload : Payload) : Except Error Unit :=
  let budgetMin := payload.budgetMin.join
  let budgetMax := payload.budgetMax.join
  if budgetMin.any (· ≤ 0) ∨ budgetMax.any (· ≤ 0) then
    .error (.domainError "Budget must be positive." "validation_error")
  else if budgetMin.any fun low => budgetMax.any fun high => high < low then
    .error
      (.domainError "budget_min cannot exceed budget_max." "validation_error")
  else
    .ok ()

/-- A deadline in the payload is not before today. -/
def cleanDeadline (env : Env) (payload : Payload) : Except Error Unit :=
  if payload.deadline.join.any (· / days 1 < env.now / days 1) then
    .error (.domainError "Deadline cannot be in the past." "validation_error")
  else
    .ok ()

/-- The copy with the payload's fields set. -/
def Payload.assign (payload : Payload) (request : ServiceRequest) :
    ServiceRequest :=
  { request with
    mode := payload.mode.getD request.mode
    title := payload.title.getD request.title
    description := payload.description.getD request.description
    subject := payload.subject.getD request.subject
    budgetMin := payload.budgetMin.getD request.budgetMin
    budgetMax := payload.budgetMax.getD request.budgetMax
    currency := payload.currency.getD request.currency
    deadline := payload.deadline.getD request.deadline }

/-- A student's new request is always a draft. -/
def createRequest (env : Env) (student : UserId) (payload : Payload) :
    Tx RequestId := do
  Tx.ofExcept (cleanBudget payload)
  Tx.ofExcept (cleanDeadline env payload)
  Tx.ofExcept payload.taxonomy
  Tx.create (.request env.key)
    (fun db => (db.requests.row env.key).isSome)
    (.insertRequest env.key (payload.assign { student })) "ServiceRequest"
  Tx.ofExcept payload.attachments
  return env.key

/-- Edit a draft: `request.save()` writes every column of the copy. -/
def updateDraft
    (env : Env) (owner : UserId) (id : RequestId) (request : ServiceRequest)
    (payload : Payload) : Tx ServiceRequest := do
  Tx.require (request.student = owner)
    (.permissionDenied "You can only edit your own requests.")
  Tx.require (request.status = .draft)
    (.domainError "Only draft requests can be edited." "request_locked")
  Tx.ofExcept (cleanBudget payload)
  Tx.ofExcept (cleanDeadline env payload)
  Tx.ofExcept payload.taxonomy
  let copy := payload.assign request
  Tx.exec (.saveRequest id request.status fun _ => copy)
  Tx.ofExcept payload.attachments
  return copy

/-- The fields that are still empty and needed for publication. -/
def missingFields (request : ServiceRequest) : List String :=
  (if request.title = "" then ["title"] else []) ++
    (if request.description = "" then ["description"] else []) ++
    (if request.subject = none then ["subject"] else []) ++
    (if request.budgetMax.getD 0 = 0 then ["budget_max"] else [])

/-- Publish a draft; a managed request goes to review.  No transaction. -/
def publish
    (env : Env) (owner : UserId) (id : RequestId) (request : ServiceRequest)
    (attested : Bool) : Call ServiceRequest := do
  Call.require (request.student = owner)
    (.permissionDenied "You can only publish your own requests.")
  Call.require attested
    (.domainError
      "You must attest to the academic-integrity policy (BR-10)."
      "attestation_required")
  Call.require (missingFields request = [])
    (.domainError
      ("Complete the request before publishing: " ++
        ", ".intercalate (missingFields request) ++ ".")
      "validation_error")
  let attestedCopy := { request with
    integrityAttestedAt := some env.now
    integrityPolicyVersion := integrityPolicyVersion }
  if request.mode = .managed then
    Call.exec <| .saveRequest id request.status fun stored =>
      { stored with
        integrityAttestedAt := attestedCopy.integrityAttestedAt
        integrityPolicyVersion := attestedCopy.integrityPolicyVersion }
    Call.atomic (transition env id attestedCopy .inReview "")
  else
    let copy := { attestedCopy with
      expiresAt := some (env.now + days requestTtlDays) }
    Call.exec <| .saveRequest id request.status fun stored =>
      { stored with
        integrityAttestedAt := copy.integrityAttestedAt
        integrityPolicyVersion := copy.integrityPolicyVersion
        expiresAt := copy.expiresAt }
    Call.atomic (transition env id copy .opened "")

/-- The student closes a request; one save, without a lock. -/
def cancel
    (env : Env) (owner : UserId) (id : RequestId) (request : ServiceRequest)
    (reason : String) : Tx ServiceRequest := do
  Tx.require (request.student = owner)
    (.permissionDenied "You can only cancel your own requests.")
  transition env id request .cancelled reason

/-- Re-open an expired request, once. -/
def reopen
    (env : Env) (owner : UserId) (id : RequestId) (request : ServiceRequest) :
    Tx ServiceRequest := do
  Tx.require (request.student = owner)
    (.permissionDenied "You can only re-open your own requests.")
  Tx.require (request.reopenedAt = none)
    (.domainError "A request can be re-opened only once (BR-08)."
      "invalid_transition")
  let opened ← transition env id request .opened ""
  let copy := { opened with
    reopenedAt := some env.now
    expiresAt := some (env.now + days requestTtlDays) }
  Tx.exec <| .saveRequest id copy.status fun stored =>
    { stored with
      reopenedAt := copy.reopenedAt
      expiresAt := copy.expiresAt }
  return copy

/-- Called by the accepting services inside their transactions. -/
def markMatched (env : Env) (id : RequestId) (request : ServiceRequest) :
    Tx ServiceRequest :=
  transition env id request .matched ""

/-- An open-market request that accepts offers. -/
def openForOffers (now : Time) (request : ServiceRequest) : Bool :=
  request.status = .opened && request.mode = .openMarket &&
    request.expiresAt.all (now < ·)

/-- An open request whose time to live is over. -/
def stale (now : Time) (request : ServiceRequest) : Bool :=
  request.status = .opened && request.expiresAt.any (· ≤ now)

/-- Expire stale open requests in bulk; returns their number. -/
def expireDue (env : Env) : Tx Nat :=
  Tx.updateWhere (fun db => db.requests.keys)
    (fun id db => (db.requests.row id).any (stale env.now))
    .request
    (fun id => .updateRequest id fun stored =>
      { stored with
        status := .expired
        closedReason := "TTL expired"
        closedAt := some env.now })

/-- Approved, not suspended and accepting new work. -/
def expertIsEligible (db : Db) (user : UserId) : Bool :=
  (db.experts.row user).any fun expert => expert.approved && expert.available

end ServiceRequests

end KnowledgeMarketplace
