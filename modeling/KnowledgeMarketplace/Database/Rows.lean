import KnowledgeMarketplace.Core.Money

/-!
# Rows of the database

The models of the applications, with the columns that services read or write.
Payments, disputes and deadline proposals are one-to-one with their order and
are keyed by it.
-/

namespace KnowledgeMarketplace

/-- Keys of users, requests, orders and the other tables. -/
abbrev UserId := Nat
abbrev RequestId := Nat
abbrev OfferId := Nat
abbrev InvitationId := Nat
abbrev AssignmentId := Nat
abbrev OrderId := Nat
abbrev DeliveryId := Nat
abbrev PayoutId := Nat
abbrev RefundId := Nat

/-- Seconds since the epoch. -/
abbrev Time := Nat

/-- A number of hours, in seconds. -/
def hours (count : Nat) : Time := count * 3600

/-- A number of days, in seconds. -/
def days (count : Nat) : Time := hours (24 * count)

/-- The user a service acts for. -/
structure Actor where
  id : UserId
  isStaff : Bool
  deriving DecidableEq


inductive GatewayName where
  | manual
  | stripe
  deriving DecidableEq

/-- The registered name of a gateway. -/
def GatewayName.value : GatewayName → String
  | .manual => "manual"
  | .stripe => "stripe"

/--
What a call draws from outside: the clock, a primary key, random hex and the
payment settings.
-/
structure Env where
  now : Time
  key : Nat := 0
  hex : String := ""
  paymentGateway : GatewayName := .manual
  devSelfConfirm : Bool := false
  deriving DecidableEq

/-! ## Experts and platform configuration -/

/-- An expert's application and profile. -/
structure Expert where
  approved : Bool
  available : Bool
  subjects : List Nat
  deriving DecidableEq

theorem payoutMin_default : (100 : Int) ≤ 1000 := by decide

/-- The singleton row of platform configuration. -/
structure PlatformConfig where
  openCommissionRate : CommissionRate := .openDefault
  managedCommissionRate : CommissionRate := .managedDefault
  minOfferMinor : Int := 500
  payoutMinMinor : Int := 1000
  payoutMinPositive : 100 ≤ payoutMinMinor := by
    first | exact payoutMin_default | decide
  disputeWindowDays : Nat := 7
  deriving DecidableEq

/-! ## Service requests -/

inductive RequestMode where
  | openMarket
  | managed
  deriving DecidableEq

inductive RequestStatus where
  | draft
  | opened
  | matched
  | inProgress
  | completed
  | rejected
  | inReview
  | pooled
  | cancelled
  | expired
  deriving DecidableEq

/-- The stored text of a request status. -/
def RequestStatus.value : RequestStatus → String
  | .draft => "draft"
  | .opened => "open"
  | .matched => "matched"
  | .inProgress => "in_progress"
  | .completed => "completed"
  | .rejected => "rejected"
  | .inReview => "in_review"
  | .pooled => "pooled"
  | .cancelled => "cancelled"
  | .expired => "expired"

structure ServiceRequest where
  student : UserId
  mode : RequestMode := .openMarket
  title : String := ""
  description : String := ""
  subject : Option Nat := none
  budgetMin : Option Int := none
  budgetMax : Option Int := none
  currency : String := "USD"
  deadline : Option Time := none
  closedAt : Option Time := none
  status : RequestStatus := .draft
  integrityAttestedAt : Option Time := none
  integrityPolicyVersion : String := ""
  quoteAmount : Option Int := none
  reviewNotes : String := ""
  reviewer : Option UserId := none
  expiresAt : Option Time := none
  reopenedAt : Option Time := none
  closedReason : String := ""
  offerCount : Nat := 0
  deriving DecidableEq

/-! ## Offers, invitations and assignments -/

inductive OfferStatus where
  | pending
  | accepted
  | declined
  | withdrawn
  | expired
  deriving DecidableEq

structure Offer where
  request : RequestId
  expert : UserId
  amount : Int
  currency : String := "USD"
  status : OfferStatus := .pending
  respondedAt : Option Time := none
  responseReason : String := ""
  deriving DecidableEq

inductive InvitationStatus where
  | pending
  | accepted
  | declined
  | expired
  deriving DecidableEq

structure PoolInvitation where
  request : RequestId
  expert : UserId
  status : InvitationStatus := .pending
  expectedAmount : Option Int := none
  declineReason : String := ""
  respondedAt : Option Time := none
  expiresAt : Time
  invitedBy : UserId
  deriving DecidableEq

inductive AssignmentStatus where
  | pending
  | accepted
  | declined
  | expired
  | superseded
  deriving DecidableEq

structure DirectAssignment where
  request : RequestId
  expert : UserId
  amount : Int
  currency : String := "USD"
  deadline : Option Time := none
  scopeNote : String := ""
  status : AssignmentStatus := .pending
  declineReason : String := ""
  respondedAt : Option Time := none
  expiresAt : Time
  decidedByAdmin : UserId
  deriving DecidableEq

/-! ## Orders -/

inductive OrderSource where
  | openBid
  | managedPool
  | managedDirect
  deriving DecidableEq

inductive OrderStatus where
  | awaitingPayment
  | active
  | delivered
  | revisionRequested
  | completed
  | disputed
  | cancelled
  deriving DecidableEq

/-- The stored text of an order status. -/
def OrderStatus.value : OrderStatus → String
  | .awaitingPayment => "awaiting_payment"
  | .active => "active"
  | .delivered => "delivered"
  | .revisionRequested => "revision_requested"
  | .completed => "completed"
  | .disputed => "disputed"
  | .cancelled => "cancelled"

structure Order where
  request : RequestId
  student : UserId
  expert : UserId
  source : OrderSource
  offerId : Option OfferId := none
  amount : Int
  currency : String := "USD"
  commissionRate : CommissionRate := .openDefault
  commissionAmount : Int := 0
  expertAmount : Int := 0
  status : OrderStatus := .awaitingPayment
  deadline : Option Time := none
  revisionsAllowed : Nat := 2
  revisionsUsed : Nat := 0
  createdAt : Time
  acceptedAt : Option Time := none
  paidAt : Option Time := none
  deliveredAt : Option Time := none
  hasOpenDispute : Bool := false
  completedAt : Option Time := none
  cancelledAt : Option Time := none
  cancelledBy : Option UserId := none
  cancellationReason : String := ""
  autoApproveAt : Option Time := none
  deliveryDueAt : Option Time := none
  deriving DecidableEq

inductive DeliveryStatus where
  | submitted
  | approved
  | revisionRequested
  deriving DecidableEq

inductive ApprovalSource where
  | student
  | auto
  | admin
  deriving DecidableEq

structure Delivery where
  order : OrderId
  revisionNumber : Nat := 0
  summary : String
  status : DeliveryStatus := .submitted
  submittedAt : Option Time := none
  approvedAt : Option Time := none
  approvalSource : Option ApprovalSource := none
  deriving DecidableEq

inductive OrderEventType where
  | created
  | paymentConfirmed
  | delivered
  | revisionRequested
  | redelivered
  | approved
  | autoApproved
  | completed
  | cancelled
  | disputeOpened
  | disputeResolved
  | overdueFlagged
  | deadlineProposed
  | deadlineExtended
  | deadlineReminded
  | autoApproveWarned
  deriving DecidableEq

inductive DisputeOutcome where
  | refundStudentFull
  | refundStudentPartial
  | releaseExpert
  | split
  | noFaultClose
  deriving DecidableEq

/--
The outcome in the data of an event.  A resolution that moves the order nests it
one level deeper than one that does not.
-/
inductive OrderEventData where
  | none
  | outcome (value : DisputeOutcome)
  | nestedOutcome (value : DisputeOutcome)
  deriving DecidableEq

structure OrderEvent where
  order : OrderId
  eventType : OrderEventType
  actor : Option UserId := none
  data : OrderEventData := .none
  deriving DecidableEq

inductive DeadlineProposalStatus where
  | pending
  | accepted
  | declined
  | withdrawn
  deriving DecidableEq

/-- A proposed delivery deadline, one-to-one with its order. -/
structure DeadlineProposal where
  proposedBy : UserId
  proposedDueAt : Time
  note : String := ""
  status : DeadlineProposalStatus := .pending
  deriving DecidableEq

/-! ## Payments, payouts and the ledger -/

inductive PaymentStatus where
  | pending
  | requiresAction
  | processing
  | succeeded
  | failed
  | canceled
  | refunded
  | partiallyRefunded
  deriving DecidableEq

structure Payment where
  gateway : GatewayName
  providerReference : Option String := none
  amountMinor : Int
  currency : String := "USD"
  status : PaymentStatus := .pending
  failureReason : String := ""
  refundedMinor : Int := 0
  paidAt : Option Time := none
  canceledAt : Option Time := none
  deriving DecidableEq

inductive RefundStatus where
  | pending
  | succeeded
  | failed
  deriving DecidableEq

inductive RefundReason where
  | expertFault
  | platformFault
  | mutual
  | adminDecision
  | disputeResolution
  deriving DecidableEq

/-- A refund of the payment of an order. -/
structure Refund where
  payment : OrderId
  amountMinor : Int
  currency : String := "USD"
  reason : RefundReason
  status : RefundStatus := .pending
  providerReference : String := ""
  initiatedBy : Option UserId := none
  processedAt : Option Time := none
  deriving DecidableEq

inductive PayoutStatus where
  | scheduled
  | inTransit
  | paid
  | failed
  | reversed
  deriving DecidableEq

structure Payout where
  order : OrderId
  expert : UserId
  amountMinor : Int
  currency : String := "USD"
  status : PayoutStatus := .scheduled
  providerReference : String := ""
  failureReason : String := ""
  settledAt : Option Time := none
  deriving DecidableEq

inductive EntryType where
  | charge
  | commission
  | expertCredit
  | refund
  | payout
  | fee
  | adjustment
  deriving DecidableEq

/-- A signed entry of the append-only ledger. -/
structure LedgerEntry where
  entryType : EntryType
  amountMinor : Int
  currency : String := "USD"
  order : OrderId
  user : Option UserId := none
  providerObjectId : String := ""
  deriving DecidableEq

inductive EventType where
  | paymentSucceeded
  | paymentFailed
  | refundSucceeded
  | other (name : String)
  deriving DecidableEq

inductive EventStatus where
  | received
  | processed
  | failed
  deriving DecidableEq

/-- The normalized data of a webhook. -/
structure EventData where
  paymentReference : String := ""
  refundReference : String := ""
  reason : String := ""
  deriving DecidableEq

/-- A stored webhook; event ids are unique over all providers. -/
structure WebhookEvent where
  provider : GatewayName
  eventType : EventType
  payload : EventData
  status : EventStatus := .received
  error : String := ""
  processedAt : Option Time := none
  deriving DecidableEq

/-! ## Disputes -/

inductive DisputeStatus where
  | opened
  | underReview
  | awaitingResponse
  | resolved
  | closed
  deriving DecidableEq

/-- The stored text of a dispute status. -/
def DisputeStatus.value : DisputeStatus → String
  | .opened => "open"
  | .underReview => "under_review"
  | .awaitingResponse => "awaiting_response"
  | .resolved => "resolved"
  | .closed => "closed"

inductive DisputeReason where
  | qualityBelowExpectations
  | expertUnresponsive
  | deadlineMissed
  | scopeDisagreement
  | paymentIssue
  | integrityConcern
  | other
  deriving DecidableEq

structure Dispute where
  openedBy : UserId
  reason : DisputeReason
  description : String
  priorOrderStatus : OrderStatus
  status : DisputeStatus := .opened
  outcome : Option DisputeOutcome := none
  resolutionNotes : String := ""
  resolvedBy : Option UserId := none
  resolvedAt : Option Time := none
  closedAt : Option Time := none
  deriving DecidableEq

end KnowledgeMarketplace
