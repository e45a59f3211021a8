import KnowledgeMarketplace.Orders.Lifecycle

/-!
# Deadline proposals and reminders

Either party proposes a new delivery deadline and the other one answers.  The
jobs that remind and warn mark each order once, by an event.
-/

namespace KnowledgeMarketplace

namespace Orders

/-- A party of the order. -/
def party (actor : Actor) (order : Order) : Bool :=
  actor.id = order.student || actor.id = order.expert

/-- Work on the order is in progress. -/
def inProgress (order : Order) : Bool :=
  order.status = .active || order.status = .delivered ||
    order.status = .revisionRequested

/-- The proposal that waits for an answer. -/
def pendingProposal (id : OrderId) (db : Db) : Option DeadlineProposal :=
  (db.deadlineProposals.row id).filter (·.status = .pending)

/-- A participant proposes a new delivery deadline. -/
def proposeDeadline
    (env : Env) (id : OrderId) (actor : Actor) (proposedDueAt : Time)
    (note : String) : Tx Unit := do
  let order ← getForUpdate id
  Tx.require (party actor order)
    (.permissionDenied "Only the order's participants can propose deadlines.")
  Tx.require (inProgress order)
    (.domainError "Deadlines can be proposed only while work is in progress."
      "invalid_transition")
  Tx.require ((← Tx.read (pendingProposal id)) = none)
    (.domainError "A proposal is already pending on this order."
      "duplicate_proposal")
  Tx.require (env.now < proposedDueAt)
    (.domainError "The proposed deadline must be in the future."
      "validation_error")
  Tx.create (.deadlineProposal id)
    (fun db => (db.deadlineProposals.row id).isSome)
    (.insertDeadlineProposal id
      { proposedBy := actor.id, proposedDueAt, note := clip 300 note })
    "DeadlineProposal"
  recordEvent id .deadlineProposed (some actor)

/-- The proposer withdraws the pending proposal; the other party answers it. -/
def respondDeadlineProposal
    (id : OrderId) (actor : Actor) (accept : Bool) : Tx Unit := do
  let order ← getForUpdate id
  Tx.require (party actor order)
    (.permissionDenied
      "Only the order's participants can respond to proposals.")
  let proposal ← Tx.orFail (← Tx.read (pendingProposal id))
    (.domainError "No pending deadline proposal on this order." "not_found")
  if proposal.proposedBy = actor.id then
    Tx.exec <| .saveDeadlineProposal id fun stored =>
      { stored with status := .withdrawn }
  else
    Tx.exec <| .saveDeadlineProposal id fun stored =>
      { stored with status := if accept then .accepted else .declined }
    if accept then
      Tx.exec <| .saveOrder id fun stored =>
        { stored with deliveryDueAt := some proposal.proposedDueAt }
      recordEvent id .deadlineExtended (some actor)

/-! ## Jobs that mark orders -/

/-- The timeline of the order has an event of this type. -/
def marked (eventType : OrderEventType) (id : OrderId) (db : Db) : Bool :=
  db.orderEvents.any fun event =>
    event.order = id && event.eventType = eventType

/-- Mark the orders of a query that are not marked; each event commits alone. -/
def markOnce (eventType : OrderEventType) (due : Order → Bool) : Call Nat := do
  let orders ← Call.load fun db => db.orders.select fun id order =>
    due order && !marked eventType id db
  Call.forEach orders fun id =>
    Call.exec (.recordEvent { order := id, eventType })
  return orders.length

/-- A moment that lies within the next hours. -/
def within (now : Time) (count : Nat) (moment : Option Time) : Bool :=
  moment.any fun moment => now < moment && moment ≤ now + hours count

/-- Hourly: remind experts whose work is due within 24 hours. -/
def deadlineReminder (env : Env) : Call Nat :=
  markOnce .deadlineReminded fun order =>
    inProgress order && within env.now 24 order.deliveryDueAt

/-- Students are warned this many hours before an automatic approval. -/
def autoApproveWarningHours : Nat := 24

/-- Hourly: warn students whose delivery is about to be approved. -/
def autoApproveWarning (env : Env) : Call Nat :=
  markOnce .autoApproveWarned fun order =>
    order.status = .delivered &&
      within env.now autoApproveWarningHours order.autoApproveAt

/-- Orders are flagged this many hours after their deadline. -/
def overdueFlagGraceHours : Nat := 24

/-- Daily: flag orders whose deadline has passed without a delivery. -/
def flagOverdue (env : Env) : Call Nat :=
  markOnce .overdueFlagged fun order =>
    (order.status = .active || order.status = .revisionRequested) &&
      order.deliveryDueAt.any (· + hours overdueFlagGraceHours < env.now)

end Orders

end KnowledgeMarketplace
