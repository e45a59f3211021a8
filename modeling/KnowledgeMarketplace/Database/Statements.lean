import KnowledgeMarketplace.Core.Errors
import KnowledgeMarketplace.Database.Conversations
import KnowledgeMarketplace.Transaction.Rules
import KnowledgeMarketplace.Transaction.Table

/-!
# Statements

The tables, the row locks and the statements that services execute.  A save
writes the columns of its `update_fields` and leaves the others alone.  Three
kinds of saves come from copies that were read without a lock; their
statements say so, because such a save can overwrite a newer row.
-/

namespace KnowledgeMarketplace

open Transaction

/-- The committed rows of all modelled tables. -/
structure Db where
  config : PlatformConfig := {}
  experts : Table UserId Expert := .empty
  requests : Table RequestId ServiceRequest := .empty
  offers : Table OfferId Offer := .empty
  invitations : Table InvitationId PoolInvitation := .empty
  assignments : Table AssignmentId DirectAssignment := .empty
  orders : Table OrderId Order := .empty
  deliveries : Table DeliveryId Delivery := .empty
  orderEvents : List OrderEvent := []
  deadlineProposals : Table OrderId DeadlineProposal := .empty
  payments : Table OrderId Payment := .empty
  refunds : Table RefundId Refund := .empty
  payouts : Table PayoutId Payout := .empty
  ledger : List LedgerEntry := []
  webhookEvents : Table String WebhookEvent := .empty
  disputes : Table OrderId Dispute := .empty
  conversations : Conversations := {}

/-- A row that can be locked. -/
inductive Row where
  | config
  | request (id : RequestId)
  | offer (id : OfferId)
  | invitation (id : InvitationId)
  | assignment (id : AssignmentId)
  | order (id : OrderId)
  | delivery (id : DeliveryId)
  | deadlineProposal (order : OrderId)
  | payment (order : OrderId)
  | refund (id : RefundId)
  | payout (id : PayoutId)
  | webhookEvent (eventId : String)
  | dispute (order : OrderId)
  | application (id : UserId)
  | profile (id : UserId)
  | conversation (row : ConversationRow)
  deriving DecidableEq

/-- The `INSERT` and `UPDATE` statements of the services. -/
inductive Stmt where
  | saveConfig (value : PlatformConfig)
  | insertRequest (id : RequestId) (value : ServiceRequest)
  /-- A save of a copy whose status was `loaded` when it was read. -/
  | saveRequest (id : RequestId) (loaded : RequestStatus)
      (set : ServiceRequest → ServiceRequest)
  /-- A row of a bulk update of requests. -/
  | updateRequest (id : RequestId) (set : ServiceRequest → ServiceRequest)
  | insertOffer (id : OfferId) (value : Offer)
  | saveOffer (id : OfferId) (set : Offer → Offer)
  | insertInvitation (id : InvitationId) (value : PoolInvitation)
  | saveInvitation (id : InvitationId) (set : PoolInvitation → PoolInvitation)
  | insertAssignment (id : AssignmentId) (value : DirectAssignment)
  | saveAssignment (id : AssignmentId)
      (set : DirectAssignment → DirectAssignment)
  | insertOrder (id : OrderId) (value : Order)
  | saveOrder (id : OrderId) (set : Order → Order)
  | insertDelivery (id : DeliveryId) (value : Delivery)
  | saveDelivery (id : DeliveryId) (set : Delivery → Delivery)
  | recordEvent (value : OrderEvent)
  | insertDeadlineProposal (order : OrderId) (value : DeadlineProposal)
  | saveDeadlineProposal (order : OrderId)
      (set : DeadlineProposal → DeadlineProposal)
  | insertPayment (order : OrderId) (value : Payment)
  /-- A save of a copy that was read without a lock. -/
  | savePayment (order : OrderId) (set : Payment → Payment)
  /-- A save under the row lock, or a row of a bulk update. -/
  | updatePayment (order : OrderId) (set : Payment → Payment)
  | insertRefund (id : RefundId) (value : Refund)
  | saveRefund (id : RefundId) (set : Refund → Refund)
  | insertPayout (id : PayoutId) (value : Payout)
  | savePayout (id : PayoutId) (set : Payout → Payout)
  | appendLedger (entry : LedgerEntry)
  | insertWebhookEvent (eventId : String) (value : WebhookEvent)
  | saveWebhookEvent (eventId : String) (set : WebhookEvent → WebhookEvent)
  | insertDispute (order : OrderId) (value : Dispute)
  /-- A save of a copy whose status was `loaded` when it was read. -/
  | saveDispute (order : OrderId) (loaded : DisputeStatus)
      (set : Dispute → Dispute)
  /-- The profile of a newly approved expert. -/
  | insertExpert (id : UserId) (value : Expert)
  /-- A save of the application's status. -/
  | saveApplication (id : UserId) (approved : Bool)
  /-- A save of the profile, from a copy that was read without a lock. -/
  | saveProfile (id : UserId) (available : Bool)
  | converse (stmt : ConversationStmt)

namespace Stmt

/-- The effect of a statement on the tables. -/
def apply (db : Db) : Stmt → Db
  | .saveConfig value => { db with config := value }
  | .insertRequest id value =>
      { db with requests := db.requests.insert id value }
  | .saveRequest id _ set =>
      { db with requests := db.requests.modify id set }
  | .updateRequest id set =>
      { db with requests := db.requests.modify id set }
  | .insertOffer id value => { db with offers := db.offers.insert id value }
  | .saveOffer id set => { db with offers := db.offers.modify id set }
  | .insertInvitation id value =>
      { db with invitations := db.invitations.insert id value }
  | .saveInvitation id set =>
      { db with invitations := db.invitations.modify id set }
  | .insertAssignment id value =>
      { db with assignments := db.assignments.insert id value }
  | .saveAssignment id set =>
      { db with assignments := db.assignments.modify id set }
  | .insertOrder id value => { db with orders := db.orders.insert id value }
  | .saveOrder id set => { db with orders := db.orders.modify id set }
  | .insertDelivery id value =>
      { db with deliveries := db.deliveries.insert id value }
  | .saveDelivery id set =>
      { db with deliveries := db.deliveries.modify id set }
  | .recordEvent value =>
      { db with orderEvents := db.orderEvents ++ [value] }
  | .insertDeadlineProposal order value =>
      { db with deadlineProposals := db.deadlineProposals.insert order value }
  | .saveDeadlineProposal order set =>
      { db with deadlineProposals := db.deadlineProposals.modify order set }
  | .insertPayment order value =>
      { db with payments := db.payments.insert order value }
  | .savePayment order set =>
      { db with payments := db.payments.modify order set }
  | .updatePayment order set =>
      { db with payments := db.payments.modify order set }
  | .insertRefund id value => { db with refunds := db.refunds.insert id value }
  | .saveRefund id set => { db with refunds := db.refunds.modify id set }
  | .insertPayout id value => { db with payouts := db.payouts.insert id value }
  | .savePayout id set => { db with payouts := db.payouts.modify id set }
  | .appendLedger entry => { db with ledger := db.ledger ++ [entry] }
  | .insertWebhookEvent eventId value =>
      { db with webhookEvents := db.webhookEvents.insert eventId value }
  | .saveWebhookEvent eventId set =>
      { db with webhookEvents := db.webhookEvents.modify eventId set }
  | .insertDispute order value =>
      { db with disputes := db.disputes.insert order value }
  | .saveDispute order _ set =>
      { db with disputes := db.disputes.modify order set }
  | .insertExpert id value =>
      { db with experts := db.experts.insert id value }
  | .saveApplication id approved =>
      { db with
        experts := db.experts.modify id fun stored => { stored with approved } }
  | .saveProfile id available =>
      { db with
        experts := db.experts.modify id fun stored =>
          { stored with available } }
  | .converse stmt =>
      { db with conversations := stmt.apply db.conversations }

/-- The row a statement locks; entries of logs are new rows nobody waits for. -/
def rows : Stmt → List Row
  | .saveConfig _ => [.config]
  | .insertRequest id _ | .saveRequest id _ _ | .updateRequest id _ =>
      [.request id]
  | .insertOffer id _ | .saveOffer id _ => [.offer id]
  | .insertInvitation id _ | .saveInvitation id _ => [.invitation id]
  | .insertAssignment id _ | .saveAssignment id _ => [.assignment id]
  | .insertOrder id _ | .saveOrder id _ => [.order id]
  | .insertDelivery id _ | .saveDelivery id _ => [.delivery id]
  | .recordEvent _ | .appendLedger _ => []
  | .insertDeadlineProposal order _ | .saveDeadlineProposal order _ =>
      [.deadlineProposal order]
  | .insertPayment order _ | .savePayment order _ | .updatePayment order _ =>
      [.payment order]
  | .insertRefund id _ | .saveRefund id _ => [.refund id]
  | .insertPayout id _ | .savePayout id _ => [.payout id]
  | .insertWebhookEvent eventId _ | .saveWebhookEvent eventId _ =>
      [.webhookEvent eventId]
  | .insertDispute order _ | .saveDispute order _ _ => [.dispute order]
  | .insertExpert id _ => [.application id, .profile id]
  | .saveApplication id _ => [.application id]
  | .saveProfile id _ => [.profile id]
  | .converse stmt => [.conversation stmt.row]

end Stmt

/-- The tables that statements write. -/
inductive TableName where
  | config
  | requests
  | offers
  | invitations
  | assignments
  | orders
  | deliveries
  | orderEvents
  | deadlineProposals
  | payments
  | refunds
  | payouts
  | ledger
  | webhookEvents
  | disputes
  | experts
  | conversations
  deriving DecidableEq

namespace Stmt

/-- The one table that a statement writes. -/
def table : Stmt → TableName
  | .saveConfig _ => .config
  | .insertRequest _ _ | .saveRequest _ _ _ | .updateRequest _ _ => .requests
  | .insertOffer _ _ | .saveOffer _ _ => .offers
  | .insertInvitation _ _ | .saveInvitation _ _ => .invitations
  | .insertAssignment _ _ | .saveAssignment _ _ => .assignments
  | .insertOrder _ _ | .saveOrder _ _ => .orders
  | .insertDelivery _ _ | .saveDelivery _ _ => .deliveries
  | .recordEvent _ => .orderEvents
  | .insertDeadlineProposal _ _ | .saveDeadlineProposal _ _ =>
      .deadlineProposals
  | .insertPayment _ _ | .savePayment _ _ | .updatePayment _ _ => .payments
  | .insertRefund _ _ | .saveRefund _ _ => .refunds
  | .insertPayout _ _ | .savePayout _ _ => .payouts
  | .appendLedger _ => .ledger
  | .insertWebhookEvent _ _ | .saveWebhookEvent _ _ => .webhookEvents
  | .insertDispute _ _ | .saveDispute _ _ _ => .disputes
  | .insertExpert _ _ | .saveApplication _ _ | .saveProfile _ _ => .experts
  | .converse _ => .conversations

variable {stmt : Stmt} {db : Db}

example (id : OfferId) (value : Offer) :
    ((insertOffer id value).apply db).offers = db.offers.insert id value ∧
      (insertOffer id value).rows = [.offer id] := by
  simp only [apply, rows, and_self]

theorem apply_config (other : stmt.table ≠ .config) :
    (stmt.apply db).config = db.config := by
  cases stmt <;> first | rfl | exact absurd rfl other

theorem apply_requests (other : stmt.table ≠ .requests) :
    (stmt.apply db).requests = db.requests := by
  cases stmt <;> first | rfl | exact absurd rfl other

theorem apply_invitations (other : stmt.table ≠ .invitations) :
    (stmt.apply db).invitations = db.invitations := by
  cases stmt <;> first | rfl | exact absurd rfl other

theorem apply_assignments (other : stmt.table ≠ .assignments) :
    (stmt.apply db).assignments = db.assignments := by
  cases stmt <;> first | rfl | exact absurd rfl other

theorem apply_orders (other : stmt.table ≠ .orders) :
    (stmt.apply db).orders = db.orders := by
  cases stmt <;> first | rfl | exact absurd rfl other

theorem apply_orderEvents (other : stmt.table ≠ .orderEvents) :
    (stmt.apply db).orderEvents = db.orderEvents := by
  cases stmt <;> first | rfl | exact absurd rfl other

theorem apply_payments (other : stmt.table ≠ .payments) :
    (stmt.apply db).payments = db.payments := by
  cases stmt <;> first | rfl | exact absurd rfl other

theorem apply_refunds (other : stmt.table ≠ .refunds) :
    (stmt.apply db).refunds = db.refunds := by
  cases stmt <;> first | rfl | exact absurd rfl other

theorem apply_payouts (other : stmt.table ≠ .payouts) :
    (stmt.apply db).payouts = db.payouts := by
  cases stmt <;> first | rfl | exact absurd rfl other

theorem apply_ledger (other : stmt.table ≠ .ledger) :
    (stmt.apply db).ledger = db.ledger := by
  cases stmt <;> first | rfl | exact absurd rfl other

theorem apply_disputes (other : stmt.table ≠ .disputes) :
    (stmt.apply db).disputes = db.disputes := by
  cases stmt <;> first | rfl | exact absurd rfl other

/-! A row changes only under its lock. -/

theorem apply_request_row {id : RequestId}
    (free : .request id ∉ stmt.rows) :
    (stmt.apply db).requests.row id = db.requests.row id := by
  cases stmt <;> simp [rows] at free <;> simp [apply, free]

/-- A request after a statement depends on that request only. -/
theorem apply_request_congr {other : Db} {id : RequestId}
    (same : db.requests.row id = other.requests.row id) :
    (stmt.apply db).requests.row id = (stmt.apply other).requests.row id := by
  cases stmt with
  | insertRequest key _ | saveRequest key _ _ | updateRequest key _ =>
      by_cases target : id = key
      · subst target
        simp [apply, Table.row_insert, same]
      · simp [apply, target, same]
  | _ => exact same

theorem apply_invitation_row {id : InvitationId}
    (free : .invitation id ∉ stmt.rows) :
    (stmt.apply db).invitations.row id = db.invitations.row id := by
  cases stmt <;> simp [rows] at free <;> simp [apply, free]

theorem apply_assignment_row {id : AssignmentId}
    (free : .assignment id ∉ stmt.rows) :
    (stmt.apply db).assignments.row id = db.assignments.row id := by
  cases stmt <;> simp [rows] at free <;> simp [apply, free]

theorem apply_order_row {id : OrderId}
    (free : .order id ∉ stmt.rows) :
    (stmt.apply db).orders.row id = db.orders.row id := by
  cases stmt <;> simp [rows] at free <;> simp [apply, free]

theorem apply_payment_row {order : OrderId}
    (free : .payment order ∉ stmt.rows) :
    (stmt.apply db).payments.row order = db.payments.row order := by
  cases stmt <;> simp [rows] at free <;> simp [apply, free]

/-- A payment after a statement depends on that payment only. -/
theorem apply_payment_congr {other : Db} {order : OrderId}
    (same : db.payments.row order = other.payments.row order) :
    (stmt.apply db).payments.row order =
      (stmt.apply other).payments.row order := by
  cases stmt with
  | insertPayment key _ | savePayment key _ | updatePayment key _ =>
      by_cases target : order = key
      · subst target
        simp [apply, Table.row_insert, same]
      · simp [apply, target, same]
  | _ => exact same

theorem apply_payout_row {id : PayoutId}
    (free : .payout id ∉ stmt.rows) :
    (stmt.apply db).payouts.row id = db.payouts.row id := by
  cases stmt <;> simp [rows] at free <;> simp [apply, free]

theorem apply_dispute_row {order : OrderId}
    (free : .dispute order ∉ stmt.rows) :
    (stmt.apply db).disputes.row order = db.disputes.row order := by
  cases stmt <;> simp [rows] at free <;> simp [apply, free]

end Stmt

instance : Store Db Row Stmt where
  apply stmt db := stmt.apply db
  rows := Stmt.rows

@[simp] theorem store_apply (stmt : Stmt) (db : Db) :
    Store.apply stmt db = stmt.apply db :=
  rfl

@[simp] theorem store_rows (stmt : Stmt) : Store.rows Db stmt = stmt.rows :=
  rfl

/-- A request after a transaction depends on that request only. -/
theorem applyAll_request_congr
    {stmts : List Stmt} {first second : Db} {id : RequestId}
    (same : first.requests.row id = second.requests.row id) :
    (applyAll stmts first).requests.row id =
      (applyAll stmts second).requests.row id :=
  applyAll_congr (fun db : Db => db.requests.row id)
    (fun _ _ _ => Stmt.apply_request_congr) same

/-- A payment after a transaction depends on that payment only. -/
theorem applyAll_payment_congr
    {stmts : List Stmt} {first second : Db} {order : OrderId}
    (same : first.payments.row order = second.payments.row order) :
    (applyAll stmts first).payments.row order =
      (applyAll stmts second).payments.row order :=
  applyAll_congr (fun db : Db => db.payments.row order)
    (fun _ _ _ => Stmt.apply_payment_congr) same

/-- The body of a transaction. -/
abbrev Tx (α : Type) := Prog Db Row Stmt Error α

/-- A request of a client, a worker job or an operator action. -/
abbrev Call (α : Type) := Request Db Row Stmt Error α

namespace Tx

export Transaction.Prog
  (read lockRow exec throw require orFail ofExcept orElse forEach attempt
    tryCatch updateWhere selectForUpdate)

/-- `objects.get(pk=key)`. -/
def get {ρ : Type} (find : Db → Option ρ) (model : String) : Tx ρ := do
  orFail (← read find) (.doesNotExist model)

/-- `objects.select_for_update().get(pk=key)`. -/
def getForUpdate {ρ : Type}
    (row : Row) (find : Db → Option ρ) (model : String) : Tx ρ := do
  lockRow row
  get find model

/--
`objects.create(...)`.  An insert waits for other inserts of the same key; a
key that is then in use violates the primary key or a unique constraint.
-/
def create (row : Row) (used : Db → Bool) (stmt : Stmt) (table : String) :
    Tx Unit := do
  lockRow row
  require (¬(← read used)) (.integrity table)
  exec stmt

end Tx

namespace Call

export Transaction.Request
  (load atomic throw require orFail ofExcept tryCatch forEach)

/-- `objects.get(pk=key)` outside a transaction. -/
def get {ρ : Type} (find : Db → Option ρ) (model : String) : Call ρ := do
  orFail (← load find) (.doesNotExist model)

/-- A statement in a transaction of its own, as in autocommit mode. -/
def exec (stmt : Stmt) : Call Unit :=
  atomic (Transaction.Prog.exec stmt)

end Call

end KnowledgeMarketplace
