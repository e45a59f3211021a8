import KnowledgeMarketplace.Payments.Services

/-!
# Figures of the portal

The dashboard and the reconciliation report aggregate payments, refunds, payouts
and the ledger; they write nothing.
-/

namespace KnowledgeMarketplace

open Payments

namespace Portal

/-- A ledger entry without an order, which the column allows. -/
structure LooseEntry where
  entryType : EntryType
  amountMinor : Int
  deriving DecidableEq

/-- What the portal reads; the services write no entry without an order. -/
structure Books where
  db : Db
  loose : List LooseEntry := []

/-- What the portal reads of the marketplace. -/
def books (db : Db) : Books := { db }

/-- `Sum("amount_minor")` of the entries of one type, over the whole ledger. -/
def ledgerSum (entryType : EntryType) (books : Books) : Int :=
  ((books.db.ledger.filter (·.entryType = entryType)).map
      LedgerEntry.amountMinor).sum +
    ((books.loose.filter (·.entryType = entryType)).map
      LooseEntry.amountMinor).sum

/-- A payout that is neither settled nor given up. -/
def unsettled (payout : Payout) : Bool :=
  payout.status = .scheduled || payout.status = .inTransit

/-- The sum of the payouts that satisfy a predicate. -/
def payoutSum (holds : Payout → Bool) (db : Db) : Int :=
  (db.payouts.collect fun payout =>
    if holds payout then some payout.amountMinor else none).sum

/-! ## The dashboard -/

/-- The status of a payment that counts as turnover. -/
def collected (payment : Payment) : Bool :=
  payment.status = .succeeded || payment.status = .refunded ||
    payment.status = .partiallyRefunded

/-- The figures that do not depend on the dates of entries and refunds. -/
structure FinancialKpis where
  gmvMinor : Int
  expertPayableMinor : Int
  payouts : PayoutStatus → Nat

/-- How many payouts have a status. -/
def payoutCount (books : Books) (status : PayoutStatus) : Nat :=
  (books.db.payouts.select fun _ payout => payout.status = status).length

/-- Financial figures; the range only selects the payments of the turnover. -/
def financialKpis (dateFrom dateTo : Time) (books : Books) : FinancialKpis :=
  let gmv := (books.db.payments.collect fun payment =>
    if payment.paidAt.any (fun moment => dateFrom ≤ moment ∧ moment < dateTo) ∧
        collected payment = true then
      some payment.amountMinor
    else none).sum
  let credit := ledgerSum .expertCredit books
  let paidOut := ledgerSum .payout books
  let unsettled := payoutSum unsettled books.db
  { gmvMinor := gmv
    expertPayableMinor := credit - paidOut - unsettled
    payouts := payoutCount books }

/-! ## Reconciliation -/

/-- The checks of the report. -/
inductive Check where
  | ledgerIdentity
  | refundLedgerParity
  | payoutCreditParity
  | paymentLedgerCoverage
  | paymentRefundState
  | webhookFailures
  deriving DecidableEq

namespace Check

/-- How a finding names its check. -/
def value : Check → String
  | ledgerIdentity => "ledger_identity"
  | refundLedgerParity => "refund_ledger_parity"
  | payoutCreditParity => "payout_credit_parity"
  | paymentLedgerCoverage => "payment_ledger_coverage"
  | paymentRefundState => "payment_refund_state"
  | webhookFailures => "webhook_failures"

end Check

/-- How urgent a finding is. -/
inductive Severity where
  | high
  | medium
  deriving DecidableEq

/-- The row that a finding is about. -/
inductive Subject where
  | order (id : OrderId)
  | payment (id : OrderId)
  deriving DecidableEq

/-- A value in the detail of a finding. -/
inductive Detail where
  | amount (minor : Int)
  | text (value : String)
  deriving DecidableEq

/-- One finding of the report. -/
structure Finding where
  check : Check
  severity : Severity
  subject : Option Subject := none
  detail : List (String × Detail) := []
  deriving DecidableEq

/-- The violations of the nightly check. -/
def ledgerIdentity (books : Books) : List Finding :=
  (ledgerCheck books.db).2.map fun violation =>
    { check := .ledgerIdentity
      severity := .high
      subject := some (.order violation.orderId)
      detail :=
        [("charge_plus_refund", .amount violation.chargePlusRefund),
          ("allocations", .amount violation.allocations)] }

/-- The payment of a refund that succeeded. -/
def succeededRefund (refund : Refund) : Option OrderId :=
  if refund.status = .succeeded then some refund.payment else none

/-- The sum of the succeeded refunds of an order. -/
def refundRows (id : OrderId) (db : Db) : Int :=
  (db.refunds.collect fun refund =>
    if succeededRefund refund = some id then some refund.amountMinor
    else none).sum

/-- Refund rows per order against its `refund` entries, which are negative. -/
def refundLedgerParity (books : Books) : List Finding :=
  (books.db.refunds.collect succeededRefund).dedup.filterMap fun id =>
    let refundTotal := refundRows id books.db
    let ledgerTotal := -total books.db.ledger id .refund
    if refundTotal ≠ ledgerTotal then
      some
        { check := .refundLedgerParity
          severity := .high
          subject := some (.order id)
          detail :=
            [("refund_rows", .amount refundTotal),
              ("ledger_refund", .amount ledgerTotal)] }
    else none

/-- Unsettled payouts against the expert credit that is not allocated. -/
def payoutCreditParity (books : Books) : List Finding :=
  let credit := ledgerSum .expertCredit books
  let paidOut := ledgerSum .payout books
  let unsettled := payoutSum unsettled books.db
  if credit - paidOut - unsettled < 0 then
    [{ check := .payoutCreditParity
       severity := .high
       detail :=
         [("expert_credit", .amount credit), ("ledger_payouts", .amount paidOut),
           ("unsettled_payouts", .amount unsettled)] }]
  else []

/-- The ledger charges the order. -/
def charged (id : OrderId) (db : Db) : Bool :=
  db.ledger.any fun entry => entry.order = id && entry.entryType = .charge

/-- The order of a succeeded payment needs a charge in the ledger. -/
def paymentLedgerCoverage (books : Books) : List Finding :=
  (books.db.payments.select fun id payment =>
    payment.status = .succeeded && !charged id books.db).map fun id =>
      { check := .paymentLedgerCoverage
        severity := .high
        subject := some (.payment id) }

/-- The sum of the refunds of a payment. -/
def refundSum (id : OrderId) (db : Db) : Int :=
  (db.refunds.collect fun refund =>
    if refund.payment = id then some refund.amountMinor else none).sum

/-- What a payment says about its refunds against their rows. -/
def paymentRefundState (books : Books) : List Finding :=
  books.db.payments.keys.filterMap fun id =>
    (books.db.payments.row id).bind fun payment =>
      if 0 < payment.refundedMinor ∧
          refundSum id books.db ≠ payment.refundedMinor then
        some
          { check := .paymentRefundState
            severity := .medium
            subject := some (.payment id)
            detail :=
              [("refunded_minor", .amount payment.refundedMinor),
                ("refund_rows", .amount (refundSum id books.db))] }
      else none

/-- How many webhook events have failed. -/
def failedEvents (books : Books) : Nat :=
  (books.db.webhookEvents.select fun _ event => event.status = .failed).length

/-- Webhook events that wait for a replay. -/
def webhookHealth (books : Books) : List Finding :=
  if failedEvents books ≠ 0 then
    [{ check := .webhookFailures
       severity := .medium
       detail :=
         [("failed_events", .amount (failedEvents books)),
           ("action", .text "replay from Django admin")] }]
  else []

/-- The checks, in their order. -/
def checks : List (Books → List Finding) :=
  [ledgerIdentity, refundLedgerParity, payoutCreditParity,
    paymentLedgerCoverage, paymentRefundState, webhookHealth]

/-- The counts at the end of a report. -/
structure Summary where
  succeededPayments : Nat
  refundCount : Nat
  payoutCounts : PayoutStatus → Nat
  failedWebhooks : Nat

/-- The report. -/
structure Report where
  generatedAt : Time
  ok : Bool
  findings : List Finding
  summary : Summary

/-- Run all checks. -/
def reconciliationReport (env : Env) (books : Books) : Report :=
  let findings := checks.flatMap (· books)
  { generatedAt := env.now
    ok := findings = []
    findings
    summary :=
      { succeededPayments := (books.db.payments.select fun _ payment =>
          payment.status = .succeeded).length
        refundCount := books.db.refunds.keys.length
        payoutCounts := payoutCount books
        failedWebhooks := failedEvents books } }

end Portal

end KnowledgeMarketplace
