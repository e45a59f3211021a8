import KnowledgeMarketplace.Portal.Payable

/-!
# What a clean report says

Each check goes through the rows of one side, or through sums over all orders.
A report without findings says what these checks can see.
-/

namespace KnowledgeMarketplace

open Transaction Payments

namespace Portal

/-! ## The single checks -/

section Checks

variable {books : Books}

theorem ledgerIdentity_eq_nil :
    ledgerIdentity books = [] ↔ ∀ id,
      chargePlusRefund books.db.ledger id = allocations books.db.ledger id := by
  simp only [ledgerIdentity, List.map_eq_nil_iff, ledgerCheck,
    List.filterMap_eq_nil_iff, List.mem_dedup]
  constructor
  · intro clean id
    by_cases listed : id ∈ books.db.ledger.map LedgerEntry.order
    · have fine := clean id listed
      by_contra violated
      simp [violated] at fine
    · have missing : ∀ entryType, total books.db.ledger id entryType = 0 := by
        intro entryType
        have none : books.db.ledger.filter (fun entry =>
            entry.order = id && entry.entryType = entryType) = [] := by
          refine List.filter_eq_nil_iff.mpr fun entry member booked => listed ?_
          simp only [Bool.and_eq_true, decide_eq_true_eq] at booked
          exact List.mem_map.mpr ⟨entry, member, booked.1⟩
        simp [total, none]
      simp [chargePlusRefund, allocations, missing]
  · intro identity id _
    simp [identity id]

theorem refundLedgerParity_eq_nil :
    refundLedgerParity books = [] ↔ ∀ key refund,
      books.db.refunds.row key = some refund → refund.status = .succeeded →
        refundRows refund.payment books.db =
          -total books.db.ledger refund.payment .refund := by
  have listed : ∀ id, id ∈ books.db.refunds.collect succeededRefund ↔
      ∃ key refund, books.db.refunds.row key = some refund ∧
        refund.status = .succeeded ∧ refund.payment = id := by
    intro id
    simp only [Table.collect, List.mem_filterMap, Option.bind_eq_some_iff,
      succeededRefund, Option.ite_none_right_eq_some, Option.some.injEq]
    constructor
    · rintro ⟨key, _, refund, stored, succeeded, about⟩
      exact ⟨key, refund, stored, succeeded, about⟩
    · rintro ⟨key, refund, stored, succeeded, about⟩
      exact ⟨key, (books.db.refunds.mem_keys key).mpr (by simp [stored]),
        refund, stored, succeeded, about⟩
  simp only [refundLedgerParity, List.filterMap_eq_nil_iff, List.mem_dedup,
    listed, ite_eq_right_iff, reduceCtorEq, imp_false, not_not]
  constructor
  · intro clean key refund stored succeeded
    exact clean _ ⟨key, refund, stored, succeeded, rfl⟩
  · rintro parity _ ⟨key, refund, stored, succeeded, rfl⟩
    exact parity key refund stored succeeded

theorem paymentLedgerCoverage_eq_nil :
    paymentLedgerCoverage books = [] ↔ ∀ id payment,
      books.db.payments.row id = some payment → payment.status = .succeeded →
        charged id books.db = true := by
  rw [paymentLedgerCoverage, List.map_eq_nil_iff,
    List.eq_nil_iff_forall_not_mem]
  simp only [Table.mem_select, Bool.and_eq_true, decide_eq_true_eq,
    Bool.not_eq_true']
  constructor
  · intro clean id payment stored succeeded
    by_contra uncharged
    exact clean id ⟨payment, stored, succeeded, by simpa using uncharged⟩
  · rintro covered id ⟨payment, stored, succeeded, uncharged⟩
    simp [covered id payment stored succeeded] at uncharged

theorem paymentRefundState_eq_nil :
    paymentRefundState books = [] ↔ ∀ id payment,
      books.db.payments.row id = some payment → 0 < payment.refundedMinor →
        payment.refundedMinor = refundSum id books.db := by
  simp only [paymentRefundState, List.filterMap_eq_nil_iff,
    Option.bind_eq_none_iff, ite_eq_right_iff, reduceCtorEq, imp_false, not_and,
    not_not, Table.mem_keys]
  constructor
  · intro clean id payment stored positive
    exact (clean id (by simp [stored]) payment stored positive).symm
  · intro agrees id _ payment stored positive
    exact (agrees id payment stored positive).symm

end Checks

/-! ## The report -/

/-- What the checks see, as long as no payout has been settled. -/
structure Reported (books : Books) : Prop where
  refunds : ∀ key refund, books.db.refunds.row key = some refund →
    refund.status = .succeeded →
      refundRows refund.payment books.db =
        -total books.db.ledger refund.payment .refund
  payments : ∀ id payment, books.db.payments.row id = some payment →
    0 < payment.refundedMinor → payment.refundedMinor = refundSum id books.db
  charges : ∀ id payment, books.db.payments.row id = some payment →
    payment.status = .succeeded → charged id books.db = true
  identity : ∀ id,
    chargePlusRefund books.db.ledger id = allocations books.db.ledger id
  payouts : ledgerSum .payout books = 0 →
    payoutSum unsettled books.db ≤ ledgerSum .expertCredit books

/-- What one might read into a report without findings. -/
structure Complete (books : Books) : Prop where
  refunds : ∀ id,
    refundRows id books.db = -total books.db.ledger id .refund
  payments : ∀ id payment, books.db.payments.row id = some payment →
    payment.refundedMinor = refundSum id books.db
  charges : ∀ id payment, books.db.payments.row id = some payment →
    collected payment = true → charged id books.db = true
  identity : ∀ id,
    chargePlusRefund books.db.ledger id = allocations books.db.ledger id
  payouts : ∀ id,
    payoutSum (fun payout => unsettled payout && payout.order = id) books.db ≤
      remainingPayable id books.db

/-- A report without findings says that its checks see no discrepancy. -/
theorem report_ok
    (env : Env) (books : Books)
    (ok : (reconciliationReport env books).ok = true) : Reported books := by
  have clean : ∀ check ∈ checks, check books = [] := by
    have none : checks.flatMap (· books) = [] := by
      simpa [reconciliationReport] using ok
    exact fun check member => List.flatMap_eq_nil_iff.mp none check member
  refine ⟨?_, ?_, ?_, ?_, fun unpaid => ?_⟩
  · exact refundLedgerParity_eq_nil.mp (clean _ (by simp [checks]))
  · exact paymentRefundState_eq_nil.mp (clean _ (by simp [checks]))
  · exact paymentLedgerCoverage_eq_nil.mp (clean _ (by simp [checks]))
  · exact ledgerIdentity_eq_nil.mp (clean _ (by simp [checks]))
  · have balanced : ¬payoutCreditParity books ≠ [] :=
      not_not.mpr (clean _ (by simp [checks]))
    rw [payoutCreditParity_iff, unpaid] at balanced
    omega

/-! ## What the report does not see -/

/-- The charge of an order is refunded in the ledger only. -/
def unrecordedRefund : Books :=
  books
    { ledger :=
        [{ entryType := .charge, amountMinor := 5000, order := 40, user := some 1 },
          { entryType := .refund
            amountMinor := -5000
            order := 40
            user := some 1 }] }

/-- The payment does not know about its refund. -/
def forgottenRefund : Books :=
  books
    { unrecordedRefund.db with
      payments := .insert .empty 40
        { gateway := .manual, amountMinor := 5000, status := .succeeded }
      refunds := .insert .empty 50
        { payment := 40
          amountMinor := 5000
          reason := .adminDecision
          status := .succeeded } }

/-- A refunded payment that the ledger does not charge. -/
def unchargedPayment : Books :=
  books
    { payments := .insert .empty 40
        { gateway := .manual
          amountMinor := 5000
          status := .refunded
          refundedMinor := 5000 }
      refunds := .insert .empty 50
        { payment := 40
          amountMinor := 5000
          reason := .adminDecision } }

/-- A payout of one order is covered by the credit of another one only. -/
def uncoveredPayout : Books :=
  books
    { payouts := .insert .empty 60
        { order := 40, expert := 2, amountMinor := 4250 }
      ledger :=
        [{ entryType := .charge, amountMinor := 5000, order := 41, user := some 1 },
          { entryType := .commission, amountMinor := 750, order := 41 },
          { entryType := .expertCredit
            amountMinor := 4250
            order := 41
            user := some 2 }] }

/-- Each of the four states has a report without findings. -/
theorem report_incomplete :
    (∀ state ∈ [unrecordedRefund, forgottenRefund, unchargedPayment,
        uncoveredPayout],
      (reconciliationReport { now := 5 } state).ok = true ∧ ¬Complete state) ∧
    refundRows 40 unrecordedRefund.db ≠
      -total unrecordedRefund.db.ledger 40 .refund ∧
    (∀ payment, forgottenRefund.db.payments.row 40 = some payment →
      payment.refundedMinor ≠ refundSum 40 forgottenRefund.db) ∧
    charged 40 unchargedPayment.db = false ∧
    remainingPayable 40 uncoveredPayout.db <
      payoutSum (fun payout => unsettled payout && payout.order = 40)
        uncoveredPayout.db := by
  have entry : refundRows 40 unrecordedRefund.db ≠
      -total unrecordedRefund.db.ledger 40 .refund := by
    decide +kernel
  have row : ∀ payment, forgottenRefund.db.payments.row 40 = some payment →
      payment.refundedMinor ≠ refundSum 40 forgottenRefund.db := by
    rintro payment ⟨⟩
    decide +kernel
  have charge : charged 40 unchargedPayment.db = false := by decide +kernel
  have payout : remainingPayable 40 uncoveredPayout.db <
      payoutSum (fun payout => unsettled payout && payout.order = 40)
        uncoveredPayout.db := by
    decide +kernel
  refine ⟨?_, entry, row, charge, payout⟩
  simp only [List.forall_mem_cons, List.not_mem_nil, false_implies,
    implies_true, and_true]
  refine ⟨⟨by decide +kernel, ?_⟩, ⟨by decide +kernel, ?_⟩,
    ⟨by decide +kernel, ?_⟩, ⟨by decide +kernel, ?_⟩⟩
  · exact fun complete => entry (complete.refunds 40)
  · exact fun complete => row _ rfl (complete.payments 40 _ rfl)
  · intro complete
    have known := complete.charges 40 _ rfl rfl
    simp [charge] at known
  · exact fun complete => absurd (complete.payouts 40) (not_le.mpr payout)

/-- A completed order whose payout is still scheduled has a clean report. -/
theorem report_ok_scheduled : Reported (books scheduledPayout) :=
  report_ok { now := 5 } (books scheduledPayout) (by decide +kernel)

end Portal

end KnowledgeMarketplace
