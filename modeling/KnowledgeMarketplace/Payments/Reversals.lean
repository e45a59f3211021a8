import KnowledgeMarketplace.Payments.Commission

/-!
# Reversals over many refunds

Each refund reverses commission and credit in the proportion of the snapshot,
rounded to whole units.  The rounding of a sequence of refunds adds up, and a
snapshot without commission is reversed as if none had been booked.
-/

namespace KnowledgeMarketplace

open Transaction

namespace Payments

/-- What the rounding of refunds adds to the commission's reversals. -/
def roundingDrift (split : Int × Int) (amounts : List Int) : Int :=
  (amounts.map fun amount =>
    Allocation.drift amount split.1 (split.1 + split.2)).sum

/-- The parts of a refund are the shares of the two amounts of the split. -/
theorem reversal_ok
    {amountMinor : Int} {order : Order} {parts : Int × Int}
    (commission : 0 ≤ order.commissionAmount) (expert : 0 ≤ order.expertAmount)
    (reversed : reversal amountMinor order = .ok parts) :
    parts.1 + parts.2 = amountMinor ∧ (0 ≤ parts.1 ∧ 0 ≤ parts.2) ∧
      (order.commissionAmount + order.expertAmount) * parts.1 =
        amountMinor * order.commissionAmount +
          Allocation.drift amountMinor order.commissionAmount
            (order.commissionAmount + order.expertAmount) := by
  simp only [reversal, max_eq_left commission, max_eq_left expert] at reversed
  have nonneg : 0 ≤ parts.1 ∧ 0 ≤ parts.2 := by
    split at reversed
    · rename_i one other allocated
      simp only [Except.ok.injEq] at reversed
      subst reversed
      simpa using (allocate_ok allocated).2.2
    · simp at reversed
    · simp at reversed
  unfold allocate at reversed
  simp only [List.cons_ne_nil, if_false] at reversed
  split_ifs at reversed with negative guard
  · simp only [List.sum_cons, List.sum_nil, add_zero, not_or, not_le]
      at guard
    obtain ⟨share, pair, nearest⟩ :=
      Allocation.shares_pair amountMinor guard.2 rfl
    simp only [pair, Except.ok.injEq] at reversed
    subst reversed
    exact ⟨by omega, nonneg, nearest⟩

/-! ## A sequence of refunds -/

/-- Whatever happened leaves the order's price, payment and balances alone. -/
structure SameAccount (id : OrderId) (before after : Db) : Prop where
  price : ∀ amount rate split,
    PricedAt id amount rate split before → PricedAt id amount rate split after
  payment : after.payments.row id = before.payments.row id
  commission : commissionBalance id after = commissionBalance id before
  credit : expertCreditBalance id after = expertCreditBalance id before

/-- Successful refunds of an order's payment, in order, with their amounts. -/
inductive Refunds (id : OrderId) (start : Db) : List Int → Db → Prop
  | none : Refunds id start [] start
  | meanwhile {amounts : List Int} {db next : Db}
      (earlier : Refunds id start amounts db)
      (same : SameAccount id db next) : Refunds id start amounts next
  | refund {amounts : List Int} {db next : Db}
      (earlier : Refunds id start amounts db)
      (env : Env) (amountMinor : Int) (reason : RefundReason)
      (initiatedBy : Option Actor)
      (succeeds : (issueRefund env id amountMinor reason initiatedBy).eval db =
        (.ok (), next)) :
      Refunds id start (amounts ++ [amountMinor]) next

/-- The account of an order after refunds of some amounts. -/
structure Account
    (id : OrderId) (amount : Int) (rate : CommissionRate)
    (split booked : Int × Int) (amounts : List Int) (db : Db) : Prop where
  priced : PricedAt id amount rate split db
  payment : ∃ payment, db.payments.row id = some payment ∧
    payment.amountMinor = amount ∧ payment.refundedMinor = amounts.sum ∧
    (payment.status = .refunded → amount ≤ amounts.sum)
  capped : amounts.sum ≤ amount
  commission : amount * (booked.1 - commissionBalance id db) =
    amounts.sum * split.1 + roundingDrift split amounts
  credit : commissionBalance id db + expertCreditBalance id db =
    amount - amounts.sum
  reduced : commissionBalance id db ≤ booked.1 ∧
    expertCreditBalance id db ≤ booked.2

variable {id : OrderId} {amount : Int} {rate : CommissionRate}
  {split booked : Int × Int} {amounts : List Int} {db next : Db}

theorem Account.same
    (account : Account id amount rate split booked amounts db)
    (same : SameAccount id db next) :
    Account id amount rate split booked amounts next where
  priced := same.price _ _ _ account.priced
  payment := same.payment ▸ account.payment
  capped := account.capped
  commission := same.commission ▸ account.commission
  credit := by
    rw [same.commission, same.credit]
    exact account.credit
  reduced := by
    rw [same.commission, same.credit]
    exact account.reduced

/-- A refund takes its parts from the two balances. -/
theorem refunding_balances
    (env : Env) (id : OrderId) (amountMinor : Int) (reason : RefundReason)
    (initiatedBy : Option Actor) (payment : Payment) (order : Order)
    (reference : String) (parts : Int × Int) (db : Db) :
    let next := applyAll (refunding env id amountMinor reason initiatedBy
      payment order reference parts) db
    commissionBalance id next = commissionBalance id db - parts.1 ∧
      expertCreditBalance id next = expertCreditBalance id db - parts.2 := by
  simp only [refunding, commissionBalance, expertCreditBalance]
  by_cases credit : parts.2 = 0 <;> by_cases commission : parts.1 = 0 <;>
    simp [credit, commission, Stmt.apply, total, sub_eq_add_neg]

/-- A refund changes the amount refunded and the status of its payment. -/
theorem refunding_payment
    (env : Env) (id : OrderId) (amountMinor : Int) (reason : RefundReason)
    (initiatedBy : Option Actor) (payment : Payment) (order : Order)
    (reference : String) (parts : Int × Int) {db : Db}
    (paid : db.payments.row id = some payment) :
    (applyAll (refunding env id amountMinor reason initiatedBy
      payment order reference parts) db).payments.row id =
        some (refunded amountMinor payment) := by
  simp only [refunding]
  by_cases credit : parts.2 = 0 <;> by_cases commission : parts.1 = 0 <;>
    simp [credit, commission, Stmt.apply, paid, refunded]

/-- A successful refund reverses its amount from the account. -/
theorem issueRefund_account
    (env : Env) (amountMinor : Int) (reason : RefundReason)
    (initiatedBy : Option Actor)
    (account : Account id amount rate split booked amounts db)
    (whole : split.1 + split.2 = amount)
    (commission : 0 ≤ split.1) (expert : 0 ≤ split.2) :
    (issueRefund env id amountMinor reason initiatedBy).Post db
      fun result next => result = .ok () →
        Account id amount rate split booked (amounts ++ [amountMinor]) next := by
  have rule : (issueRefund env id amountMinor reason initiatedBy).wp
      (Protocol.alone db) .start fun result later => result = .ok () →
        ∃ payment order reference parts,
          Refunding (Protocol.alone db) .start later env id amountMinor payment
            order parts ∧
          later.writes = refunding env id amountMinor reason initiatedBy
            payment order reference parts :=
    issueRefund_wp (by simp) fun payment order reference parts later holds
      writes _ => ⟨payment, order, reference, parts, holds, by simpa using writes⟩
  refine (Prog.post_of_wp_start rule rfl).mono ?_
  rintro result next ⟨later, refunds, known, rfl⟩ success
  obtain ⟨payment, order, reference, parts, holds, writes⟩ := refunds success
  have paid : db.payments.row id = some payment := by
    obtain ⟨seen, rfl, found⟩ := holds.paymentRow db known
    exact found
  have stored : db.orders.row id = some order := by
    obtain ⟨seen, rfl, found⟩ := holds.orderSeen
    exact found
  obtain ⟨copy, row, sameAmount, sameRate, rfl⟩ := account.priced
  obtain rfl := Option.some.inj (row.symm.trans stored)
  obtain ⟨other, found, charged, earlier, -⟩ := account.payment
  obtain rfl := Option.some.inj (found.symm.trans paid)
  have orders : (applyAll later.writes db).orders = db.orders := by
    rw [writes]
    exact applyAll_frame Db.orders fun stmt member _ =>
      Stmt.apply_orders fun same => by
        have tables := refunding_tables stmt member
        simp [same] at tables
  have capped := holds.capped
  obtain ⟨exact, nonneg, nearest⟩ :=
    reversal_ok commission expert holds.split
  obtain ⟨commissionAfter, creditAfter⟩ := refunding_balances env id amountMinor
    reason initiatedBy other copy reference parts db
  rw [← writes] at commissionAfter creditAfter
  have before := account.commission
  have balance := account.credit
  have reduced := account.reduced
  exact
    { priced := ⟨copy, by rw [orders, row], sameAmount, sameRate, rfl⟩
      payment := ⟨refunded amountMinor other, by
          rw [writes]
          exact refunding_payment _ _ _ _ _ _ _ _ _ paid, charged,
        by simp [refunded, earlier], fun status => by
          simp [refunded] at status
          simp
          omega⟩
      capped := by
        rw [List.sum_append, List.sum_singleton]
        omega
      commission := by
        have whole : copy.commissionAmount + copy.expertAmount = amount := whole
        rw [whole] at nearest
        simp only [roundingDrift, List.map_append, List.map_cons, List.map_nil,
          List.sum_append, List.sum_singleton, Order.split, whole] at before ⊢
        rw [commissionAfter, sub_sub_eq_add_sub, add_sub_right_comm, mul_add,
          before, nearest]
        ring
      credit := by
        rw [commissionAfter, creditAfter, List.sum_append, List.sum_singleton]
        omega
      reduced := by
        rw [commissionAfter, creditAfter]
        omega }

/-- A sequence of refunds reverses all their amounts. -/
theorem Refunds.account
    {start : Db} (refunds : Refunds id start amounts db)
    (account : Account id amount rate split booked [] start)
    (whole : split.1 + split.2 = amount)
    (commission : 0 ≤ split.1) (expert : 0 ≤ split.2) :
    Account id amount rate split booked amounts db := by
  induction refunds with
  | none => exact account
  | meanwhile earlier same inductionHypothesis =>
      exact inductionHypothesis.same same
  | refund earlier env amountMinor reason initiatedBy succeeds
      inductionHypothesis =>
      have reversed := issueRefund_account env amountMinor reason initiatedBy
        inductionHypothesis whole commission expert
      simp only [Prog.Post, succeeds] at reversed
      exact reversed trivial

/-- A confirmation opens the account of an order that had none. -/
theorem Confirms.account
    {env : Env} {order : Order} {payment : Payment}
    (confirms : Confirms env id order payment db next)
    (priced : PricedAt id amount rate split db)
    (commission : commissionBalance id db = 0)
    (credit : expertCreditBalance id db = 0)
    (unrefunded : payment.refundedMinor = 0)
    (whole : split.1 + split.2 = amount) (nonneg : 0 ≤ amount) :
    Account id amount rate split
      (if split.1 = 0 then commissionSplit amount rate else split) [] next := by
  have books := confirms.books priced
  simp only [bookedBetween, commission, credit, sub_zero] at books
  have sum : (if split.1 = 0 then commissionSplit amount rate else split).1 +
      (if split.1 = 0 then commissionSplit amount rate else split).2 =
        amount := by
    split
    · exact commissionSplit_sum amount rate
    · exact whole
  obtain ⟨stored, row, same, -⟩ := priced.priced
  obtain rfl := Option.some.inj (row.symm.trans confirms.orderRow)
  obtain ⟨extra, rfl, follow⟩ := confirms.writes
  have payments : ∀ state : Db,
      (applyAll extra state).payments = state.payments := fun state =>
    applyAll_frame Db.payments fun stmt member _ =>
      Stmt.apply_payments fun same => by
        simpa [FollowUp, same] using follow stmt member
  have keeps : ∀ stmt ∈ booking env id stored payment ++ extra,
      keepsPrices (.write stmt) := by
    intro stmt member
    rcases List.mem_append.mp member with early | late
    · simp only [booking, List.mem_cons, List.not_mem_nil, or_false] at early
      rcases early with rfl | rfl | rfl | rfl | rfl | rfl <;>
        simp [keepsPrices, keepsPrice_iff, Order.split]
    · exact keepsPrices_elsewhere stmt fun same => by
        simpa [FollowUp, same] using follow stmt late
  have opened : (applyAll (booking env id stored payment) db).payments.row id =
      some { payment with
        status := .succeeded
        paidAt := some env.now
        providerReference := some (payment.providerReference.getD "") } := by
    simp [booking, Stmt.apply, confirms.paymentRow]
  have paid := (congrArg (fun table => table.row id)
    (payments (applyAll (booking env id stored payment) db))).trans opened
  rw [← books] at sum ⊢
  exact
    { priced := by
        rw [← applyAll_append]
        exact applyAll_keeps _ (fun stmt member db =>
          PricedAt.apply (keeps stmt member)) priced
      payment := ⟨_, paid, confirms.matched.trans same, unrefunded,
        by simp⟩
      capped := nonneg
      commission := by simp [roundingDrift]
      credit := by simpa using sum
      reduced := ⟨le_refl _, le_refl _⟩ }

/-- The balances of an order stay in their bounds and end at zero. -/
structure Reversed (id : OrderId) (split : Int × Int) (db : Db) : Prop where
  commission : 0 ≤ commissionBalance id db ∧ commissionBalance id db ≤ split.1
  credit : 0 ≤ expertCreditBalance id db ∧
    expertCreditBalance id db ≤ split.2
  cleared : ∀ payment, db.payments.row id = some payment →
    payment.status = .refunded →
    commissionBalance id db = 0 ∧ expertCreditBalance id db = 0

/--
The commission that is booked is the order's, and the drift is at most the
expert's and the commission's proportion of what is not refunded.
-/
def Reversible
    (rate : CommissionRate) (split : Int × Int) (amounts : List Int) : Prop :=
  (split.1 = 0 → (commissionSplit split.2 rate).1 = 0) ∧
    -((split.1 + split.2 - amounts.sum) * split.2) ≤
      roundingDrift split amounts ∧
    roundingDrift split amounts ≤
      (split.1 + split.2 - amounts.sum) * split.1

instance (rate : CommissionRate) (split : Int × Int) (amounts : List Int) :
    Decidable (Reversible rate split amounts) :=
  inferInstanceAs (Decidable (_ ∧ _))

/-- Nothing drifts without a commission. -/
theorem roundingDrift_of_zero
    (positive : 0 < split.1 + split.2) (none : split.1 = 0)
    (amounts : List Int) : roundingDrift split amounts = 0 := by
  have still : ∀ amount, Allocation.drift amount 0 split.2 = 0 := by
    intro amount
    simp only [none, zero_add] at positive
    simp [Allocation.drift, not_le.mpr positive]
  simp [roundingDrift, none, still]

/-- The account of an order keeps its bounds exactly if it is reversible. -/
theorem Account.reversed_iff
    (account : Account id amount rate split
      (if split.1 = 0 then commissionSplit amount rate else split) amounts db)
    (whole : split.1 + split.2 = amount) (positive : 0 < amount) :
    Reversed id split db ↔ Reversible rate split amounts := by
  have capped := account.capped
  have exact := account.commission
  have balance := account.credit
  have reduced := account.reduced
  have cleared : 0 ≤ commissionBalance id db →
      0 ≤ expertCreditBalance id db →
      ∀ payment, db.payments.row id = some payment →
        payment.status = .refunded →
        commissionBalance id db = 0 ∧ expertCreditBalance id db = 0 := by
    intro low high payment paid status
    obtain ⟨other, found, -, -, full⟩ := account.payment
    obtain rfl := Option.some.inj (found.symm.trans paid)
    have all := full status
    omega
  by_cases none : split.1 = 0
  · have still := roundingDrift_of_zero (whole ▸ positive) none amounts
    simp only [none, if_true, still, mul_zero, add_zero] at exact reduced
    have level := Int.eq_of_mul_eq_mul_left positive.ne'
      (exact.trans (mul_zero amount).symm)
    have expert : split.2 = amount := by omega
    have rest := commissionSplit_sum amount rate
    have nonneg := commissionSplit_nonneg positive rate
    constructor
    · intro reversed
      have free := reversed.commission.2
      refine ⟨fun _ => ?_, ?_, ?_⟩
      · rw [expert]
        omega
      · rw [still, neg_nonpos]
        exact mul_nonneg (by omega) (by omega)
      · simp [still, none]
    · intro reversible
      have free := reversible.1 none
      rw [expert] at free
      exact ⟨by omega, by omega, cleared (by omega) (by omega)⟩
  · simp only [none, if_false] at exact reduced
    have left : split.1 + split.2 - amounts.sum = amount - amounts.sum := by
      rw [whole]
    -- both balances in parts of the amount
    have commission : amount * commissionBalance id db =
        (amount - amounts.sum) * split.1 - roundingDrift split amounts := by
      rw [mul_sub] at exact
      rw [sub_mul]
      omega
    have credit : amount * expertCreditBalance id db =
        (amount - amounts.sum) * split.2 + roundingDrift split amounts := by
      have both : amount * expertCreditBalance id db =
          amount * (amount - amounts.sum) -
            amount * commissionBalance id db := by
        rw [← mul_sub, ← balance, add_sub_cancel_left]
      rw [both, commission, ← whole]
      ring
    have low : 0 ≤ amount * commissionBalance id db ↔
        0 ≤ commissionBalance id db := mul_nonneg_iff_of_pos_left positive
    have high : 0 ≤ amount * expertCreditBalance id db ↔
        0 ≤ expertCreditBalance id db := mul_nonneg_iff_of_pos_left positive
    simp only [Reversible, left]
    constructor
    · intro reversed
      have first := low.mpr reversed.commission.1
      have second := high.mpr reversed.credit.1
      exact ⟨fun zero => absurd zero none, by omega, by omega⟩
    · intro reversible
      have first := low.mp (by have := reversible.2.2; omega)
      have second := high.mp (by have := reversible.2.1; omega)
      exact ⟨⟨first, reduced.1⟩, ⟨second, reduced.2⟩, cleared first second⟩

/-- An order of 5000 whose payment is pending. -/
def awaitingRefunds : Db :=
  { requests := .insert .empty 10 { student := 1, status := .matched }
    orders := .insert .empty 40
      { request := 10
        student := 1
        expert := 2
        source := .openBid
        amount := 5000
        commissionAmount := 750
        expertAmount := 4250
        createdAt := 0 }
    payments := .insert .empty 40
      { gateway := .manual
        providerReference := some "manual-pay-1"
        amountMinor := 5000 } }

/-- Staff refund a part of the payment, under the key of the refund. -/
def staffRefund (key : RefundId) (amountMinor : Int) : Tx Unit :=
  issueRefund { now := 8, key } 40 amountMinor .mutual (some ⟨9, true⟩)

end Payments

end KnowledgeMarketplace
