import KnowledgeMarketplace.Operations
import KnowledgeMarketplace.Payments.Rules
import KnowledgeMarketplace.Transaction.Ranks

/-!
# The order of locks

Work on an order locks the order first, then its delivery or proposal, its
payment, the refund, the request, the payout and the dispute.  A client that
only waits for rows further down this list cannot be part of a deadlock.
-/

namespace KnowledgeMarketplace

open Transaction

/-! ## Levels of rows -/

/-- The place of a row in the order of locks. -/
def Row.level : Row → Nat
  | .config | .invitation _ | .application _ | .profile _
  | .conversation _ => 0
  | .order _ => 1
  | .delivery _ | .deadlineProposal _ => 2
  | .payment _ => 3
  | .refund _ => 4
  | .offer _ => 5
  | .request _ => 6
  | .assignment _ => 7
  | .payout _ => 8
  | .dispute _ => 9
  | .webhookEvent _ => 10

/--
The operation takes its locks in their order.  Bulk updates and selections lock
many rows of one table, a settlement locks the order after its payout, and an
ingested event stays locked while it is dispatched.
-/
def Operation.Ordered : Operation → Prop
  | .request (.expireDue _) => False
  | .offer (.accept _ _ _) => False
  | .managed (.approvePool _ _ _ _ _) => False
  | .managed (.rejectManaged _ _ _ _) => False
  | .managed (.acceptInvitation _ _ _ _) => False
  | .managed (.acceptDirect _ _ _) => False
  | .managed (.expireDue _) => False
  | .order (.sweepUnpaid _) => False
  | .payment (.settlePayout _ _ _) => False
  | .payment (.ingest _ _ _) => False
  | _ => True

/-- Rows of these levels at most are held. -/
def UpTo (top : Nat) (held : Set Row) : Prop :=
  ∀ row ∈ held, row.level ≤ top

/-- More may be held, up to a level. -/
structure Grown (held : Set Row) (top : Nat) (later : Set Row) : Prop where
  more : held ⊆ later
  upTo : UpTo top later

variable {held : Set Row} {top : Nat} {α : Type}

theorem upTo_empty : UpTo top ∅ :=
  fun _ none => none.elim

theorem UpTo.mono {higher : Nat} (upTo : UpTo top held) (le : top ≤ higher) :
    UpTo higher held :=
  fun row mine => (upTo row mine).trans le

/-- A row above the held ones can be taken. -/
theorem UpTo.take
    (upTo : UpTo top held) (row : Row) (level : Nat) (same : row.level = level)
    (higher : top < level) :
    Above Row.level held [row] ∧ Grown held level (taking [row] held) := by
  refine ⟨fun other member => ?_, fun _ mine => mem_taking.mpr (.inr mine),
    fun other mine => ?_⟩
  · rw [List.mem_singleton.mp member, same]
    exact .inr fun mine own => (upTo mine own).trans_lt higher
  · rcases mem_taking.mp mine with taken | earlier
    · rw [List.mem_singleton.mp taken, same]
    · exact (upTo other earlier).trans higher.le

theorem UpTo.stay (upTo : UpTo top held) {higher : Nat} (le : top ≤ higher) :
    Grown held higher held :=
  ⟨fun _ mine => mine, upTo.mono le⟩

/-- A row that is held is taken again at any time. -/
theorem above_own {row : Row} (own : row ∈ held) :
    Above Row.level held [row] := by
  intro other member
  rw [List.mem_singleton.mp member]
  exact .inl own

theorem taking_own {row : Row} (own : row ∈ held) : taking [row] held = held := by
  ext other
  simp only [mem_taking, List.mem_singleton]
  exact ⟨fun mine => mine.elim (fun same => same ▸ own) id, .inr⟩

/-! ## Services -/

section Services

variable (env : Env) (id : OrderId)

/-- A move of the locked order locks nothing else. -/
theorem transition_climbs
    (toStatus : OrderStatus) (eventType : OrderEventType)
    (actor : Option Actor) (data : OrderEventData) (own : .order id ∈ held) :
    (Orders.transition id toStatus eventType actor data).Climbs Row.level held
      fun _ later => later = held := by
  simp [Orders.transition, Orders.getForUpdate, Orders.recordEvent,
    Tx.getForUpdate, Tx.get, Stmt.rows, above_own own, taking_own own]

/-- The request of an order follows its order. -/
theorem moveRequest_climbs
    (request : RequestId) (fromStatuses : List RequestStatus)
    (toStatus : RequestStatus) (reason : String) (upTo : UpTo 5 held) :
    (Orders.moveRequest env request fromStatuses toStatus reason).Climbs
      Row.level held fun _ later => Grown held 6 later := by
  have stays : Grown held 6 held := upTo.stay (by decide)
  have takes := upTo.take (.request request) 6 rfl (by decide)
  simp [Orders.moveRequest, ServiceRequests.transition, Tx.get, Stmt.rows,
    stays, takes]

/-- The payout of an order comes after its request. -/
theorem schedulePayout_climbs (order : Order) (upTo : UpTo 7 held) :
    (Payments.schedulePayout env id order).Climbs Row.level held
      fun _ later => Grown held 8 later := by
  have stays : Grown held 8 held := upTo.stay (by decide)
  have takes := upTo.take (.payout env.key) 8 rfl (by decide)
  have own : .payout env.key ∈ taking [.payout env.key] held := by simp
  simp [Payments.schedulePayout, Tx.create, Stmt.rows, stays, takes,
    above_own own, taking_own own]

/-- Cancelling an open payment attempt locks the payment. -/
theorem voidPaymentForOrder_climbs (upTo : UpTo 2 held) :
    (Payments.voidPaymentForOrder env id).Climbs Row.level held
      fun _ later => Grown held 3 later := by
  have stays : Grown held 3 held := upTo.stay (by decide)
  have takes := upTo.take (.payment id) 3 rfl (by decide)
  have own : .payment id ∈ taking [.payment id] held := by simp
  simp [Payments.voidPaymentForOrder, Stmt.rows, stays, takes,
    above_own own, taking_own own]

/-- The payment before its refund. -/
theorem issueRefund_climbs
    (amountMinor : Int) (reason : RefundReason) (initiatedBy : Option Actor)
    (upTo : UpTo 2 held) :
    (Payments.issueRefund env id amountMinor reason initiatedBy).Climbs
      Row.level held fun _ later => Grown held 4 later := by
  have stays : Grown held 4 held := upTo.stay (by decide)
  obtain ⟨above, takes⟩ := upTo.take (.payment id) 3 rfl (by decide)
  obtain ⟨refundAbove, refunds⟩ :=
    takes.upTo.take (.refund env.key) 4 rfl (by decide)
  have early : Grown held 4 (taking [.payment id] held) :=
    ⟨takes.more, takes.upTo.mono (by decide)⟩
  have late : Grown held 4
      (taking [.refund env.key] (taking [.payment id] held)) :=
    ⟨takes.more.trans refunds.more, refunds.upTo⟩
  have own : .refund env.key ∈
      taking [.refund env.key] (taking [.payment id] held) := by simp
  have still : .payment id ∈
      taking [.refund env.key] (taking [.payment id] held) := by simp
  simp [Payments.issueRefund, Payments.getForUpdate, Payments.ledger,
    Tx.getForUpdate, Tx.get, Tx.create, Stmt.rows, stays, above, refundAbove,
    early, late, above_own own, taking_own own, above_own still,
    taking_own still]

/-- A failed payout is locked alone. -/
theorem markPayoutFailed_climbs
    (payout : PayoutId) (actor : Option Actor) (reason : String)
    (upTo : UpTo 7 held) :
    (Payments.markPayoutFailed payout actor reason).Climbs Row.level held
      fun _ later => Grown held 8 later := by
  have stays : Grown held 8 held := upTo.stay (by decide)
  have takes := upTo.take (.payout payout) 8 rfl (by decide)
  have own : .payout payout ∈ taking [.payout payout] held := by simp
  simp [Payments.markPayoutFailed, Payments.getPayoutForUpdate,
    Tx.getForUpdate, Tx.get, Stmt.rows, stays, takes, above_own own,
    taking_own own]

/-- The order is locked, and what was locked after it comes before a level. -/
structure Working (id : OrderId) (top : Nat) (held : Set Row) : Prop where
  own : .order id ∈ held
  upTo : UpTo top held

theorem Working.more
    {later : Set Row} (working : Working id top held) {higher : Nat}
    (grown : Grown held higher later) : Working id higher later :=
  ⟨grown.more working.own, grown.upTo⟩

/-- The lock of an order, which its caller may hold already. -/
theorem lockOrder_climbs (alone : held ⊆ {.order id}) :
    (Orders.getForUpdate id).Climbs Row.level held
      fun _ later => later = {.order id} := by
  have above : Above Row.level held [.order id] := by
    intro row member
    obtain rfl := List.mem_singleton.mp member
    by_cases own : .order id ∈ held
    · exact .inl own
    · exact .inr fun other mine => absurd (alone mine ▸ mine) own
  have locked : taking [.order id] held = {.order id} := by
    ext row
    simpa using fun mine => alone mine
  simp [Orders.getForUpdate, Tx.getForUpdate, Tx.get, above, locked]

/-- Work on an order starts with its lock. -/
theorem getForUpdate_climbs (alone : held ⊆ {.order id}) :
    (Orders.getForUpdate id).Climbs Row.level held
      fun _ later => Working id 1 later := by
  refine (lockOrder_climbs id alone).mono fun _ later same => ?_
  subst same
  refine ⟨rfl, fun row mine => ?_⟩
  rw [Set.mem_singleton_iff.mp mine]
  exact le_rfl

/-- The order is written while it is locked. -/
theorem Working.save
    (working : Working id top held) (set : Order → Order) :
    (Tx.exec (.saveOrder id set) : Tx Unit).Climbs Row.level held
      fun _ later => Working id top later := by
  simp [Stmt.rows, above_own working.own, taking_own working.own, working]

theorem Working.transition
    (working : Working id top held) (toStatus : OrderStatus)
    (eventType : OrderEventType) (actor : Option Actor)
    (data : OrderEventData) :
    (Orders.transition id toStatus eventType actor data).Climbs Row.level held
      fun _ later => Working id top later :=
  (transition_climbs id toStatus eventType actor data working.own).mono
    fun _ _ same => same ▸ working

theorem Working.recordEvent
    (working : Working id top held) (eventType : OrderEventType)
    (actor : Option Actor) (data : OrderEventData) :
    (Orders.recordEvent id eventType actor data).Climbs Row.level held
      fun _ later => Working id top later := by
  simp [Orders.recordEvent, Stmt.rows, working]

/-- A row that comes later is written beside the order. -/
theorem Working.write
    (working : Working id top held) (stmt : Stmt) (row : Row) (level : Nat)
    (rows : stmt.rows = [row]) (same : row.level = level)
    (higher : top < level) :
    (Tx.exec stmt : Tx Unit).Climbs Row.level held
      fun _ later => Working id level later := by
  obtain ⟨above, grown⟩ := working.upTo.take row level same higher
  simp [rows, above, working.more id grown]

/-- The locked order is completed, then its request, then its payout. -/
theorem approveDelivery_climbs
    (actor : Option Actor) (source : ApprovalSource)
    (alone : held ⊆ {.order id}) :
    (Orders.approveDelivery env id actor source).Climbs Row.level held
      fun _ _ => True := by
  refine .seq (Working id 1) (getForUpdate_climbs id alone) (by simp)
    fun order _ locked => ?_
  refine .seq (Working id 1) (by simp [locked]) (by simp) fun _ _ locked => ?_
  refine .seq (Working id 1) (by simp [locked]) (by simp) fun _ _ locked => ?_
  refine .seq (Working id 1) (by simp [locked]) (by simp)
    fun delivery _ locked => ?_
  have later : Working id 2 _ := ⟨locked.own, locked.upTo.mono (by decide)⟩
  refine .seq (Working id 2) (Prog.climbs_forOption.mpr ⟨fun found _ =>
    locked.write id _ (.delivery found) 2 rfl rfl (by decide), fun _ => later⟩)
    (by simp) fun _ _ locked => ?_
  refine .seq (Working id 2) (locked.save id _) (by simp) fun _ _ locked => ?_
  refine .seq (Working id 2) (locked.transition id _ _ _ _) (by simp)
    fun completed _ locked => ?_
  refine .seq (Working id 2) (locked.recordEvent id _ _ _) (by simp)
    fun _ _ locked => ?_
  refine .seq (UpTo 6) ((moveRequest_climbs env _ _ _ _ (locked.upTo.mono
    (by decide))).mono fun _ _ grown => grown.upTo) (by simp) fun _ _ upTo => ?_
  refine .seq (UpTo 8) ((schedulePayout_climbs env id _ (upTo.mono
    (by decide))).mono fun _ _ grown => grown.upTo) (by simp) fun _ _ _ => ?_
  exact trivial

/-- A cancellation closes the payment attempt, then the request. -/
theorem cancel_climbs (actor : Actor) (reason : String) :
    (Orders.cancel env id actor reason).Climbs Row.level ∅
      fun _ _ => True := by
  refine .seq (Working id 1) (getForUpdate_climbs id (by simp)) (by simp)
    fun order _ locked => ?_
  refine .seq (Working id 1) (by simp [locked]) (by simp) fun _ _ locked => ?_
  refine .seq (Working id 1) (by simp [locked]) (by simp) fun _ _ locked => ?_
  refine .seq (Working id 1) (by simp [locked]) (by simp) fun _ _ locked => ?_
  refine .seq (Working id 1) (locked.save id _) (by simp) fun _ _ locked => ?_
  refine .seq (Working id 1) (locked.transition id _ _ _ _) (by simp)
    fun cancelled _ locked => ?_
  refine .seq (UpTo 3) ((voidPaymentForOrder_climbs env id (locked.upTo.mono
    (by decide))).mono fun _ _ grown => grown.upTo) (by simp) fun _ _ upTo => ?_
  exact (moveRequest_climbs env _ _ _ _ (upTo.mono (by decide))).mono
    fun _ _ _ => trivial

/-- How far down the refund of an outcome locks. -/
def refundLevel (outcome : DisputeOutcome) : Nat :=
  if outcome = .refundStudentFull then 8 else 4

/-- The payment, the refund and, after a full refund, the payout. -/
theorem refundOutcome_climbs
    (actor : Option Actor) (outcome : DisputeOutcome)
    (payment : Option Payment) (refundAmountMinor : Option Int)
    (working : Working id 1 held) :
    (Disputes.refundOutcome env id actor outcome payment
      refundAmountMinor).Climbs Row.level held
        fun _ later => Working id (refundLevel outcome) later := by
  have least : ∀ {early}, early ≤ 4 → early ≤ refundLevel outcome := by
    intro early low
    unfold refundLevel
    split_ifs <;> omega
  have stays : Working id (refundLevel outcome) held :=
    ⟨working.own, working.upTo.mono (least (by decide))⟩
  refine Prog.climbs_ite.mpr ⟨fun _ => ?_, fun _ => stays⟩
  refine .seq (Working id 1) (by simp [working]) (fun _ _ locked =>
    ⟨locked.own, locked.upTo.mono (least (by decide))⟩) fun payment _ locked => ?_
  refine .seq (Working id 1) (by simp [locked]) (fun _ _ locked =>
    ⟨locked.own, locked.upTo.mono (least (by decide))⟩) fun amount _ locked => ?_
  refine .seq (Working id 4) ((issueRefund_climbs env id _ _ _
    (locked.upTo.mono (by decide))).mono fun _ _ grown =>
      locked.more id grown) (fun _ _ locked =>
        ⟨locked.own, locked.upTo.mono (least le_rfl)⟩) fun _ _ locked => ?_
  refine Prog.climbs_ite.mpr ⟨fun full => ?_, fun _ =>
    ⟨locked.own, locked.upTo.mono (least le_rfl)⟩⟩
  have deep : refundLevel outcome = 8 := if_pos full
  rw [deep]
  refine .seq (Working id 4) (by simp [locked]) (fun _ _ locked =>
    ⟨locked.own, locked.upTo.mono (by decide)⟩) fun payout _ locked => ?_
  refine Prog.climbs_forOption.mpr ⟨fun found _ => ?_, fun _ =>
    ⟨locked.own, locked.upTo.mono (by decide)⟩⟩
  exact (markPayoutFailed_climbs found _ _ (locked.upTo.mono (by decide))).mono
    fun _ _ grown => locked.more id grown

/-- A payout is corrected unless the refund was full. -/
theorem adjustPayout_climbs
    (outcome : DisputeOutcome) (working : Working id (refundLevel outcome) held) :
    (Disputes.adjustPayout id outcome).Climbs Row.level held
      fun _ later => Working id 8 later := by
  have bound : refundLevel outcome ≤ 8 := by
    unfold refundLevel
    split_ifs <;> omega
  have stays : Working id 8 held := ⟨working.own, working.upTo.mono bound⟩
  refine Prog.climbs_ite.mpr ⟨fun adjusts => ?_, fun _ => stays⟩
  have shallow : refundLevel outcome = 4 := by
    cases outcome <;> simp [Disputes.adjustsPayout, refundLevel] at adjusts ⊢
  rw [shallow] at working
  refine .seq (Working id 4) (by simp [working]) (fun _ _ locked =>
    ⟨locked.own, locked.upTo.mono (by decide)⟩) fun payout _ locked => ?_
  refine .seq (Working id 4) (by simp [locked]) (fun _ _ locked =>
    ⟨locked.own, locked.upTo.mono (by decide)⟩) fun balance _ locked => ?_
  exact Prog.climbs_forOption.mpr ⟨fun found _ =>
    locked.write id _ (.payout found) 8 rfl rfl (by decide), fun _ =>
      ⟨locked.own, locked.upTo.mono (by decide)⟩⟩

/-- A resolution locks the dispute last. -/
theorem resolve_climbs
    (dispute : Dispute) (actor : Option Actor) (outcome : DisputeOutcome)
    (resolutionNotes : String) (refundAmountMinor : Option Int) :
    (Disputes.resolve env id dispute actor outcome resolutionNotes
      refundAmountMinor).Climbs Row.level ∅ fun _ _ => True := by
  refine .seq (· = ∅) (by simp) (by simp) fun _ _ none => ?_
  refine .seq (· = ∅) (by simp [none]) (by simp) fun _ _ none => ?_
  refine .seq (· = ∅) (by simp [none]) (by simp) fun _ _ none => ?_
  refine .seq (Working id 1) (getForUpdate_climbs id (by simp [none])) (by simp)
    fun order _ locked => ?_
  refine .seq (Working id 1) (by simp [locked]) (by simp)
    fun payment _ locked => ?_
  refine .seq (Working id (refundLevel outcome))
    (refundOutcome_climbs env id _ _ _ _ locked) (by simp) fun _ _ locked => ?_
  refine .seq (Working id (refundLevel outcome)) (Prog.climbs_ite.mpr
    ⟨fun _ => locked.save id _, fun _ => locked⟩) (by simp) fun _ _ locked => ?_
  refine .seq (Working id 8) (adjustPayout_climbs id outcome locked) (by simp)
    fun _ _ locked => ?_
  refine .seq (Working id 8) (Prog.climbs_ite.mpr ⟨fun _ => ?_, fun _ =>
    locked.recordEvent id _ _ _⟩) (by simp) fun _ _ locked => ?_
  · exact .seq (Working id 8) (locked.transition id _ _ _ _)
      (fun _ _ locked => locked) fun _ _ locked => locked
  · exact (locked.write id _ (.dispute id) 9 rfl rfl (by decide)).mono
      fun _ _ _ => trivial

/-! ## Confirmations -/

/-- The order and the payment of a confirmation, at most. -/
def Pair (id : OrderId) (held : Set Row) : Prop :=
  held ⊆ {.order id, .payment id}

/-- A confirmation fails as an attempt only while it holds the pair. -/
def Confirming (id : OrderId) (result : Except Error Unit) (held : Set Row) :
    Prop :=
  UpTo 6 held ∧ ∀ reason, result = .error (.attemptFailed reason) → Pair id held

theorem Pair.upTo (pair : Pair id held) : UpTo 3 held := by
  intro row mine
  rcases pair mine with rfl | rfl <;> simp [Row.level]

theorem Pair.confirming (pair : Pair id held) (result : Except Error Unit) :
    Confirming id result held :=
  ⟨(pair.upTo id).mono (by decide), fun _ _ => pair⟩

/-- The payment of a pair can be locked. -/
theorem Pair.payment (pair : Pair id held) :
    Above Row.level held [.payment id] ∧
      Pair id (taking [.payment id] held) := by
  refine ⟨fun row member => ?_, fun row mine => ?_⟩
  · obtain rfl := List.mem_singleton.mp member
    by_cases own : .payment id ∈ held
    · exact .inl own
    · refine .inr fun other mine => ?_
      rcases pair mine with rfl | rfl
      · simp [Row.level]
      · exact absurd mine own
  · rcases mem_taking.mp mine with taken | earlier
    · exact .inr (List.mem_singleton.mp taken)
    · exact pair earlier

/-- A failed attempt is recorded on the payment. -/
theorem markPaymentFailed_climbs (reason : String) (pair : Pair id held) :
    (Payments.markPaymentFailed id reason).Climbs Row.level held
      fun _ later => Pair id later := by
  obtain ⟨above, taken⟩ := pair.payment
  have own : .payment id ∈ taking [.payment id] held := by simp
  simp [Payments.markPaymentFailed, Stmt.rows, pair, above, taken,
    above_own own, taking_own own]

/-- The activation of a paid order fails, but not as an attempt. -/
theorem activateOrderOnPayment_climbs
    (own : .order id ∈ held) (upTo : UpTo 3 held) :
    (Orders.activateOrderOnPayment env id).Climbs Row.level held
      (Confirming id) := by
  have stays : ∀ result : Except Error Unit,
      (∀ reason, result ≠ .error (.attemptFailed reason)) →
        Confirming id result held :=
    fun _ other => ⟨upTo.mono (by decide), fun reason same =>
      absurd same (other reason)⟩
  have takes : ∀ request, Above Row.level held [.request request] ∧
      ∀ result : Except Error Unit,
        (∀ reason, result ≠ .error (.attemptFailed reason)) →
          Confirming id result (taking [.request request] held) := by
    intro request
    obtain ⟨above, grown⟩ := upTo.take (.request request) 6 rfl (by decide)
    exact ⟨above, fun _ other => ⟨grown.upTo, fun reason same =>
      absurd same (other reason)⟩⟩
  simp [Orders.activateOrderOnPayment, Orders.markPaid, Orders.transition,
    Orders.getForUpdate, Orders.recordEvent, Orders.moveRequest,
    ServiceRequests.transition, ServiceRequests.invalidTransition,
    Orders.invalidTransition, Error.domainError, Error.permissionDenied,
    Tx.getForUpdate, Tx.get, Stmt.rows, above_own own, taking_own own, stays,
    takes]

/-- A confirmation locks the order, the payment and then the request. -/
theorem confirmPaymentAtomic_climbs :
    (Payments.confirmPaymentAtomic env id).Climbs Row.level ∅
      (Confirming id) := by
  have start : Pair id ∅ := Set.empty_subset _
  have locked : Pair id (taking [.order id] ∅) := by
    intro row mine
    exact .inl (by simpa using mine)
  obtain ⟨next, both⟩ := locked.payment
  have first : Above Row.level ∅ [.order id] := by simp [Above]
  have own : Row.payment id ∈
      taking [Row.payment id] (taking [Row.order id] ∅) := by simp
  have order : Row.order id ∈
      taking [Row.payment id] (taking [Row.order id] ∅) := by simp
  simp [Payments.confirmPaymentAtomic, Payments.getForUpdate,
    Payments.ledger, Orders.getForUpdate, Tx.getForUpdate, Tx.get, Stmt.rows,
    start.confirming id, locked.confirming id, both.confirming id, first, next,
    above_own own, taking_own own,
    activateOrderOnPayment_climbs env id order (both.upTo id)]

/-- In the transaction of a webhook a failed attempt is recorded. -/
theorem confirmPaymentNested_climbs :
    (Payments.confirmPaymentNested env id).Climbs Row.level ∅
      fun _ later => UpTo 6 later := by
  refine Prog.climbs_attempt
    (Payments.confirmPaymentAtomic_emits (by simp [Stmt.rows])
      (by simp [Stmt.rows]) (by simp [Stmt.rows]) (by simp [Stmt.rows])
      (by simp [Stmt.rows])
      (by simp [ServiceRequests.transition, Stmt.rows]))
    ((confirmPaymentAtomic_climbs env id).mono fun result later held => ?_)
  cases result with
  | ok value => exact held.1
  | error error =>
      intro kept fewer
      have still : UpTo 6 kept := fun row mine => held.1 row (fewer mine)
      cases error with
      | attemptFailed reason =>
          have pair : Pair id kept := fewer.trans (held.2 reason rfl)
          refine .seq (Pair id) (markPaymentFailed_climbs id reason pair)
            (fun _ _ pair => (pair.upTo id).mono (by decide))
            fun _ _ pair => (pair.upTo id).mono (by decide)
      | _ => exact still

/-- A dispatched event locks what its handler does. -/
theorem dispatch_climbs (eventType : EventType) (data : EventData) :
    (Webhooks.dispatch env eventType data).Climbs Row.level ∅
      fun _ later => UpTo 6 later := by
  have unheld : UpTo 6 ∅ := upTo_empty
  have single : ∀ row : Row, row.level ≤ 6 →
      Above Row.level ∅ [row] ∧ UpTo 6 (taking [row] ∅) := by
    intro row low
    simpa [Above, UpTo] using low
  have handled : ∀ handler : Tx Unit,
      (handler.Climbs Row.level ∅ fun _ later => UpTo 6 later) →
      (Tx.tryCatch (do handler; return none) fun error =>
        Tx.ofExcept (Webhooks.recover error)).Climbs Row.level ∅
          fun _ later => UpTo 6 later := by
    intro handler climbs
    refine Prog.climbs_tryCatch (Prog.climbs_bind.mpr
      (climbs.mono fun result later upTo => ?_))
    cases result with
    | ok value => exact upTo
    | error error => simp [upTo]
  cases eventType with
  | paymentSucceeded =>
      refine handled _ ?_
      simp [Webhooks.handlePaymentSucceeded, unheld,
        confirmPaymentNested_climbs env]
  | paymentFailed =>
      refine handled _ ?_
      simp [Webhooks.handlePaymentFailed, unheld, Stmt.rows,
        single (.payment _) (by simp [Row.level])]
  | refundSucceeded =>
      refine handled _ ?_
      simp [Webhooks.handleRefundSucceeded, unheld, Stmt.rows,
        single (.refund _) (by simp [Row.level])]
  | other name => exact unheld

end Services

/-! ## Operations -/

theorem Call.perform_climbs {service : Tx α}
    (climbs : service.Climbs Row.level ∅ fun _ _ => True) :
    (Call.perform service).Climbs Row.level := by
  refine Request.climbs_atomic (Prog.climbs_bind.mpr
    (climbs.mono fun result later _ => ?_))
  cases result <;> trivial

theorem Call.performOn_climbs {ρ : Type}
    {find : Db → Option ρ} {model : String} {service : ρ → Tx α}
    (climbs : ∀ copy, (service copy).Climbs Row.level ∅ fun _ _ => True) :
    (Call.performOn find model service).Climbs Row.level :=
  .bind (.bind (by simp) (by simp)) fun copy => Call.perform_climbs (climbs copy)

theorem Call.get_climbs {ρ : Type} {find : Db → Option ρ} {model : String} :
    (Call.get find model).Climbs Row.level :=
  .bind (by simp) (by simp)

/-- A statement of its own may lock any one row. -/
theorem Call.exec_climbs {stmt : Stmt} :
    (Call.exec stmt).Climbs Row.level :=
  Request.climbs_atomic (by simp [Above])

theorem RequestCall.climbs
    (call : RequestCall) (ordered : (Operation.request call).Ordered) :
    call.call.Climbs Row.level := by
  cases call with
  | create env student payload =>
      refine Call.perform_climbs ?_
      simp [ServiceRequests.createRequest, Tx.create, Stmt.rows, Above]
  | updateDraft env owner id payload =>
      refine Call.performOn_climbs fun copy => ?_
      simp [ServiceRequests.updateDraft, Stmt.rows, Above]
  | publish env owner id attested =>
      have moves : ∀ copy toStatus, (Call.atomic
          (ServiceRequests.transition env id copy toStatus "")).Climbs
            Row.level := by
        intro copy toStatus
        refine Request.climbs_atomic ?_
        simp [ServiceRequests.transition, Stmt.rows, Above]
      refine .bind Call.get_climbs fun copy => .bind ?_ fun _ => by simp
      refine .bind (by simp) fun _ => .bind (by simp) fun _ =>
        .bind (by simp) fun _ => ?_
      exact Request.climbs_ite
        (.bind Call.exec_climbs fun _ => moves _ _)
        (.bind Call.exec_climbs fun _ => moves _ _)
  | cancel env owner id reason =>
      refine Call.performOn_climbs fun copy => ?_
      simp [ServiceRequests.cancel, ServiceRequests.transition, Stmt.rows,
        Above]
  | reopen env owner id =>
      refine Call.performOn_climbs fun copy => ?_
      simp [ServiceRequests.reopen, ServiceRequests.transition, Stmt.rows,
        Above]
  | expireDue env => exact ordered.elim

theorem OfferCall.climbs
    (call : OfferCall) (ordered : (Operation.offer call).Ordered) :
    call.call.Climbs Row.level := by
  have found : ∀ {id : OfferId} {service : Offer → ServiceRequest → Call Unit},
      (∀ offer request, (service offer request).Climbs Row.level) →
        (OfferCall.onOffer id service).Climbs Row.level :=
    fun climbs => .bind Call.get_climbs fun copy => climbs copy.1 copy.2
  have guarded : ∀ env expert request,
      (Bidding.expertGuard env expert request).Climbs Row.level :=
    fun env expert request => .bind (by simp) fun _ => .bind (by simp) fun _ =>
      .bind (by simp) fun _ => by simp
  have limited : ∀ expert, (Bidding.limitGuard expert).Climbs Row.level :=
    fun expert => .bind (by simp) fun _ => by simp
  cases call with
  | submit env expert id amount currency =>
      refine .bind Call.get_climbs fun copy => .bind ?_ fun _ => by simp
      refine .bind (guarded env expert copy) fun _ => .bind (by simp) fun _ =>
        .bind (by simp) fun _ => .bind (by simp) fun _ =>
          .bind (limited expert) fun _ => Request.climbs_atomic ?_
      simp [Tx.create, Bidding.saveOfferCount, Stmt.rows, Above, Row.level]
  | update env expert id amount currency =>
      change (OfferCall.onOffer id fun offer request => Bidding.updateOffer env
        expert id offer request amount currency).Climbs Row.level
      refine found fun offer request => ?_
      refine .bind (by simp) fun _ => .bind (by simp) fun _ =>
        .bind (by simp) fun _ => .bind (by simp) fun _ =>
          .bind (by simp) fun _ => .bind (by simp) fun _ => Call.exec_climbs
  | withdraw env expert id =>
      refine found fun offer request => ?_
      refine .bind (by simp) fun _ => Request.climbs_atomic ?_
      simp [Bidding.saveOfferCount, Stmt.rows, Above, Row.level]
  | resubmit env expert id =>
      refine found fun offer request => ?_
      refine .bind (by simp) fun _ => .bind (by simp) fun _ =>
        .bind (guarded env expert request) fun _ => .bind (limited expert)
          fun _ => .bind Call.exec_climbs fun _ => Call.exec_climbs
  | decline env student id reason =>
      change (OfferCall.onOffer id fun offer request => Bidding.decline env
        student id offer request reason).Climbs Row.level
      refine found fun offer request => ?_
      exact .bind (by simp) fun _ => .bind (by simp) fun _ => Call.exec_climbs
  | accept env student id => exact ordered.elim

theorem ManagedCall.climbs
    (call : ManagedCall) (ordered : (Operation.managed call).Ordered) :
    call.call.Climbs Row.level := by
  cases call with
  | assignDirect env admin id expert amount deadline scopeNote =>
      refine Call.performOn_climbs fun copy => ?_
      simp [Assignments.assignDirect, Assignments.expertGuard, Tx.create,
        Stmt.rows, Above, Row.level]
  | supersedeDirect env admin id =>
      refine Call.performOn_climbs fun copy => ?_
      simp [Assignments.supersedeDirect, Stmt.rows, Above]
  | setQuote admin id quoteAmount reviewNotes =>
      refine Call.performOn_climbs fun copy => ?_
      simp [Assignments.setQuote, Stmt.rows, Above]
  | declineInvitation env expert id reason =>
      refine Call.performOn_climbs fun copy => ?_
      simp [Assignments.declineInvitation, Assignments.expertGuard, Stmt.rows,
        Above]
  | declineDirect env expert id reason =>
      refine Call.performOn_climbs fun copy => ?_
      simp [Assignments.declineDirect, Assignments.expertGuard, Stmt.rows,
        Above]
  | _ => exact ordered.elim

/-- Each mark of an order is an event of its own. -/
theorem markOnce_climbs (eventType : OrderEventType) (due : Order → Bool) :
    (Orders.markOnce eventType due).Climbs Row.level :=
  .bind (by simp) fun orders => .bind
    (Request.climbs_forEach fun id => Call.exec_climbs) fun _ => by simp

theorem OrderCall.climbs
    (call : OrderCall) (ordered : (Operation.order call).Ordered) :
    call.call.Climbs Row.level := by
  cases call with
  | submitDelivery env id expert summary attachments =>
      refine Call.perform_climbs ?_
      simp [Orders.submitDelivery, Orders.getForUpdate, Orders.transition,
        Orders.recordEvent, Tx.getForUpdate, Tx.get, Tx.create, Stmt.rows,
        Above, Row.level]
  | requestRevision env id student note =>
      refine Call.perform_climbs ?_
      simp [Orders.requestRevision, Orders.getForUpdate, Orders.transition,
        Orders.recordEvent, Tx.getForUpdate, Tx.get, Stmt.rows, Above,
        Row.level]
  | approveDelivery env id actor source =>
      exact Call.perform_climbs
        (approveDelivery_climbs env id actor source (Set.empty_subset _))
  | cancel env id actor reason =>
      exact Call.perform_climbs (cancel_climbs env id actor reason)
  | autoApproveDue env =>
      refine .bind (by simp) fun due => Request.climbs_forEach fun item => ?_
      refine Request.climbs_tryCatch (Request.climbs_atomic ?_) fun error => ?_
      · refine .seq (· = {.order item.1})
          (lockOrder_climbs item.1 (Set.empty_subset _)) (by simp)
          fun order _ locked => ?_
        exact Prog.climbs_ite.mpr ⟨fun _ => approveDelivery_climbs _ item.1
          none .auto locked.subset, fun _ => trivial⟩
      · cases error <;> simp
  | sweepUnpaid env => exact ordered.elim
  | awaitingPaymentSweeper =>
      exact .bind (by simp [Orders.awaitingPaymentSweeper]) fun _ => by simp
  | proposeDeadline env id actor proposedDueAt note =>
      refine Call.perform_climbs ?_
      simp [Orders.proposeDeadline, Orders.getForUpdate, Orders.recordEvent,
        Tx.getForUpdate, Tx.get, Tx.create, Stmt.rows, Above, Row.level]
  | respondDeadlineProposal id actor accept =>
      refine Call.perform_climbs ?_
      simp [Orders.respondDeadlineProposal, Orders.getForUpdate,
        Orders.recordEvent, Tx.getForUpdate, Tx.get, Stmt.rows, Above,
        Row.level]
  | deadlineReminder env =>
      exact .bind (markOnce_climbs _ _) fun _ => by simp
  | autoApproveWarning env =>
      exact .bind (markOnce_climbs _ _) fun _ => by simp
  | flagOverdue env =>
      exact .bind (markOnce_climbs _ _) fun _ => by simp

/-- Recording a failed attempt on its own. -/
theorem markFailed_climbs (id : OrderId) (reason : String) :
    (Call.atomic (Payments.markPaymentFailed id reason)).Climbs Row.level :=
  Request.climbs_atomic ((markPaymentFailed_climbs id reason
    (Set.empty_subset _)).mono fun _ _ _ => trivial)

/-- A confirmation, and after a failed attempt its record. -/
theorem confirmPayment_climbs (env : Env) (id : OrderId) :
    (Payments.confirmPayment env id).Climbs Row.level := by
  refine Request.climbs_tryCatch (Request.climbs_atomic
    ((confirmPaymentAtomic_climbs env id).mono fun _ _ _ => trivial))
    fun error => ?_
  cases error with
  | attemptFailed reason => exact .bind (markFailed_climbs id reason) (by simp)
  | _ => simp

/-- A new attempt locks the payment. -/
theorem startPayment_climbs
    (env : Env) (id : OrderId) (order : Order) (actor : Actor) :
    (Payments.startPayment env id order actor).Climbs Row.level ∅
      fun _ _ => True := by
  simp [Payments.startPayment, Payments.createPaymentRow, Tx.create, Stmt.rows,
    Above]

theorem PaymentCall.climbs
    (call : PaymentCall) (ordered : (Operation.payment call).Ordered) :
    call.call.Climbs Row.level := by
  cases call with
  | startPayment env id actor =>
      exact Call.performOn_climbs fun copy =>
        startPayment_climbs env id copy actor
  | confirmPayment env id => exact confirmPayment_climbs env id
  | confirmOrderPayment env id =>
      refine .bind Call.get_climbs fun copy => .bind (by simp) fun _ =>
        .bind (by simp) fun _ => .bind (by simp) fun _ => ?_
      refine Request.climbs_ite (.bind (Request.climbs_atomic ?_) fun _ =>
        confirmPayment_climbs env id) (confirmPayment_climbs env id)
      simp [Payments.createPaymentRow, Tx.create, Stmt.rows, Above]
  | devConfirm env id actor =>
      refine .bind Call.get_climbs fun copy => .bind (by simp) fun _ =>
        .bind (by simp) fun _ => ?_
      exact Request.climbs_ite (.bind (Request.climbs_atomic
        (startPayment_climbs env id copy actor)) fun _ =>
          confirmPayment_climbs env id) (confirmPayment_climbs env id)
  | voidPayment env id =>
      exact Call.perform_climbs ((voidPaymentForOrder_climbs env id
        (upTo_empty)).mono fun _ _ _ => trivial)
  | ingest env provider verified => exact ordered.elim
  | redeliver env eventId =>
      refine Call.performOn_climbs fun copy => ?_
      refine .seq (UpTo 6) (dispatch_climbs env _ _) (by simp)
        fun failure _ upTo => ?_
      obtain ⟨above, _⟩ := upTo.take (.webhookEvent eventId) 10 rfl (by decide)
      simpa [Stmt.rows] using above
  | issueRefund env id amountMinor reason initiatedBy =>
      exact Call.perform_climbs ((issueRefund_climbs env id _ _ _
        (upTo_empty)).mono fun _ _ _ => trivial)
  | schedulePayout env id =>
      exact Call.performOn_climbs fun copy =>
        (schedulePayout_climbs env id copy upTo_empty).mono
          fun _ _ _ => trivial
  | settlePayout env id actor => exact ordered.elim
  | markPayoutFailed id actor reason =>
      exact Call.perform_climbs ((markPayoutFailed_climbs id _ _
        (upTo_empty)).mono fun _ _ _ => trivial)
  | payoutSweeper env =>
      refine .bind (by simp) fun due => Request.climbs_forEach fun item => ?_
      refine .bind (Request.climbs_atomic ((schedulePayout_climbs _ item.1.1
        item.1.2 upTo_empty).mono fun _ _ _ => trivial)) (by simp)
  | configure config => exact Call.exec_climbs

theorem DisputeCall.climbs (call : DisputeCall) :
    call.call.Climbs Row.level := by
  have moved : ∀ (id : OrderId) (dispute : Dispute) (toStatus : DisputeStatus)
      (actor : Option Actor),
      (Disputes.transition id dispute toStatus actor).Climbs Row.level ∅
        fun _ _ => True := by
    intro id dispute toStatus actor
    simp [Disputes.transition, Stmt.rows, Above]
  cases call with
  | openDispute env id actor reason description evidence =>
      refine Call.perform_climbs ?_
      simp [Disputes.openDispute, Disputes.freeze, Orders.getForUpdate,
        Orders.transition, Orders.recordEvent, Tx.getForUpdate, Tx.get,
        Tx.create, Stmt.rows, Above, Row.level]
  | takeCase id actor =>
      exact Call.performOn_climbs fun copy => moved id copy _ actor
  | awaitResponse id actor =>
      exact Call.performOn_climbs fun copy => moved id copy _ actor
  | resumeReview id actor =>
      exact Call.performOn_climbs fun copy => moved id copy _ actor
  | resolve env id actor outcome resolutionNotes refundAmountMinor =>
      exact Call.performOn_climbs fun copy => resolve_climbs env id copy actor
        outcome resolutionNotes refundAmountMinor
  | close env id actor =>
      refine Call.performOn_climbs fun copy => ?_
      simp [Disputes.close, Stmt.rows, Above]

/-- Operations in the order of locks climb. -/
theorem Operation.climbs
    (operation : Operation) (ordered : operation.Ordered) :
    operation.call.Climbs Row.level := by
  cases operation with
  | request call => exact call.climbs ordered
  | offer call => exact call.climbs ordered
  | managed call => exact call.climbs ordered
  | order call => exact call.climbs ordered
  | payment call => exact call.climbs ordered
  | dispute call => exact call.climbs

/-! ## Runs -/

/-- The case of a full refund, whose payout waits to be settled. -/
def contestedPayout : Db :=
  { orders := .insert .empty 7
      { request := 1, student := 1, expert := 2, source := .openBid,
        amount := 5000, commissionAmount := 750, expertAmount := 4250,
        status := .disputed, createdAt := 0, hasOpenDispute := true }
    payments := .insert .empty 7
      { gateway := .manual, providerReference := some "manual-pay-1",
        amountMinor := 5000, status := .succeeded }
    payouts := .insert .empty 9 { order := 7, expert := 2, amountMinor := 4250 }
    disputes := .insert .empty 7
      { openedBy := 1, reason := .other, description := "Not as described.",
        status := .underReview, priorOrderStatus := .completed } }

/-- Support resolves the case; another client works on its payout. -/
def resolving (other : Operation) : Nat → Operation
  | 0 => .dispute (.resolve { now := 8, key := 3 } 7
      (some { id := 100, isStaff := true }) .refundStudentFull
      "The work was not delivered." none)
  | 1 => other
  | _ => .payment (.configure {})

/-- A settlement, which locks the order after its payout, is in the way. -/
theorem settlement_deadlocks :
    let started := Marketplace.start contestedPayout <| resolving <|
      .payment (.settlePayout { now := 8 } 9
        (some { id := 101, isStaff := true }))
    let reached := started.runAll (turns 1 2 ++ turns 0 40 ++ turns 1 40)
    ∀ client ∈ [0, 1], (reached.clients client).proc.ended = false ∧
      ¬reached.Moves client := by
  decide +kernel

end KnowledgeMarketplace
