import KnowledgeMarketplace.Operations.Routine
import KnowledgeMarketplace.Payments.Confirmation

/-!
# Effects of the other operations

Confirmations, refunds and cancellations write payments and the ledger besides
what plain operations write.  Settlements and resolutions are left: they write
payouts and unfreeze orders.
-/

namespace KnowledgeMarketplace

open Transaction

/-- The operation settles a payout. -/
def Operation.Settles : Operation → Prop
  | .payment (.settlePayout _ _ _) => True
  | _ => False

/-- The operation opens a dispute of the order. -/
def Operation.Opens (id : OrderId) : Operation → Prop
  | .dispute (.openDispute _ key _ _ _ _) => key = id
  | _ => False

/-- The operation resolves the dispute of the order. -/
def Operation.Resolves (id : OrderId) : Operation → Prop
  | .dispute (.resolve _ key _ _ _ _) => key = id
  | _ => False

instance (id : OrderId) : DecidablePred (Operation.Resolves id)
  | .dispute (.resolve _ key _ _ _ _) => inferInstanceAs (Decidable (key = id))
  | .dispute (.openDispute _ _ _ _ _ _) | .dispute (.takeCase _ _)
  | .dispute (.awaitResponse _ _) | .dispute (.resumeReview _ _)
  | .dispute (.close _ _ _) | .request _ | .offer _ | .managed _ | .order _
  | .payment _ => .isFalse False.elim

section

variable {good : Effect Stmt → Prop}

/-- The amounts of a payment stay. -/
@[mk_iff] structure KeepsAmounts (set : Payment → Payment) : Prop where
  amount : ∀ stored, (set stored).amountMinor = stored.amountMinor
  refunded : ∀ stored, (set stored).refundedMinor = stored.refundedMinor

/-- What was refunded stays. -/
@[mk_iff] structure KeepsRefund (set : Refund → Refund) : Prop where
  payment : ∀ stored, (set stored).payment = stored.payment
  amount : ∀ stored, (set stored).amountMinor = stored.amountMinor

/-- The statements that confirm, fail and cancel payments are good. -/
structure Collection (good : Effect Stmt → Prop) : Prop where
  savepoint : good .savepoint
  updated : ∀ id set, KeepsAmounts set → good (.write (.updatePayment id set))
  saved : ∀ id set, KeepsAmounts set → good (.write (.savePayment id set))
  processed : ∀ id set, KeepsRefund set → good (.write (.saveRefund id set))
  ledger : ∀ entry, entry.entryType ∈ [.charge, .commission, .expertCredit] →
    good (.write (.appendLedger entry))

namespace Collection

theorem confirmPaymentAtomic
    (collection : Collection good) (ordering : Ordering good)
    (env : Env) (id : OrderId) :
    (Payments.confirmPaymentAtomic env id).Emits good fun _ => True :=
  Payments.confirmPaymentAtomic_emits
    (fun _ => collection.updated _ _ (by simp [keepsAmounts_iff]))
    collection.ledger
    (ordering.saved _ _ (.paid _))
    (ordering.saved _ _ (.status _))
    (fun _ type => ordering.told _ (by simp [type, jobMarks]))
    (fun _ _ => ordering.moved _ _ _ _ _)

theorem confirmPayment
    (collection : Collection good) (ordering : Ordering good)
    (env : Env) (id : OrderId) :
    (Payments.confirmPayment env id).Emits good fun _ => True := by
  have failed : ∀ id reason, good (.write (.updatePayment id fun stored =>
      { stored with status := .failed, failureReason := clip 255 reason })) :=
    fun _ _ => collection.updated _ _ (by simp [keepsAmounts_iff])
  refine Request.emits_tryCatch.mpr (Request.Emits.mono (Request.emits_atomic.mpr
    (collection.confirmPaymentAtomic ordering env id)) ?_)
  rintro (error | value) _
  · cases error <;> simp [Payments.markPaymentFailed, failed]
  · trivial

theorem dispatch
    (collection : Collection good) (ordering : Ordering good)
    (env : Env) (eventType : EventType) (data : EventData) :
    (Webhooks.dispatch env eventType data).Emits good fun _ => True :=
  Webhooks.dispatch_emits collection.savepoint
    (collection.confirmPaymentAtomic ordering env)
    (fun _ _ => collection.updated _ _ (by simp [keepsAmounts_iff]))
    (fun _ => collection.saved _ _
      (by simp [keepsAmounts_iff, Webhooks.failedByProvider]))
    (fun _ => collection.processed _ _ (by simp [keepsRefund_iff]))

/-- What cancelling an open attempt writes. -/
theorem voidPayment
    (collection : Collection good) (env : Env) (id : OrderId) :
    (Payments.voidPaymentForOrder env id).Emits good fun _ => True :=
  Prog.emits_updateWhere
    ⟨fun _ => collection.updated _ _ (by simp [keepsAmounts_iff]),
      fun _ => trivial⟩

theorem cancel
    (collection : Collection good) (ordering : Ordering good)
    (ended : ∀ id set, OrderEnd set → good (.write (.saveOrder id set)))
    (env : Env) (id : OrderId) (actor : Actor) (reason : String) :
    (OrderCall.cancel env id actor reason).call.Emits good fun _ => True := by
  refine Request.emits_atomic.mpr (.seq ?_ (by simp))
  refine .seq (by simp [Orders.getForUpdate, Tx.getForUpdate, Tx.get])
    fun order => .seq (by simp) fun _ => .seq (by simp) fun _ => ?_
  refine .seq (by simp) fun _ => .seq ?_ fun _ => .seq ?_ fun cancelled => ?_
  · simp [ended]
  · simp [Orders.transition, Orders.getForUpdate, Orders.recordEvent, Tx.get,
      Tx.getForUpdate, ordering.saved, ordering.told, jobMarks]
  exact .seq (collection.voidPayment env id) fun _ =>
    Orders.moveRequest_emits fun _ _ =>
      ordering.moved _ _ _ _ _

end Collection

/-- The operation creates or re-arms a payment. -/
def Operation.StartsPayment : Operation → Prop
  | .payment (.startPayment _ _ _) | .payment (.confirmOrderPayment _ _)
  | .payment (.devConfirm _ _ _) => True
  | _ => False

/-- The operation refunds, by itself or by a resolution. -/
def Operation.Refunds : Operation → Prop
  | .payment (.issueRefund _ _ _ _ _) => True
  | .dispute (.resolve _ _ _ _ _ _) => True
  | _ => False

/-- The effects of the operations that are left. -/
theorem Operation.emits_of_collection
    (ordering : Ordering good) (collection : Collection good)
    {operation : Operation}
    (ended : operation.Ends → ∀ id set, OrderEnd set →
      good (.write (.saveOrder id set)))
    (apart : operation.Apart → operation.call.Emits good fun _ => True)
    (triaged : operation.Triages → operation.call.Emits good fun _ => True)
    (unscheduled : ¬operation.Schedules)
    (unfailed : ¬operation.FailsPayout) (unsettled : ¬operation.Settles)
    (unrefunded : ¬operation.Refunds) (unstarted : ¬operation.StartsPayment) :
    operation.call.Emits good fun _ => True := by
  by_cases routine : operation.IsRoutine
  · exact routine.works ordering ended apart triaged unscheduled unfailed
  rcases operation with _ | _ | _ | call | call | call <;>
    try exact absurd trivial routine
  · cases call with
    | cancel env id actor reason =>
        exact collection.cancel ordering (ended trivial) env id actor reason
    | _ => exact absurd trivial routine
  · cases call with
    | confirmPayment env id => exact collection.confirmPayment ordering env id
    | voidPayment env id =>
        exact Request.emits_atomic.mpr
          (.seq (collection.voidPayment env id) (by simp))
    | ingest env provider verified =>
        exact Request.emits_atomic.mpr (.seq (Webhooks.ingest_emits
          (fun _ _ => ordering.elsewhere _ (by simp [Stmt.table]))
          (fun _ _ => ordering.elsewhere _ (by simp [Stmt.table]))
          (collection.dispatch ordering env)) (by simp))
    | redeliver env eventId =>
        refine .seq (by simp [Call.get]) fun copy =>
          Request.emits_atomic.mpr (.seq ?_ (by simp))
        exact Webhooks.redeliver_emits
          (fun _ => ordering.elsewhere _ (by simp [Stmt.table]))
          (collection.dispatch ordering env)
    | settlePayout env id actor => exact absurd trivial unsettled
    | _ => first
        | exact absurd trivial routine
        | exact absurd trivial unrefunded
        | exact absurd trivial unstarted
  · cases call with
    | resolve env id actor outcome notes amount =>
        exact absurd trivial unrefunded
    | _ => exact absurd trivial routine

/-- The effects of the operations that create or re-arm a payment. -/
theorem Operation.StartsPayment.emits
    (ordering : Ordering good) (collection : Collection good)
    (inserted : ∀ id payment, good (.write (.insertPayment id payment)))
    (rearmed : ∀ env id order,
      good (.write (.savePayment id (Payments.rearm env order))))
    {operation : Operation} (starts : operation.StartsPayment) :
    operation.call.Emits good fun _ => True := by
  have created : ∀ env id order gateway,
      (Payments.createPaymentRow env id order gateway).Emits good
        fun _ => True := by
    simp [Payments.createPaymentRow, Tx.create, inserted]
  have started : ∀ env id order actor,
      (Payments.startPayment env id order actor).Emits good
        fun _ => True := by
    intro env id order actor
    refine .seq (by simp) fun _ => .seq (by simp) fun _ => ?_
    refine .seq (by simp) fun found => .seq ?_ fun payment => ?_
    · cases found <;> simp [created]
    · simp [rearmed]
  have confirmed := collection.confirmPayment ordering
  rcases operation with _ | _ | _ | _ | call | _ <;> try exact starts.elim
  cases call with
  | startPayment env id actor =>
      exact .seq (by simp [Call.get]) fun copy =>
        Request.emits_atomic.mpr (.seq (started env id copy actor) (by simp))
  | confirmOrderPayment env id =>
      refine .seq (by simp [Call.get]) fun copy => .seq (by simp) fun _ => ?_
      refine .seq (by simp) fun payment => .seq (by simp) fun _ => ?_
      simp only [Request.emits_ite]
      exact ⟨fun _ => .seq (Request.emits_atomic.mpr (created _ _ _ _))
        fun _ => confirmed env id, fun _ => confirmed env id⟩
  | devConfirm env id actor =>
      refine .seq (by simp [Call.get]) fun copy => .seq (by simp) fun _ => ?_
      refine .seq (by simp) fun payment => ?_
      simp only [Request.emits_ite]
      exact ⟨fun _ => .seq (Request.emits_atomic.mpr (started _ _ _ _))
        fun _ => confirmed env id, fun _ => confirmed env id⟩
  | _ => exact starts.elim

/-- All statements on payments and refunds, and entries but payouts, are good. -/
structure Turnover (good : Effect Stmt → Prop) : Prop where
  savepoint : good .savepoint
  payments : ∀ stmt, stmt.table = .payments → good (.write stmt)
  refunds : ∀ stmt, stmt.table = .refunds → good (.write stmt)
  ledger : ∀ entry, entry.entryType ≠ .payout →
    good (.write (.appendLedger entry))

namespace Turnover

theorem collection (turnover : Turnover good) : Collection good where
  savepoint := turnover.savepoint
  updated _ _ _ := turnover.payments _ rfl
  saved _ _ _ := turnover.payments _ rfl
  processed _ _ _ := turnover.refunds _ rfl
  ledger entry booked := turnover.ledger entry fun same => by
    simp [same] at booked

theorem issueRefund
    (turnover : Turnover good) (env : Env) (id : OrderId) (amountMinor : Int)
    (reason : RefundReason) (initiatedBy : Option Actor) :
    (Payments.issueRefund env id amountMinor reason initiatedBy).Emits good
      fun _ => True :=
  Payments.issueRefund_emits (fun _ => turnover.refunds _ rfl)
    (fun entry booked => turnover.ledger entry fun same => by
      simp [same] at booked)
    (fun _ => turnover.payments _ rfl)

/-- A resolution also corrects payouts and unfreezes the order. -/
theorem resolve
    (turnover : Turnover good) (ordering : Ordering good)
    (env : Env) (id : OrderId) (actor : Option Actor)
    (outcome : DisputeOutcome) (notes : String)
    (refundAmountMinor : Option Int)
    (corrected : ∀ key set, good (.write (.savePayout key set)))
    (unfrozen : good (.write (.saveOrder id fun stored =>
      { stored with hasOpenDispute := false }))) :
    (DisputeCall.resolve env id actor outcome notes
      refundAmountMinor).call.Emits good fun _ => True :=
  .seq (by simp [Call.get]) fun _ => Request.emits_atomic.mpr
    (.seq (Disputes.resolve_emits (fun _ => turnover.issueRefund _ _ _ _ _)
      corrected unfrozen
      (fun _ => ordering.saved _ _ (.status _))
      (fun _ type => ordering.told _ (by simp [type, jobMarks]))
      (fun _ => ordering.elsewhere _ (by simp [Stmt.table]))) (by simp))

end Turnover

/-- Operations that write no payouts, unless they resolve a dispute. -/
theorem Operation.emits_of_turnover
    (ordering : Ordering good) (turnover : Turnover good)
    {operation : Operation}
    (ended : operation.Ends → ∀ id set, OrderEnd set →
      good (.write (.saveOrder id set)))
    (apart : operation.Apart → operation.call.Emits good fun _ => True)
    (triaged : operation.Triages → operation.call.Emits good fun _ => True)
    (unscheduled : ¬operation.Schedules)
    (unfailed : ¬operation.FailsPayout) (unsettled : ¬operation.Settles)
    (unresolved : ∀ id, ¬operation.Resolves id) :
    operation.call.Emits good fun _ => True := by
  by_cases starts : operation.StartsPayment
  · exact starts.emits ordering turnover.collection
      (fun _ _ => turnover.payments _ rfl) fun _ _ _ => turnover.payments _ rfl
  by_cases refunds : operation.Refunds
  · rcases operation with _ | _ | _ | _ | call | call <;>
      try exact refunds.elim
    · cases call with
      | issueRefund env id amount reason initiatedBy =>
          exact Request.emits_atomic.mpr
            (.seq (turnover.issueRefund _ _ _ _ _) (by simp))
      | _ => exact refunds.elim
    · cases call with
      | resolve env id actor outcome notes amount =>
          exact absurd rfl (unresolved id)
      | _ => exact refunds.elim
  exact Operation.emits_of_collection ordering turnover.collection ended
    apart triaged unscheduled unfailed unsettled refunds starts

/-- Whatever else the operation does to payments, payouts and the ledger. -/
theorem Operation.emits_of_accounts
    (ordering : Ordering good) (savepoint : good .savepoint)
    (accounts : ∀ stmt,
      stmt.table ∈ [.payments, .refunds, .payouts, .ledger] →
        good (.write stmt))
    (unfrozen : ∀ id, good (.write (.saveOrder id fun stored =>
      { stored with hasOpenDispute := false })))
    {operation : Operation}
    (completed : operation.Approves → ∀ id now,
      good (.write (.saveOrder id fun stored =>
        { stored with completedAt := some now, autoApproveAt := none })))
    (ended : operation.Ends → ∀ id set, OrderEnd set →
      good (.write (.saveOrder id set)))
    (apart : operation.Apart → operation.call.Emits good fun _ => True)
    (triaged : operation.Triages → operation.call.Emits good fun _ => True) :
    operation.call.Emits good fun _ => True := by
  have turnover : Turnover good :=
    { savepoint
      payments := fun _ table => accounts _ (by simp [table])
      refunds := fun _ table => accounts _ (by simp [table])
      ledger := fun _ _ => accounts _ (by simp [Stmt.table]) }
  by_cases schedules : operation.Schedules
  · exact schedules.emits ordering completed
      fun _ _ _ => accounts _ (by simp [Stmt.table])
  by_cases fails : operation.FailsPayout
  · exact fails.emits fun _ _ => accounts _ (by simp [Stmt.table])
  by_cases settles : operation.Settles
  · rcases operation with _ | _ | _ | _ | call | _ <;> try exact settles.elim
    cases call with
    | settlePayout env key actor =>
        have paid : ∀ set, good (.write (.savePayout key set)) := fun _ =>
          accounts _ (by simp [Stmt.table])
        have booked : ∀ entry, good (.write (.appendLedger entry)) := fun _ =>
          accounts _ (by simp [Stmt.table])
        simp [Operation.call, PaymentCall.call, Call.perform,
          Payments.settlePayout, Payments.getPayoutForUpdate, Payments.ledger,
          Orders.getForUpdate, Tx.getForUpdate, Tx.get, paid, booked]
    | _ => exact settles.elim
  by_cases resolves : ∃ id, operation.Resolves id
  · obtain ⟨id, resolves⟩ := resolves
    rcases operation with _ | _ | _ | _ | _ | call <;> try exact resolves.elim
    cases call with
    | resolve env id actor outcome notes amount =>
        exact turnover.resolve ordering env id actor outcome notes amount
          (fun _ _ => accounts _ (by simp [Stmt.table])) (unfrozen id)
    | _ => exact resolves.elim
  exact operation.emits_of_turnover ordering turnover ended apart triaged schedules
    fails settles (not_exists.mp resolves)

end

end KnowledgeMarketplace
