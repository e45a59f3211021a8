import KnowledgeMarketplace.Lifecycle.Orders
import KnowledgeMarketplace.Payments.Rules

/-!
# Confirming a payment takes the step `pay`

All callers of the confirmation take this step or leave the life cycle alone.
-/

namespace KnowledgeMarketplace

open Transaction Lifecycle

variable {db : Db}

/-- The life cycle is the same, or has taken a step. -/
def Leads (db : Db) (event : Event) (next : Db) : Prop :=
  next.lifecycle = db.lifecycle ∨ Step db.lifecycle event next.lifecycle

/-- A step after idle writes is one from before them. -/
theorem Leads.from_same
    {mid next : Db} {event : Event} (same : mid.lifecycle = db.lifecycle)
    (leads : Leads mid event next) : Leads db event next := by
  unfold Leads at leads ⊢
  rwa [same] at leads

namespace Payments

theorem confirmPaymentAtomic_takes (env : Env) (id : OrderId) :
    (confirmPaymentAtomic env id).Post db (Takes db (.pay id)) := by
  simp only [confirmPaymentAtomic, getForUpdate, Orders.getForUpdate, ledger,
    Orders.activateOrderOnPayment, Orders.markPaid, Orders.recordEvent,
    Tx.getForUpdate, Tx.get, Prog.post_bind, Prog.post_read, Prog.post_orFail,
    Prog.post_lockRow, Prog.post_require, Prog.post_ofExcept, Prog.post_exec,
    takes_error, implies_true, and_true]
  intro _ _ order stored payment _ _ _ waiting _ _ succeeded _ _ copy found _ _
  refine Orders.transition_post (fun _ _ => trivial) ?_
  intro later moved _ _ reached _
  have same : copy = order := Option.some.inj (found.symm.trans stored)
  refine Orders.moveRequest_post (fun _ _ => takes_error) fun last follows => ?_
  refine takes_ok.mpr <| Step.reaching (.pay (lifecycle_order stored) waiting) <|
    follows.trans <| congrArg₂ (fun life request =>
      follow life request [.matched] .inProgress) ?_
      (congrArg Order.request same)
  refine lifecycle_then (by simp [idle, Stmt.table]) <| reached.trans <|
    congrArg (setStatus · id .active) ?_
  refine lifecycle_then (fun _ => rfl) <|
    lifecycle_then (by simp [idle, Stmt.table]) <|
    lifecycle_then (by simp [idle, Stmt.table]) <|
    lifecycle_then (by simp [idle, Stmt.table]) <|
    lifecycle_then (by simp [idle, Stmt.table]) rfl

/-- What the payment services write, besides a confirmation, is idle. -/
theorem markPaymentFailed_idle (id : OrderId) (reason : String) :
    (markPaymentFailed id reason).Emits idle fun _ => True := by
  simp [markPaymentFailed, idle, Stmt.table]

/-- Outside a transaction, a failed confirmation is rolled back. -/
theorem confirmPayment_leads (env : Env) (id : OrderId) :
    (confirmPayment env id).Leaves db [] fun _ next _ =>
      Leads db (.pay id) next := by
  refine Request.leaves_tryCatch.mpr <| Request.leaves_atomic.mpr <|
    (confirmPaymentAtomic_takes env id).mono ?_
  rintro (error | value) next taken
  · cases error with
    | attemptFailed reason =>
        refine Request.leaves_bind.mpr <| Request.leaves_atomic.mpr <|
          post_of_idle (markPaymentFailed_idle id reason) ?_
        rintro (error | value) last same
        · exact .inl rfl
        · exact .inl same
    | _ => exact .inl rfl
  · exact .inr (taken value rfl)

/-- Inside a transaction, a failed confirmation is rolled back as well. -/
theorem confirmPaymentNested_post (env : Env) (id : OrderId) :
    (confirmPaymentNested env id).Post db fun result next =>
      match result with
      | .ok _ => Step db.lifecycle (.pay id) next.lifecycle
      | .error _ => next.lifecycle = db.lifecycle := by
  refine Prog.post_attempt.mpr ((confirmPaymentAtomic_takes env id).mono ?_)
  rintro (error | value) next taken
  · cases error with
    | attemptFailed reason =>
        refine Prog.post_bind.mpr <|
          post_of_idle (markPaymentFailed_idle id reason) ?_
        rintro (error | value) last same <;> exact same
    | _ => exact rfl
  · exact taken value rfl

theorem createPaymentRow_idle
    (env : Env) (id : OrderId) (order : Order) (gateway : GatewayName) :
    (createPaymentRow env id order gateway).Emits idle fun _ => True := by
  simp [createPaymentRow, Tx.create, idle, Stmt.table]

theorem startPayment_idle
    (env : Env) (id : OrderId) (order : Order) (actor : Actor) :
    (startPayment env id order actor).Emits idle fun _ => True := by
  simp [startPayment, createPaymentRow, Tx.create, idle, Stmt.table]

/-- Ensuring a payment row exists is idle; the confirmation follows. -/
theorem ensure_confirm_leads
    {α : Type} {ensure : Tx α} (fine : ensure.Emits idle fun _ => True)
    (env : Env) (id : OrderId) :
    (do
      let payment ← Call.load fun db => db.payments.row id
      if payment = none then
        let _ ← Call.atomic ensure
      confirmPayment env id : Call Unit).Leaves db [] fun _ next _ =>
        Leads db (.pay id) next := by
  simp only [Request.leaves_bind, Request.leaves_load, Request.leaves_ite]
  refine ⟨fun _ => ?_, fun _ => ?_⟩
  · refine Request.leaves_atomic.mpr <| post_of_idle fine ?_
    rintro (error | value) mid same
    · exact .inl rfl
    · exact (confirmPayment_leads env id).mono fun _ _ _ leads =>
        Leads.from_same same leads
  · exact confirmPayment_leads env id

theorem confirmOrderPayment_leads (env : Env) (id : OrderId) (order : Order) :
    (confirmOrderPayment env id order).Leaves db [] fun _ next _ =>
      Leads db (.pay id) next := by
  refine Request.leaves_bind.mpr <| Request.leaves_require.mpr
    ⟨fun _ => ?_, fun _ => .inl rfl⟩
  refine Request.leaves_bind.mpr <| Request.leaves_load.mpr ?_
  refine Request.leaves_bind.mpr <| Request.leaves_require.mpr
    ⟨fun _ => ?_, fun _ => .inl rfl⟩
  exact ensure_confirm_leads (createPaymentRow_idle _ _ _ _) env id

theorem devConfirm_leads
    (env : Env) (id : OrderId) (order : Order) (actor : Actor) :
    (devConfirm env id order actor).Leaves db [] fun _ next _ =>
      Leads db (.pay id) next := by
  refine Request.leaves_bind.mpr <| Request.leaves_require.mpr
    ⟨fun _ => ?_, fun _ => .inl rfl⟩
  exact ensure_confirm_leads (startPayment_idle _ _ _ _) env id

end Payments

namespace Webhooks

/-- The database after a webhook: some payment is confirmed, or none. -/
def Confirms (db next : Db) : Prop :=
  ∃ id, Leads db (.pay id) next

theorem confirms_refl : Confirms db db :=
  ⟨0, .inl rfl⟩

/-- Idle writes after the handler. -/
theorem Confirms.then_idle
    {mid next : Db} (confirms : Confirms db mid)
    (same : next.lifecycle = mid.lifecycle) : Confirms db next := by
  obtain ⟨id, leads⟩ := confirms
  exact ⟨id, by rwa [Leads, same]⟩

theorem handlePaymentSucceeded_confirms (env : Env) (data : EventData) :
    (handlePaymentSucceeded env data).Post db fun _ next =>
      Confirms db next := by
  simp only [handlePaymentSucceeded, Prog.post_bind, Prog.post_read,
    Prog.post_orFail, Prog.post_ite, Prog.post_pure, confirms_refl,
    implies_true, and_true]
  rintro ⟨id, payment⟩ _ _
  refine (Payments.confirmPaymentNested_post env id).mono ?_
  rintro (error | value) next reached
  · exact ⟨id, .inl reached⟩
  · exact ⟨id, .inr reached⟩

/-- Whatever a handler does, the failure is recovered after it. -/
theorem dispatch_confirms (env : Env) (eventType : EventType) (data : EventData) :
    (dispatch env eventType data).Post db fun _ next => Confirms db next := by
  have handled : ∀ handler, handlers env data eventType = some handler →
      handler.Post db fun _ next => Confirms db next := by
    intro handler registered
    cases eventType with
    | other name => simp [handlers] at registered
    | paymentSucceeded =>
        obtain rfl := Option.some.inj registered
        exact handlePaymentSucceeded_confirms env data
    | paymentFailed =>
        obtain rfl := Option.some.inj registered
        refine post_of_idle ?_ fun _ _ same => confirms_refl.then_idle same
        simp [handlePaymentFailed, idle, Stmt.table]
    | refundSucceeded =>
        obtain rfl := Option.some.inj registered
        refine post_of_idle ?_ fun _ _ same => confirms_refl.then_idle same
        simp [handleRefundSucceeded, idle, Stmt.table]
  unfold dispatch
  split
  · exact confirms_refl
  · rename_i handler registered
    refine Prog.post_tryCatch.mpr <| Prog.post_bind.mpr <|
      (handled handler registered).mono ?_
    rintro (error | value) next confirms
    · simp [confirms]
    · exact confirms

theorem redeliver_confirms
    (env : Env) (eventId : String) (event : WebhookEvent) :
    (redeliver env eventId event).Post db fun _ next => Confirms db next := by
  refine Prog.post_bind.mpr <| (dispatch_confirms _ _ _).mono ?_
  rintro (error | failure) next confirms
  · exact confirms
  · exact confirms.then_idle (lifecycle_other _ (by simp [Stmt.table]))

theorem ingest_confirms
    (env : Env) (provider : GatewayName)
    (verified : Except Error VerifiedWebhook) :
    (ingest env provider verified).Post db fun _ next => Confirms db next := by
  refine Prog.post_bind.mpr <| Prog.post_ofExcept.mpr
    ⟨fun webhook _ => ?_, fun _ _ => confirms_refl⟩
  have stored : (getOrCreateEvent provider webhook).Emits idle
      fun _ => True := by
    simp [getOrCreateEvent, idle, Stmt.table]
  refine Prog.post_bind.mpr <| post_of_idle stored ?_
  rintro (error | ⟨event, created⟩) mid same
  · exact confirms_refl.then_idle same
  have kept : Confirms db mid := confirms_refl.then_idle same
  refine Prog.post_bind.mpr <| Prog.post_require.mpr
    ⟨fun _ => ?_, fun _ => kept⟩
  refine Prog.post_ite.mpr ⟨fun _ => kept, fun _ => ?_⟩
  refine Prog.post_bind.mpr <| (dispatch_confirms _ _ _).mono ?_
  rintro (error | failure) next ⟨id, leads⟩
  · exact ⟨id, Leads.from_same same leads⟩
  · have confirmed : Confirms db next := ⟨id, Leads.from_same same leads⟩
    exact confirmed.then_idle (lifecycle_other _ (by simp [Stmt.table]))

end Webhooks

end KnowledgeMarketplace
