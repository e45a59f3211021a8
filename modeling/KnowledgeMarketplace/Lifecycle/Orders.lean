import KnowledgeMarketplace.Lifecycle.View
import KnowledgeMarketplace.Operations.Runs

/-!
# Order and dispute services take business steps

Each service, run alone, takes the step that its name says, or fails.
-/

namespace KnowledgeMarketplace

open Transaction Lifecycle

variable {db : Db}

/-- On success, the service has taken the step. -/
def Takes (db : Db) (event : Event) {α : Type}
    (result : Except Error α) (next : Db) : Prop :=
  ∀ value, result = .ok value → Step db.lifecycle event next.lifecycle

@[simp] theorem takes_error {event : Event} {α : Type} {error : Error}
    {next : Db} : Takes db event (.error error : Except Error α) next := by
  simp [Takes]

@[simp] theorem takes_ok {event : Event} {α : Type} {value : α} {next : Db} :
    Takes db event (.ok value : Except Error α) next ↔
      Step db.lifecycle event next.lifecycle := by
  simp [Takes]

namespace Orders

theorem submitDelivery_takes
    (env : Env) (id : OrderId) (expert : Actor) (summary : String)
    (attachments : Except Error Unit) :
    (submitDelivery env id expert summary attachments).Post db
      (Takes db (.deliver id)) := by
  simp only [submitDelivery, getForUpdate, Tx.getForUpdate, Tx.get, Tx.create,
    Prog.post_bind, Prog.post_lockRow, Prog.post_read, Prog.post_orFail,
    Prog.post_require, Prog.post_ofExcept, Prog.post_exec, Prog.post_pure,
    takes_error, takes_ok, implies_true, and_true]
  intro order stored _ waiting _ _ _ _
  refine transition_post (fun _ _ => trivial) ?_
  intro copy next _ _ moved _
  refine Step.reaching (.deliver (lifecycle_order stored) waiting) <|
    moved.trans <| congrArg (setStatus · id .delivered) ?_
  exact lifecycle_then (fun _ => rfl) <|
    lifecycle_then (by simp [idle, Stmt.table]) rfl

theorem requestRevision_takes
    (env : Env) (id : OrderId) (student : Actor) (note : String) :
    (requestRevision env id student note).Post db (Takes db (.revise id)) := by
  simp only [requestRevision, recordEvent, getForUpdate, Tx.getForUpdate,
    Tx.get, Prog.post_bind, Prog.post_lockRow, Prog.post_read,
    Prog.post_orFail, Prog.post_require, Prog.post_exec, Prog.post_pure,
    takes_error, takes_ok, implies_true, and_true]
  intro order stored _ delivered _ _ delivery _
  refine transition_post (fun _ _ => trivial) ?_
  intro copy next _ _ moved _
  refine Step.reaching (.revise (lifecycle_order stored) delivered) <|
    lifecycle_then (by simp [idle, Stmt.table]) <| moved.trans <|
      congrArg (setStatus · id .revisionRequested) ?_
  exact lifecycle_then (fun _ => rfl) <|
    lifecycle_then (by simp [idle, Stmt.table]) rfl

/-- Scheduling a payout leaves the life cycle alone. -/
theorem schedulePayout_idle (env : Env) (id : OrderId) (order : Order) :
    (Payments.schedulePayout env id order).Emits idle fun _ => True := by
  simp [Payments.schedulePayout, Tx.create, idle, Stmt.table]

theorem approveDelivery_takes
    (env : Env) (id : OrderId) (actor : Option Actor)
    (source : ApprovalSource) :
    (approveDelivery env id actor source).Post db
      (Takes db (.approve id)) := by
  simp only [approveDelivery, recordEvent, getForUpdate, Tx.getForUpdate,
    Tx.get, Prog.post_bind, Prog.post_lockRow, Prog.post_read,
    Prog.post_orFail, Prog.post_require, Prog.post_ofExcept, Prog.post_exec,
    Prog.post_pure, takes_error, takes_ok, implies_true, and_true]
  intro order stored _ _ delivered
  refine post_of_idle (by simp [idle, Stmt.table]) ?_
  rintro (error | value) approved same
  · trivial
  refine transition_post (fun _ _ => trivial) ?_
  intro copy moved found _ reached _
  have completing : (Store.apply (Stmt.saveOrder id fun stored =>
      { stored with completedAt := some env.now, autoApproveAt := none })
        approved : Db).lifecycle = db.lifecycle :=
    lifecycle_then (fun _ => rfl) same
  have about : copy.request = order.request :=
    congrArg OrderState.request (same_state stored found completing)
  refine moveRequest_post (fun _ _ => trivial) fun followed follows => ?_
  refine post_of_idle (schedulePayout_idle env id _) ?_
  rintro (error | value) last done
  · trivial
  refine Step.reaching (.approve (lifecycle_order stored) delivered) <|
    done.trans <| follows.trans <| congrArg₂ (fun life request =>
      follow life request [.inProgress] .completed) ?_ about
  exact lifecycle_then (by simp [idle, Stmt.table]) <| reached.trans <|
    congrArg (setStatus · id .completed) completing

theorem cancel_takes
    (env : Env) (id : OrderId) (actor : Actor) (reason : String) :
    (cancel env id actor reason).Post db fun result next =>
      Takes db (.cancel id) result next ∧
        ∀ value, result = .ok value → reason ≠ "" ∧ (actor.isStaff = true ∨
          (db.orders.row id).any (·.status = .awaitingPayment) = true) := by
  simp only [cancel, getForUpdate, Tx.getForUpdate, Tx.get,
    Prog.post_bind, Prog.post_lockRow, Prog.post_read, Prog.post_orFail,
    Prog.post_require, Prog.post_exec, takes_error,
    reduceCtorEq, false_implies, implies_true, and_true]
  intro order stored _ entitled given
  refine transition_post (fun _ _ => by simp) ?_
  intro copy moved found edge reached _
  have closing : (Store.apply (Stmt.saveOrder id fun stored =>
      { stored with
        cancelledAt := some env.now
        cancelledBy := some actor.id
        cancellationReason := clip 200 reason }) db : Db).lifecycle =
        db.lifecycle :=
    lifecycle_then (fun _ => rfl) rfl
  have same := same_state stored found closing
  have status : copy.status = order.status := congrArg OrderState.status same
  have allowed : (transitions order.status .cancelled).isSome := status ▸ edge
  refine post_of_idle (by simp [Payments.voidPaymentForOrder, idle, Stmt.table])
    ?_
  rintro (error | value) voided kept
  · simp
  refine moveRequest_post (fun _ _ => by simp) fun last follows => ?_
  refine ⟨takes_ok.mpr ?_, fun _ _ => ?_⟩
  · refine Step.reaching (.cancel (lifecycle_order stored) allowed) <|
      follows.trans <| congrArg₂ (fun life request =>
        follow life request [.matched, .inProgress] .cancelled) ?_
        (congrArg OrderState.request same)
    exact kept.trans <| reached.trans <|
      congrArg (setStatus · id .cancelled) closing
  · refine ⟨given, ?_⟩
    rcases entitled with waiting | staff
    · exact .inr (by simp [stored, waiting])
    · exact .inl staff

/-- What the sweep has done so far: it has only cancelled unpaid orders. -/
structure Swept (env : Env) (db current : Db) : Prop where
  steps : ∃ events, Steps db.lifecycle events current.lifecycle ∧
    ∀ event ∈ events, ∃ id, event = .sweep id ∧
      (db.orders.row id).any (unpaid env.now) = true
  others : ∀ id order, current.lifecycle.orders id = some order →
    order.status = .cancelled ∨ db.lifecycle.orders id = some order

/-- One round of the sweep takes its step. -/
theorem Swept.round
    {env : Env} {id : OrderId} {current : Db} (swept : Swept env db current)
    (due : (db.orders.row id).any (unpaid env.now) = true) :
    (cancelUnpaid env id).Post current fun result next => result = .ok () →
      Swept env db next ∧ Step current.lifecycle (.sweep id) next.lifecycle := by
  simp only [cancelUnpaid, Prog.post_bind, Prog.post_exec, Prog.post_pure]
  refine transition_post (fun _ _ => by simp) ?_
  intro copy next found edge reached _ _
  have closing : (Store.apply (Stmt.saveOrder id fun stored =>
      { stored with
        cancelledAt := some env.now
        cancellationReason := "Unpaid for 72 hours" }) current :
        Db).lifecycle = current.lifecycle :=
    lifecycle_then (fun _ => rfl) rfl
  obtain ⟨order, stored, overdue⟩ := (Option.any_eq_true _ _).mp due
  simp only [unpaid, Bool.and_eq_true, decide_eq_true_eq] at overdue
  have present : current.lifecycle.orders id = some copy.state :=
    closing ▸ lifecycle_order found
  have waiting : copy.status = .awaitingPayment := by
    rcases swept.others id copy.state present with cancelled | unchanged
    · have status : copy.status = .cancelled := cancelled
      simp [status, transitions] at edge
    · rw [lifecycle_order stored] at unchanged
      have same := congrArg OrderState.status (Option.some.inj unchanged)
      exact same.symm.trans overdue.1
  have target : next.lifecycle = current.lifecycle.setStatus id .cancelled :=
    reached.trans (congrArg (setStatus · id .cancelled) closing)
  have taken : Step current.lifecycle (.sweep id) next.lifecycle :=
    Step.reaching (.sweep present waiting) target
  obtain ⟨events, steps, all⟩ := swept.steps
  refine ⟨⟨⟨events ++ [.sweep id], steps.append (.cons taken .nil),
    fun event listed => ?_⟩, fun other later seen => ?_⟩, taken⟩
  · rcases List.mem_append.mp listed with earlier | last
    · exact all event earlier
    · exact ⟨id, List.mem_singleton.mp last, due⟩
  · rw [target] at seen
    by_cases same : other = id
    · simp only [setStatus, setOrder, same, if_true,
        Option.map_eq_some_iff] at seen
      obtain ⟨before, -, rfl⟩ := seen
      exact .inl rfl
    · simp only [setStatus, setOrder, same, if_false] at seen
      exact swept.others other later seen

/-- What the rounds keep besides, the sweep keeps. -/
theorem sweepUnpaid_keeps
    {env : Env} (invariant : Db → Prop) (start : invariant db)
    (round : ∀ id current, invariant current →
      (cancelUnpaid env id).Post current fun result next => result = .ok () →
        Step current.lifecycle (.sweep id) next.lifecycle → invariant next) :
    (sweepUnpaid env).Post db fun result next =>
      ∀ count, result = .ok count → Swept env db next ∧ invariant next := by
  simp only [sweepUnpaid, Prog.post_bind, Prog.post_selectForUpdate,
    Prog.post_pure]
  refine (Prog.post_forEach_ok
    (fun current => Swept env db current ∧ invariant current) ?_ ?_).mono ?_
  · intro id member current reached
    obtain ⟨swept, holds⟩ := reached
    have due : (db.orders.row id).any (unpaid env.now) = true := by
      simpa using (List.mem_filter.mp member).2
    have taken := swept.round due
    have kept := round id current holds
    unfold Prog.Post at taken kept ⊢
    exact fun done => ⟨(taken done).1, kept done (taken done).2⟩
  · exact ⟨⟨⟨[], .nil, by simp⟩, fun _ _ stored => .inr stored⟩, start⟩
  · rintro (error | value) next kept
    · simp
    · exact fun _ _ => kept rfl

/-- The sweep takes one step for each unpaid order. -/
theorem sweepUnpaid_takes (env : Env) :
    (sweepUnpaid env).Post db fun result next =>
      ∀ count, result = .ok count → Swept env db next :=
  (sweepUnpaid_keeps (fun _ => True) trivial fun _ _ _ _ _ => trivial).mono
    fun _ _ kept count ok => (kept count ok).1

/-- Approving one due order takes its step, or nothing. -/
theorem autoApproveOne_takes (env : Env) (id : OrderId) :
    (autoApproveOne env id).Post db fun result next =>
      result = .ok () → next.lifecycle = db.lifecycle ∨
        Step db.lifecycle (.approve id) next.lifecycle := by
  simp only [autoApproveOne, getForUpdate, Tx.getForUpdate, Tx.get,
    Prog.post_bind, Prog.post_lockRow, Prog.post_read, Prog.post_orFail,
    Prog.post_ite, Prog.post_pure, reduceCtorEq, false_implies, implies_true,
    and_true]
  intro order stored
  refine ⟨fun _ => ?_, fun _ => by simp⟩
  exact (approveDelivery_takes env id none .auto).mono
    fun result next takes done => .inr (takes () done)

/-- The hourly approval takes one step for each order that it approves. -/
theorem autoApproveDue_takes (env : Env) :
    ∃ events, Steps db.lifecycle events
        (Request.run (autoApproveDue env) db).2.lifecycle ∧
      ∀ event ∈ events, ∃ id, event = .approve id := by
  let approved : Db → Prop := fun current => ∃ events,
    Steps db.lifecycle events current.lifecycle ∧
      ∀ event ∈ events, ∃ id, event = .approve id
  suffices whole : (autoApproveDue env).Leaves db [] fun _ next _ =>
      approved next from Request.leaves_iff_run.mp whole
  simp only [autoApproveDue, Request.leaves_bind, Request.leaves_load]
  refine (Request.leaves_forEach approved (fun item _ current done => ?_)
    ⟨[], .nil, by simp⟩).mono fun _ _ _ kept => kept.1
  refine Request.leaves_tryCatch.mpr <| Request.leaves_atomic.mpr <|
    (autoApproveOne_takes { env with key := env.key + item.2 } item.1).mono ?_
  rw [applyAll_nil]
  rintro (error | value) next takes
  · cases error <;> simp [done]
  · obtain ⟨events, steps, all⟩ := done
    rcases takes rfl with same | step
    · exact ⟨⟨events, same ▸ steps, all⟩, rfl⟩
    · refine ⟨⟨events ++ [.approve item.1],
        steps.append (.cons step .nil), fun event listed => ?_⟩, rfl⟩
      rcases List.mem_append.mp listed with earlier | last
      · exact all event earlier
      · exact ⟨item.1, List.mem_singleton.mp last⟩

end Orders

end KnowledgeMarketplace
