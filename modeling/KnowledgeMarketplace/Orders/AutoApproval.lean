import KnowledgeMarketplace.Orders.Marks
import KnowledgeMarketplace.Orders.ReviewWindow

/-!
# Automatic approval, run alone

The job approves an order only if its timer has run out.  A timer that runs out
has run all the time since the delivery that started it.
-/

namespace KnowledgeMarketplace

open Transaction

namespace Orders

/-- The job, run alone, approves the delivery of the order. -/
def AutoApproves (env : Env) (id : OrderId) (db : Db) : Prop :=
  marks .autoApproved id db <
    marks .autoApproved id ((Operation.order (.autoApproveDue env)).after db)

/-- The orders that the job lists. -/
def dueApprovals (now : Time) (db : Db) : List OrderId :=
  db.orders.select fun _ order => approvalDue now order

/-- The job takes one order after the other. -/
def autoApproveAll (env : Env) (due : List (OrderId × Nat)) : Call Unit :=
  Call.forEach due fun (id, index) =>
    Call.tryCatch
      (Call.atomic (autoApproveOne { env with key := env.key + index } id))
      fun
        | .domain _ => pure ()
        | error => Call.throw error

theorem autoApproveDue_after (env : Env) (db : Db) :
    (Operation.order (.autoApproveDue env)).after db =
      (Request.run (autoApproveAll env (dueApprovals env.now db).zipIdx) db).2 :=
  rfl

/-- Effects that leave the order and its timeline alone. -/
def skipping (id : OrderId) : Effect Stmt → Prop
  | .write (.recordEvent event) => event.order ≠ id
  | .write (.saveOrder key _) => key ≠ id
  | .write (.insertOrder _ _) => False
  | _ => True

theorem approveDelivery_skipping
    {id key : OrderId} (other : key ≠ id) (env : Env) (actor : Option Actor)
    (source : ApprovalSource) :
    (approveDelivery env key actor source).Emits (skipping id) fun _ => True :=
  approveDelivery_emits (fun _ _ => trivial)
    (fun _ about _ same => other (about.symm.trans same)) other
    (fun _ => other)
    (fun _ _ => by simp [ServiceRequests.transition, skipping])
    fun _ _ => trivial

theorem autoApproveOne_skipping
    {id key : OrderId} (other : key ≠ id) (env : Env) :
    (autoApproveOne env key).Emits (skipping id) fun _ => True := by
  refine .seq (by simp [getForUpdate, Tx.getForUpdate, Tx.get]) fun order => ?_
  simpa using fun _ _ => approveDelivery_skipping other env none .auto

/-- Orders that are not on the list are left alone. -/
theorem autoApproveAll_skipping
    {id : OrderId} {due : List (OrderId × Nat)}
    (unlisted : ∀ item ∈ due, item.1 ≠ id) (env : Env) :
    (autoApproveAll env due).Emits (skipping id) fun _ => True := by
  refine Request.emits_forEach fun item member => ?_
  refine Request.emits_tryCatch.mpr (Request.Emits.mono
    (Request.emits_atomic.mpr
      (autoApproveOne_skipping (unlisted item member) _)) ?_)
  rintro (error | value) _
  · cases error <;> simp
  · trivial

/-- The timeline and the row of a skipped order stay. -/
theorem skipping_apply
    {id : OrderId} {stmt : Stmt} (skips : skipping id (.write stmt)) (db : Db) :
    (∀ eventType, marks eventType id (stmt.apply db) = marks eventType id db) ∧
      (stmt.apply db).orders.row id = db.orders.row id := by
  cases stmt with
  | recordEvent event =>
      have other : event.order ≠ id := skips
      simp [marks, Stmt.apply, List.countP_append, other]
  | saveOrder key set =>
      have other : id ≠ key := Ne.symm skips
      exact ⟨fun _ => rfl, by simp [Stmt.apply, other]⟩
  | insertOrder key order => exact skips.elim
  | _ => exact ⟨fun _ => rfl, rfl⟩

/-- The job approves what is due. -/
theorem due_of_autoApproves
    {env : Env} {id : OrderId} {db : Db} (approves : AutoApproves env id db) :
    (db.orders.row id).any (approvalDue env.now) = true := by
  by_contra undue
  have unlisted : ∀ item ∈ (dueApprovals env.now db).zipIdx, item.1 ≠ id := by
    rintro item member rfl
    obtain ⟨order, stored, due⟩ :=
      Table.mem_select.mp (List.fst_mem_of_mem_zipIdx member)
    exact undue (by simp [stored, due])
  have same : marks .autoApproved id
      ((Operation.order (.autoApproveDue env)).after db) =
        marks .autoApproved id db :=
    (autoApproveAll_skipping unlisted env).keeps
      (fun now => marks .autoApproved id now = marks .autoApproved id db)
      (fun stmt skips now same => ((skipping_apply skips now).1 _).trans same) rfl
  exact absurd same (Nat.ne_of_gt approves)

theorem timer_of_due
    {now : Time} {id : OrderId} {db : Db}
    (due : (db.orders.row id).any (approvalDue now) = true) :
    ∃ timer, timerOf id db = some timer ∧ timer ≤ now := by
  obtain ⟨order, stored, late⟩ := (Option.any_eq_true _ _).mp due
  rw [approvalDue, Bool.and_eq_true] at late
  obtain ⟨timer, running, elapsed⟩ := (Option.any_eq_true _ _).mp late.2
  exact ⟨timer, (timerOf_of_row stored).trans running, by simpa using elapsed⟩

/-! ## The timer of a delivery -/

/-- The operation submits a delivery of the order. -/
def Redelivers (id : OrderId) (operation : Operation) (db : Db) : Prop :=
  (∃ env expert summary attachments,
    operation = .order (.submitDelivery env id expert summary attachments)) ∧
    (Request.run operation.call db).1 = .ok ()

/-- Effects that start no timer of the order. -/
def sparing (id : OrderId) : Effect Stmt → Prop
  | .write (.saveOrder key set) => key = id → StopsTimer set
  | effect => unarming effect

theorem sparing_timer
    {id : OrderId} {stmt : Stmt} (fine : sparing id (.write stmt)) (db : Db) :
    timerOf id (stmt.apply db) = none ∨
      timerOf id (stmt.apply db) = timerOf id db := by
  cases stmt with
  | saveOrder key set =>
      by_cases same : key = id
      · have stops : unarming (.write (.saveOrder key set)) := fine same
        exact unarming_timer stops id db
      · exact .inr (by simp [timerOf, Stmt.apply, Ne.symm same])
  | _ =>
      refine unarming_timer ?_ id db
      exact fine

/-- Without a new delivery, the timer goes on or is stopped. -/
theorem timer_after
    {id : OrderId} {operation : Operation} {db : Db}
    (other : ¬Redelivers id operation db) :
    timerOf id (operation.after db) = none ∨
      timerOf id (operation.after db) = timerOf id db := by
  have spared : ∀ {good : Effect Stmt → Prop},
      operation.call.Emits good (fun _ => True) →
      (∀ stmt, good (.write stmt) → sparing id (.write stmt)) →
        timerOf id (operation.after db) = none ∨
          timerOf id (operation.after db) = timerOf id db := by
    intro good emits spares
    refine emits.keeps (fun now => timerOf id now = none ∨
      timerOf id now = timerOf id db) (fun stmt fine now before => ?_) (.inr rfl)
    rcases sparing_timer (spares stmt fine) now with stopped | same
    · exact .inl stopped
    · exact before.imp same.trans same.trans
  by_cases delivers : operation.Delivers
  · rcases operation with _ | _ | _ | call | _ | _ <;>
      try exact delivers.elim
    cases call with
    | submitDelivery env key expert summary attachments =>
        by_cases about : key = id
        · subst about
          have ends : Call.Ends (Call.perform
              (submitDelivery env key expert summary attachments)) db
              fun _ => True :=
            Call.perform_ends fun _ _ => trivial
          cases ends with
          | succeeded ok _ =>
              exact absurd ⟨⟨env, expert, summary, attachments, rfl⟩, ok⟩ other
          | failed _ same => exact .inr (congrArg (timerOf key) same)
        · have either : ∀ (first : Prop) [Decidable first] actor,
              sparing id (.write (.recordEvent
                { order := key
                  eventType := if first then .delivered else .redelivered
                  actor })) := fun _ _ _ => trivial
          have emits : (Operation.order (.submitDelivery env key expert
              summary attachments)).call.Emits (sparing id) fun _ => True := by
            simp [Operation.call, OrderCall.call, Call.perform, submitDelivery,
              transition, getForUpdate, recordEvent, Tx.get, Tx.getForUpdate,
              Tx.create, sparing, unarming, about]
          exact spared emits fun _ fine => fine
    | _ => exact delivers.elim
  · refine spared (operation_unarming delivers) fun stmt fine => ?_
    cases stmt with
    | saveOrder key set => exact fun _ => fine
    | _ => exact fine

/-- A timer that runs at the end has run all the time. -/
theorem timer_through
    {id : OrderId} {operations : List Operation} {db : Db} {timer : Time}
    (sole : Operation.AllMeet (fun operation current =>
      ¬Redelivers id operation current) operations db)
    (running : timerOf id (Operation.afterAll operations db) = some timer) :
    timerOf id db = some timer ∧
      Operation.AllMeet (fun _ current => timerOf id current = some timer)
        operations db := by
  induction operations generalizing db with
  | nil => exact ⟨running, trivial⟩
  | cons operation rest inductionHypothesis =>
      obtain ⟨next, all⟩ := inductionHypothesis sole.2 running
      have now : timerOf id db = some timer := by
        rcases timer_after sole.1 with stopped | same
        · simp [stopped] at next
        · exact same.symm.trans next
      exact ⟨now, now, all⟩

end Orders

end KnowledgeMarketplace
