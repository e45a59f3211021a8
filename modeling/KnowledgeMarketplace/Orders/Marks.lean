import KnowledgeMarketplace.Operations.Effects
import KnowledgeMarketplace.Operations.Runs
import KnowledgeMarketplace.Transaction.Alone

/-!
# Marks of the jobs

A job that reminds, warns or flags marks each order that it finds by an event,
once for the whole life of the order.  So of all its runs only the first one
that finds the order counts.
-/

namespace KnowledgeMarketplace

open Transaction

namespace Orders

/-- How often the timeline of the order has an event of this type. -/
def marks (eventType : OrderEventType) (id : OrderId) (db : Db) : Nat :=
  db.orderEvents.countP fun event =>
    event.order = id && event.eventType = eventType

theorem marked_iff {eventType : OrderEventType} {id : OrderId} {db : Db} :
    marked eventType id db = true ↔ 0 < marks eventType id db := by
  simp [marked, marks, List.countP_pos_iff]

/-- The orders that a job is going to mark. -/
def unmarkedDue
    (eventType : OrderEventType) (due : Order → Bool) (db : Db) : List OrderId :=
  db.orders.select fun id order => due order && !marked eventType id db

/-- The state with marks of these orders added. -/
def withMarks (eventType : OrderEventType) (ids : List OrderId) (db : Db) : Db :=
  { db with
    orderEvents := db.orderEvents ++ ids.map fun id => { order := id, eventType } }

theorem markOnce_leaves
    (eventType : OrderEventType) (due : Order → Bool) (db : Db) :
    (markOnce eventType due).Leaves db [] fun result next _ =>
      (∃ count, result = .ok count) ∧
        next = withMarks eventType (unmarkedDue eventType due db) db := by
  simp only [markOnce, Request.leaves_bind, Request.leaves_load, applyAll_nil]
  let left : List OrderId → Db → Prop := fun rest current =>
    withMarks eventType rest current =
      withMarks eventType (unmarkedDue eventType due db) db
  refine (Request.leaves_forEach_rest left ?_ rfl).mono ?_
  · intro id rest current before
    have after : withMarks eventType rest ((Stmt.recordEvent
        { order := id, eventType }).apply current) =
          withMarks eventType (id :: rest) current := by
      simp [withMarks, Stmt.apply]
    exact Request.leaves_atomic.mpr ⟨rfl, after.trans before, rfl⟩
  · rintro result next later ⟨rfl, after, rfl⟩
    have last : withMarks eventType [] next = next := by simp [withMarks]
    exact ⟨⟨_, rfl⟩, last.symm.trans after⟩

/-- An order gets one mark for each time that it is listed. -/
theorem marks_withMarks
    (eventType other : OrderEventType) (ids : List OrderId) (id : OrderId)
    (db : Db) :
    marks other id (withMarks eventType ids db) =
      marks other id db + if eventType = other then ids.count id else 0 := by
  unfold marks withMarks
  rw [List.countP_append, List.countP_map]
  congr 1
  split_ifs with same
  · rw [List.count]
    refine List.countP_congr fun key _ => ?_
    simp [same]
  · refine List.countP_eq_zero.mpr fun key _ => ?_
    simp [same]

/-- An order is listed once, if it is due and not marked. -/
theorem count_unmarkedDue
    (eventType : OrderEventType) (due : Order → Bool) (id : OrderId) (db : Db) :
    (unmarkedDue eventType due db).count id =
      if (db.orders.row id).any due = true ∧ marks eventType id db = 0 then 1
      else 0 := by
  have once : (unmarkedDue eventType due db).Nodup :=
    db.orders.nodup.filter _
  have listed : id ∈ unmarkedDue eventType due db ↔
      (db.orders.row id).any due = true ∧ marks eventType id db = 0 := by
    have unmarked : (!marked eventType id db) = true ↔
        marks eventType id db = 0 := by
      rw [Bool.not_eq_true', ← Bool.not_eq_true, marked_iff, Nat.pos_iff_ne_zero,
        not_not]
    simp only [unmarkedDue, Table.mem_select, Bool.and_eq_true, unmarked,
      Option.any_eq_true]
    constructor
    · rintro ⟨order, stored, found, fresh⟩
      exact ⟨⟨order, stored, found⟩, fresh⟩
    · rintro ⟨⟨order, stored, found⟩, fresh⟩
      exact ⟨order, stored, found, fresh⟩
  rw [once.count]
  simp only [listed]

/-! ## The three jobs -/

/-- The jobs that remind experts, warn students and flag late orders. -/
inductive Reminder where
  | deadline
  | autoApprove
  | overdue

namespace Reminder

/-- What the job marks orders with. -/
def mark : Reminder → OrderEventType
  | deadline => .deadlineReminded
  | autoApprove => .autoApproveWarned
  | overdue => .overdueFlagged

/-- The orders that the job looks for. -/
def due (now : Time) : Reminder → Order → Bool
  | deadline, order => inProgress order && within now 24 order.deliveryDueAt
  | autoApprove, order => order.status = .delivered &&
      within now autoApproveWarningHours order.autoApproveAt
  | overdue, order =>
      (order.status = .active || order.status = .revisionRequested) &&
        order.deliveryDueAt.any (· + hours overdueFlagGraceHours < now)

/-- A run of the job. -/
def run (env : Env) : Reminder → Operation
  | deadline => .order (.deadlineReminder env)
  | autoApprove => .order (.autoApproveWarning env)
  | overdue => .order (.flagOverdue env)

theorem mark_mem (reminder : Reminder) : reminder.mark ∈ jobMarks := by
  cases reminder <;> decide

theorem mark_injective {first second : Reminder}
    (same : first.mark = second.mark) : first = second := by
  cases first <;> cases second <;> first | rfl | exact nomatch same

theorem run_call (env : Env) (reminder : Reminder) :
    (reminder.run env).call =
      markOnce reminder.mark (reminder.due env.now) >>= fun _ => pure () := by
  cases reminder <;> rfl

/-- A job that runs alone marks what it finds. -/
theorem after_run (env : Env) (reminder : Reminder) (db : Db) :
    (reminder.run env).after db = withMarks reminder.mark
      (unmarkedDue reminder.mark (reminder.due env.now) db) db := by
  suffices whole : (reminder.run env).call.Leaves db [] fun _ next _ =>
      next = withMarks reminder.mark
        (unmarkedDue reminder.mark (reminder.due env.now) db) db from
    Request.leaves_iff_run.mp whole
  rw [run_call]
  refine Request.leaves_bind.mpr ((markOnce_leaves _ _ db).mono ?_)
  rintro result next later ⟨⟨count, rfl⟩, after⟩
  exact after

end Reminder

theorem marks_iff_run {operation : Operation} :
    operation.Marks ↔ ∃ (reminder : Reminder) (env : Env),
      operation = reminder.run env := by
  constructor
  · intro marks
    rcases operation with _ | _ | _ | call | _ | _ <;> try exact marks.elim
    cases call with
    | deadlineReminder env => exact ⟨.deadline, env, rfl⟩
    | autoApproveWarning env => exact ⟨.autoApprove, env, rfl⟩
    | flagOverdue env => exact ⟨.overdue, env, rfl⟩
    | _ => exact marks.elim
  · rintro ⟨reminder, env, rfl⟩
    cases reminder <;> exact trivial

/-- The operation is a run of the job that finds the order. -/
def Finds
    (reminder : Reminder) (id : OrderId) (operation : Operation) (db : Db) :
    Prop :=
  ∃ env, operation = reminder.run env ∧
    (db.orders.row id).any (reminder.due env.now) = true

/-- Effects that leave no marks. -/
def unmarking : Effect Stmt → Prop
  | .write (.recordEvent event) => event.eventType ∉ jobMarks
  | _ => True

theorem unmarking_elsewhere {stmt : Stmt} (other : stmt.table ≠ .orderEvents) :
    unmarking (.write stmt) := by
  cases stmt <;> simp_all [unmarking, Stmt.table]

theorem unmarking_ordering : Ordering unmarking where
  elsewhere stmt other := unmarking_elsewhere fun same => other (by simp [same])
  moved _ _ _ _ _ := by simp [ServiceRequests.transition, unmarking]
  saved _ _ _ := trivial
  told _ other := other

theorem unmarking_founding : Founding unmarking where
  matched stmt table := unmarking_elsewhere fun same => by simp [same] at table
  created _ _ _ _ _ := trivial
  told _ := by simp [unmarking, jobMarks]

/-- Only the jobs leave marks. -/
theorem operation_unmarking
    {operation : Operation} (other : ¬operation.Marks) :
    operation.call.Emits unmarking fun _ => True := by
  refine Operation.emits_of_accounts unmarking_ordering trivial
    (fun stmt table => unmarking_elsewhere fun same => by simp [same] at table)
    (fun _ => trivial) (fun _ _ _ => trivial) (fun _ _ _ _ => trivial)
    (fun apart => ?_) fun triages => ?_
  · have told : ∀ eventTypes : List OrderEventType,
        (∀ eventType ∈ eventTypes, eventType ∉ jobMarks) →
        ∀ event : OrderEvent, event.eventType ∈ eventTypes →
          unmarking (.write (.recordEvent event)) :=
      fun _ all event listed => all event.eventType listed
    rcases apart with delivers | extending | marks
    · exact delivers.emits (fun _ _ => trivial) (fun _ _ => trivial)
        (fun _ => trivial) (told _ (by decide))
    · exact extending.emits (fun _ _ => trivial) (fun _ _ => trivial)
        (fun _ _ _ => trivial) (fun _ _ => trivial) (fun _ => trivial)
        (told _ (by decide))
    · exact absurd marks other
  · by_cases converges : operation.Converges
    · exact converges.emits unmarking_founding
    · exact triages.emits
        (fun stmt table => unmarking_elsewhere fun same => by simp [same] at table)
        converges

/-- Other operations leave the marks alone. -/
theorem marks_after_of_other
    {operation : Operation} (other : ¬operation.Marks)
    {eventType : OrderEventType} (listed : eventType ∈ jobMarks) (id : OrderId)
    (db : Db) :
    marks eventType id (operation.after db) = marks eventType id db := by
  refine (operation_unmarking other).keeps
    (fun now => marks eventType id now = marks eventType id db)
    (fun stmt fine now same => ?_) rfl
  by_cases records : stmt.table = .orderEvents
  · cases stmt with
    | recordEvent event =>
        have different : event.eventType ≠ eventType :=
          fun same => fine (same ▸ listed)
        have kept : marks eventType id ((Stmt.recordEvent event).apply now) =
            marks eventType id now := by
          simp [marks, Stmt.apply, List.countP_append, different]
        exact kept.trans same
    | _ => simp [Stmt.table] at records
  · have kept : marks eventType id (stmt.apply now) = marks eventType id now := by
      unfold marks
      rw [Stmt.apply_orderEvents records]
    exact kept.trans same

/-- An operation marks an order that it finds for the first time. -/
theorem marks_after
    (reminder : Reminder) (id : OrderId) (operation : Operation) (db : Db) :
    (Finds reminder id operation db ∧ marks reminder.mark id db = 0 ∧
        marks reminder.mark id (operation.after db) = 1) ∨
      ¬(Finds reminder id operation db ∧ marks reminder.mark id db = 0) ∧
        marks reminder.mark id (operation.after db) =
          marks reminder.mark id db := by
  by_cases jobs : operation.Marks
  · obtain ⟨other, env, rfl⟩ := marks_iff_run.mp jobs
    have counted : marks reminder.mark id ((other.run env).after db) =
        marks reminder.mark id db + if other.mark = reminder.mark then
          (unmarkedDue other.mark (other.due env.now) db).count id else 0 := by
      rw [other.after_run, marks_withMarks]
    have runs : ∀ now : Env, other.run env = reminder.run now →
        other = reminder ∧ env = now := by
      intro now same
      cases other <;> cases reminder <;>
        first | exact ⟨rfl, by injection same; simp_all⟩ | simp [Reminder.run] at same
    by_cases same : other = reminder
    · subst same
      rw [if_pos rfl, count_unmarkedDue] at counted
      by_cases matched : (db.orders.row id).any (other.due env.now) = true ∧
          marks other.mark id db = 0
      · rw [if_pos matched, matched.2] at counted
        exact .inl ⟨⟨env, rfl, matched.1⟩, matched.2, counted⟩
      · rw [if_neg matched] at counted
        refine .inr ⟨fun ⟨⟨now, query, found⟩, fresh⟩ => matched ⟨?_, fresh⟩,
          counted⟩
        rw [(runs now query).2]
        exact found
    · rw [if_neg fun marks => same (Reminder.mark_injective marks)] at counted
      exact .inr ⟨fun ⟨⟨now, query, _⟩, _⟩ => same (runs now query).1, counted⟩
  · refine .inr ⟨fun ⟨⟨env, query, _⟩, _⟩ => jobs ?_,
      marks_after_of_other jobs reminder.mark_mem id db⟩
    exact marks_iff_run.mpr ⟨reminder, env, query⟩

/-- Of all runs only the first one that finds the order marks it. -/
theorem marks_afterAll
    (reminder : Reminder) (id : OrderId) (operations : List Operation) (db : Db) :
    (Operation.SomeMeets (Finds reminder id) operations db ∧
        marks reminder.mark id db = 0 ∧
        marks reminder.mark id (Operation.afterAll operations db) = 1) ∨
      ¬(Operation.SomeMeets (Finds reminder id) operations db ∧
          marks reminder.mark id db = 0) ∧
        marks reminder.mark id (Operation.afterAll operations db) =
          marks reminder.mark id db := by
  induction operations generalizing db with
  | nil => exact .inr ⟨fun both => both.1, rfl⟩
  | cons operation rest inductionHypothesis =>
      have later := inductionHypothesis (operation.after db)
      rcases marks_after reminder id operation db with
        ⟨finds, fresh, first⟩ | ⟨quiet, first⟩
      · rcases later with ⟨_, still, _⟩ | ⟨_, same⟩
        · exact absurd (first.symm.trans still) (by decide)
        · exact .inl ⟨.inl finds, fresh, same.trans first⟩
      · rw [first] at later
        rcases later with ⟨met, fresh, last⟩ | ⟨unmet, same⟩
        · exact .inl ⟨.inr met, fresh, last⟩
        · refine .inr ⟨fun both => ?_, same⟩
          rcases both.1 with finds | met
          · exact quiet ⟨finds, both.2⟩
          · exact unmet ⟨met, both.2⟩

/-- A run marks the order if it finds it and nobody did before. -/
theorem marks_afterAll_iff
    (reminder : Reminder) (id : OrderId) (operations : List Operation) (db : Db) :
    marks reminder.mark id (Operation.afterAll operations db) =
        marks reminder.mark id db + 1 ↔
      Operation.SomeMeets (Finds reminder id) operations db ∧
        marks reminder.mark id db = 0 := by
  rcases marks_afterAll reminder id operations db with
    ⟨met, fresh, last⟩ | ⟨unmet, same⟩
  · simp [met, fresh, last]
  · simp [same, unmet]

/-- One operation of a run marks the order, if some operation finds it. -/
theorem someMeets_marks_iff
    (reminder : Reminder) (id : OrderId) (operations : List Operation) (db : Db) :
    Operation.SomeMeets (fun operation current =>
        Finds reminder id operation current ∧ marks reminder.mark id current = 0)
        operations db ↔
      Operation.SomeMeets (Finds reminder id) operations db ∧
        marks reminder.mark id db = 0 := by
  induction operations generalizing db with
  | nil => simp [Operation.SomeMeets]
  | cons operation rest inductionHypothesis =>
      simp only [Operation.SomeMeets, inductionHypothesis]
      rcases marks_after reminder id operation db with
        ⟨finds, fresh, first⟩ | ⟨quiet, first⟩
      · simp [finds, fresh]
      · rw [first]
        constructor
        · rintro (both | ⟨met, fresh⟩)
          · exact absurd both quiet
          · exact ⟨.inr met, fresh⟩
        · rintro ⟨finds | met, fresh⟩
          · exact absurd ⟨finds, fresh⟩ quiet
          · exact .inr ⟨met, fresh⟩

end Orders

end KnowledgeMarketplace
