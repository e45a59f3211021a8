import KnowledgeMarketplace.Orders.Marks

/-!
# Reminders of due dates

An order gets a due date by its activation, by each revision and by each
accepted proposal.  The hourly job reminds of it and the daily job flags it,
each of them once for the order.
-/

namespace KnowledgeMarketplace

open Transaction

namespace Orders

/-- When the work on the order is due. -/
def dueOf (id : OrderId) (db : Db) : Option Time :=
  (db.orders.row id).bind (·.deliveryDueAt)

/-! ## Operations that set no due date -/

/-- Effects that set no due date. -/
def undated : Effect Stmt → Prop
  | .write (.saveOrder _ set) =>
      ∀ stored, (set stored).deliveryDueAt = stored.deliveryDueAt
  | _ => True

theorem undated_elsewhere {stmt : Stmt} (other : stmt.table ≠ .orders) :
    undated (.write stmt) := by
  cases stmt <;> simp_all [undated, Stmt.table]

theorem undated_ordering : Ordering undated where
  elsewhere stmt other := undated_elsewhere fun same => other (by simp [same])
  moved _ _ _ _ _ := by simp [ServiceRequests.transition, undated]
  saved _ _ save := by cases save <;> exact fun _ => rfl
  told _ _ := trivial

theorem undated_founding : Founding undated where
  matched stmt table := undated_elsewhere fun same => by simp [same] at table
  created _ _ _ _ _ := trivial
  told _ := trivial

/-- Due dates are set by deliveries, revisions and answers to proposals. -/
theorem operation_undated
    {operation : Operation} (sent : ¬operation.Delivers)
    (given : ¬operation.Extends) :
    operation.call.Emits undated fun _ => True := by
  refine Operation.emits_of_accounts undated_ordering trivial
    (fun stmt table => undated_elsewhere fun same => by simp [same] at table)
    (fun _ _ => rfl) (fun _ _ _ _ => rfl)
    (fun _ _ _ save => by cases save <;> exact fun _ => rfl) (fun apart => ?_)
    fun triages => ?_
  · rcases apart with delivers | extending | marks
    · exact absurd delivers sent
    · exact absurd extending given
    · exact marks.emits fun _ _ _ => trivial
  · by_cases converges : operation.Converges
    · exact converges.emits undated_founding
    · exact triages.emits
        (fun stmt table => undated_elsewhere fun same => by simp [same] at table)
        converges

/-- Without such an operation an order keeps its due date. -/
theorem dueOf_after
    {operation : Operation} {id : OrderId} {db : Db} {order : Order}
    (stored : db.orders.row id = some order) (sent : ¬operation.Delivers)
    (given : ¬operation.Extends) :
    dueOf id (operation.after db) = dueOf id db := by
  have kept := (operation_undated sent given).keeps
    (fun now => ∃ current, now.orders.row id = some current ∧
      current.deliveryDueAt = order.deliveryDueAt)
    (fun stmt fine now before => ?_) ⟨order, stored, rfl⟩
  · obtain ⟨current, present, same⟩ := kept
    have later : (operation.after db).orders.row id = some current := present
    simp [dueOf, later, stored, same]
  · obtain ⟨current, present, same⟩ := before
    cases stmt with
    | saveOrder key set =>
        by_cases about : id = key
        · subst about
          exact ⟨set current, by simp [Store.apply, Stmt.apply, present],
            (fine current).trans same⟩
        · exact ⟨current, by simp [Store.apply, Stmt.apply, about, present], same⟩
    | insertOrder key value =>
        exact ⟨current, Table.row_insert_of_some key value present, same⟩
    | _ => exact ⟨current, present, same⟩

/-- Effects that activate no order. -/
def unactivating : Effect Stmt → Prop
  | .write (.saveOrder _ set) => ∀ stored,
      (set stored).status = stored.status ∨ (set stored).status ≠ .active
  | .write (.insertOrder _ order) => order.status ≠ .active
  | _ => True

/-- Deliveries, revisions and answers to proposals activate no order. -/
theorem operation_unactivating
    {operation : Operation} (dates : operation.Delivers ∨ operation.Extends) :
    operation.call.Emits unactivating fun _ => True := by
  rcases dates with delivers | extending
  · exact delivers.emits (fun _ _ => trivial) (fun _ _ _ => .inl rfl)
      (fun _ _ => .inr (by simp)) fun _ _ => trivial
  · exact extending.emits (fun _ _ => trivial) (fun _ _ => trivial)
      (fun _ _ _ _ => .inl rfl) (fun _ _ _ => .inl rfl)
      (fun _ _ => .inr (by simp)) fun _ _ => trivial

/-- The order is active. -/
def isActive (id : OrderId) (db : Db) : Prop :=
  (db.orders.row id).any (·.status = .active) = true

theorem unactivating_apply
    {stmt : Stmt} (fine : unactivating (.write stmt)) {id : OrderId} {db : Db}
    (idle : ¬isActive id db) : ¬isActive id (stmt.apply db) := by
  cases stmt with
  | saveOrder key set =>
      by_cases about : id = key
      · subst about
        rcases stored : db.orders.row id with _ | order
        · simp [isActive, Stmt.apply, stored]
        · simp only [isActive, stored, Option.any_some, decide_eq_true_eq] at idle
          simp only [isActive, Stmt.apply, Table.row_modify_self, stored,
            Option.map_some, Option.any_some, decide_eq_true_eq]
          rcases fine order with same | other
          · rwa [same]
          · exact other
      · simpa [isActive, Stmt.apply, about] using idle
  | insertOrder key order =>
      have other : order.status ≠ .active := fine
      simp only [isActive, Stmt.apply, Table.row_insert]
      split_ifs
      · simpa using other
      · exact idle
  | _ => exact idle

/-! ## How an order gets a due date -/

/-- Where a due date comes from. -/
inductive DueSource where
  | agreed
  | revision
  | proposal
deriving DecidableEq

/-- The operation gives the order this due date. -/
inductive Gives (id : OrderId) (due : Time) :
    DueSource → Operation → Db → Prop where
  | agreed {operation : Operation} {db : Db}
      (waits : (db.orders.row id).any (fun order =>
        order.status = .awaitingPayment && order.deadline = some due) = true)
      (active : isActive id (operation.after db)) :
      Gives id due .agreed operation db
  | revision {env : Env} {student : Actor} {note : String} {db : Db}
      (accepted : (Request.run
        (Operation.order (.requestRevision env id student note)).call db).1 =
          .ok ())
      (date : due = env.now + days revisionDueExtensionDays) :
      Gives id due .revision (.order (.requestRevision env id student note)) db
  | proposal {actor : Actor} {db : Db} {proposal : DeadlineProposal}
      (accepted : (Request.run
        (Operation.order (.respondDeadlineProposal id actor true)).call db).1 =
          .ok ())
      (pending : pendingProposal id db = some proposal)
      (other : proposal.proposedBy ≠ actor.id)
      (date : proposal.proposedDueAt = due) :
      Gives id due .proposal
        (.order (.respondDeadlineProposal id actor true)) db

theorem requestRevision_dates
    (env : Env) (id : OrderId) (student : Actor) (note : String) (db : Db) :
    (requestRevision env id student note).Post db fun result next =>
      ∀ key, result = .ok key →
        dueOf id next = some (env.now + days revisionDueExtensionDays) := by
  simp only [requestRevision, transition, getForUpdate, recordEvent,
    Tx.getForUpdate, Tx.get, Prog.post_bind, Prog.post_lockRow, Prog.post_read,
    Prog.post_orFail, Prog.post_require, Prog.post_exec, Prog.post_pure,
    reduceCtorEq, false_implies, implies_true, and_true]
  intro order stored _ _ _ _ delivery _ moved found _ _ _
  simp [dueOf, Stmt.apply, stored]

theorem respondDeadlineProposal_dates
    {id : OrderId} {actor : Actor} {proposal : DeadlineProposal} {db : Db}
    (pending : pendingProposal id db = some proposal)
    (other : proposal.proposedBy ≠ actor.id) :
    (respondDeadlineProposal id actor true).Post db fun result next =>
      ∀ value, result = .ok value →
        dueOf id next = some proposal.proposedDueAt := by
  simp only [respondDeadlineProposal, getForUpdate, recordEvent,
    Tx.getForUpdate, Tx.get, Prog.post_bind, Prog.post_lockRow, Prog.post_read,
    Prog.post_orFail, Prog.post_require, Prog.post_exec, Prog.post_ite,
    Prog.post_pure, pending, reduceCtorEq, false_implies, implies_true, and_true]
  intro order stored _
  simp [dueOf, Stmt.apply, stored, other]

/-- The column that the jobs look at holds the due date. -/
def Stored
    (id : OrderId) (due : Time) (source : DueSource) (db : Db) : Prop :=
  source ≠ .agreed ∨ dueOf id db = some due

/-- An activation leaves the column as it is; the others set it. -/
theorem Gives.stored_iff
    {id : OrderId} {due : Time} {source : DueSource} {operation : Operation}
    {db : Db} (gives : Gives id due source operation db) :
    dueOf id (operation.after db) = some due ↔ Stored id due source db := by
  cases gives with
  | agreed waits active =>
      obtain ⟨order, stored, holds⟩ := (Option.any_eq_true _ _).mp waits
      have idle : ¬isActive id db := by
        have waiting : order.status = .awaitingPayment := by
          simpa using ((Bool.and_eq_true _ _).mp holds).1
        simp [isActive, stored, waiting]
      by_cases dates : operation.Delivers ∨ operation.Extends
      · have still := (operation_unactivating dates).keeps
          (fun now => ¬isActive id now)
          (fun stmt fine now before => unactivating_apply fine before) idle
        exact absurd active still
      · obtain ⟨sent, given⟩ := not_or.mp dates
        rw [dueOf_after stored sent given]
        simp [Stored]
  | @revision env student note _ accepted date =>
      have ends : Call.Ends _ db fun next =>
          dueOf id next = some (env.now + days revisionDueExtensionDays) :=
        Call.perform_ends (requestRevision_dates env id student note db)
      cases ends with
      | succeeded _ dates =>
          refine iff_of_true ?_ (.inl (by simp))
          exact date ▸ dates
      | failed fails _ => exact absurd accepted fails
  | @proposal actor _ found accepted pending other date =>
      have ends : Call.Ends _ db fun next =>
          dueOf id next = some found.proposedDueAt :=
        Call.perform_ends (respondDeadlineProposal_dates pending other)
      cases ends with
      | succeeded _ dates =>
          refine iff_of_true ?_ (.inl (by simp))
          exact date ▸ dates
      | failed fails _ => exact absurd accepted fails

/-- Giving a due date is no work of the jobs. -/
theorem Gives.marks
    {id : OrderId} {due : Time} {source : DueSource} {operation : Operation}
    {db : Db} (gives : Gives id due source operation db) (reminder : Reminder) :
    marks reminder.mark id (operation.after db) = marks reminder.mark id db := by
  refine marks_after_of_other (fun jobs => ?_) reminder.mark_mem id db
  cases gives with
  | agreed waits active =>
      obtain ⟨other, env, rfl⟩ := marks_iff_run.mp jobs
      obtain ⟨order, stored, holds⟩ := (Option.any_eq_true _ _).mp waits
      have waiting : order.status = .awaitingPayment := by
        simpa using ((Bool.and_eq_true _ _).mp holds).1
      rw [isActive, other.after_run] at active
      simp [withMarks, stored, waiting] at active
  | revision => exact jobs
  | proposal => exact jobs

/-! ## What the jobs record for a due date -/

/-- How many marks operations leave while the order has this due date. -/
def recordedFor
    (reminder : Reminder) (id : OrderId) (due : Time) : List Operation → Db → Nat
  | [], _ => 0
  | operation :: rest, db =>
      (if dueOf id db = some due then
        marks reminder.mark id (operation.after db) - marks reminder.mark id db
      else 0) + recordedFor reminder id due rest (operation.after db)

/-- Work is outstanding, and the due date is still the same. -/
def Outstanding
    (id : OrderId) (date : Option Time) (_ : Operation) (db : Db) : Prop :=
  ∃ order, db.orders.row id = some order ∧ order.deliveryDueAt = date ∧
    (order.status = .active ∨ order.status = .revisionRequested)

theorem marks_mono
    (reminder : Reminder) (id : OrderId) (operation : Operation) (db : Db) :
    marks reminder.mark id db ≤ marks reminder.mark id (operation.after db) := by
  rcases marks_after reminder id operation db with
    ⟨_, fresh, marked⟩ | ⟨_, same⟩ <;> omega

theorem marks_afterAll_mono
    (reminder : Reminder) (id : OrderId) (operations : List Operation) (db : Db) :
    marks reminder.mark id db ≤
      marks reminder.mark id (Operation.afterAll operations db) := by
  rcases marks_afterAll reminder id operations db with
    ⟨_, fresh, marked⟩ | ⟨_, same⟩ <;> omega

/-- As long as the due date stays, all new marks are for it, or none is. -/
theorem recordedFor_eq
    {reminder : Reminder} {id : OrderId} {due : Time} {date : Option Time}
    {operations : List Operation} {db : Db}
    (outstanding : Operation.AllMeet (Outstanding id date) operations db) :
    recordedFor reminder id due operations db =
      if date = some due then
        marks reminder.mark id (Operation.afterAll operations db) -
          marks reminder.mark id db
      else 0 := by
  induction operations generalizing db with
  | nil => simp [recordedFor, Operation.afterAll]
  | cons operation rest inductionHypothesis =>
      obtain ⟨order, stored, same, _⟩ := outstanding.1
      have now : dueOf id db = date := by simp [dueOf, stored, same]
      have whole : Operation.afterAll (operation :: rest) db =
          Operation.afterAll rest (operation.after db) := rfl
      have first := marks_mono reminder id operation db
      have later := marks_afterAll_mono reminder id rest (operation.after db)
      rw [recordedFor, inductionHypothesis outstanding.2, now, whole]
      split_ifs <;> omega

/-- A run of the job at a time that it is meant for. -/
def RunsFor (reminder : Reminder) (due : Time) (operation : Operation) (_ : Db) :
    Prop :=
  ∃ env, operation = reminder.run env ∧
    match reminder with
    | .deadline => env.now < due ∧ due ≤ env.now + hours 24
    | .overdue => due + hours overdueFlagGraceHours < env.now
    | .autoApprove => False

theorem finds_iff_runsFor
    {reminder : Reminder} {id : OrderId} {due : Time} {db : Db}
    (dated : reminder = .deadline ∨ reminder = .overdue) (operation : Operation)
    (outstanding : Outstanding id (some due) operation db) :
    Finds reminder id operation db ↔ RunsFor reminder due operation db := by
  obtain ⟨order, stored, date, working⟩ := outstanding
  refine exists_congr fun env => and_congr Iff.rfl ?_
  have begun : inProgress order = true := by
    rcases working with status | status <;> simp [inProgress, status]
  rcases dated with rfl | rfl
  · simp [stored, Reminder.due, within, date, begun]
  · have either : (order.status = .active || order.status = .revisionRequested) =
        true := by
      rcases working with status | status <;> simp [status]
    simp [stored, Reminder.due, date, either]

/-- Exactly one mark is left for the due date, if it is stored and the first. -/
theorem recorded_once_iff
    {reminder : Reminder} {id : OrderId} {due : Time} {source : DueSource}
    {operation : Operation} {during : List Operation} {db : Db}
    (dated : reminder = .deadline ∨ reminder = .overdue)
    (gives : Gives id due source operation db)
    (outstanding : Operation.AllMeet
      (Outstanding id (dueOf id (operation.after db))) during
      (operation.after db))
    (runs : Operation.SomeMeets (RunsFor reminder due) during
      (operation.after db)) :
    recordedFor reminder id due during (operation.after db) = 1 ↔
      Stored id due source db ∧ marks reminder.mark id db = 0 := by
  rw [recordedFor_eq outstanding, ← gives.stored_iff, ← gives.marks reminder]
  by_cases stored : dueOf id (operation.after db) = some due
  · rw [stored] at outstanding
    have finds := Operation.SomeMeets.congr outstanding
      fun operation current => finds_iff_runsFor dated operation
    have once := marks_afterAll_iff reminder id during (operation.after db)
    have later := marks_afterAll_mono reminder id during (operation.after db)
    rw [if_pos stored]
    have counted : marks reminder.mark id
          (Operation.afterAll during (operation.after db)) -
            marks reminder.mark id (operation.after db) = 1 ↔
        marks reminder.mark id (Operation.afterAll during (operation.after db)) =
          marks reminder.mark id (operation.after db) + 1 := by
      omega
    rw [counted, once]
    simp [finds.mpr runs, stored]
  · simp [stored]

/--
For a due date of an order the jobs leave exactly one reminder and one flag, if
they run, if and only if the date is stored and no earlier one was reminded of or
flagged.
-/
theorem due_date_marked_iff
    {id : OrderId} {due : Time} {source : DueSource} {operation : Operation}
    {during : List Operation} {db : Db}
    (gives : Gives id due source operation db)
    (outstanding : Operation.AllMeet
      (Outstanding id (dueOf id (operation.after db))) during
      (operation.after db)) :
    (∀ reminder, reminder = .deadline ∨ reminder = .overdue →
        Operation.SomeMeets (RunsFor reminder due) during (operation.after db) →
          recordedFor reminder id due during (operation.after db) = 1) ↔
      ∀ reminder, reminder = .deadline ∨ reminder = .overdue →
        Operation.SomeMeets (RunsFor reminder due) during (operation.after db) →
          Stored id due source db ∧ marks reminder.mark id db = 0 :=
  forall_congr' fun _ => forall_congr' fun dated => forall_congr' fun runs =>
    recorded_once_iff dated gives outstanding runs

/-- An order with an agreed deadline that waits for its payment. -/
def agreedOrder : Db :=
  { requests := .insert .empty 10 { student := 1, status := .matched }
    orders := .insert .empty 40
      { request := 10
        student := 1
        expert := 2
        source := .openBid
        amount := 5000
        commissionAmount := 750
        expertAmount := 4250
        deadline := some (days 20)
        createdAt := 0 }
    payments := .insert .empty 40
      { gateway := .manual
        providerReference := some "manual-pay-1"
        amountMinor := 5000 } }

/-- The payment activates the order. -/
def activation : Operation := .payment (.confirmPayment { now := 1 } 40)

/-- A delivery and its revision. -/
def revisedAt (now : Time) (key : Nat) : List Operation :=
  [.order (.submitDelivery { now, key } 40 ⟨2, false⟩
      "The report and its annex." (.ok ())),
    .order (.requestRevision { now } 40 ⟨1, false⟩
      "Please move the annex to the front.")]

/-- The hourly job runs a few hours before this date. -/
def remindedBefore (due : Time) : List Operation :=
  [.order (.deadlineReminder { now := due - hours 5 })]

/-- Two revisions of the active order; the first due date is reminded of. -/
def revisedTwice : Db :=
  Operation.afterAll (revisedAt (days 1) 50 ++ remindedBefore (days 8) ++
    [.order (.submitDelivery { now := days 8, key := 51 } 40 ⟨2, false⟩
      "The report begins with its annex." (.ok ()))])
    (activation.after agreedOrder)

/-- The second revision. -/
def secondRevision : Operation :=
  .order (.requestRevision { now := days 9 } 40 ⟨1, false⟩
    "Please move the annex to a second file.")

/-- Nobody is reminded of the agreed deadline, nor of a second extension. -/
theorem deadlineReminder_reminds_once :
    (Gives 40 (days 20) .agreed activation agreedOrder ∧
      Operation.SomeMeets (RunsFor .deadline (days 20))
        (remindedBefore (days 20)) (activation.after agreedOrder) ∧
      recordedFor .deadline 40 (days 20) (remindedBefore (days 20))
        (activation.after agreedOrder) = 0) ∧
      Gives 40 (days 16) .revision secondRevision revisedTwice ∧
      Operation.SomeMeets (RunsFor .deadline (days 16))
        (remindedBefore (days 16)) (secondRevision.after revisedTwice) ∧
      recordedFor .deadline 40 (days 16) (remindedBefore (days 16))
        (secondRevision.after revisedTwice) = 0 := by
  refine ⟨⟨.agreed (by decide +kernel) (by unfold isActive; decide +kernel),
      .inl ⟨_, rfl, by decide, by decide⟩, by decide +kernel⟩,
    .revision (by decide +kernel) rfl,
    .inl ⟨_, rfl, by decide, by decide⟩, by decide +kernel⟩

/-- The hourly and the daily job around this date. -/
def watched (due : Time) : List Operation :=
  remindedBefore due ++ [.order (.flagOverdue { now := due + days 2 })]

/-- The first extension is reminded of and flagged. -/
theorem due_date_marked_first :
    let db := Operation.afterAll ((revisedAt (days 1) 50).take 1)
      (activation.after agreedOrder)
    let revision : Operation := .order (.requestRevision { now := days 1 } 40
      ⟨1, false⟩ "Please move the annex to the front.")
    (∀ reminder, reminder = .deadline ∨ reminder = .overdue →
        Operation.SomeMeets (RunsFor reminder (days 8)) (watched (days 8))
          (revision.after db) →
        recordedFor reminder 40 (days 8) (watched (days 8)) (revision.after db) =
          1) ↔
      ∀ reminder, reminder = .deadline ∨ reminder = .overdue →
        Operation.SomeMeets (RunsFor reminder (days 8)) (watched (days 8))
          (revision.after db) →
        Stored 40 (days 8) .revision db ∧ marks reminder.mark 40 db = 0 := by
  intro db revision
  have outstanding : ∀ state, (state.orders.row 40).any (fun order =>
      order.deliveryDueAt = dueOf 40 (revision.after db) &&
        (order.status = .active || order.status = .revisionRequested)) = true →
      ∀ operation, Outstanding 40 (dueOf 40 (revision.after db)) operation state := by
    intro state holds operation
    obtain ⟨order, stored, fine⟩ := (Option.any_eq_true _ _).mp holds
    exact ⟨order, stored, by simpa using fine⟩
  exact due_date_marked_iff (.revision (by decide +kernel) rfl)
    ⟨outstanding _ (by decide +kernel) _, outstanding _ (by decide +kernel) _,
      trivial⟩

end Orders

end KnowledgeMarketplace
