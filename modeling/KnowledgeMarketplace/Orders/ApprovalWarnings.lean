import KnowledgeMarketplace.Orders.AutoApproval

/-!
# Warnings before an automatic approval

The student is to be warned of each delivery before it is approved
automatically.  The job warns once for an order, whatever is delivered later.
-/

namespace KnowledgeMarketplace

open Transaction

namespace Orders

/-- A delivery that is accepted starts its review window. -/
theorem submitDelivery_starts
    (env : Env) (id : OrderId) (expert : Actor) (summary : String)
    (attachments : Except Error Unit) (db : Db) :
    (submitDelivery env id expert summary attachments).Post db
      fun result next => ∀ key, result = .ok key →
        timerOf id next = some (env.now + hours autoApproveHours) := by
  simp only [submitDelivery, transition, getForUpdate, recordEvent,
    Tx.getForUpdate, Tx.get, Tx.create, Prog.post_bind, Prog.post_lockRow,
    Prog.post_read, Prog.post_orFail, Prog.post_require, Prog.post_ofExcept,
    Prog.post_exec, Prog.post_pure, reduceCtorEq, false_implies, implies_true,
    and_true]
  intro order stored _ _ _ _ _ _ moved found _ _ _
  simp [timerOf, Stmt.apply, stored]

/-- The job runs in the hours before this approval. -/
def InWindow (approval : Time) (env : Env) : Prop :=
  env.now < approval ∧ approval ≤ env.now + hours autoApproveWarningHours

/-- The student is warned, in the hours before this approval. -/
def Warns (id : OrderId) (approval : Time) (operation : Operation) (db : Db) :
    Prop :=
  ∃ env, operation = .order (.autoApproveWarning env) ∧ InWindow approval env ∧
    marks .autoApproveWarned id (operation.after db) =
      marks .autoApproveWarned id db + 1

/-- The job runs in these hours, and the order waits for its review. -/
def FoundInReview
    (id : OrderId) (approval : Time) (operation : Operation) (db : Db) : Prop :=
  ∃ env, operation = .order (.autoApproveWarning env) ∧ InWindow approval env ∧
    (db.orders.row id).any (·.status = .delivered) = true

/-- The job finds what is in review, if it runs in the hours before. -/
theorem finds_iff_review
    {id : OrderId} {db : Db} {approval : Time} (operation : Operation)
    (running : timerOf id db = some approval) :
    Finds .autoApprove id operation db ↔
      FoundInReview id approval operation db := by
  obtain ⟨order, stored, timer⟩ := Option.bind_eq_some_iff.mp running
  have found : ∀ env : Env, (db.orders.row id).any
      (Reminder.autoApprove.due env.now) = true ↔ InWindow approval env ∧
        (db.orders.row id).any (·.status = .delivered) = true := by
    intro env
    simp only [stored, Option.any_some, Reminder.due, within, timer,
      Bool.and_eq_true, decide_eq_true_eq, InWindow]
    exact and_comm
  exact exists_congr fun env => and_congr Iff.rfl (found env)

/-- The job warns of what it finds first. -/
theorem warns_iff
    {id : OrderId} {db : Db} {approval : Time} (operation : Operation)
    (running : timerOf id db = some approval) :
    Warns id approval operation db ↔
      Finds .autoApprove id operation db ∧ marks .autoApproveWarned id db = 0 := by
  rcases marks_after .autoApprove id operation db with
    ⟨finds, fresh, marked⟩ | ⟨quiet, same⟩
  · obtain ⟨env, run, window, _⟩ := (finds_iff_review operation running).mp finds
    refine ⟨fun _ => ⟨finds, fresh⟩, fun _ => ⟨env, run, window, ?_⟩⟩
    exact marked.trans (congrArg (· + 1) fresh).symm
  · refine ⟨fun ⟨_, _, _, marked⟩ => ?_, fun both => absurd both quiet⟩
    exact absurd (same.symm.trans marked) (Nat.ne_of_lt (Nat.lt_succ_self _))

/-- A delivery is accepted, and after these operations the job approves it. -/
structure Approved
    (env job : Env) (id : OrderId) (delivery : Operation)
    (during : List Operation) (db : Db) : Prop where
  submits : ∃ expert summary attachments,
    delivery = .order (.submitDelivery env id expert summary attachments)
  accepted : (Request.run delivery.call db).1 = .ok ()
  sole : Operation.AllMeet (fun operation current =>
    ¬Redelivers id operation current) during (delivery.after db)
  approved : AutoApproves job id (Operation.afterAll during (delivery.after db))

/-- The delivery starts a timer, which runs until the job approves. -/
theorem Approved.running
    {env job : Env} {id : OrderId} {delivery : Operation}
    {during : List Operation} {db : Db}
    (history : Approved env job id delivery during db) :
    Operation.AllMeet (fun _ current =>
      timerOf id current = some (env.now + hours autoApproveHours)) during
      (delivery.after db) := by
  obtain ⟨expert, summary, attachments, rfl⟩ := history.submits
  have starts := submitDelivery_starts env id expert summary attachments db
  have ends : Call.Ends _ db fun next =>
      timerOf id next = some (env.now + hours autoApproveHours) :=
    Call.perform_ends starts
  have started : timerOf id ((Operation.order
      (.submitDelivery env id expert summary attachments)).after db) =
        some (env.now + hours autoApproveHours) := by
    cases ends with
    | succeeded _ starts => exact starts
    | failed fails _ => exact absurd history.accepted fails
  obtain ⟨timer, last, _⟩ := timer_of_due (due_of_autoApproves history.approved)
  obtain ⟨first, running⟩ := timer_through history.sole last
  obtain rfl := Option.some.inj (started.symm.trans first)
  exact running

/--
A delivery that the job approves was preceded by a warning in the hours before
its approval if and only if the order had no warning when it was delivered, and
some run in these hours found it in review.
-/
theorem warned_iff
    {env job : Env} {id : OrderId} {delivery : Operation}
    {during : List Operation} {db : Db}
    (history : Approved env job id delivery during db) :
    Operation.SomeMeets (Warns id (env.now + hours autoApproveHours)) during
        (delivery.after db) ↔
      marks .autoApproveWarned id db = 0 ∧
        Operation.SomeMeets
          (FoundInReview id (env.now + hours autoApproveHours)) during
          (delivery.after db) := by
  have running := history.running
  have unmarked : marks .autoApproveWarned id (delivery.after db) =
      marks .autoApproveWarned id db := by
    obtain ⟨expert, summary, attachments, rfl⟩ := history.submits
    have other : ¬Operation.Marks (.order
        (.submitDelivery env id expert summary attachments)) := fun marks => marks
    exact marks_after_of_other other (by decide) id db
  have warns := Operation.SomeMeets.congr running
    fun operation current timer => warns_iff operation timer
  have finds := Operation.SomeMeets.congr running
    fun operation current timer => finds_iff_review operation timer
  have once := someMeets_marks_iff .autoApprove id during (delivery.after db)
  rw [← unmarked]
  exact warns.trans (once.trans ((and_congr_left' finds).trans and_comm))

/-- An order in progress whose work is not delivered yet. -/
def commissioned : Db :=
  { requests := .insert .empty 10 { student := 1, status := .inProgress }
    orders := .insert .empty 40
      { request := 10
        student := 1
        expert := 2
        source := .openBid
        amount := 5000
        commissionAmount := 750
        expertAmount := 4250
        status := .active
        createdAt := 0 } }

/-- A first delivery, of which the student is warned, and its revision. -/
def firstRound : List Operation :=
  [.order (.submitDelivery { now := hours 1, key := 50 } 40 ⟨2, false⟩
      "The report and its annex." (.ok ())),
    .order (.autoApproveWarning { now := hours 60 }),
    .order (.requestRevision { now := hours 61 } 40 ⟨1, false⟩
      "Please move the annex to the front.")]

/-- The second delivery. -/
def secondDelivery : Operation :=
  .order (.submitDelivery { now := hours 100, key := 51 } 40 ⟨2, false⟩
    "The report begins with its annex." (.ok ()))

/-- The run of the warning job in the hours before the second approval. -/
def secondWarning : List Operation :=
  [.order (.autoApproveWarning { now := hours 160 })]

/-- The second delivery of an order is approved without a warning. -/
theorem autoApproveWarning_warns_once :
    let db := Operation.afterAll firstRound commissioned
    let delivered := secondDelivery.after db
    (Request.run secondDelivery.call db).1 = .ok () ∧
      InWindow (hours 172) { now := hours 160 } ∧
      timerOf 40 delivered = some (hours 172) ∧
      AutoApproves { now := hours 172, key := 90 } 40
        (Operation.afterAll secondWarning delivered) ∧
      ¬Operation.SomeMeets (Warns 40 (hours 172)) secondWarning delivered := by
  intro db delivered
  refine ⟨by decide +kernel, ⟨by decide, by decide⟩, by decide +kernel,
    by unfold AutoApproves; decide +kernel, ?_⟩
  rintro (⟨env, _, _, marked⟩ | none)
  · have same : marks .autoApproveWarned 40
        ((Operation.order (.autoApproveWarning { now := hours 160 })).after
          delivered) = marks .autoApproveWarned 40 delivered := by
      decide +kernel
    exact absurd (same.symm.trans marked) (by simp)
  · exact none

/-- The student is warned of the first delivery. -/
theorem warned_once :
    let delivery : Operation := .order (.submitDelivery
      { now := hours 1, key := 50 } 40 ⟨2, false⟩ "The report and its annex."
      (.ok ()))
    let during : List Operation :=
      [.order (.autoApproveWarning { now := hours 60 })]
    Operation.SomeMeets (Warns 40 (hours 73)) during
        (delivery.after commissioned) ↔
      marks .autoApproveWarned 40 commissioned = 0 ∧
        Operation.SomeMeets (FoundInReview 40 (hours 73)) during
          (delivery.after commissioned) := by
  intro delivery during
  have history : Approved { now := hours 1, key := 50 }
      { now := hours 73, key := 90 } 40 delivery during commissioned :=
    { submits := ⟨_, _, _, rfl⟩
      accepted := by decide +kernel
      sole := ⟨fun redelivers => by
        obtain ⟨⟨_, _, _, _, same⟩, _⟩ := redelivers
        simp at same, trivial⟩
      approved := by unfold AutoApproves; decide +kernel }
  exact warned_iff history

end Orders

end KnowledgeMarketplace
