import KnowledgeMarketplace.Orders.Timers
import KnowledgeMarketplace.Transaction.Batches
import KnowledgeMarketplace.Transaction.Watch

/-!
# The review window of a delivery

The job that approves deliveries lists what is due and then takes one order
after the other under its lock, where it only checks that some timer is running.
-/

namespace KnowledgeMarketplace

open Transaction

namespace Orders

/-! ## Timers that are started -/

/-- The statement starts the timer of a delivery that is submitted with it. -/
def Arms (stmts : List Stmt) (stmt : Stmt) : Prop :=
  ∃ key delivery submitted set,
    stmt = .saveOrder delivery.order set ∧
      .insertDelivery key delivery ∈ stmts ∧
      delivery.submittedAt = some submitted ∧
      ∀ stored, (set stored).autoApproveAt =
        some (submitted + hours autoApproveHours)

/-- Timers are started for deliveries only. -/
def Timed (stmts : List Stmt) : Prop :=
  ∀ stmt ∈ stmts, unarming (.write stmt) ∨ Arms stmts stmt

theorem timed_of_unarming
    {stmts : List Stmt} (all : ∀ stmt ∈ stmts, unarming (.write stmt)) :
    Timed stmts :=
  fun stmt member => .inl (all stmt member)

theorem Arms.append
    {stmts extra : List Stmt} {stmt : Stmt} (arms : Arms stmts stmt) :
    Arms (stmts ++ extra) stmt := by
  obtain ⟨key, delivery, submitted, set, same, inserted, submission, starts⟩ :=
    arms
  exact ⟨key, delivery, submitted, set, same, List.mem_append_left _ inserted,
    submission, starts⟩

theorem Timed.append
    {stmts extra : List Stmt} (timed : Timed stmts)
    (all : ∀ stmt ∈ extra, unarming (.write stmt)) : Timed (stmts ++ extra) := by
  intro stmt member
  rcases List.mem_append.mp member with early | late
  · exact (timed stmt early).imp_right Arms.append
  · exact .inl (all stmt late)

theorem timed_delivery
    {key : DeliveryId} {delivery : Delivery} {set : Order → Order}
    (submitted : Time) (submission : delivery.submittedAt = some submitted)
    (starts : ∀ stored, (set stored).autoApproveAt =
      some (submitted + hours autoApproveHours)) :
    Timed [.insertDelivery key delivery, .saveOrder delivery.order set] := by
  intro stmt member
  rcases List.mem_pair.mp member with rfl | rfl
  · exact .inl trivial
  · exact .inr ⟨key, delivery, submitted, set, rfl, by simp, submission, starts⟩

/-- The effects of moving an order. -/
def transitional : Effect Stmt → Prop
  | .write (.saveOrder _ set) => StopsTimer set
  | .write (.recordEvent _) => True
  | _ => False

theorem unarming_of_transitional
    {stmt : Stmt} (fine : transitional (.write stmt)) :
    unarming (.write stmt) := by
  cases stmt with
  | saveOrder id set => exact fine
  | recordEvent event => trivial
  | _ => exact fine.elim

/-- A submission starts the timer of its delivery. -/
theorem submitDelivery_timed
    (env : Env) (id : OrderId) (expert : Actor) (summary : String)
    (attachments : Except Error Unit) :
    (submitDelivery env id expert summary attachments).wp rowLocks .start
      (Ctx.Finishes rowLocks fun stmts _ => Timed stmts) := by
  simp only [submitDelivery, getForUpdate, Tx.getForUpdate, Tx.get, Tx.create,
    Prog.wp_bind, Prog.wp_lockRow, Prog.wp_read, Prog.wp_orFail,
    Prog.wp_require, Prog.wp_ofExcept, Prog.wp_exec, Prog.wp_pure,
    Ctx.start_writes, Ctx.take_writes, Ctx.observe_writes, applyAll_nil,
    Ctx.finishes_error, implies_true, and_true]
  intro _ _ _ order _ _ _ _ _ _ _ _ _ _
  have moves : ∀ eventType actor,
      (transition id .delivered eventType actor).Emits transitional
        fun _ => True := by
    simp [transition, getForUpdate, recordEvent, Tx.getForUpdate, Tx.get,
      transitional, StopsTimer]
  refine Prog.wp_of_emits (moves _ _) (by simp [transitional]) ?_
  rintro (error | moved) later _ grown
  · trivial
  have timed : Timed later.writes := by
    obtain ⟨extra, writes, all⟩ := grown.writes
    rw [writes]
    refine Timed.append ?_ fun stmt member =>
      unarming_of_transitional (all stmt member)
    exact timed_delivery env.now rfl fun _ => rfl
  have finishes : later.CommitOk rowLocks fun stmts _ => Timed stmts :=
    rowLocks_commit fun _ _ => timed
  exact finishes

/-- A commit changes a timer by stopping it, or for a delivery. -/
theorem Timed.timer
    {stmts : List Stmt} (timed : Timed stmts) (id : OrderId) (db : Db) :
    timerOf id (applyAll stmts db) = none ∨
      timerOf id (applyAll stmts db) = timerOf id db ∨
      ∃ key delivery submitted,
        .insertDelivery key delivery ∈ stmts ∧ delivery.order = id ∧
          delivery.submittedAt = some submitted ∧
          timerOf id (applyAll stmts db) =
            some (submitted + hours autoApproveHours) := by
  refine applyAll_keeps (fun now => timerOf id now = none ∨
    timerOf id now = timerOf id db ∨ ∃ key delivery submitted,
      .insertDelivery key delivery ∈ stmts ∧ delivery.order = id ∧
        delivery.submittedAt = some submitted ∧
        timerOf id now = some (submitted + hours autoApproveHours))
    (fun stmt member now before => ?_) (.inr (.inl rfl))
  have same : timerOf id (stmt.apply now) = timerOf id now →
      timerOf id (stmt.apply now) = none ∨
        timerOf id (stmt.apply now) = timerOf id db ∨
        ∃ key delivery submitted,
          .insertDelivery key delivery ∈ stmts ∧ delivery.order = id ∧
            delivery.submittedAt = some submitted ∧
            timerOf id (stmt.apply now) =
              some (submitted + hours autoApproveHours) := by
    intro same
    rw [same]
    exact before
  rcases timed stmt member with fine | arms
  · rcases unarming_timer fine id now with stopped | kept
    · exact .inl stopped
    · exact same kept
  · obtain ⟨key, delivery, submitted, set, rfl, inserted, submission, starts⟩ :=
      arms
    by_cases about : id = delivery.order
    · subst about
      rcases stored : now.orders.row delivery.order with _ | order
      · exact .inl (by simp [timerOf, Stmt.apply, stored])
      · refine .inr (.inr ⟨key, delivery, submitted, inserted, rfl, submission, ?_⟩)
        simp [timerOf, Stmt.apply, stored, starts]
    · exact same (by simp [timerOf, Stmt.apply, about])

/-! ## What the job approves -/

/-- The effects of approving a delivery of the order. -/
def approving (id : OrderId) : Effect Stmt → Prop
  | .write (.recordEvent event) => event.order = id
  | .write (.saveOrder _ set) => StopsTimer set
  | .write (.insertOrder _ _) | .savepoint => False
  | _ => True

theorem approveDelivery_approving
    (env : Env) (id : OrderId) (actor : Option Actor) (source : ApprovalSource) :
    (approveDelivery env id actor source).Emits (approving id)
      fun _ => True :=
  approveDelivery_emits (fun _ _ => trivial) (fun _ about _ => about)
    (fun _ => .inl rfl) (fun _ _ => .inr rfl)
    (fun _ _ => by simp [ServiceRequests.transition, approving])
    fun _ _ => trivial

theorem unarming_of_approving
    {id : OrderId} {stmt : Stmt} (fine : approving id (.write stmt)) :
    unarming (.write stmt) := by
  cases stmt with
  | saveOrder key set => exact fine
  | insertOrder key order => exact fine.elim
  | _ => trivial

/-- The statements approve the delivery of the order automatically. -/
def autoApproves (id : OrderId) (stmts : List Stmt) : Bool :=
  stmts.any fun
    | .recordEvent event => event.order = id && event.eventType = .autoApproved
    | _ => false

theorem autoApproves_iff {id : OrderId} {stmts : List Stmt} :
    autoApproves id stmts = true ↔ ∃ event, .recordEvent event ∈ stmts ∧
      event.order = id ∧ event.eventType = .autoApproved := by
  rw [autoApproves, List.any_eq_true]
  constructor
  · rintro ⟨stmt, member, holds⟩
    cases stmt with
    | recordEvent event => exact ⟨event, member, by simpa using holds⟩
    | _ => simp at holds
  · rintro ⟨event, member, about, type⟩
    exact ⟨_, member, by simp [about, type]⟩

/-- The job listed the order, and approves it while a timer is running. -/
structure Reviews
    (operation : Operation) (look : Db) (stmts : List Stmt) (db : Db) :
    Prop where
  timed : Timed stmts
  listed : ∀ env event, operation = .order (.autoApproveDue env) →
    .recordEvent event ∈ stmts → event.eventType = .autoApproved →
      (look.orders.row event.order).any (approvalDue env.now) = true ∧
        (timerOf event.order db).isSome = true

/-- One round of the job. -/
theorem autoApproveOne_reviews
    {env job : Env} {id : OrderId} {look : Db}
    (due : (look.orders.row id).any (approvalDue job.now) = true) :
    (autoApproveOne env id).wp rowLocks .start (Ctx.Finishes rowLocks
      (Reviews (.order (.autoApproveDue job)) look)) := by
  simp only [autoApproveOne, getForUpdate, Tx.getForUpdate, Tx.get,
    Prog.wp_bind, Prog.wp_lockRow, Prog.wp_read, Prog.wp_orFail, Prog.wp_ite,
    Prog.wp_pure, Ctx.start_writes, Ctx.take_writes, applyAll_nil,
    Ctx.finishes_error, implies_true, and_true]
  intro state _ _ order stored
  refine ⟨fun running => ?_, fun _ => ?_⟩
  · refine Prog.wp_of_emits (approveDelivery_approving _ _ _ _)
      (by simp [approving]) ?_
    rintro (error | value) later _ grown
    · trivial
    have all : ∀ stmt ∈ later.writes, approving id (.write stmt) :=
      grown.all (by simp)
    have finishes : later.CommitOk rowLocks
        (Reviews (.order (.autoApproveDue job)) look) := by
      refine rowLocks_commit fun now known => ⟨timed_of_unarming
        fun stmt member => unarming_of_approving (all stmt member), ?_⟩
      intro other event same recorded _
      obtain rfl : job = other := by simpa using same
      have about : event.order = id := all _ recorded
      have held : state.orders.row id = now.orders.row id :=
        (grown.known now known).2 (.order id) (by simp)
      rw [about]
      refine ⟨due, ?_⟩
      rw [timerOf_of_row (held.symm.trans stored)]
      exact Option.isSome_iff_ne_none.mpr running.2
    exact finishes
  · have finishes : Ctx.CommitOk rowLocks
        (Reviews (.order (.autoApproveDue job)) look)
        (Ctx.observe rowLocks (Ctx.start.take (Row.order id)) state) :=
      rowLocks_commit fun _ _ => ⟨by simp [Timed], by simp⟩
    exact finishes

/-- What every operation guarantees of reviews. -/
theorem operation_reviews (operation : Operation) :
    operation.call.Looks rowLocks (Reviews operation) := by
  by_cases delivers : operation.Delivers
  · rcases operation with _ | _ | _ | call | _ | _ <;>
      try exact delivers.elim
    cases call with
    | submitDelivery env id expert summary attachments =>
        have safe := Call.perform_safe
          (submitDelivery_timed env id expert summary attachments)
        exact safe.looks (fun _ => trivial) fun _ _ _ timed => ⟨timed, by simp⟩
    | _ => exact delivers.elim
  by_cases job : ∃ env, operation = .order (.autoApproveDue env)
  · obtain ⟨env, rfl⟩ := job
    intro look
    refine Request.wp_mono (Request.wp_forEach fun item member => ?_)
      fun _ _ _ => trivial
    have due : (look.orders.row item.1).any (approvalDue env.now) = true := by
      obtain ⟨order, stored, due⟩ :=
        Table.mem_select.mp (List.fst_mem_of_mem_zipIdx member)
      simpa [stored] using due
    refine Request.wp_tryCatch.mpr (Request.wp_atomic.mpr
      (Prog.wp_mono (autoApproveOne_reviews due) ?_))
    rintro (error | value) later fine
    · cases error <;> simp
    · exact ⟨fine, rfl⟩
  · have safe : operation.call.Safe rowLocks fun stmts _ => Timed stmts :=
      rowLocks_safe (operation_unarming delivers)
        fun _ all _ => timed_of_unarming all
    exact safe.looks (fun _ => trivial) fun _ _ _ timed =>
      ⟨timed, fun env _ same => absurd ⟨env, same⟩ job⟩

/--
Nobody delivers anew, with a window that is still open for the job, on an order
that a running job has listed.
-/
def Undisturbed
    (operations : Nat → Operation) (seen : Nat → Option Db) (stmts : List Stmt)
    (_ : Db) : Prop :=
  ∀ client env look, operations client = .order (.autoApproveDue env) →
    seen client = some look → ∀ key delivery submitted,
      .insertDelivery key delivery ∈ stmts →
      delivery.submittedAt = some submitted →
      (look.orders.row delivery.order).any (approvalDue env.now) = true →
        submitted + hours autoApproveHours ≤ env.now

/-- What a job has listed is still due, or its timer was stopped. -/
def StillDue (operation : Operation) (look db : Db) : Prop :=
  ∀ env id, operation = .order (.autoApproveDue env) →
    (look.orders.row id).any (approvalDue env.now) = true →
      ∀ timer, timerOf id db = some timer → timer ≤ env.now

/--
In any interleaving of all operations where no listed order is delivered anew,
a job approves orders whose timer has run out when they are approved.
-/
theorem auto_approvals_due
    {db : Db} {operations : Nat → Operation} {seen : Nat → Option Db}
    {system : Marketplace}
    (watched : System.Watched (Undisturbed operations) db
      (fun client => (operations client).call) seen system)
    {client : Nat} {env : Env}
    (job : operations client = .order (.autoApproveDue env))
    {stmts : List Stmt}
    (commits : system.committing (.run client : Turn) = some stmts)
    {id : OrderId} (approves : autoApproves id stmts = true) :
    ∃ order timer, system.committed.orders.row id = some order ∧
      order.autoApproveAt = some timer ∧ timer ≤ env.now := by
  have refl : ∀ client state, True →
      StillDue (operations client) state state := by
    intro client state _ env id _ due timer running
    obtain ⟨order, stored, late⟩ := (Option.any_eq_true _ _).mp due
    rw [timerOf_of_row stored] at running
    simpa [approvalDue, running] using ((Bool.and_eq_true _ _).mp late).2
  have kept : ∀ seen client look stmts state,
      Undisturbed operations seen stmts state → seen client = some look →
      Reviews (operations client) look stmts state → True →
      (∀ other look, seen other = some look →
        StillDue (operations other) look state) →
      True ∧ ∀ other look, seen other = some look →
        StillDue (operations other) look (applyAll stmts state) := by
    intro seen client look stmts state allowed _ reviews _ before
    refine ⟨trivial, fun other look looked env id job due timer running => ?_⟩
    rcases reviews.timed.timer id state with stopped | same | delivered
    · simp [stopped] at running
    · exact before other look looked env id job due timer (same ▸ running)
    · obtain ⟨key, delivery, submitted, inserted, rfl, submission, timed⟩ :=
        delivered
      obtain rfl := Option.some.inj (timed.symm.trans running)
      exact allowed other env look job looked key delivery submitted inserted
        submission due
  have free : ∀ seen stmts state, Undisturbed operations seen stmts state →
      rowLocks.Condition stmts state := fun _ _ _ _ => trivial
  obtain ⟨informed, _, related⟩ := watched.informed free trivial
    (fun client => operation_reviews (operations client)) refl kept trivial
  obtain ⟨look, looked, reviews⟩ :=
    informed.looked (fun _ _ => trivial) commits
  obtain ⟨event, recorded, rfl, approved⟩ := autoApproves_iff.mp approves
  obtain ⟨due, running⟩ := reviews.listed env event job recorded approved
  obtain ⟨timer, timed⟩ := Option.isSome_iff_exists.mp running
  obtain ⟨order, stored, same⟩ := Option.bind_eq_some_iff.mp timed
  exact ⟨order, timer, stored, same,
    related client look looked env event.order job due timer timed⟩

/-- A delivered order whose review window ends in an hour. -/
def reviewed : Db :=
  { requests := .insert .empty 10 { student := 1, status := .inProgress }
    orders := .insert .empty 40
      { request := 10
        student := 1
        expert := 2
        source := .openBid
        amount := 5000
        commissionAmount := 750
        expertAmount := 4250
        status := .delivered
        deliveredAt := some (hours 1)
        autoApproveAt := some (hours 73)
        createdAt := 0 }
    deliveries := .insert .empty 50
      { order := 40
        revisionNumber := 0
        summary := "The report and its annex."
        submittedAt := some (hours 1) } }

/-- The job, and a revision that the expert answers at once. -/
def reviewers : Nat → Operation
  | 0 => .order (.autoApproveDue { now := hours 73, key := 80 })
  | 1 => .order (.requestRevision { now := hours 73 } 40 ⟨1, false⟩
      "Please move the annex to the front.")
  | _ => .order (.submitDelivery { now := hours 73, key := 51 } 40 ⟨2, false⟩
      "The report begins with its annex." (.ok ()))

/-- The job has listed the order; then it is delivered anew. -/
def redeliveredMeanwhile : List Turn :=
  turns 0 1 ++ turns 1 20 ++ turns 2 20 ++ turns 0 17

/-- The job approves a delivery whose review window has just begun. -/
theorem autoApproveDue_approves_early :
    let system := (Marketplace.start reviewed reviewers).runAll
      redeliveredMeanwhile
    ∃ stmts, system.committing (.run 0 : Turn) = some stmts ∧
      autoApproves 40 stmts = true ∧
      timerOf 40 system.committed = some (hours 145) := by
  intro system
  have approves : (system.committing (.run 0 : Turn)).any (autoApproves 40) =
      true := by
    decide +kernel
  obtain ⟨stmts, commits, approved⟩ := (Option.any_eq_true _ _).mp approves
  exact ⟨stmts, commits, approved, by decide +kernel⟩

/-- Undisturbed, the job approves what is due. -/
theorem auto_approvals_due_alone :
    let system := (Marketplace.start reviewed reviewers).runAll (turns 0 18)
    ∃ order timer, system.committed.orders.row 40 = some order ∧
      order.autoApproveAt = some timer ∧ timer ≤ hours 73 := by
  intro system
  have begun : System.Watched (Undisturbed reviewers) reviewed
      (fun client => (reviewers client).call) _
      (Marketplace.start reviewed reviewers) := .start
  have silent : (Marketplace.start reviewed reviewers).quiet (turns 0 18) =
      true := by
    decide +kernel
  obtain ⟨seen, watched⟩ := begun.quiet silent
  have approves : (system.committing (.run 0 : Turn)).any (autoApproves 40) =
      true := by
    decide +kernel
  obtain ⟨stmts, commits, approved⟩ := (Option.any_eq_true _ _).mp approves
  exact auto_approvals_due watched rfl commits approved

end Orders

end KnowledgeMarketplace
