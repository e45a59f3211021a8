import KnowledgeMarketplace.Orders.ApprovalRounds

/-!
# Timers of disputed orders

While an order is disputed its timer stays as it is, so that the time of the
dispute counts towards the review window.
-/

namespace KnowledgeMarketplace

open Transaction

namespace Orders

/-- Effects that leave all timers alone. -/
def timeless : Effect Stmt → Prop
  | .write (.saveOrder _ set) =>
      ∀ stored, (set stored).autoApproveAt = stored.autoApproveAt
  | .write (.insertOrder _ _) => True
  | _ => True

theorem timeless_elsewhere {stmt : Stmt} (other : stmt.table ≠ .orders) :
    timeless (.write stmt) := by
  cases stmt <;> simp_all [timeless, Stmt.table]

theorem timeless_ordering : Ordering timeless where
  elsewhere stmt other := timeless_elsewhere fun same => other (by simp [same])
  moved _ _ _ _ _ := by simp [ServiceRequests.transition, timeless]
  saved _ _ save := by cases save <;> exact fun _ => rfl
  told _ _ := trivial

theorem timeless_founding : Founding timeless where
  matched stmt table := timeless_elsewhere fun same => by simp [same] at table
  created _ _ _ _ _ := trivial
  told _ := trivial

/-- Deliveries, revisions and approvals set timers, and nothing else does. -/
theorem operation_timeless
    {operation : Operation} (sent : ¬operation.Delivers)
    (given : ¬operation.Extends) (approved : ¬operation.Approves) :
    operation.call.Emits timeless fun _ => True := by
  refine Operation.emits_of_accounts timeless_ordering trivial
    (fun stmt table => timeless_elsewhere fun same => by simp [same] at table)
    (fun _ _ => rfl) (fun approves => absurd approves approved)
    (fun _ _ _ save => by cases save <;> exact fun _ => rfl) (fun apart => ?_)
    fun triages => ?_
  · rcases apart with delivers | extending | marks
    · exact absurd delivers sent
    · exact absurd extending given
    · exact marks.emits fun _ _ _ => trivial
  · by_cases converges : operation.Converges
    · exact converges.emits timeless_founding
    · exact triages.emits
        (fun stmt table => timeless_elsewhere fun same => by simp [same] at table)
        converges

theorem timeless_apply
    {stmt : Stmt} (fine : timeless (.write stmt)) {id : OrderId} {db : Db}
    {order : Order} (stored : db.orders.row id = some order) :
    ∃ current, (stmt.apply db).orders.row id = some current ∧
      current.autoApproveAt = order.autoApproveAt := by
  cases stmt with
  | saveOrder key set =>
      by_cases about : id = key
      · subst about
        exact ⟨set order, by simp [Stmt.apply, stored], fine order⟩
      · exact ⟨order, by simp [Stmt.apply, about, stored], rfl⟩
  | insertOrder key value =>
      exact ⟨order, Table.row_insert_of_some key value stored, rfl⟩
  | _ => exact ⟨order, stored, rfl⟩

/-- Requests without such effects leave the timer of a stored order alone. -/
theorem timer_of_timeless
    {operation : Operation} (emits : operation.call.Emits timeless fun _ => True)
    {id : OrderId} {db : Db} {order : Order}
    (stored : db.orders.row id = some order) :
    timerOf id (operation.after db) = timerOf id db := by
  have kept := emits.keeps
    (fun now : Db => ∃ current, now.orders.row id = some current ∧
      current.autoApproveAt = order.autoApproveAt)
    (fun stmt fine now ⟨current, present, same⟩ => by
      obtain ⟨next, later, kept⟩ := timeless_apply fine present
      exact ⟨next, later, kept.trans same⟩) ⟨order, stored, rfl⟩
  obtain ⟨current, present, same⟩ := kept
  have later : (operation.after db).orders.row id = some current := present
  rw [timerOf_of_row later, timerOf_of_row stored, same]

/-- Requests about other orders leave the timer alone. -/
theorem timer_of_skipping
    {operation : Operation} {id : OrderId}
    (emits : operation.call.Emits (skipping id) fun _ => True) (db : Db) :
    timerOf id (operation.after db) = timerOf id db := by
  have kept := emits.keeps
    (fun now : Db => now.orders.row id = db.orders.row id)
    (fun stmt fine now same => ((skipping_apply fine now).2).trans same) rfl
  have later : (operation.after db).orders.row id = db.orders.row id := kept
  rw [timerOf, later, timerOf]

/-- A service that cannot succeed changes nothing. -/
theorem timer_of_failing
    {α : Type} {service : Tx α} {operation : Operation} {db : Db} (id : OrderId)
    (call : operation.call = Call.perform service)
    (fails : service.Post db fun result _ => ∀ value, result ≠ .ok value) :
    timerOf id (operation.after db) = timerOf id db := by
  have ends : Call.Ends (Call.perform service) db fun _ => False :=
    Call.perform_ends fun value same => fails value same
  cases ends with
  | succeeded _ impossible => exact impossible.elim
  | failed _ same =>
      have stays : operation.after db = db := by
        rw [Operation.after, call]
        exact same
      rw [stays]

theorem submitDelivery_fails
    {id : OrderId} {db : Db} {order : Order}
    (stored : db.orders.row id = some order)
    (disputed : order.status = .disputed) (env : Env) (expert : Actor)
    (summary : String) (attachments : Except Error Unit) :
    (submitDelivery env id expert summary attachments).Post db
      fun result _ => ∀ value, result ≠ .ok value := by
  simp only [submitDelivery, getForUpdate, Tx.getForUpdate, Tx.get,
    Prog.post_bind, Prog.post_lockRow, Prog.post_read, Prog.post_orFail,
    Prog.post_require, stored, Option.some.injEq]
  refine ⟨?_, nofun⟩
  rintro found rfl
  refine ⟨fun _ => ⟨fun working => ?_, fun _ => nofun⟩, fun _ => nofun⟩
  simp [disputed] at working

theorem requestRevision_fails
    {id : OrderId} {db : Db} {order : Order}
    (stored : db.orders.row id = some order)
    (disputed : order.status = .disputed) (env : Env) (student : Actor)
    (note : String) :
    (requestRevision env id student note).Post db
      fun result _ => ∀ value, result ≠ .ok value := by
  simp only [requestRevision, getForUpdate, Tx.getForUpdate, Tx.get,
    Prog.post_bind, Prog.post_lockRow, Prog.post_read, Prog.post_orFail,
    Prog.post_require, stored, Option.some.injEq]
  refine ⟨?_, nofun⟩
  rintro found rfl
  refine ⟨fun _ => ⟨fun delivered => ?_, fun _ => nofun⟩, fun _ => nofun⟩
  simp [disputed] at delivered

theorem approveDelivery_fails
    {id : OrderId} {db : Db} {order : Order}
    (stored : db.orders.row id = some order)
    (disputed : order.status = .disputed) (env : Env) (actor : Option Actor)
    (source : ApprovalSource) :
    (approveDelivery env id actor source).Post db
      fun result _ => ∀ value, result ≠ .ok value := by
  simp only [approveDelivery, getForUpdate, Tx.getForUpdate, Tx.get,
    Prog.post_bind, Prog.post_lockRow, Prog.post_read, Prog.post_orFail,
    Prog.post_ofExcept, Prog.post_require, stored, Option.some.injEq]
  refine ⟨?_, by simp⟩
  rintro found rfl
  refine ⟨fun _ _ => ⟨fun delivered => ?_, by simp⟩, by simp⟩
  simp [disputed] at delivered

/-- The timer of a disputed order stays, whatever else is done. -/
theorem timer_of_disputed
    {id : OrderId} {db : Db} {order : Order}
    (stored : db.orders.row id = some order)
    (disputed : order.status = .disputed) (operation : Operation) :
    timerOf id (operation.after db) = timerOf id db := by
  by_cases sent : operation.Delivers
  · rcases operation with _ | _ | _ | call | _ | _ <;> try exact sent.elim
    cases call with
    | submitDelivery env key expert summary attachments =>
        by_cases about : key = id
        · subst about
          exact timer_of_failing key rfl
            (submitDelivery_fails stored disputed env expert summary attachments)
        · have either : ∀ (first : Prop) [Decidable first] actor,
              skipping id (.write (.recordEvent
                { order := key
                  eventType := if first then .delivered else .redelivered
                  actor })) := fun _ _ _ => about
          refine timer_of_skipping ?_ db
          simp [Operation.call, OrderCall.call, Call.perform, submitDelivery,
            transition, getForUpdate, recordEvent, Tx.get, Tx.getForUpdate,
            Tx.create, skipping, about]
    | _ => exact sent.elim
  by_cases given : operation.Extends
  · rcases operation with _ | _ | _ | call | _ | _ <;> try exact given.elim
    cases call with
    | requestRevision env key student note =>
        by_cases about : key = id
        · subst about
          exact timer_of_failing key rfl
            (requestRevision_fails stored disputed env student note)
        · refine timer_of_skipping ?_ db
          simp [Operation.call, OrderCall.call, Call.perform, requestRevision,
            transition, getForUpdate, recordEvent, Tx.get, Tx.getForUpdate,
            skipping, about]
    | respondDeadlineProposal key actor accept =>
        refine timer_of_timeless ?_ stored
        simp [Operation.call, OrderCall.call, Call.perform,
          respondDeadlineProposal, getForUpdate, recordEvent, Tx.get,
          Tx.getForUpdate, timeless]
    | _ => exact given.elim
  by_cases approved : operation.Approves
  · rcases operation with _ | _ | _ | call | _ | _ <;> try exact approved.elim
    cases call with
    | approveDelivery env key actor source =>
        by_cases about : key = id
        · subst about
          exact timer_of_failing key rfl
            (approveDelivery_fails stored disputed env actor source)
        · refine timer_of_skipping (Request.emits_atomic.mpr (.seq ?_ (by simp)))
            db
          exact approveDelivery_skipping about env actor source
    | autoApproveDue env =>
        have unlisted : ∀ item ∈ (dueApprovals env.now db).zipIdx,
            item.1 ≠ id := by
          rintro item member rfl
          obtain ⟨found, present, due⟩ :=
            Table.mem_select.mp (List.fst_mem_of_mem_zipIdx member)
          obtain rfl := Option.some.inj (stored.symm.trans present)
          simp [approvalDue, disputed] at due
        have kept := (autoApproveAll_skipping unlisted env).keeps
          (fun now : Db => now.orders.row id = db.orders.row id)
          (fun stmt fine now same => ((skipping_apply fine now).2).trans same)
          rfl
        rw [autoApproveDue_after, timerOf, timerOf, kept]
    | _ => exact approved.elim
  · exact timer_of_timeless (operation_timeless sent given approved) stored

/-- The order is disputed. -/
def IsDisputed (id : OrderId) (_ : Operation) (db : Db) : Prop :=
  (db.orders.row id).any (·.status = .disputed) = true

theorem timer_of_allMeet
    {id : OrderId} {operations : List Operation} {db : Db}
    (disputed : Operation.AllMeet (IsDisputed id) operations db) :
    timerOf id (Operation.afterAll operations db) = timerOf id db := by
  induction operations generalizing db with
  | nil => rfl
  | cons operation rest inductionHypothesis =>
      obtain ⟨order, stored, status⟩ := (Option.any_eq_true _ _).mp disputed.1
      have first := timer_of_disputed stored (by simpa using status) operation
      exact (inductionHypothesis disputed.2).trans first

/-! ## A dispute without fault -/

/-- A delivered order is disputed for a while and comes back without fault. -/
structure Suspended
    (opening closing : Env) (id : OrderId) (timer : Time) (opens : Operation)
    (during : List Operation) (closes : Operation) (db : Db) : Prop where
  opened : ∃ actor reason description evidence, opens =
    .dispute (.openDispute opening id actor reason description evidence)
  closed : ∃ actor notes amount, closes =
    .dispute (.resolve closing id actor .noFaultClose notes amount)
  reviewed : (db.orders.row id).any (fun order =>
    order.status = .delivered && order.autoApproveAt = some timer) = true
  disputed : Operation.AllMeet (IsDisputed id) (during ++ [closes])
    (opens.after db)
  returned : ((Operation.afterAll (during ++ [closes])
    (opens.after db)).orders.row id).any (·.status = .delivered) = true

/-- After the dispute the timer is as it was before. -/
theorem Suspended.timer
    {opening closing : Env} {id : OrderId} {timer : Time} {opens closes : Operation}
    {during : List Operation} {db : Db}
    (suspended : Suspended opening closing id timer opens during closes db) :
    timerOf id (Operation.afterAll (during ++ [closes]) (opens.after db)) =
      some timer := by
  obtain ⟨order, stored, holds⟩ := (Option.any_eq_true _ _).mp suspended.reviewed
  simp only [Bool.and_eq_true, decide_eq_true_eq] at holds
  rw [timer_of_allMeet suspended.disputed]
  obtain ⟨actor, reason, description, evidence, rfl⟩ := suspended.opened
  have other : ¬Operation.Delivers (.dispute
      (.openDispute opening id actor reason description evidence)) :=
    fun sent => sent
  have emits := operation_timeless other (fun given => given)
    fun approved => approved
  have first := timer_of_timeless emits stored
  exact first.trans ((timerOf_of_row stored).trans holds.2)

/-- Some key is unused, and so are all later ones. -/
theorem exists_unused (db : Db) :
    ∃ key : Nat, ∀ later, key ≤ later → db.payouts.row later = none := by
  refine ⟨db.payouts.keys.sum + 1, fun later beyond => ?_⟩
  by_contra used
  have listed : later ∈ db.payouts.keys :=
    (db.payouts.mem_keys later).mpr (Option.isSome_iff_ne_none.mpr used)
  exact absurd (List.le_sum_of_mem listed) (Nat.not_le.mpr beyond)

/-- The earliest approval leaves what was left, if nothing counts. -/
theorem left_iff (timer opened closed : Nat) :
    timer - opened ≤ max timer closed - closed ↔
      closed ≤ opened ∨ timer ≤ opened := by
  omega

/-- A later approval leaves at least as much. -/
theorem left_mono {timer opened closed now : Nat} (elapsed : timer ≤ now)
    (either : closed ≤ opened ∨ timer ≤ opened) :
    timer - opened ≤ now - closed := by
  omega

/--
After a dispute without fault, every automatic approval leaves the student the
part of the review window that was left when the dispute was opened if and only
if no time has passed in the dispute, or nothing was left.
-/
theorem approval_waits_iff
    {opening closing : Env} {id : OrderId} {timer : Time} {opens closes : Operation}
    {during : List Operation} {db : Db}
    (suspended : Suspended opening closing id timer opens during closes db)
    (linked : Linked (Operation.afterAll (during ++ [closes]) (opens.after db))) :
    (∀ rest job,
      Operation.AllMeet (fun operation current =>
        ¬Redelivers id operation current) rest
        (Operation.afterAll (during ++ [closes]) (opens.after db)) →
      AutoApproves job id (Operation.afterAll rest
        (Operation.afterAll (during ++ [closes]) (opens.after db))) →
        timer - opening.now ≤ job.now - closing.now) ↔
      closing.now ≤ opening.now ∨ timer ≤ opening.now := by
  have running := suspended.timer
  constructor
  · intro waits
    obtain ⟨key, unused⟩ := exists_unused
      (Operation.afterAll (during ++ [closes]) (opens.after db))
    have due : ((Operation.afterAll (during ++ [closes])
        (opens.after db)).orders.row id).any
          (approvalDue (max timer closing.now)) = true := by
      obtain ⟨order, stored, delivered⟩ :=
        (Option.any_eq_true _ _).mp suspended.returned
      rw [timerOf_of_row stored] at running
      simp [stored, approvalDue, running, of_decide_eq_true delivered]
    have left := waits [] { now := max timer closing.now, key } trivial
      (autoApproves_of_due linked unused due)
    exact (left_iff timer opening.now closing.now).mp left
  · intro either rest job sole approves
    obtain ⟨last, later, elapsed⟩ := timer_of_due (due_of_autoApproves approves)
    obtain ⟨first, _⟩ := timer_through sole later
    obtain rfl := Option.some.inj (running.symm.trans first)
    exact left_mono elapsed either

/-- The student opens a dispute. -/
def opensAt (now : Time) : Operation :=
  .dispute (.openDispute { now } 40 ⟨1, false⟩ .qualityBelowExpectations
    "The report misses two chapters." (.ok ()))

/-- A reviewer takes the case. -/
def takenUp : List Operation := [.dispute (.takeCase 40 (some ⟨9, true⟩))]

/-- The reviewer closes the dispute without fault. -/
def closesAt (now : Time) : Operation :=
  .dispute (.resolve { now, key := 70 } 40 (some ⟨9, true⟩) .noFaultClose
    "Both chapters are there, in the annex." none)

theorem suspended_reviewed (opening closing : Time) (holds :
    let middle := (opensAt opening).after reviewed
    let last := (Operation.afterAll takenUp middle)
    (middle.orders.row 40).any (·.status = .disputed) = true ∧
      (last.orders.row 40).any (·.status = .disputed) = true ∧
      (((closesAt closing).after last).orders.row 40).any
        (·.status = .delivered) = true) :
    Suspended { now := opening } { now := closing, key := 70 } 40 (hours 73)
      (opensAt opening) takenUp (closesAt closing) reviewed := by
  obtain ⟨disputed, taken, returned⟩ := holds
  refine ⟨⟨_, _, _, _, rfl⟩, ⟨_, _, _, rfl⟩, by decide +kernel,
    ⟨disputed, taken, trivial⟩, ?_⟩
  have last : ∀ start, Operation.afterAll (takenUp ++ [closesAt closing]) start =
      (closesAt closing).after (Operation.afterAll takenUp start) :=
    fun start => List.foldl_append
  rw [last]
  exact returned

/-- The job approves as soon as the dispute is closed. -/
theorem noFaultClose_then_approved :
    let last := Operation.afterAll (takenUp ++ [closesAt (hours 100)])
      ((opensAt (hours 10)).after reviewed)
    Suspended { now := hours 10 } { now := hours 100, key := 70 } 40 (hours 73)
        (opensAt (hours 10)) takenUp (closesAt (hours 100)) reviewed ∧
      AutoApproves { now := hours 100, key := 90 } 40 last ∧
      ¬hours 73 - hours 10 ≤ hours 100 - hours 100 := by
  intro last
  refine ⟨suspended_reviewed _ _ (by decide +kernel), ?_, by decide⟩
  unfold AutoApproves
  decide +kernel

/-- A dispute of an hour takes an hour of the review window. -/
theorem approval_waits_hour :
    let last := Operation.afterAll (takenUp ++ [closesAt (hours 11)])
      ((opensAt (hours 10)).after reviewed)
    (∀ rest job, Operation.AllMeet (fun operation current =>
        ¬Redelivers 40 operation current) rest last →
      AutoApproves job 40 (Operation.afterAll rest last) →
        hours 73 - hours 10 ≤ job.now - hours 11) ↔
      hours 11 ≤ hours 10 ∨ hours 73 ≤ hours 10 :=
  approval_waits_iff (suspended_reviewed _ _ (by decide +kernel))
    (by decide +kernel)

end Orders

end KnowledgeMarketplace
