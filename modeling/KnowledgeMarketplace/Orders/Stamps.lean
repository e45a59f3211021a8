import KnowledgeMarketplace.Lifecycle.Operations
import KnowledgeMarketplace.Operations.Effects

/-!
# Stamps of ended orders

The services that approve, cancel and sweep stamp the order that they end; the
move of the status itself stamps nothing.  So the stamps tell how an order has
ended, unless a resolution or a late cancellation ends it in another way.
-/

namespace KnowledgeMarketplace

open Transaction Lifecycle

namespace Orders

/-! ## The end of an order and its stamps -/

/-- How an order has ended; a dispute keeps the completion that it is about. -/
def endedAs (prior : Option OrderStatus) : OrderStatus → Option OrderStatus
  | .completed => some .completed
  | .cancelled => some .cancelled
  | .disputed => if prior = some .completed then some .completed else none
  | _ => none

/-- How the order has ended, if it has. -/
def ended (id : OrderId) (life : Lifecycle) : Option OrderStatus :=
  (life.orders id).bind fun order =>
    endedAs ((life.disputes id).map (·.prior)) order.status

/-- Which orders have a date of completion, and which one of cancellation. -/
@[ext] structure Stamps where
  completed : OrderId → Bool
  cancelled : OrderId → Bool

namespace Stamps

/-- A date of completion for the order. -/
def complete (stamps : Stamps) (id : OrderId) : Stamps :=
  { stamps with completed := Function.update stamps.completed id true }

/-- A date of cancellation for the order. -/
def cancel (stamps : Stamps) (id : OrderId) : Stamps :=
  { stamps with cancelled := Function.update stamps.cancelled id true }

end Stamps

/-- The stamps of the committed orders. -/
def stamps (db : Db) : Stamps where
  completed id := (db.orders.row id).any (·.completedAt.isSome)
  cancelled id := (db.orders.row id).any (·.cancelledAt.isSome)

/-- The stamps tell how every order has ended. -/
structure AllStamped (life : Lifecycle) (stamps : Stamps) : Prop where
  completed : ∀ id,
    stamps.completed id = true ↔ ended id life = some .completed
  cancelled : ∀ id,
    stamps.cancelled id = true ↔ ended id life = some .cancelled

variable {life later : Lifecycle} {marks : Stamps} {id : OrderId}

/-- Only how the orders have ended matters. -/
theorem AllStamped.congr
    (stamped : AllStamped life marks)
    (same : ∀ other, ended other later = ended other life) :
    AllStamped later marks :=
  ⟨fun other => by rw [same, stamped.completed],
    fun other => by rw [same, stamped.cancelled]⟩

/-- An order that has not ended is completed and stamped. -/
theorem AllStamped.complete
    (stamped : AllStamped life marks) (before : ended id life = none)
    (after : ended id later = some .completed)
    (others : ∀ other, other ≠ id → ended other later = ended other life) :
    AllStamped later (marks.complete id) := by
  refine ⟨fun other => ?_, fun other => ?_⟩ <;> by_cases same : other = id
  · subst same
    simp [Stamps.complete, after]
  · simpa [Stamps.complete, same, others] using stamped.completed other
  · subst same
    simpa [Stamps.complete, after, before] using stamped.cancelled other
  · simpa [Stamps.complete, same, others] using stamped.cancelled other

/-- An order that has not ended is cancelled and stamped. -/
theorem AllStamped.cancel
    (stamped : AllStamped life marks) (before : ended id life = none)
    (after : ended id later = some .cancelled)
    (others : ∀ other, other ≠ id → ended other later = ended other life) :
    AllStamped later (marks.cancel id) := by
  refine ⟨fun other => ?_, fun other => ?_⟩ <;> by_cases same : other = id
  · subst same
    simpa [Stamps.cancel, after, before] using stamped.completed other
  · simpa [Stamps.cancel, same, others] using stamped.completed other
  · subst same
    simp [Stamps.cancel, after]
  · simpa [Stamps.cancel, same, others] using stamped.cancelled other

/-! ## Business steps -/

theorem ended_congr
    (orders : later.orders id = life.orders id)
    (disputes : later.disputes id = life.disputes id) :
    ended id later = ended id life := by
  simp [ended, orders, disputes]

theorem ended_setStatus
    {order : OrderState} {status : OrderStatus}
    (stored : life.orders id = some order) :
    ended id (life.setStatus id status) =
      endedAs ((life.disputes id).map (·.prior)) status := by
  simp [ended, Lifecycle.setStatus, setOrder, stored]

theorem ended_setStatus_other
    {other : OrderId} (status : OrderStatus) (different : other ≠ id) :
    ended other (life.setStatus id status) = ended other life :=
  ended_congr (by simp [Lifecycle.setStatus, setOrder, different]) rfl

@[simp] theorem ended_follow
    (request : RequestId) (fromStatuses : List RequestStatus)
    (toStatus : RequestStatus) :
    ended id (life.follow request fromStatuses toStatus) = ended id life :=
  ended_congr (by simp) (by simp)

/-- A move between statuses that have ended in the same way. -/
theorem ended_move
    {order : OrderState} {status : OrderStatus}
    (stored : life.orders id = some order)
    (same : endedAs ((life.disputes id).map (·.prior)) status =
      endedAs ((life.disputes id).map (·.prior)) order.status)
    (other : OrderId) :
    ended other (life.setStatus id status) = ended other life := by
  by_cases here : other = id
  · subst here
    rw [ended_setStatus stored, same]
    simp [ended, stored]
  · exact ended_setStatus_other status here

/-- The steps after which an order has ended in another way than before. -/
def ends (life : Lifecycle) : Event → Prop
  | .approve _ | .cancel _ | .sweep _ => True
  | .resolve id toStatus => ∃ order dispute, life.orders id = some order ∧
      life.disputes id = some dispute ∧ dispute.status = .underReview ∧
      endedAs (some dispute.prior) toStatus ≠
        endedAs (some dispute.prior) order.status
  | _ => False

/-- The other steps end no order. -/
theorem ended_step
    {event : Event} (taken : Step life event later) (open_ : ¬ends life event)
    (other : OrderId) : ended other later = ended other life := by
  cases taken with
  | triage orders disputes kept =>
      exact ended_congr (by rw [orders]) (by rw [disputes])
  | close stored edge => rfl
  | accept stored edge free =>
      rename_i request key status
      by_cases same : other = key
      · subst same
        simp [ended, addOrder, Lifecycle.setRequest, free, endedAs]
      · exact ended_congr (by simp [addOrder, Lifecycle.setRequest, same]) rfl
  | pay stored waiting =>
      rw [ended_follow]
      exact ended_move stored (by rw [waiting]; rfl) other
  | deliver stored working =>
      refine ended_move stored ?_ other
      rcases working with status | status <;> rw [status] <;> rfl
  | revise stored delivered =>
      exact ended_move stored (by rw [delivered]; rfl) other
  | approve stored delivered => exact absurd trivial open_
  | cancel stored edge => exact absurd trivial open_
  | sweep stored waiting => exact absurd trivial open_
  | openDispute stored free allowed =>
      rename_i id order
      by_cases same : other = id
      · subst same
        rcases allowed with completed | working
        · simp [ended, addDispute, setOrder, stored, free, endedAs, completed]
        · simp only [Disputes.disputableStatuses, List.mem_cons,
            List.not_mem_nil, or_false] at working
          rcases working with status | status | status <;>
            simp [ended, addDispute, setOrder, stored, free, endedAs, status]
      · exact ended_congr (by simp [addDispute, setOrder, same])
          (by simp [addDispute, setOrder, same])
  | review stored edge unresolved =>
      rename_i id dispute toStatus
      by_cases same : other = id
      · subst same
        simp [ended, setDispute, stored]
      · exact ended_congr rfl (by simp [setDispute, same])
  | resolve stored found underReview listed edge =>
      rename_i id order dispute toStatus
      by_cases same : other = id
      · subst same
        have kept : endedAs (some dispute.prior) toStatus =
            endedAs (some dispute.prior) order.status := by
          by_contra changed
          exact open_ ⟨order, dispute, stored, found, underReview, changed⟩
        simp [ended, setDispute, setOrder, stored, found, kept]
      · exact ended_congr (by simp [setDispute, setOrder, same])
          (by simp [setDispute, setOrder, same])

/-- The steps that end an order, and its stamp. -/
theorem AllStamped.approve
    (stamped : AllStamped life marks) (taken : Step life (.approve id) later) :
    AllStamped later (marks.complete id) := by
  cases taken with
  | approve stored delivered =>
      refine stamped.complete ?_ ?_ fun other different => ?_
      · simp [ended, stored, delivered, endedAs]
      · rw [ended_follow, ended_setStatus stored]
        rfl
      · rw [ended_follow, ended_setStatus_other _ different]

theorem edge_of_cancel (taken : Step life (.cancel id) later) :
    ∃ order, life.orders id = some order ∧
      (transitions order.status .cancelled).isSome = true := by
  cases taken with
  | cancel stored edge => exact ⟨_, stored, edge⟩

theorem AllStamped.cancelled_step
    (stamped : AllStamped life marks) (taken : Step life (.cancel id) later)
    (unfinished : ended id life ≠ some .completed) :
    AllStamped later (marks.cancel id) := by
  cases taken with
  | cancel stored edge =>
      rename_i order
      refine stamped.cancel ?_ ?_ fun other different => ?_
      · simp only [ended, stored, Option.bind_some] at unfinished ⊢
        revert edge unfinished
        cases order.status <;> simp [endedAs, transitions]
      · rw [ended_follow, ended_setStatus stored]
        rfl
      · rw [ended_follow, ended_setStatus_other _ different]

theorem AllStamped.sweep
    (stamped : AllStamped life marks) (taken : Step life (.sweep id) later) :
    AllStamped later (marks.cancel id) := by
  cases taken with
  | sweep stored waiting =>
      refine stamped.cancel ?_ ?_ fun other different => ?_
      · simp [ended, stored, waiting, endedAs]
      · rw [ended_setStatus stored]
        rfl
      · exact ended_setStatus_other _ different

/-! ## What the operations stamp -/

/-- Effects that stamp no order. -/
def unstamping : Effect Stmt → Prop
  | .write (.saveOrder _ set) => ∀ stored,
      (set stored).completedAt = stored.completedAt ∧
        (set stored).cancelledAt = stored.cancelledAt
  | .write (.insertOrder _ order) =>
      order.completedAt = none ∧ order.cancelledAt = none
  | _ => True

theorem unstamping_elsewhere {stmt : Stmt} (other : stmt.table ≠ .orders) :
    unstamping (.write stmt) := by
  cases stmt <;> simp_all [unstamping, Stmt.table]

theorem unstamping_ordering : Ordering unstamping where
  elsewhere stmt other := unstamping_elsewhere fun same => other (by simp [same])
  moved _ _ _ _ _ := by simp [ServiceRequests.transition, unstamping]
  saved _ _ save := by cases save <;> exact fun _ => ⟨rfl, rfl⟩
  told _ _ := trivial

theorem unstamping_founding : Founding unstamping where
  matched stmt table := unstamping_elsewhere fun same => by simp [same] at table
  created _ _ new _ _ := new.unended
  told _ := trivial

/-- Only approvals, cancellations and the sweep stamp orders. -/
theorem operation_unstamping
    {operation : Operation} (approved : ¬operation.Approves)
    (closed : ¬operation.Ends) :
    operation.call.Emits unstamping fun _ => True := by
  refine Operation.emits_of_accounts unstamping_ordering trivial
    (fun stmt table => unstamping_elsewhere fun same => by simp [same] at table)
    (fun _ _ => ⟨rfl, rfl⟩) (fun approves => absurd approves approved)
    (fun closes => absurd closes closed) (fun apart => ?_) fun triages => ?_
  · rcases apart with delivers | extending | marks
    · exact delivers.emits (fun _ _ => trivial) (fun _ _ _ => ⟨rfl, rfl⟩)
        (fun _ _ => ⟨rfl, rfl⟩) fun _ _ => trivial
    · exact extending.emits (fun _ _ => trivial) (fun _ _ => trivial)
        (fun _ _ _ _ => ⟨rfl, rfl⟩) (fun _ _ _ => ⟨rfl, rfl⟩)
        (fun _ _ => ⟨rfl, rfl⟩) fun _ _ => trivial
    · exact marks.emits fun _ _ _ => trivial
  · by_cases converges : operation.Converges
    · exact converges.emits unstamping_founding
    · exact triages.emits
        (fun stmt table => unstamping_elsewhere fun same => by
          simp [same] at table) converges

variable {db : Db}

theorem stamps_of_unstamping {stmt : Stmt} (fine : unstamping (.write stmt)) :
    stamps (stmt.apply db) = stamps db := by
  cases stmt with
  | saveOrder key set =>
      refine Stamps.ext (funext fun id => ?_) (funext fun id => ?_) <;>
        by_cases about : id = key
      · subst about
        simp [stamps, Stmt.apply, Option.any_map,
          fun stored => (fine stored).1]
      · simp [stamps, Stmt.apply, about]
      · subst about
        simp [stamps, Stmt.apply, Option.any_map,
          fun stored => (fine stored).2]
      · simp [stamps, Stmt.apply, about]
  | insertOrder key order =>
      obtain ⟨uncompleted, uncancelled⟩ := fine
      refine Stamps.ext (funext fun id => ?_) (funext fun id => ?_) <;>
        simp only [stamps, Stmt.apply, Table.row_insert] <;> split_ifs with new
      · obtain ⟨rfl, free⟩ := new
        simp [free, uncompleted]
      · rfl
      · obtain ⟨rfl, free⟩ := new
        simp [free, uncancelled]
      · rfl
  | _ => rfl

/-- An order is saved with a date of completion. -/
theorem stamps_complete
    {set : Order → Order} {order : Order}
    (stored : db.orders.row id = some order)
    (dated : ∀ stored, (set stored).completedAt.isSome = true)
    (kept : ∀ stored, (set stored).cancelledAt = stored.cancelledAt) :
    stamps ((Stmt.saveOrder id set).apply db) = (stamps db).complete id := by
  refine Stamps.ext (funext fun other => ?_) (funext fun other => ?_) <;>
    by_cases same : other = id
  · subst same
    simp [stamps, Stamps.complete, Stmt.apply, stored, dated]
  · simp [stamps, Stamps.complete, Stmt.apply, same]
  · subst same
    simp [stamps, Stamps.complete, Stmt.apply, stored, kept]
  · simp [stamps, Stamps.complete, Stmt.apply, same]

/-- An order is saved with a date of cancellation. -/
theorem stamps_cancel
    {set : Order → Order} {order : Order}
    (stored : db.orders.row id = some order)
    (dated : ∀ stored, (set stored).cancelledAt.isSome = true)
    (kept : ∀ stored, (set stored).completedAt = stored.completedAt) :
    stamps ((Stmt.saveOrder id set).apply db) = (stamps db).cancel id := by
  refine Stamps.ext (funext fun other => ?_) (funext fun other => ?_) <;>
    by_cases same : other = id
  · subst same
    simp [stamps, Stamps.cancel, Stmt.apply, stored, kept]
  · simp [stamps, Stamps.cancel, Stmt.apply, same]
  · subst same
    simp [stamps, Stamps.cancel, Stmt.apply, stored, dated]
  · simp [stamps, Stamps.cancel, Stmt.apply, same]

/-- A block that stamps nothing. -/
theorem post_of_unstamping
    {α : Type} {program : Tx α}
    (emits : program.Emits unstamping fun _ => True) :
    program.Post db fun _ next => stamps next = stamps db :=
  (emits.keeps (fun next : Db => stamps next = stamps db)
    (fun _ fine _ same => (stamps_of_unstamping fine).trans same) rfl).mono
    fun _ _ kept => kept.2

theorem transition_unstamping
    (id : OrderId) (toStatus : OrderStatus) (eventType : OrderEventType)
    (actor : Option Actor) (data : OrderEventData) :
    (transition id toStatus eventType actor data).Emits unstamping
      fun _ => True := by
  simp [transition, getForUpdate, recordEvent, Tx.getForUpdate, Tx.get,
    unstamping]

theorem moveRequest_unstamping
    (env : Env) (request : RequestId) (fromStatuses : List RequestStatus)
    (toStatus : RequestStatus) (reason : String) :
    (moveRequest env request fromStatuses toStatus reason).Emits unstamping
      fun _ => True :=
  moveRequest_emits fun _ _ => unstamping_ordering.moved _ _ _ _ _

/-- An approval stamps the order as completed. -/
theorem approveDelivery_stamps
    (env : Env) (id : OrderId) (actor : Option Actor)
    (source : ApprovalSource) :
    (approveDelivery env id actor source).Post db fun result next =>
      ∀ value, result = .ok value → stamps next = (stamps db).complete id := by
  simp only [approveDelivery, recordEvent, getForUpdate, Tx.getForUpdate,
    Tx.get, Prog.post_bind, Prog.post_lockRow, Prog.post_read,
    Prog.post_orFail, Prog.post_require, Prog.post_ofExcept, Prog.post_exec,
    Prog.post_pure, reduceCtorEq, false_implies, implies_true, and_true]
  intro order stored _ _ _
  let approving : Tx Unit := Tx.forEach (latestDelivery id db).toList
    fun delivery => Tx.exec <| .saveDelivery delivery fun stored =>
      { stored with
        status := .approved
        approvedAt := some env.now
        approvalSource := some source }
  have quiet : approving.Emits (fun effect => ∃ key set,
      effect = .write (Stmt.saveDelivery key set)) fun _ => True := by
    refine Prog.emits_forEach (fun delivery _ => ?_) trivial
    exact Prog.emits_exec.mpr ⟨⟨_, _, rfl⟩, fun _ _ => trivial⟩
  have untouched := quiet.keeps (fun next : Db => next.orders = db.orders)
    (by rintro _ ⟨_, _, ⟨⟩⟩ current before; exact before) rfl
  refine untouched.mono ?_
  rintro (error | _) approved ⟨_, same⟩
  · simp
  have present : approved.orders.row id = some order := same ▸ stored
  have stamped : stamps ((Stmt.saveOrder id fun stored =>
      { stored with completedAt := some env.now, autoApproveAt := none }).apply
        approved) = (stamps db).complete id := by
    have before : stamps approved = stamps db := by simp [stamps, same]
    refine (stamps_complete present ?_ ?_).trans
      (congrArg (Stamps.complete · id) before) <;> exact fun _ => rfl
  refine (post_of_unstamping (transition_unstamping _ _ _ _ _)).mono ?_
  rintro (error | completed) moved kept
  · simp
  refine (post_of_unstamping (moveRequest_unstamping _ _ _ _ _)).mono ?_
  rintro (error | _) followed follows
  · simp
  refine (post_of_unstamping (by
    simp [Payments.schedulePayout, Tx.create, unstamping])).mono ?_
  rintro (error | _) last done
  · simp
  · exact fun _ _ => done.trans <| follows.trans <|
      kept.trans stamped

/-- A cancellation stamps the order as cancelled. -/
theorem cancel_stamps
    (env : Env) (id : OrderId) (actor : Actor) (reason : String) :
    (cancel env id actor reason).Post db fun result next =>
      ∀ value, result = .ok value → stamps next = (stamps db).cancel id := by
  simp only [cancel, getForUpdate, Tx.getForUpdate, Tx.get,
    Prog.post_bind, Prog.post_lockRow, Prog.post_read, Prog.post_orFail,
    Prog.post_require, Prog.post_exec, reduceCtorEq, false_implies,
    implies_true, and_true]
  intro order stored _ _ _
  refine (post_of_unstamping (transition_unstamping _ _ _ _ _)).mono ?_
  rintro (error | cancelled) moved kept
  · simp
  refine (post_of_unstamping
    (by simp [Payments.voidPaymentForOrder, unstamping])).mono ?_
  rintro (error | _) voided same
  · simp
  refine (post_of_unstamping (moveRequest_unstamping _ _ _ _ _)).mono ?_
  rintro (error | _) last done
  · simp
  · refine fun _ _ => done.trans <| same.trans <| kept.trans ?_
    exact stamps_cancel stored (fun _ => rfl) fun _ => rfl

/-- The sweep stamps an order that it cancels. -/
theorem cancelUnpaid_stamps (env : Env) (id : OrderId) :
    (cancelUnpaid env id).Post db fun result next =>
      result = .ok () → stamps next = (stamps db).cancel id := by
  simp only [cancelUnpaid, transition, getForUpdate, recordEvent,
    Tx.getForUpdate, Tx.get, Prog.post_bind, Prog.post_lockRow, Prog.post_read,
    Prog.post_orFail, Prog.post_require, Prog.post_exec, Prog.post_pure,
    reduceCtorEq, false_implies, implies_true, and_true]
  intro copy found _ _
  obtain ⟨order, stored, _⟩ : ∃ order, db.orders.row id = some order ∧ _ :=
    Option.map_eq_some_iff.mp ((Table.row_modify_self ..).symm.trans found)
  have moved : ∀ current : Db, stamps ((Stmt.saveOrder id fun stored =>
      { stored with status := .cancelled }).apply current) = stamps current :=
    fun _ => stamps_of_unstamping fun _ => ⟨rfl, rfl⟩
  exact (moved _).trans (stamps_cancel stored (fun _ => rfl) fun _ => rfl)

/-! ## Runs -/

/--
Completed orders, and those disputed after their completion, have a date of
completion; cancelled orders have a date of cancellation; no other order has one.
-/
structure Stamped (db : Db) : Prop where
  completed : ∀ id order, db.orders.row id = some order →
    (order.completedAt.isSome = true ↔ order.status = .completed ∨
      order.status = .disputed ∧ (db.disputes.row id).any
        (·.priorOrderStatus = .completed) = true)
  cancelled : ∀ id order, db.orders.row id = some order →
    (order.cancelledAt.isSome = true ↔ order.status = .cancelled)

/-- What a resolution or a late cancellation may not do. -/
def keepsStamps : Operation → Db → Prop
  | .order (.cancel _ id actor reason), db =>
      actor.isStaff = true → reason ≠ "" → ∀ order,
        db.orders.row id = some order → order.status = .disputed →
          (db.disputes.row id).all (·.priorOrderStatus ≠ .completed) = true
  | .dispute (.resolve _ id actor outcome _ _), db =>
      actor.any Actor.isStaff = true → ∀ order dispute,
        db.orders.row id = some order → db.disputes.row id = some dispute →
          dispute.status = .underReview →
            endedAs (some dispute.priorOrderStatus)
                (Disputes.newStatus dispute outcome) =
              endedAs (some dispute.priorOrderStatus) order.status
  | _, _ => True

theorem endedAs_completed
    (prior : Option OrderStatus) (status : OrderStatus) :
    endedAs prior status = some .completed ↔ status = .completed ∨
      status = .disputed ∧ prior = some .completed := by
  cases status <;> simp [endedAs]

theorem endedAs_cancelled
    (prior : Option OrderStatus) (status : OrderStatus) :
    endedAs prior status = some .cancelled ↔ status = .cancelled := by
  cases status <;> simp [endedAs]

theorem ended_lifecycle
    {order : Order} (stored : db.orders.row id = some order) :
    ended id db.lifecycle = endedAs
      ((db.disputes.row id).map Dispute.priorOrderStatus) order.status := by
  simp [ended, Db.lifecycle, stored, Order.state, Dispute.state,
    Function.comp_def]

theorem ended_of_missing (missing : db.orders.row id = none) :
    ended id db.lifecycle = none := by
  simp [ended, Db.lifecycle, missing]

theorem stamped_iff : Stamped db ↔ AllStamped db.lifecycle (stamps db) := by
  have prior : ∀ id, (db.disputes.row id).any
        (·.priorOrderStatus = .completed) = true ↔
      (db.disputes.row id).map Dispute.priorOrderStatus = some .completed := by
    simp [Option.any_eq_true]
  constructor
  · intro stamped
    refine ⟨fun id => ?_, fun id => ?_⟩ <;>
      rcases stored : db.orders.row id with _ | order
    · simp [ended_of_missing stored, stamps, stored]
    · rw [ended_lifecycle stored, endedAs_completed, ← prior]
      simpa [stamps, stored] using stamped.completed id order stored
    · simp [ended_of_missing stored, stamps, stored]
    · rw [ended_lifecycle stored, endedAs_cancelled]
      simpa [stamps, stored] using stamped.cancelled id order stored
  · intro stamped
    refine ⟨fun id order stored => ?_, fun id order stored => ?_⟩
    · have here := stamped.completed id
      rw [ended_lifecycle stored, endedAs_completed, ← prior] at here
      simpa [stamps, stored] using here
    · have here := stamped.cancelled id
      rw [ended_lifecycle stored, endedAs_cancelled] at here
      simpa [stamps, stored] using here

/-- What an approval leaves is stamped. -/
theorem approveDelivery_stamped
    (stamped : AllStamped db.lifecycle (stamps db))
    (env : Env) (id : OrderId) (actor : Option Actor)
    (source : ApprovalSource) :
    (approveDelivery env id actor source).Post db fun result next =>
      ∀ value, result = .ok value →
        AllStamped next.lifecycle (stamps next) := by
  have taken := @approveDelivery_takes db env id actor source
  have marked := @approveDelivery_stamps db env id actor source
  unfold Prog.Post at taken marked ⊢
  intro value ok
  rw [marked value ok]
  exact stamped.approve (taken value ok)

/-- The hourly approval leaves every order stamped. -/
theorem autoApproveDue_stamped
    (stamped : AllStamped db.lifecycle (stamps db)) (env : Env) :
    AllStamped (Request.run (autoApproveDue env) db).2.lifecycle
      (stamps (Request.run (autoApproveDue env) db).2) := by
  let good : Db → Prop := fun current =>
    AllStamped current.lifecycle (stamps current)
  suffices whole : (autoApproveDue env).Leaves db [] fun _ next _ => good next
    from Request.leaves_iff_run.mp whole
  simp only [autoApproveDue, Request.leaves_bind, Request.leaves_load]
  refine (Request.leaves_forEach good (fun item _ current before => ?_)
    stamped).mono fun _ _ _ kept => kept.1
  have one : (autoApproveOne { env with key := env.key + item.2 } item.1).Post
      current fun result next => result = .ok () → good next := by
    simp only [autoApproveOne, getForUpdate, Tx.getForUpdate, Tx.get,
      Prog.post_bind, Prog.post_lockRow, Prog.post_read, Prog.post_orFail,
      Prog.post_ite, Prog.post_pure, reduceCtorEq, false_implies, implies_true,
      and_true]
    refine fun order stored => ⟨fun _ => ?_, fun _ _ => before⟩
    exact (approveDelivery_stamped before _ item.1 none .auto).mono
      fun _ _ kept done => kept () done
  refine Request.leaves_tryCatch.mpr (Request.leaves_atomic.mpr (one.mono ?_))
  rintro (error | value) next kept
  · cases error <;> simp [before]
  · exact ⟨kept rfl, rfl⟩

/-- The sweep leaves every order stamped. -/
theorem sweepUnpaid_stamped
    (stamped : AllStamped db.lifecycle (stamps db)) (env : Env) :
    (sweepUnpaid env).Post db fun result next => ∀ count, result = .ok count →
      AllStamped next.lifecycle (stamps next) := by
  refine (sweepUnpaid_keeps
    (fun current => AllStamped current.lifecycle (stamps current)) stamped
    fun id current before => ?_).mono fun _ _ kept count ok => (kept count ok).2
  refine (cancelUnpaid_stamps env id).mono fun result next marked done taken => ?_
  rw [marked done]
  exact before.sweep taken

/-- A cancellation of an order that was not completed leaves it stamped. -/
theorem cancel_stamped
    (stamped : AllStamped db.lifecycle (stamps db))
    (env : Env) (id : OrderId) (actor : Actor) (reason : String)
    (keeps : keepsStamps (.order (.cancel env id actor reason)) db) :
    (cancel env id actor reason).Post db fun result next =>
      ∀ value, result = .ok value →
        AllStamped next.lifecycle (stamps next) := by
  have taken := @cancel_takes db env id actor reason
  have marked := @cancel_stamps db env id actor reason
  unfold Prog.Post at taken marked ⊢
  obtain ⟨taken, entitled⟩ := taken
  intro value ok
  rw [marked value ok]
  refine stamped.cancelled_step (taken value ok) fun finished => ?_
  obtain ⟨given, either⟩ := entitled value ok
  rcases stored : db.orders.row id with _ | order
  · rw [ended_of_missing stored] at finished
    cases finished
  rw [ended_lifecycle stored, endedAs_completed] at finished
  have working : (transitions order.status .cancelled).isSome = true := by
    obtain ⟨state, row, edge⟩ := edge_of_cancel (taken value ok)
    rw [lifecycle_order stored] at row
    obtain rfl := Option.some.inj row
    exact edge
  rcases finished with completed | ⟨disputed, prior⟩
  · simp [completed, transitions] at working
  · rcases either with staff | waiting
    · have apart := keeps staff given order stored disputed
      obtain ⟨dispute, found, same⟩ := Option.map_eq_some_iff.mp prior
      simp [found, same] at apart
    · simp [stored, disputed] at waiting

/-- An operation that meets the condition leaves the orders stamped. -/
theorem Stamped.after
    {operation : Operation} (stamped : Stamped db)
    (keeps : keepsStamps operation db) : Stamped (operation.after db) := by
  rw [stamped_iff] at stamped ⊢
  by_cases approves : operation.Approves
  · rcases operation with _ | _ | _ | call | _ | _ <;> try exact approves.elim
    cases call with
    | approveDelivery env id actor source =>
        exact (Call.perform_ends
          (approveDelivery_stamped stamped env id actor source)).lasting stamped
    | autoApproveDue env => exact autoApproveDue_stamped stamped env
    | _ => exact approves.elim
  by_cases closes : operation.Ends
  · rcases operation with _ | _ | _ | call | _ | _ <;> try exact closes.elim
    cases call with
    | cancel env id actor reason =>
        exact (Call.perform_ends
          (cancel_stamped stamped env id actor reason keeps)).lasting stamped
    | sweepUnpaid env =>
        exact (Call.perform_ends (sweepUnpaid_stamped stamped env)).lasting
          stamped
    | _ => exact closes.elim
  have same : stamps (operation.after db) = stamps db :=
    (operation_unstamping approves closes).keeps
      (fun next : Db => stamps next = stamps db)
      (fun _ fine _ before => (stamps_of_unstamping fine).trans before) rfl
  rw [same]
  have quiet : ∀ event current, operation.Causes db event →
      (∀ id, event ≠ .sweep id) → current = db.lifecycle →
        ¬ends current event := by
    rintro event _ cause unswept rfl closing
    cases event with
    | approve id => exact approves cause
    | cancel id =>
        obtain ⟨env, actor, reason, rfl, _⟩ := cause
        exact closes trivial
    | sweep id => exact unswept id rfl
    | resolve id toStatus =>
        obtain ⟨env, actor, outcome, notes, amount, dispute, rfl, found, rfl,
          staff⟩ := cause
        obtain ⟨order, copy, row, present, underReview, changed⟩ := closing
        obtain ⟨stored, orderRow, rfl⟩ := Option.map_eq_some_iff.mp row
        rw [lifecycle_dispute found] at present
        obtain rfl := Option.some.inj present
        exact changed (keeps staff stored dispute orderRow found underReview)
    | _ => exact closing
  have unswept : ∀ event, operation.Causes db event →
      ∀ id, event ≠ .sweep id := by
    rintro event cause id rfl
    obtain ⟨env, rfl, _⟩ := cause
    exact closes trivial
  refine (operation.evolves db).keeps (fun life => AllStamped life (stamps db))
    ?step ?job stamped
  case step =>
    intro event later cause taken
    exact stamped.congr
      (ended_step taken (quiet event _ cause (unswept event cause) rfl))
  case job =>
    intro event current later isJob cause
    cases event with
    | sweep id => exact absurd rfl (unswept _ cause id)
    | approve id => exact absurd cause approves
    | _ => exact isJob.elim

/--
In every run whose resolutions and late cancellations end no order in another
way than it had ended before, the stamps tell how every order has ended.
-/
theorem orders_stamped
    (start : Db) (stamped : Stamped start) (operations : List Operation)
    (keep : Operation.AllMeet keepsStamps operations start) :
    Stamped (Operation.afterAll operations start) :=
  keep.keeps Stamped (fun _ _ keeps current => current.after keeps) stamped

/-- An active order that has been paid. -/
def paidOrder : Db :=
  { requests := .insert .empty 10 { student := 1, status := .inProgress }
    orders := .insert .empty 40
      { request := 10
        student := 1
        expert := 2
        source := .openBid
        status := .active
        amount := 5000
        commissionAmount := 750
        expertAmount := 4250
        createdAt := 0
        paidAt := some 1 }
    payments := .insert .empty 40
      { gateway := .manual
        providerReference := some "manual-pay-1"
        amountMinor := 5000
        status := .succeeded } }

theorem paidOrder_stamped : Stamped paidOrder := by
  have only : ∀ id order, paidOrder.orders.row id = some order →
      order.status = .active ∧ order.completedAt = none ∧
        order.cancelledAt = none := by
    intro id order stored
    simp only [paidOrder, Table.row_insert, Table.row_empty, and_true,
      Option.ite_none_right_eq_some, Option.some.injEq] at stored
    obtain ⟨_, rfl⟩ := stored
    exact ⟨rfl, rfl, rfl⟩
  refine ⟨fun id order stored => ?_, fun id order stored => ?_⟩ <;>
    obtain ⟨active, uncompleted, uncancelled⟩ := only id order stored
  · simp [active, uncompleted]
  · simp [active, uncancelled]

/-- The order is delivered, approved and then disputed. -/
def disputedLate : List Operation :=
  [.order (.submitDelivery { now := 2, key := 50 } 40 ⟨2, false⟩
      "Both chapters are attached." (.ok ())),
    .order (.approveDelivery { now := 3, key := 60 } 40 (some ⟨1, false⟩)
      .student),
    .dispute (.openDispute { now := 4 } 40 ⟨1, false⟩ .qualityBelowExpectations
      "The report misses two chapters." (.ok ()))]

/-- The date of completion stays with an order disputed later. -/
theorem orders_stamped_disputed :
    Stamped (Operation.afterAll disputedLate paidOrder) ∧
      ((Operation.afterAll disputedLate paidOrder).orders.row 40).any (fun order =>
        order.status = .disputed && order.completedAt = some 3) = true := by
  refine ⟨orders_stamped paidOrder paidOrder_stamped disputedLate ?_,
    by decide +kernel⟩
  exact ⟨trivial, trivial, trivial, trivial⟩

/-- A dispute about the active order is resolved with this outcome. -/
def resolution (outcome : DisputeOutcome) : List Operation :=
  [.dispute (.openDispute { now := 2 } 40 ⟨1, false⟩ .qualityBelowExpectations
      "The report misses two chapters." (.ok ())),
    .dispute (.takeCase 40 (some ⟨9, true⟩)),
    .dispute (.resolve { now := 3, key := 70 } 40 (some ⟨9, true⟩) outcome
      "Both sides have agreed to it." none)]

/-- A resolution completes or cancels the order without a date. -/
theorem resolution_unstamped :
    ¬Stamped (Operation.afterAll (resolution .releaseExpert) paidOrder) ∧
      ¬Stamped (Operation.afterAll (resolution .refundStudentFull) paidOrder) := by
  refine ⟨fun stamped => ?_, fun stamped => ?_⟩
  · have bare : ((Operation.afterAll (resolution .releaseExpert)
        paidOrder).orders.row 40).any (fun order =>
          order.status = .completed && !order.completedAt.isSome) = true := by
      decide +kernel
    obtain ⟨order, stored, holds⟩ := (Option.any_eq_true _ _).mp bare
    have dated := stamped.completed 40 order stored
    simp_all
  · have bare : ((Operation.afterAll (resolution .refundStudentFull)
        paidOrder).orders.row 40).any (fun order =>
          order.status = .cancelled && !order.cancelledAt.isSome) = true := by
      decide +kernel
    obtain ⟨order, stored, holds⟩ := (Option.any_eq_true _ _).mp bare
    have dated := stamped.cancelled 40 order stored
    simp_all

end Orders

end KnowledgeMarketplace
