import KnowledgeMarketplace.Disputes.Rules
import KnowledgeMarketplace.Operations

/-!
# One payout for each order

A sweep schedules payouts from a list that it reads first, without a lock.  An
approval schedules under the lock of an order that was never completed before,
so only sweeps can schedule twice or during a dispute.
-/

namespace KnowledgeMarketplace

open Transaction

/-! ## Orders that have been completed or cancelled -/

/-- The statuses that no order leaves, except for a dispute. -/
def finishedStatuses : List OrderStatus :=
  [.completed, .cancelled]

theorem disputed_of_finished
    {status toStatus : OrderStatus} (finished : status ∈ finishedStatuses)
    (edge : (Orders.transitions status toStatus).isSome) :
    toStatus = .disputed := by
  rcases List.mem_pair.mp finished with rfl | rfl <;> cases toStatus <;>
    simp [Orders.transitions] at edge ⊢

/-- The order has been completed or cancelled, and may be disputed since. -/
def Finished (id : OrderId) (db : Db) : Prop :=
  ∃ order, db.orders.row id = some order ∧
    (order.status ∈ finishedStatuses ∨ order.status = .disputed ∧
      ∃ dispute, db.disputes.row id = some dispute ∧
        dispute.priorOrderStatus ∈ .disputed :: finishedStatuses)

/-- Orders stay finished, and disputes keep the status before them. -/
structure Later (first second : Db) : Prop where
  finished : ∀ id, Finished id first → Finished id second
  prior : ∀ id dispute, first.disputes.row id = some dispute →
    ∃ later, second.disputes.row id = some later ∧
      later.priorOrderStatus = dispute.priorOrderStatus

theorem Later.refl (db : Db) : Later db db :=
  ⟨fun _ finished => finished, fun _ dispute stored => ⟨dispute, stored, rfl⟩⟩

theorem Later.trans
    (first second third : Db) (early : Later first second)
    (late : Later second third) : Later first third where
  finished id finished := late.finished id (early.finished id finished)
  prior id dispute stored := by
    obtain ⟨middle, found, same⟩ := early.prior id dispute stored
    obtain ⟨last, after, still⟩ := late.prior id middle found
    exact ⟨last, after, still.trans same⟩

/-- Nothing unfinished happens, and no payout is created. -/
structure Calm (before after : Db) : Prop where
  later : Later before after
  payouts : ∀ key payout, after.payouts.row key = some payout →
    ∃ old, before.payouts.row key = some old ∧ old.order = payout.order

theorem Calm.refl (db : Db) : Calm db db :=
  ⟨.refl db, fun _ payout stored => ⟨payout, stored, rfl⟩⟩

theorem Calm.trans
    {first second third : Db} (early : Calm first second)
    (late : Calm second third) : Calm first third where
  later := .trans first second third early.later late.later
  payouts key payout stored := by
    obtain ⟨middle, found, same⟩ := late.payouts key payout stored
    obtain ⟨old, before, about⟩ := early.payouts key middle found
    exact ⟨old, before, about.trans same⟩

/-- The same orders, disputes and payouts. -/
theorem Calm.of_same
    {before after : Db} (orders : after.orders = before.orders)
    (disputes : after.disputes = before.disputes)
    (payouts : after.payouts = before.payouts) : Calm before after where
  later := by
    refine ⟨fun id finished => ?_, fun id dispute stored => ?_⟩
    · simpa [Finished, orders, disputes] using finished
    · exact ⟨dispute, disputes ▸ stored, rfl⟩
  payouts key payout stored := ⟨payout, payouts ▸ stored, rfl⟩

/-- Changing one order so that it stays finished. -/
theorem Calm.saveOrder
    {db : Db} {id : OrderId} {set : Order → Order}
    (finished : Finished id db →
      Finished id ((Stmt.saveOrder id set).apply db)) :
    Calm db ((Stmt.saveOrder id set).apply db) where
  later := by
    refine ⟨fun other before => ?_, fun _ dispute stored =>
      ⟨dispute, stored, rfl⟩⟩
    by_cases same : other = id
    · exact same ▸ finished (same ▸ before)
    · obtain ⟨order, stored, status⟩ := before
      exact ⟨order, by simp [Stmt.apply, same, stored], status⟩
  payouts key payout stored := ⟨payout, stored, rfl⟩

/-- Effects that leave finished orders so and create no payout. -/
def calm : Effect Stmt → Prop
  | .write (.insertPayout _ _) => False
  | .write (.savePayout _ set) => ∀ stored, (set stored).order = stored.order
  | .write (.saveOrder _ set) => ∀ stored,
      (set stored).status = stored.status ∨ (set stored).status ∈ finishedStatuses
  | .write (.saveDispute _ _ set) => ∀ stored,
      (set stored).priorOrderStatus = stored.priorOrderStatus
  | .write _ => True
  | .savepoint => False

theorem calm_apply
    {stmt : Stmt} (fine : calm (.write stmt)) (db : Db) :
    Calm db (stmt.apply db) := by
  cases stmt with
  | insertPayout key value => exact fine.elim
  | savePayout key set =>
      refine ⟨⟨fun _ finished => finished, fun _ dispute stored =>
        ⟨dispute, stored, rfl⟩⟩, fun other payout stored => ?_⟩
      rcases Table.row_modify_cases stored with ⟨_, old⟩ | ⟨rfl, old, before, rfl⟩
      · exact ⟨payout, old, rfl⟩
      · exact ⟨old, before, (fine old).symm⟩
  | saveOrder id set =>
      refine .saveOrder fun finished => ?_
      obtain ⟨order, stored, status⟩ := finished
      refine ⟨set order, by simp [Stmt.apply, stored], ?_⟩
      rcases fine order with same | done
      · rw [same]
        exact status
      · exact .inl done
  | insertOrder id value =>
      refine ⟨⟨fun other finished => ?_, fun _ dispute stored =>
        ⟨dispute, stored, rfl⟩⟩, fun _ payout stored => ⟨payout, stored, rfl⟩⟩
      obtain ⟨order, stored, status⟩ := finished
      exact ⟨order, Table.row_insert_of_some id value stored, status⟩
  | insertDispute id value =>
      refine ⟨⟨fun other finished => ?_, fun other dispute stored =>
        ⟨dispute, Table.row_insert_of_some id value stored, rfl⟩⟩,
        fun _ payout stored => ⟨payout, stored, rfl⟩⟩
      obtain ⟨order, stored, status⟩ := finished
      refine ⟨order, stored, status.imp_right fun frozen => ?_⟩
      obtain ⟨disputed, dispute, found, prior⟩ := frozen
      exact ⟨disputed, dispute, Table.row_insert_of_some id value found, prior⟩
  | saveDispute id loaded set =>
      have kept : ∀ other dispute, db.disputes.row other = some dispute →
          ∃ later, (db.disputes.modify id set).row other = some later ∧
            later.priorOrderStatus = dispute.priorOrderStatus := by
        intro other dispute stored
        by_cases same : other = id
        · exact ⟨set dispute, by simp [same, same ▸ stored], fine dispute⟩
        · exact ⟨dispute, by simp [same, stored], rfl⟩
      refine ⟨⟨fun other finished => ?_, kept⟩,
        fun _ payout stored => ⟨payout, stored, rfl⟩⟩
      obtain ⟨order, stored, status⟩ := finished
      refine ⟨order, stored, status.imp_right fun frozen => ?_⟩
      obtain ⟨disputed, dispute, found, prior⟩ := frozen
      obtain ⟨later, after, same⟩ := kept other dispute found
      exact ⟨disputed, later, after, same ▸ prior⟩
  | _ => exact .of_same rfl rfl rfl

theorem calm_applyAll
    {stmts : List Stmt} (fine : ∀ stmt ∈ stmts, calm (.write stmt)) (db : Db) :
    Calm db (applyAll stmts db) :=
  applyAll_keeps (Calm db)
    (fun stmt member current before =>
      before.trans (calm_apply (fine stmt member) current)) (.refl db)

/-! ## Payouts of finished orders -/

/-- An order has at most one payout, and only when it is finished. -/
structure PaysOnce (db : Db) : Prop where
  single : ∀ first second payout other, db.payouts.row first = some payout →
    db.payouts.row second = some other → payout.order = other.order →
    first = second
  finished : ∀ key payout, db.payouts.row key = some payout →
    Finished payout.order db

/-- A new payout is of an order without an open dispute. -/
def Undisputed (before after : Db) : Prop :=
  ∀ key payout, after.payouts.row key = some payout →
    before.payouts.row key = none →
    ∃ order, before.orders.row payout.order = some order ∧
      order.hasOpenDispute = false

/-- Some payout of the order exists. -/
def hasPayout (id : OrderId) (db : Db) : Bool :=
  db.payouts.any fun _ payout => payout.order = id

/-- A commit that only schedules a payout finds no payout and no dispute. -/
def SweepsClear : List Stmt → Db → Prop
  | [.insertPayout _ payout], db =>
      hasPayout payout.order db = false ∧
        (db.orders.row payout.order).any (·.hasOpenDispute) = false
  | _, _ => True

instance (stmts : List Stmt) (db : Db) : Decidable (SweepsClear stmts db) := by
  unfold SweepsClear
  split <;> infer_instance

/-- What a commit may do, from a first look that is not too new. -/
def Pays (seen : Db) (stmts : List Stmt) (db : Db) : Prop :=
  Later seen db → PaysOnce db → SweepsClear stmts db →
    Later db (applyAll stmts db) ∧ PaysOnce (applyAll stmts db) ∧
      Undisputed db (applyAll stmts db)

theorem PaysOnce.of_calm
    {before after : Db} (once : PaysOnce before) (calm : Calm before after) :
    PaysOnce after where
  single first second payout other stored found same := by
    obtain ⟨old, before, about⟩ := calm.payouts first payout stored
    obtain ⟨earlier, present, about'⟩ := calm.payouts second other found
    exact once.single first second old earlier before present
      (about.trans (same.trans about'.symm))
  finished key payout stored := by
    obtain ⟨old, before, about⟩ := calm.payouts key payout stored
    exact about ▸ calm.later.finished _ (once.finished key old before)

theorem Pays.of_calm
    {seen db : Db} {stmts : List Stmt} (calm : Calm db (applyAll stmts db)) :
    Pays seen stmts db := by
  refine fun _ once _ => ⟨calm.later, once.of_calm calm, ?_⟩
  intro key payout stored none
  obtain ⟨old, before, _⟩ := calm.payouts key payout stored
  simp [none] at before

/-- Scheduling the first payout of a finished order. -/
theorem PaysOnce.schedule
    {before middle : Db} {key : PayoutId} {value : Payout} {order : Order}
    (once : PaysOnce before) (calm : Calm before middle)
    (none : hasPayout value.order before = false)
    (finished : Finished value.order middle)
    (stored : before.orders.row value.order = some order)
    (clear : order.hasOpenDispute = false) :
    Later before ((Stmt.insertPayout key value).apply middle) ∧
      PaysOnce ((Stmt.insertPayout key value).apply middle) ∧
      Undisputed before ((Stmt.insertPayout key value).apply middle) := by
  have kept := once.of_calm calm
  have first : ∀ other payout, middle.payouts.row other = some payout →
      payout.order ≠ value.order := by
    intro other payout found same
    obtain ⟨old, present, about⟩ := calm.payouts other payout found
    have some : hasPayout value.order before = true :=
      Table.any_eq_true.mpr ⟨other, old, present, by simp [about, same]⟩
    simp [none] at some
  refine ⟨calm.later.trans before middle _ ⟨fun _ done => done,
      fun _ dispute present => ⟨dispute, present, rfl⟩⟩, ⟨?_, ?_⟩, ?_⟩
  · intro one two payout other found present same
    rcases Table.row_insert_cases found with old | ⟨rfl, rfl, _⟩ <;>
      rcases Table.row_insert_cases present with old' | ⟨rfl, rfl, _⟩
    · exact kept.single one two payout other old old' same
    · exact absurd same (first one payout old)
    · exact absurd same.symm (first two other old')
    · rfl
  · intro other payout found
    rcases Table.row_insert_cases found with old | ⟨rfl, rfl, _⟩
    · exact kept.finished other payout old
    · exact finished
  · intro other payout found absent
    rcases Table.row_insert_cases found with old | ⟨rfl, rfl, _⟩
    · obtain ⟨earlier, present, _⟩ := calm.payouts other payout old
      simp [absent] at present
    · exact ⟨order, stored, clear⟩

namespace Payments

/-- What scheduling a payout writes: nothing, or one payout of the order. -/
theorem schedulePayout_wp
    {protocol : Protocol Db Row Stmt} {env : Env} {id : OrderId} {order : Order}
    {ctx : Ctx Db Row Stmt}
    {goal : Except Error (Option PayoutId) → Ctx Db Row Stmt → Prop}
    (errors : ∀ error later, goal (.error error) later)
    (none : ∀ value later, later.writes = ctx.writes →
      (∀ state, later.known state → ctx.known state) → goal (.ok value) later)
    (created : ∀ payout later, order.status = .completed →
      order.hasOpenDispute = false → payout.order = id →
      later.writes = ctx.writes ++ [.insertPayout env.key payout] →
      (∀ state, later.known state → ctx.known state) →
      goal (.ok (some env.key)) later) :
    (schedulePayout env id order).wp protocol ctx goal := by
  simp only [schedulePayout, Tx.create, Prog.wp_bind, Prog.wp_require,
    Prog.wp_read, Prog.wp_ite, Prog.wp_lockRow, Prog.wp_exec, Prog.wp_pure,
    errors, implies_true, and_true]
  intro completed first _ _
  refine ⟨fun _ => none _ _ rfl fun _ known => known.1, fun _ =>
    ⟨fun _ => none _ _ rfl fun _ known => known.1, fun clear _ _ _ _ _ _ => ?_⟩⟩
  refine ⟨fun _ => none _ _ rfl fun _ known => known.1.1.1, fun _ _ _ _ _ => ?_⟩
  refine created _ _ completed (by simpa using clear) rfl rfl fun _ known => ?_
  simp only [Ctx.push_known, Ctx.observe_known, Ctx.take_known] at known
  exact known.1.1.1.1

/-- A sweep pays orders that it has seen completed. -/
theorem payoutSweeper_looks (env : Env) :
    Proc.Looks rowLocks Pays (payoutSweeper env) := by
  intro seen
  refine Request.wp_mono (Request.wp_forEach fun item member => ?_)
    fun _ _ _ => trivial
  obtain ⟨⟨id, order⟩, index⟩ := item
  have listed : seen.orders.row id = some order := by
    obtain ⟨other, _, found⟩ :=
      List.mem_filterMap.mp (List.fst_mem_of_mem_zipIdx member)
    obtain ⟨row, stored, same⟩ := Option.map_eq_some_iff.mp found
    obtain ⟨rfl, rfl⟩ := Prod.mk.inj same
    exact stored
  refine Request.wp_bind.mpr (Request.wp_atomic.mpr ?_)
  refine schedulePayout_wp (fun _ _ => rfl) (fun value later writes _ => ?_)
    (fun payout later completed _ about writes _ => ?_)
  · refine ⟨rowLocks_commit fun state _ => ?_, rfl⟩
    rw [writes]
    exact .of_calm (.refl state)
  · refine ⟨rowLocks_commit fun state _ => ?_, rfl⟩
    intro grown once clear
    rw [writes] at clear ⊢
    subst about
    have finished : Finished payout.order state := grown.finished _
      ⟨order, listed, .inl (by simp [finishedStatuses, completed])⟩
    have present : ∃ current, state.orders.row payout.order = some current :=
      finished.imp fun _ row => row.1
    obtain ⟨current, stored⟩ := present
    refine once.schedule (.refl state) clear.1 finished stored ?_
    simpa [stored] using clear.2

end Payments

namespace Orders

/-- Effects on deliveries, and on orders except for status and flag. -/
def workOnly : Effect Stmt → Prop
  | .write (.saveDelivery _ _) => True
  | .write (.saveOrder _ set) => ∀ stored,
      (set stored).status = stored.status ∧
        (set stored).hasOpenDispute = stored.hasOpenDispute
  | _ => False

theorem calm_of_workOnly {stmt : Stmt} (fine : workOnly (.write stmt)) :
    calm (.write stmt) := by
  cases stmt with
  | saveOrder id set => exact fun stored => .inl (fine stored).1
  | saveDelivery key set => trivial
  | _ => exact fine.elim

/-- Such work keeps an order and its flag. -/
theorem row_of_workOnly
    {stmts : List Stmt} (fine : ∀ stmt ∈ stmts, workOnly (.write stmt))
    {db : Db} {id : OrderId} {order : Order}
    (stored : db.orders.row id = some order) :
    ∃ current, (applyAll stmts db).orders.row id = some current ∧
      current.hasOpenDispute = order.hasOpenDispute := by
  refine applyAll_keeps (fun now : Db => ∃ current,
    now.orders.row id = some current ∧
      current.hasOpenDispute = order.hasOpenDispute)
    (fun stmt member now before => ?_) ⟨order, stored, rfl⟩
  obtain ⟨row, present, same⟩ := before
  have good := fine stmt member
  cases stmt with
  | saveOrder key set =>
      by_cases target : id = key
      · subst target
        exact ⟨set row, by simp [Stmt.apply, present], (good row).2.trans same⟩
      · exact ⟨row, by simp [Stmt.apply, target, present], same⟩
  | saveDelivery key set => exact ⟨row, present, same⟩
  | _ => exact good.elim

/-- The approval has completed the order that it holds. -/
structure Completed
    (id : OrderId) (order : Order) (ctx : Ctx Db Row Stmt) : Prop where
  calm : ∀ stmt ∈ ctx.writes, calm (.write stmt)
  stored : ∀ state, ctx.known state → state.orders.row id = some order
  finished : ∀ state, ctx.known state → Finished id (applyAll ctx.writes state)

theorem Completed.of_extends
    {id : OrderId} {order : Order} {base later : Ctx Db Row Stmt}
    (completed : Completed id order base)
    (grown : base.Extends (fun stmt => KnowledgeMarketplace.calm (.write stmt)) later) :
    Completed id order later := by
  obtain ⟨extra, writes, all⟩ := grown.writes
  refine ⟨?_, fun state known => completed.stored state (grown.known state known),
    fun state known => ?_⟩
  · intro stmt member
    rw [writes] at member
    rcases List.mem_append.mp member with early | late
    · exact completed.calm stmt early
    · exact all stmt late
  · rw [writes, applyAll_append]
    exact (calm_applyAll all _).later.finished id
      (completed.finished state (grown.known state known))

/-- Completing the locked order after such work. -/
theorem Completed.complete
    {id : OrderId} {order : Order} (base : Ctx Db Row Stmt)
    (work : ∀ stmt ∈ base.writes, workOnly (.write stmt))
    (stored : ∀ state, base.known state → state.orders.row id = some order) :
    Completed id order
      (base.push (.saveOrder id fun stored =>
        { stored with status := .completed })) where
  calm stmt member := by
    rcases List.mem_append.mp member with early | last
    · exact calm_of_workOnly (work stmt early)
    · rw [List.mem_singleton.mp last]
      exact fun _ => .inr (by simp [finishedStatuses])
  stored state known := stored state known
  finished state known := by
    obtain ⟨current, found, _⟩ := row_of_workOnly work (stored state known)
    exact ⟨{ current with status := .completed },
      by simp [Stmt.apply, found], .inl (by simp [finishedStatuses])⟩

/-- The commit of an approval pays an order that was delivered until then. -/
theorem Completed.pays
    {id : OrderId} {order : Order} {ctx : Ctx Db Row Stmt} (seen : Db)
    (completed : Completed id order ctx) (delivered : order.status = .delivered)
    (env : Env) (copy : Order)
    (flag : copy.hasOpenDispute = order.hasOpenDispute) :
    (Payments.schedulePayout env id copy).wp rowLocks ctx
      (Ctx.Finishes rowLocks (Pays seen)) := by
  refine Payments.schedulePayout_wp (fun _ _ => trivial)
    (fun value later writes known => rowLocks_commit fun state holds => ?_)
    (fun payout later _ clear about writes known =>
      rowLocks_commit fun state holds => ?_)
  · rw [writes]
    exact .of_calm (calm_applyAll completed.calm state)
  · intro _ once _
    have stored := completed.stored state (known state holds)
    -- a delivered order is not finished, so nothing was paid out for it
    have none : hasPayout payout.order state = false := by
      rw [Bool.eq_false_iff]
      intro some
      obtain ⟨key, other, found, same⟩ := Table.any_eq_true.mp some
      obtain ⟨row, present, status⟩ := once.finished key other found
      rw [of_decide_eq_true same, about, stored] at present
      obtain rfl := Option.some.inj present
      simp [delivered, finishedStatuses] at status
    rw [writes, applyAll_append]
    exact once.schedule (calm_applyAll completed.calm state) none
      (about ▸ completed.finished state (known state holds))
      (about ▸ stored) (flag ▸ clear)

/-- An approval pays an order that was never finished before. -/
theorem approveDelivery_wp
    (env : Env) (id : OrderId) (actor : Option Actor) (source : ApprovalSource)
    (seen : Db) :
    (approveDelivery env id actor source).wp rowLocks .start
      (Ctx.Finishes rowLocks (Pays seen)) := by
  simp only [approveDelivery, getForUpdate, Tx.getForUpdate, Tx.get,
    Prog.wp_bind, Prog.wp_lockRow, Prog.wp_read, Prog.wp_orFail,
    Prog.wp_ofExcept, Prog.wp_require, Ctx.start_writes, Ctx.take_writes,
    applyAll_nil, Ctx.finishes_error, implies_true, and_true]
  intro first _ _ order stored _ _ delivered _ _ _
  refine Prog.wp_of_emits (show Prog.Emits workOnly (fun _ => True) _ by
    simp [workOnly]) (by simp [workOnly]) ?_
  rintro (error | value) worked _ grown
  · trivial
  obtain ⟨deliveries, writes, all⟩ := grown.writes
  simp only [transition, recordEvent, getForUpdate, Tx.getForUpdate, Tx.get,
    Prog.wp_bind, Prog.wp_lockRow, Prog.wp_read, Prog.wp_orFail,
    Prog.wp_require, Prog.wp_exec, Prog.wp_pure, implies_true, and_true]
  intro third _ again current found edge
  have work : ∀ stmt ∈ worked.writes ++ [.saveOrder id fun stored =>
      { stored with completedAt := some env.now, autoApproveAt := none }],
      workOnly (.write stmt) := by
    intro stmt member
    rcases List.mem_append.mp member with early | last
    · rw [writes] at early
      exact all stmt (by simpa using early)
    · rw [List.mem_singleton.mp last]
      exact fun _ => ⟨rfl, rfl⟩
  have row : ∀ state, worked.known state → state.orders.row id = some order := by
    intro state holds
    have before := grown.known state holds
    simp only [Ctx.observe_known, Ctx.take_known] at before
    have same : first.orders.row id = state.orders.row id :=
      before.1.2 (.order id) (by simp)
    exact same.symm.trans stored
  obtain ⟨later, present, flag⟩ := row_of_workOnly work (row third again)
  obtain rfl := Option.some.inj (found.symm.trans present)
  refine Prog.wp_of_emits (show Prog.Emits calm (fun _ => True) _ by
    simp [moveRequest, ServiceRequests.transition, Tx.get, calm])
    (by simp [calm]) ?_
  rintro (error | value) moved _ extends'
  · trivial
  have completed := Completed.complete
    (Ctx.observe rowLocks ((worked.push _).take (.order id)) third) work
    fun state holds => row state holds.1
  have carried := (Ctx.Extends.push trivial).trans
    ((Ctx.Extends.push trivial).trans extends')
  have pays := (completed.of_extends carried).pays seen delivered env
    { current with status := .completed } flag
  refine Prog.wp_mono pays ?_
  rintro (error | value) later allowed
  · trivial
  · exact allowed

end Orders

namespace Disputes

/-- An order that was not cancelled stays finished when it gets disputed. -/
theorem calm_disputed
    {id : OrderId} {order : Order} {dispute : Dispute} {flags : List Stmt}
    {event : OrderEvent} {db : Db}
    (stored : db.orders.row id = some order)
    (none : db.disputes.row id = none)
    (prior : dispute.priorOrderStatus = order.status)
    (disputable : order.status = .completed ∨ order.status ∈ disputableStatuses)
    (frozen : flags = [] ∨ flags = [.saveOrder id fun stored =>
      { stored with hasOpenDispute := true }]) :
    Calm db (applyAll ([.insertDispute id dispute] ++ flags ++
      [.saveOrder id fun stored => { stored with status := .disputed },
        .recordEvent event]) db) := by
  have opened : ∀ stmt ∈ [Stmt.insertDispute id dispute] ++ flags,
      calm (.write stmt) := by
    rcases frozen with rfl | rfl <;> simp [calm]
  have row : ∃ flag, (applyAll ([Stmt.insertDispute id dispute] ++ flags)
      db).orders.row id = some { order with hasOpenDispute := flag } := by
    rcases frozen with rfl | rfl
    · exact ⟨order.hasOpenDispute, stored⟩
    · exact ⟨true, by simp [Stmt.apply, stored]⟩
  have found : (applyAll ([Stmt.insertDispute id dispute] ++ flags)
      db).disputes.row id = some dispute := by
    have inserted := Table.row_insert_self dispute none
    rcases frozen with rfl | rfl <;> exact inserted
  obtain ⟨flag, row⟩ := row
  have recorded : calm (.write (.recordEvent event)) := trivial
  rw [applyAll_append]
  refine (calm_applyAll opened db).trans ((Calm.saveOrder fun before => ?_).trans
    (calm_apply recorded _))
  obtain ⟨current, present, status⟩ := before
  obtain rfl := Option.some.inj (row.symm.trans present)
  refine ⟨{ order with hasOpenDispute := flag, status := .disputed },
    by simp only [Stmt.apply, Table.row_modify_self, row, Option.map_some],
    .inr ⟨rfl, dispute, found, ?_⟩⟩
  rw [prior]
  rcases disputable with completed | listed
  · simp [completed, finishedStatuses]
  · rcases status with done | ⟨disputed, _⟩
    · exact List.mem_cons_of_mem _ done
    · exact List.mem_cons.mpr (.inl disputed)

/-- Opening a dispute creates no payout. -/
theorem openDispute_calm
    (env : Env) (id : OrderId) (actor : Actor) (reason : DisputeReason)
    (description : String) (evidence : Except Error Unit) (seen : Db) :
    (openDispute env id actor reason description evidence).wp rowLocks .start
      (Ctx.Finishes rowLocks (Pays seen)) := by
  refine openDispute_opens (fun _ _ => trivial) fun order later opens => ?_
  obtain ⟨dispute, flags, prior, _, frozen, writes⟩ := opens.writes
  refine rowLocks_commit fun state known => ?_
  rw [writes]
  exact .of_calm (calm_disputed (opens.held state known)
    (opens.first state known) prior opens.disputable frozen)

theorem calm_of_clearing
    {id : OrderId} {stmt : Stmt} (clears : clearing id (.write stmt)) :
    calm (.write stmt) := by
  cases stmt with
  | saveOrder key set =>
      intro stored
      rw [clears.2 stored]
      exact .inl rfl
  | savePayout key set => exact clears
  | updatePayment | savePayment | insertPayment | insertRefund | saveRefund
  | appendLedger => trivial
  | _ => simp [clearing, Stmt.table] at clears

/-- An order that is finished stays so when its dispute is resolved. -/
theorem calm_closed
    {id : OrderId} {order : Order} {dispute : Dispute}
    {outcome : DisputeOutcome} {stmts : List Stmt} {db : Db} {flag : Bool}
    (moves : OrderMoves id order (newStatus dispute outcome) outcome stmts)
    (stored : db.orders.row id = some { order with hasOpenDispute := flag })
    (prior : ∃ later, db.disputes.row id = some later ∧
      later.priorOrderStatus = dispute.priorOrderStatus) :
    Calm db (applyAll stmts db) := by
  have recorded : ∀ event, calm (.write (.recordEvent event)) :=
    fun _ => trivial
  cases moves with
  | stays _ => exact calm_apply (recorded _) db
  | moves edge =>
      refine (Calm.saveOrder fun before => ?_).trans (calm_apply (recorded _) _)
      refine ⟨{ order with
          hasOpenDispute := flag, status := newStatus dispute outcome },
        by simp only [Stmt.apply, Table.row_modify_self, stored, Option.map_some],
        ?_⟩
      obtain ⟨current, present, status⟩ := before
      obtain rfl := Option.some.inj (stored.symm.trans present)
      obtain ⟨later, found, same⟩ := prior
      have target : newStatus dispute outcome ∈ finishedStatuses ∨
          newStatus dispute outcome = later.priorOrderStatus := by
        cases outcome <;> simp [newStatus, finishedStatuses, same]
      rcases target with finished | restored
      · exact .inl finished
      rw [restored] at edge ⊢
      rcases status with done | ⟨disputed, other, present, listed⟩
      · have back := disputed_of_finished done edge
        exact .inr ⟨back, later, found, by simp [back]⟩
      · obtain rfl := Option.some.inj (found.symm.trans present)
        rcases List.mem_cons.mp listed with same | done
        · have status : order.status = .disputed := disputed
          simp [same, status, Orders.transitions] at edge
        · exact .inl done

/-- Resolving a dispute creates no payout. -/
theorem resolve_calm
    (env : Env) (id : OrderId) (actor : Option Actor)
    (outcome : DisputeOutcome) (notes : String)
    (refundAmountMinor : Option Int) {seen : Db} {copy : Dispute}
    (found : seen.disputes.row id = some copy) :
    (resolve env id copy actor outcome notes refundAmountMinor).wp rowLocks
      .start (Ctx.Finishes rowLocks (Pays seen)) := by
  refine resolve_closes (fun _ _ => trivial) fun order later closes => ?_
  obtain ⟨cleared, moved, set, clears, moves, kept, writes⟩ := closes.writes
  refine rowLocks_commit fun state known grown once clear => ?_
  have early := calm_applyAll (fun stmt member =>
    calm_of_clearing (clears stmt member)) state
  obtain ⟨flag, row⟩ := row_of_clearing clears (closes.held state known)
  have prior := (grown.trans _ _ _ early.later).prior id copy found
  have saved : ∀ stmt ∈ [Stmt.saveDispute id copy.status set],
      calm (.write stmt) := by
    intro stmt member
    rw [List.mem_singleton.mp member]
    exact fun stored => (kept stored).2
  have late := (calm_closed moves row prior).trans (calm_applyAll saved _)
  refine Pays.of_calm ?_ grown once clear
  rw [writes, applyAll_append, applyAll_append]
  exact early.trans late

end Disputes

/-! ## Runs -/

/-- Approvals, sweeps of payouts, and opening and resolving disputes. -/
def Operation.PaysOrDisputes : Operation → Prop
  | .order (.approveDelivery _ _ _ _) => True
  | .payment (.payoutSweeper _) => True
  | .dispute (.openDispute _ _ _ _ _ _) => True
  | .dispute (.resolve _ _ _ _ _ _) => True
  | _ => False

/-- What such an operation has seen bounds what it commits. -/
theorem Operation.PaysOrDisputes.looks
    {operation : Operation} (among : operation.PaysOrDisputes) :
    operation.call.Looks rowLocks Pays := by
  rcases operation with _ | _ | _ | call | call | call <;>
    try exact among.elim
  · cases call with
    | approveDelivery env id actor source =>
        exact Proc.looks_of_safe (fun seen => Call.perform_safe
          (Orders.approveDelivery_wp env id actor source seen)) nofun
    | _ => exact among.elim
  · cases call with
    | payoutSweeper env => exact Payments.payoutSweeper_looks env
    | _ => exact among.elim
  · cases call with
    | openDispute env id actor reason description evidence =>
        exact Proc.looks_of_safe (fun seen => Call.perform_safe
          (Disputes.openDispute_calm env id actor reason description evidence
            seen)) nofun
    | resolve env id actor outcome notes refundAmountMinor =>
        exact Call.performOn_looks fun seen copy found =>
          Disputes.resolve_calm env id actor outcome notes refundAmountMinor
            found
    | _ => exact among.elim

/--
Unless a sweep schedules an order that got a payout or a dispute after the sweep
read its list, no order has two payouts and none gets one during a dispute.
-/
theorem payout_once
    {db : Db} {operations : Nat → Operation} {system : Marketplace}
    (among : ∀ client, (operations client).PaysOrDisputes)
    (start : PaysOnce db)
    (reach : System.Reach SweepsClear (Marketplace.start db operations) system) :
    PaysOnce system.committed ∧
      ∀ client stmts,
        system.committing (.run client : Turn) = some stmts →
        SweepsClear stmts system.committed →
        Undisputed system.committed (applyAll stmts system.committed) := by
  obtain ⟨⟨seen, informed⟩, once⟩ := reach.informed Later.refl Later.trans
    (fun _ _ _ => trivial) trivial (fun client => (among client).looks)
    (fun _ look stmts state clear past pays once =>
      have paid := pays past once clear
      ⟨paid.1, paid.2.1⟩) start
  refine ⟨once, fun client stmts commits clear => ?_⟩
  obtain ⟨look, past, pays⟩ := informed.guaranteed (fun _ _ => trivial) commits
  exact (pays past once clear).2.2

/-- A completed and paid order that nothing was scheduled for. -/
def payable : Db :=
  { requests := .insert .empty 10 { student := 1, status := .completed }
    orders := .insert .empty 40
      { request := 10
        student := 1
        expert := 2
        source := .openBid
        amount := 5000
        commissionAmount := 750
        expertAmount := 4250
        status := .completed
        completedAt := some 5
        createdAt := 0 }
    payments := .insert .empty 40
      { gateway := .manual
        providerReference := some "manual-pay-1"
        amountMinor := 5000
        status := .succeeded }
    ledger :=
      [{ entryType := .expertCredit, amountMinor := 4250, order := 40 }] }

/-- Two sweeps, a dispute and an approval of the completed order. -/
def sweepers : Nat → Operation
  | 0 => .payment (.payoutSweeper { now := 6, key := 60 })
  | 1 => .payment (.payoutSweeper { now := 6, key := 61 })
  | 2 => .dispute (.openDispute { now := 6 } 40 ⟨1, false⟩
      .qualityBelowExpectations "The report misses two chapters." (.ok ()))
  | _ => .order (.approveDelivery { now := 6, key := 62 } 40 (some ⟨1, false⟩)
      .student)

theorem paysOnce_payable : PaysOnce payable where
  single _ _ _ _ none := nomatch none
  finished _ _ none := nomatch none

/-- The first sweep has found no payout; it commits after the second one. -/
def sweptMeanwhile : List Turn :=
  turns 0 7 ++ turns 1 20 ++ turns 0 10

/-- The first sweep is about to commit when the dispute opens. -/
def disputedMeanwhile : List Turn :=
  turns 0 7 ++ turns 2 20

/-- Both sweeps pay, and a sweep pays during the dispute. -/
theorem payoutSweeper_pays_twice :
    let twice := (Marketplace.start payable sweepers).runAll sweptMeanwhile
    let disputed := (Marketplace.start payable sweepers).runAll
      disputedMeanwhile
    ¬PaysOnce twice.committed ∧
      ∃ stmts, disputed.committing (.run 0 : Turn) = some stmts ∧
        ¬Undisputed disputed.committed (applyAll stmts disputed.committed) := by
  intro twice disputed
  refine ⟨fun once => ?_, ?_⟩
  · have first : (twice.committed.payouts.row 60).map Payout.order = some 40 := by
      decide +kernel
    have second : (twice.committed.payouts.row 61).map Payout.order = some 40 := by
      decide +kernel
    obtain ⟨payout, stored, about⟩ := Option.map_eq_some_iff.mp first
    obtain ⟨other, found, same⟩ := Option.map_eq_some_iff.mp second
    exact absurd (once.single 60 61 payout other stored found
      (about.trans same.symm)) (by decide)
  · have pays : (disputed.committing (.run 0 : Turn)).any fun stmts =>
        ((applyAll stmts disputed.committed).payouts.row 60).map Payout.order =
          some 40 := by
      decide +kernel
    obtain ⟨stmts, commits, paid⟩ := Option.any_eq_true _ _ |>.mp pays
    refine ⟨stmts, commits, fun undisputed => ?_⟩
    have frozen : (disputed.committed.orders.row 40).map Order.hasOpenDispute =
        some true := by
      decide +kernel
    obtain ⟨payout, stored, about⟩ :=
      Option.map_eq_some_iff.mp (of_decide_eq_true paid)
    obtain ⟨order, found, clear⟩ := undisputed 60 payout stored
      (by decide +kernel)
    rw [about] at found
    rw [found] at frozen
    simp [clear] at frozen

/-- One sweep after the other, and a dispute of the paid order. -/
def sweepsInTurn : List Turn :=
  turns 0 20 ++ turns 1 20 ++ turns 2 20 ++ turns 3 20

/-- One after the other, the sweeps create one payout. -/
theorem payout_once_in_turn :
    let system := (Marketplace.start payable sweepers).runAll sweepsInTurn
    PaysOnce system.committed ∧
      ∀ client stmts,
        system.committing (.run client : Turn) = some stmts →
        SweepsClear stmts system.committed →
        Undisputed system.committed (applyAll stmts system.committed) := by
  refine payout_once (fun client => ?_) paysOnce_payable
    (System.reach_of_admitsAll .refl (by decide +kernel))
  rcases client with _ | _ | _ | _ <;> exact trivial

end KnowledgeMarketplace
