import KnowledgeMarketplace.Orders.DeliveryHistory
import KnowledgeMarketplace.Orders.TimelineRuns

/-!
# Delivering, revising and approving

While an order is locked, nobody else writes its deliveries; so what a service
has read of them still holds when it commits, and the commit is one step of the
revision loop.
-/

namespace KnowledgeMarketplace

open Transaction

namespace Orders

/-- Row locks, where the lock of an order covers its deliveries as well. -/
def deliveryLocks : Protocol Db Row Stmt where
  Inv _ := True
  Same row first second := SameRow row first second ∧
    ∀ id, row = .order id → filed id first = filed id second
  Condition _ _ := True
  same_refl row db := ⟨sameRow_refl row db, fun _ _ => rfl⟩
  same_trans row first second third early late :=
    ⟨sameRow_trans row first second third early.1 late.1,
      fun id same => (early.2 id same).trans (late.2 id same)⟩

theorem deliveryLocks_order
    (id : OrderId) (first second : Db)
    (same : deliveryLocks.Same (.order id) first second) :
    first.orders.row id = second.orders.row id :=
  same.1

/-- A commit writes deliveries of locked orders only. -/
theorem deliveryLocks_commit
    {guarantee : List Stmt → Db → Prop} {ctx : Ctx Db Row Stmt}
    (met : ∀ state, ctx.known state → guarantee ctx.writes state ∧
      ∀ id, ¬ctx.held (.order id) →
        filed id (applyAll ctx.writes state) = filed id state) :
    ctx.CommitOk deliveryLocks guarantee :=
  fun state _ known _ rows => ⟨trivial, (met state known).1, fun row free =>
    ⟨rowLocks_frame state row fun inside => free (rows row inside),
      fun id same => ((met state known).2 id (same ▸ free)).symm⟩⟩

/-- The order that a statement records as restored without fault. -/
def restored : Stmt → Option OrderId
  | .recordEvent event =>
      if event.data = .nestedOutcome .noFaultClose then some event.order
      else none
  | _ => none

/-- Only disputed orders are restored. -/
def RestoresDisputed (stmts : List Stmt) (db : Db) : Prop :=
  ∀ stmt ∈ stmts, ∀ id ∈ restored stmt,
    (db.orders.row id).any (·.status = .disputed) = true

/-- The commit keeps the loops sound. -/
def Advancing (stmts : List Stmt) (db : Db) : Prop :=
  Advances db (applyAll stmts db)

/-- The commit keeps the loops sound, given what was seen of the disputes. -/
def Continues (seen : Db) (stmts : List Stmt) (db : Db) : Prop :=
  RestoresDisputed stmts db → KeepsPriors seen db → Advancing stmts db

/-! ## Services that end loops, or leave them alone -/

/-- The order ends, and its counters stay. -/
@[mk_iff] structure EndsLoop (set : Order → Order) : Prop where
  status : (∀ stored, (set stored).status = .completed) ∨
    ∀ stored, (set stored).status = .cancelled
  used : ∀ stored, (set stored).revisionsUsed = stored.revisionsUsed
  allowed : ∀ stored, (set stored).revisionsAllowed = stored.revisionsAllowed

/-- Effects that end loops or leave them alone. -/
def winding : Effect Stmt → Prop
  | .write (.saveOrder _ set) => KeepsLoop set ∨ EndsLoop set
  | effect => steady effect

/-- Ending an order is a step of its loop. -/
theorem advances_of_ends
    {set : Order → Order} (ends : EndsLoop set) (id : OrderId) (db : Db) :
    Advances db ((Stmt.saveOrder id set).apply db) := by
  have others : ∀ other, other ≠ id →
      SameLoop other db ((Stmt.saveOrder id set).apply db) := fun other different =>
    ⟨by rw [loopOf_saveOrder, if_neg different], rfl⟩
  rcases stored : db.orders.row id with _ | order
  · refine advances_of_same (.refl db) fun other => ?_
    by_cases same : other = id
    · subst same
      exact ⟨by rw [loopOf_saveOrder]; simp [loopOf, stored], rfl⟩
    · exact others other same
  · let loop := Order.loop order (priorOf id db) (filed id db)
    have before : loopOf id db = some loop := by simp [loopOf, stored, loop]
    have after : loopOf id ((Stmt.saveOrder id set).apply db) =
        some { loop with status := (set order).status } := by
      rw [loopOf_saveOrder]
      simp [stored, loop, Order.loop, ends.used, ends.allowed]
    refine advances_of_step (.refl db) others before after (.finish ?_ rfl)
    exact ends.status.imp (· order) (· order)

theorem advances_of_winding
    {stmts : List Stmt} (all : ∀ stmt ∈ stmts, winding (.write stmt)) (db : Db) :
    Advances db (applyAll stmts db) ∧
      ∀ id, filed id (applyAll stmts db) = filed id db := by
  refine applyAll_keeps (fun after => Advances db after ∧
    ∀ id, filed id after = filed id db) (fun stmt member current kept => ?_)
    ⟨.refl db, fun _ => rfl⟩
  have fine := all stmt member
  have calm : steady (.write stmt) → Advances current (stmt.apply current) ∧
      ∀ id, filed id (stmt.apply current) = filed id current := fun calm =>
    ⟨advances_of_same (steady_priors calm current) fun id =>
      steady_same calm id current, fun id => (steady_same calm id current).filed⟩
  suffices step : Advances current (stmt.apply current) ∧
      ∀ id, filed id (stmt.apply current) = filed id current from
    ⟨kept.1.trans step.1, fun id => (step.2 id).trans (kept.2 id)⟩
  cases stmt with
  | saveOrder id set =>
      rcases fine with keeps | ends
      · exact calm keeps
      · exact ⟨advances_of_ends ends id current, fun _ => rfl⟩
  | _ => exact calm fine

/-- What is safe for the loops is so whatever was seen. -/
theorem looks_of_advancing
    {call : Call Unit} (safe : call.Safe deliveryLocks Advancing) :
    Proc.Looks deliveryLocks Continues call :=
  safe.looks (fun _ => trivial) fun _ _ _ advances _ _ => advances

theorem safe_of_winding
    {call : Call Unit} (emits : call.Emits winding fun _ => True) :
    call.Safe deliveryLocks Advancing :=
  emits.safe (fun _ state all _ _ =>
    ⟨trivial, (advances_of_winding all state).1⟩)
    fun _ state row all _ _ free => ⟨rowLocks_frame state row free,
      fun id _ => ((advances_of_winding all state).2 id).symm⟩

/-! ## Deliveries -/

/-- A new delivery is filed under its order. -/
theorem filed_insertDelivery
    {key : DeliveryId} {delivery : Delivery} {db : Db}
    (fresh : db.deliveries.row key = none) (id : OrderId) :
    filed id ((Stmt.insertDelivery key delivery).apply db) =
      if delivery.order = id then
        Function.update (filed id db) key
          (some (delivery.revisionNumber, delivery.status))
      else filed id db := by
  funext other
  by_cases here : other = key
  · subst here
    simp only [filed, Stmt.apply, Table.row_insert_self _ fresh]
    split_ifs <;> simp [filed, *]
  · split_ifs <;> simp [filed, Stmt.apply, here]

/-- A saved delivery of an order changes its entry there only. -/
theorem filed_saveDelivery
    {key : DeliveryId} {set : Delivery → Delivery} {db : Db} {owner : OrderId}
    {number : Nat} {status changed : DeliveryStatus}
    (stored : filed owner db key = some (number, status))
    (order : ∀ stored, (set stored).order = stored.order)
    (revision : ∀ stored, (set stored).revisionNumber = stored.revisionNumber)
    (sets : ∀ stored, (set stored).status = changed) (id : OrderId) :
    filed id ((Stmt.saveDelivery key set).apply db) =
      if owner = id then
        Function.update (filed id db) key (some (number, changed))
      else filed id db := by
  obtain ⟨delivery, present, here⟩ := Option.bind_eq_some_iff.mp stored
  rw [Option.ite_none_right_eq_some] at here
  obtain ⟨rfl, same⟩ := here
  obtain ⟨rfl, rfl⟩ := Prod.mk.inj (Option.some.inj same)
  funext other
  by_cases here : other = key
  · subst here
    simp only [filed, Stmt.apply, Table.row_modify_self, present]
    split_ifs <;> simp_all [filed]
  · split_ifs <;> simp [filed, Stmt.apply, here]

/-- The latest delivery is filed and has the highest number. -/
theorem latestDelivery_spec
    {id : OrderId} {key : DeliveryId} {db : Db}
    (found : latestDelivery id db = some key) :
    ∃ number status, filed id db key = some (number, status) ∧
      ∀ other later, numbers (filed id db) other = some later →
        later ≤ number := by
  have listed := List.mem_of_head? found
  obtain ⟨delivery, stored, holds⟩ := Table.mem_select.mp listed
  simp only [Bool.and_eq_true, decide_eq_true_eq, Bool.not_eq_true'] at holds
  obtain ⟨about, highest⟩ := holds
  refine ⟨delivery.revisionNumber, delivery.status, by simp [filed, stored, about],
    fun other later filedLater => ?_⟩
  obtain ⟨entry, there, same⟩ := Option.map_eq_some_iff.mp filedLater
  obtain ⟨value, present, here⟩ := Option.bind_eq_some_iff.mp there
  rw [Option.ite_none_right_eq_some] at here
  obtain ⟨mine, pair⟩ := here
  obtain rfl := Option.some.inj pair
  obtain rfl : value.revisionNumber = later := same
  by_contra above
  have different : other ≠ key := by
    rintro rfl
    obtain rfl := Option.some.inj (stored.symm.trans present)
    exact above (Nat.le_refl _)
  have beaten : (db.deliveries.any fun other later =>
      later.order = id && other ≠ key &&
        delivery.revisionNumber < later.revisionNumber) = true :=
    Table.any_eq_true.mpr ⟨other, value, present, by
      simp only [Bool.and_eq_true, decide_eq_true_eq]
      simp_all⟩
  simp_all

theorem filed_of_loopOf
    {id : OrderId} {loop : Loop} {db : Db} (stored : loopOf id db = some loop) :
    loop.filed = filed id db := by
  obtain ⟨_, _, rfl⟩ := Option.map_eq_some_iff.mp stored
  rfl

/-- A revision number is used by a delivery that is filed with it. -/
theorem revisionUsed_iff
    {id : OrderId} {number : Nat} {db : Db} :
    revisionUsed id number db = true ↔
      ∃ key, numbers (filed id db) key = some number := by
  simp only [revisionUsed, Table.any_eq_true, Bool.and_eq_true,
    decide_eq_true_eq]
  constructor
  · rintro ⟨key, delivery, stored, rfl, rfl⟩
    exact ⟨key, by simp [numbers, filed, stored]⟩
  · rintro ⟨key, here⟩
    obtain ⟨entry, there, same⟩ := Option.map_eq_some_iff.mp here
    obtain ⟨delivery, stored, mine⟩ := Option.bind_eq_some_iff.mp there
    rw [Option.ite_none_right_eq_some] at mine
    obtain ⟨about, pair⟩ := mine
    obtain rfl := Option.some.inj pair
    exact ⟨key, delivery, stored, about, same⟩

/-- No delivery of a sound loop has the number of the next one. -/
theorem next_unused
    {id : OrderId} {order : Order} {prior : Option OrderStatus} {db : Db}
    (sound : (Order.loop order prior (filed id db)).Sound)
    (working : order.status = .active ∨ order.status = .revisionRequested) :
    revisionUsed id
      (if order.status = .revisionRequested then order.revisionsUsed else 0) db =
        false := by
  obtain ⟨count, counted⟩ := sound
  have next : (if order.status = .revisionRequested then order.revisionsUsed
      else 0) = count := counted.next working
  rw [next]
  by_contra used
  obtain ⟨key, here⟩ := revisionUsed_iff.mp (Bool.of_not_eq_false used)
  exact Nat.lt_irrefl count (counted.numbered.below key count here)

/-! ## Steps of a loop -/

/-- The loop of one order changes, and nothing else. -/
structure Turned (id : OrderId) (db after : Db) (loop later : Loop) : Prop where
  stored : loopOf id db = some loop
  moved : loopOf id after = some later
  others : ∀ other, other ≠ id → SameLoop other db after
  priors : KeepsPriors db after

namespace Turned

variable {id : OrderId} {first second third : Db} {loop later last : Loop}

/-- One change after the other. -/
theorem andThen
    (early : Turned id first second loop later)
    (next : loopOf id second = some later →
      Turned id second third later last) :
    Turned id first third loop last where
  stored := early.stored
  moved := (next early.moved).moved
  others other different := (early.others other different).trans
    ((next early.moved).others other different)
  priors := early.priors.trans _ _ _ (next early.moved).priors

theorem steady
    {stmts : List Stmt} {db : Db} (stored : loopOf id db = some loop)
    (calm : ∀ stmt ∈ stmts, Orders.steady (.write stmt)) :
    Turned id db (applyAll stmts db) loop loop where
  stored
  moved := ((steady_applyAll calm db).2 id).loop.trans stored
  others other _ := (steady_applyAll calm db).2 other
  priors := (steady_applyAll calm db).1

/-- Setting the status of an order, with the events that tell it. -/
theorem move
    {toStatus : OrderStatus} {events : List OrderEvent} {db : Db}
    (stored : loopOf id db = some loop) :
    Turned id db (applyAll (moving id toStatus events) db) loop
      { loop with status := toStatus } := by
  let set : Order → Order := fun stored => { stored with status := toStatus }
  have changed : Turned id db ((Stmt.saveOrder id set).apply db) loop
      { loop with status := toStatus } := by
    refine ⟨stored, ?_, fun other different =>
      ⟨by rw [loopOf_saveOrder, if_neg different], rfl⟩, .refl db⟩
    rw [loopOf_saveOrder, if_pos rfl]
    obtain ⟨order, present, rfl⟩ := Option.map_eq_some_iff.mp stored
    simp [present, Order.loop, set]
  refine changed.andThen fun moved => .steady moved fun stmt member => ?_
  obtain ⟨event, _, rfl⟩ := List.mem_map.mp member
  trivial

/-- Filing a delivery under a new key. -/
theorem file
    {key : DeliveryId} {delivery : Delivery} {db : Db}
    (stored : loopOf id db = some loop) (fresh : db.deliveries.row key = none)
    (about : delivery.order = id) :
    Turned id db ((Stmt.insertDelivery key delivery).apply db) loop
      { loop with
        filed := Function.update loop.filed key
          (some (delivery.revisionNumber, delivery.status)) } := by
  have files := @filed_insertDelivery key delivery db fresh
  obtain ⟨order, present, rfl⟩ := Option.map_eq_some_iff.mp stored
  refine ⟨stored, ?_, fun other different => ⟨?_, ?_⟩, .refl db⟩
  · have here := files id
    rw [if_pos about] at here
    simp only [loopOf, Option.map_eq_some_iff]
    exact ⟨order, present, by rw [here]; rfl⟩
  · have there := files other
    rw [if_neg (about ▸ different.symm)] at there
    simp only [loopOf, there]
    rfl
  · rw [files, if_neg (about ▸ different.symm)]

/-- Changing the status of a delivery. -/
theorem review
    {key : DeliveryId} {set : Delivery → Delivery} {db : Db} {number : Nat}
    {status changed : DeliveryStatus} (stored : loopOf id db = some loop)
    (found : loop.filed key = some (number, status))
    (order : ∀ stored, (set stored).order = stored.order)
    (revision : ∀ stored, (set stored).revisionNumber = stored.revisionNumber)
    (sets : ∀ stored, (set stored).status = changed) :
    Turned id db ((Stmt.saveDelivery key set).apply db) loop
      { loop with
        filed := Function.update loop.filed key (some (number, changed)) } := by
  obtain ⟨row, present, rfl⟩ := Option.map_eq_some_iff.mp stored
  have files := filed_saveDelivery found order revision sets
  refine ⟨stored, ?_, fun other different => ⟨?_, ?_⟩, .refl db⟩
  · have here := files id
    rw [if_pos rfl] at here
    simp only [loopOf, Option.map_eq_some_iff]
    exact ⟨row, present, by rw [here]; rfl⟩
  · have there := files other
    rw [if_neg different.symm] at there
    simp only [loopOf, there]
    rfl
  · rw [files, if_neg different.symm]

/-- A loop that turns without filing anything. -/
theorem files
    {db after : Db} (turned : Turned id db after loop later)
    (same : later.filed = loop.filed) (other : OrderId) :
    filed other after = filed other db := by
  by_cases here : other = id
  · subst here
    exact (filed_of_loopOf turned.moved).symm.trans
      (same.trans (filed_of_loopOf turned.stored))
  · exact (turned.others other here).filed

/-- A loop that turns by a step. -/
theorem advances
    {db after : Db} (turned : Turned id db after loop later)
    (step : Loop.Step loop later) : Advances db after :=
  advances_of_step turned.priors turned.others turned.stored turned.moved step

/-- A commit that turns a locked loop by a step. -/
theorem commit
    {ctx : Ctx Db Row Stmt} (held : ctx.held (.order id))
    (turned : ∀ state, ctx.known state → ∃ loop later,
      Turned id state (applyAll ctx.writes state) loop later ∧
        Loop.Step loop later) :
    ctx.CommitOk deliveryLocks Advancing := by
  refine deliveryLocks_commit fun state known => ?_
  obtain ⟨loop, later, turn, step⟩ := turned state known
  refine ⟨turn.advances step, fun other free => ?_⟩
  have different : other ≠ id := by
    rintro rfl
    exact free held
  exact (turn.others other different).filed

end Turned

theorem submitDelivery_advances
    (env : Env) (id : OrderId) (expert : Actor) (summary : String)
    (attachments : Except Error Unit) :
    (submitDelivery env id expert summary attachments).wp deliveryLocks .start
      (Ctx.Finishes deliveryLocks Advancing) := by
  simp only [submitDelivery, getForUpdate,
    Tx.getForUpdate, Tx.get, Tx.create, Prog.wp_bind, Prog.wp_read,
    Prog.wp_lockRow, Prog.wp_orFail, Prog.wp_ofExcept, Prog.wp_require,
    Prog.wp_exec, Prog.wp_pure, Ctx.start_writes, Ctx.take_writes,
    Ctx.observe_writes, applyAll_nil, Ctx.finishes_error, implies_true,
    and_true]
  intro first _ _ order stored _ working _ _ _ second _ _ unused
  refine transition_wp (fun _ _ _ => trivial) fun _ later writes grown => ?_
  have held : later.held (.order id) := grown.held _ (by simp)
  refine Turned.commit held fun state known => ?_
  have before := grown.known state known
  simp only [Ctx.push_known, Ctx.observe_known, Ctx.take_known] at before
  have row : state.orders.row id = some order :=
    (deliveryLocks_order id _ _ (before.1.2 (.order id) (by simp))).symm.trans
      stored
  have free : state.deliveries.row env.key = none := by
    have same : second.deliveries.row env.key = state.deliveries.row env.key :=
      (before.2 (.delivery env.key) (by simp)).1
    simp_all
  have loop : loopOf id state =
      some (Order.loop order (priorOf id state) (filed id state)) := by
    simp [loopOf, row]
  rw [writes, applyAll_append]
  refine ⟨_, _, (Turned.file loop free rfl).andThen fun mid =>
    (Turned.steady mid ?_).andThen .move, .deliver working ?_⟩
  · simp [steady, keepsLoop_iff]
  · simp [Order.loop, filed, free]

/-- Counting a revision, and other columns. -/
theorem Turned.count
    {id : OrderId} {loop : Loop} {used : Nat} {set : Order → Order} {db : Db}
    (stored : loopOf id db = some loop)
    (status : ∀ stored, (set stored).status = stored.status)
    (counts : ∀ stored, (set stored).revisionsUsed = used)
    (allowed : ∀ stored,
      (set stored).revisionsAllowed = stored.revisionsAllowed) :
    Turned id db ((Stmt.saveOrder id set).apply db) loop
      { loop with revisionsUsed := used } := by
  refine ⟨stored, ?_, fun other different =>
    ⟨by rw [loopOf_saveOrder, if_neg different], rfl⟩, .refl db⟩
  rw [loopOf_saveOrder, if_pos rfl]
  obtain ⟨order, present, rfl⟩ := Option.map_eq_some_iff.mp stored
  simp [present, Order.loop, status, counts, allowed]

theorem requestRevision_advances
    (env : Env) (id : OrderId) (student : Actor) (note : String) :
    (requestRevision env id student note).wp deliveryLocks .start
      (Ctx.Finishes deliveryLocks Advancing) := by
  simp only [requestRevision, getForUpdate, Tx.getForUpdate, Tx.get,
    Prog.wp_bind, Prog.wp_read, Prog.wp_lockRow, Prog.wp_orFail,
    Prog.wp_require, Prog.wp_exec, Prog.wp_pure, Ctx.start_writes,
    Ctx.take_writes, Ctx.observe_writes, applyAll_nil, Ctx.finishes_error,
    implies_true, and_true]
  intro first _ _ order stored _ delivered left _ second _ _ key found
  refine transition_wp (fun _ _ _ => trivial) fun _ later writes grown => ?_
  simp only [recordEvent, Prog.wp_exec]
  have held : later.held (.order id) := grown.held _ (by simp)
  refine Turned.commit (.inr held) fun state known => ?_
  have before := grown.known state known
  simp only [Ctx.push_known, Ctx.observe_known, Ctx.take_known] at before
  have row : state.orders.row id = some order :=
    (deliveryLocks_order id _ _ (before.1.2 (.order id) (by simp))).symm.trans
      stored
  have same : filed id second = filed id state :=
    (before.2 (.order id) (by simp)).2 id rfl
  obtain ⟨number, status, here, highest⟩ := latestDelivery_spec found
  rw [same] at here highest
  have loop : loopOf id state =
      some (Order.loop order (priorOf id state) (filed id state)) := by
    simp [loopOf, row]
  rw [Ctx.push_writes, writes, applyAll_append, applyAll_append]
  refine ⟨_, _, (Turned.review loop here ?_ ?_ ?_).andThen fun mid =>
    (Turned.count mid ?_ ?_ ?_).andThen fun counted =>
      (Turned.move counted).andThen fun moved => .steady moved ?_,
    .revise delivered left here highest⟩
  case refine_7 => simp [steady]
  all_goals exact fun _ => rfl

/-- The deliveries of a locked order, with other statuses and pending. -/
structure Reviewed (id : OrderId) (ctx : Ctx Db Row Stmt) : Prop where
  held : ctx.held (.order id)
  turned : ∀ state, ctx.known state → ∃ loop later,
    Turned id state (applyAll ctx.writes state) loop { loop with filed := later } ∧
      numbers later = numbers loop.filed

/-- The latest delivery is reviewed at most. -/
theorem Reviewed.review
    {id : OrderId} {ctx : Ctx Db Row Stmt} {key : DeliveryId} {seen : Db}
    {set : Delivery → Delivery} {changed : DeliveryStatus}
    (reviewed : Reviewed id ctx)
    (same : ∀ state, ctx.known state → filed id state = filed id seen)
    (found : latestDelivery id seen = some key)
    (order : ∀ stored, (set stored).order = stored.order)
    (revision : ∀ stored, (set stored).revisionNumber = stored.revisionNumber)
    (sets : ∀ stored, (set stored).status = changed) :
    Reviewed id (ctx.push (.saveDelivery key set)) := by
  refine ⟨.inr reviewed.held, fun state known => ?_⟩
  obtain ⟨loop, later, turned, keep⟩ := reviewed.turned state known
  obtain ⟨number, status, here, _⟩ := latestDelivery_spec found
  obtain ⟨row, present, rfl⟩ := Option.map_eq_some_iff.mp turned.stored
  have carries : numbers later key = some number := by
    rw [keep]
    simp [numbers, Order.loop, same state known, here]
  obtain ⟨⟨shown, current⟩, entry, equal⟩ := Option.map_eq_some_iff.mp carries
  obtain rfl : number = shown := equal.symm
  refine ⟨Order.loop row (priorOf id state) (filed id state),
    Function.update later key (some (number, changed)), ?_, ?_⟩
  · rw [Ctx.push_writes, applyAll_append]
    exact turned.andThen fun mid => .review mid entry order revision sets
  · rw [numbers_update, ← keep, ← carries, Function.update_eq_self]

/-- The end of an approval, after the delivery has been reviewed. -/
theorem Reviewed.finish
    {id : OrderId} {ctx later : Ctx Db Row Stmt}
    (reviewed : Reviewed id ctx) (held : later.held (.order id))
    (known : ∀ state, later.known state → ctx.known state)
    {columns rest : List Stmt} {events : List OrderEvent}
    (before : ∀ stmt ∈ columns, steady (.write stmt))
    (after : ∀ stmt ∈ rest, steady (.write stmt))
    (writes : later.writes =
      ctx.writes ++ columns ++ moving id .completed events ++ rest) :
    later.CommitOk deliveryLocks Advancing := by
  refine Turned.commit held fun state grown => ?_
  obtain ⟨loop, filed, turned, keep⟩ := reviewed.turned state (known state grown)
  rw [writes]
  simp only [applyAll_append]
  exact ⟨_, _, turned.andThen fun mid => (Turned.steady mid before).andThen
    fun still => (Turned.move still).andThen fun moved => .steady moved after,
    .finish (.inl rfl) keep⟩

/-- An approval reviews the latest delivery and completes the order. -/
theorem approveDelivery_advances
    (env : Env) (id : OrderId) (actor : Option Actor) (source : ApprovalSource)
    {ctx : Ctx Db Row Stmt} (plain : ctx.writes = []) :
    (approveDelivery env id actor source).wp deliveryLocks ctx
      (Ctx.Finishes deliveryLocks Advancing) := by
  simp only [approveDelivery, getForUpdate, Tx.getForUpdate, Tx.get,
    Prog.wp_bind, Prog.wp_read, Prog.wp_lockRow, Prog.wp_orFail,
    Prog.wp_ofExcept, Prog.wp_require, Prog.wp_exec, Prog.wp_pure, plain,
    Ctx.take_writes, Ctx.observe_writes, applyAll_nil, Ctx.finishes_error,
    implies_true, and_true]
  intro first _ _ order stored _ _ delivered second _ _
  have there : ∀ state, deliveryLocks.Rely
      (ctx.take (.order id)).held first state →
      ∃ loop, loopOf id state = some loop := by
    intro state relied
    have row : state.orders.row id = some order :=
      (deliveryLocks_order id _ _ (relied (.order id) (by simp))).symm.trans
        stored
    exact ⟨_, Option.map_eq_some_iff.mpr ⟨order, row, rfl⟩⟩
  refine Prog.wp_forEach (fun current => Reviewed id current ∧
      ∀ state, current.known state →
        filed id state = filed id second) ⟨⟨?_, ?_⟩, ?_⟩ ?_ ?_
  · simp
  · intro state known
    obtain ⟨loop, present⟩ := there state known.1.2
    refine ⟨loop, loop.filed, ?_, rfl⟩
    have nothing : Turned id state (applyAll ([] : List Stmt) state) loop loop :=
      .steady present (by simp)
    simpa [plain] using nothing
  · exact fun state known => ((known.2 (.order id) (by simp)).2 id rfl).symm
  · intro key member current reviewed
    have found : latestDelivery id second = some key := by simpa using member
    exact ⟨reviewed.1.review reviewed.2 found (fun _ => rfl) (fun _ => rfl)
      fun _ => rfl, reviewed.2⟩
  · rintro middle ⟨reviewed, _⟩
    refine transition_wp (fun _ _ _ => trivial) fun completed moved writes grown => ?_
    simp only [recordEvent, Prog.wp_exec]
    have moves : (moveRequest env completed.request [.inProgress] .completed
        "").Emits steady fun _ => True :=
      moveRequest_emits fun _ _ => by simp [ServiceRequests.transition, steady]
    have pays : (Payments.schedulePayout env id completed).Emits steady
        fun _ => True := by
      simp [Payments.schedulePayout, Tx.create, steady]
    refine Prog.wp_of_emits moves (by simp [steady]) ?_
    rintro (error | value) followed _ follows
    · trivial
    refine Prog.wp_of_emits pays (by simp [steady]) ?_
    rintro (error | value) last _ paid
    · trivial
    obtain ⟨rest, split, all⟩ := (follows.trans paid).writes
    have whole := (grown.trans (.push trivial)).trans
      ((follows.trans paid).weaken fun _ _ => trivial)
    let events : List OrderEvent :=
      [{ order := id
         eventType := if source = .auto then .autoApproved else .approved
         actor := actor.map Actor.id },
       { order := id, eventType := .completed, actor := actor.map Actor.id }]
    let columns : Order → Order := fun stored =>
      { stored with completedAt := some env.now, autoApproveAt := none }
    have together : last.writes = middle.writes ++ [.saveOrder id columns] ++
        moving id .completed events ++ rest := by
      rw [split, Ctx.push_writes, writes, Ctx.push_writes]
      simp [moving, events, columns]
    have calm : ∀ stmt ∈ [Stmt.saveOrder id columns], steady (.write stmt) := by
      simp [steady, keepsLoop_iff, columns]
    have held : last.held (.order id) := whole.held _ (.inr reviewed.held)
    exact reviewed.finish held whole.known calm all together

end Orders

end KnowledgeMarketplace
