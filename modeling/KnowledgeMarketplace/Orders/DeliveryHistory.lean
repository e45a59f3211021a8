import KnowledgeMarketplace.Orders.Revisions
import KnowledgeMarketplace.Orders.Timeline

/-!
# The deliveries of the database

Every order of the database has its revision loop.  Most statements leave all
loops alone; a delivery is written only while its order is locked.
-/

namespace KnowledgeMarketplace

open Transaction

namespace Orders

/-- The deliveries of an order. -/
def filed (id : OrderId) (db : Db) : Filed := fun key =>
  (db.deliveries.row key).bind fun delivery =>
    if delivery.order = id then
      some (delivery.revisionNumber, delivery.status)
    else
      none

/-- The loop of an order with these deliveries. -/
def Order.loop (order : Order) (prior : Option OrderStatus) (filed : Filed) :
    Loop where
  status := order.status
  revisionsUsed := order.revisionsUsed
  revisionsAllowed := order.revisionsAllowed
  prior
  filed

/-- The status before the dispute of an order. -/
def priorOf (id : OrderId) (db : Db) : Option OrderStatus :=
  (db.disputes.row id).map Dispute.priorOrderStatus

/-- The revision loop of an order. -/
def loopOf (id : OrderId) (db : Db) : Option Loop :=
  (db.orders.row id).map fun order => Order.loop order (priorOf id db) (filed id db)

/-- All loops are sound, and every delivery has an order. -/
structure DeliveryHistory (db : Db) : Prop where
  sound : ∀ id loop, loopOf id db = some loop → loop.Sound
  known : ∀ id, db.orders.row id = none → ∀ key, filed id db key = none

/-- What a commit does to all loops, at most. -/
structure Advances (db after : Db) : Prop where
  priors : KeepsPriors db after
  history : DeliveryHistory db → DeliveryHistory after

theorem Advances.refl (db : Db) : Advances db db :=
  ⟨.refl db, id⟩

theorem Advances.trans
    {first second third : Db} (early : Advances first second)
    (late : Advances second third) : Advances first third :=
  ⟨early.priors.trans _ _ _ late.priors, late.history ∘ early.history⟩

/-- The loop of an order, its deliveries and whether it exists stay the same. -/
structure SameLoop (id : OrderId) (db after : Db) : Prop where
  loop : loopOf id after = loopOf id db
  filed : filed id after = filed id db

theorem SameLoop.trans
    {id : OrderId} {first second third : Db} (early : SameLoop id first second)
    (late : SameLoop id second third) : SameLoop id first third :=
  ⟨late.loop.trans early.loop, late.filed.trans early.filed⟩

/-- An order without a loop does not exist. -/
theorem loopOf_none {id : OrderId} {db : Db} :
    loopOf id db = none ↔ db.orders.row id = none := by
  simp [loopOf]

theorem SameLoop.known
    {id : OrderId} {db after : Db} (same : SameLoop id db after)
    (history : DeliveryHistory db) (absent : after.orders.row id = none) :
    ∀ key, Orders.filed id after key = none := by
  rw [same.filed]
  exact history.known id (loopOf_none.mp (same.loop ▸ loopOf_none.mpr absent))

theorem advances_of_same
    {db after : Db} (priors : KeepsPriors db after)
    (same : ∀ id, SameLoop id db after) : Advances db after :=
  ⟨priors, fun history => ⟨fun id loop stored =>
    history.sound id loop ((same id).loop ▸ stored),
    fun id => (same id).known history⟩⟩

/-- One loop takes a step. -/
theorem advances_of_step
    {id : OrderId} {db after : Db} {loop later : Loop}
    (priors : KeepsPriors db after)
    (others : ∀ other, other ≠ id → SameLoop other db after)
    (stored : loopOf id db = some loop) (moved : loopOf id after = some later)
    (step : Loop.Step loop later) : Advances db after := by
  refine ⟨priors, fun history => ⟨fun other found present => ?_,
    fun other absent => ?_⟩⟩
  · by_cases same : other = id
    · subst same
      obtain rfl := Option.some.inj (moved.symm.trans present)
      exact (history.sound other loop stored).step step
    · exact history.sound other found ((others other same).loop ▸ present)
  · by_cases same : other = id
    · subst same
      simp [loopOf_none.mpr absent] at moved
    · exact (others other same).known history absent

/-! ## Statements that leave the loops alone -/

/-- The columns of the loop stay. -/
@[mk_iff] structure KeepsLoop (set : Order → Order) : Prop where
  status : ∀ stored, (set stored).status = stored.status
  used : ∀ stored, (set stored).revisionsUsed = stored.revisionsUsed
  allowed : ∀ stored, (set stored).revisionsAllowed = stored.revisionsAllowed

/-- Effects that leave all loops alone. -/
def steady : Effect Stmt → Prop
  | .write (.saveOrder _ set) => KeepsLoop set
  | .write (.saveDispute _ _ set) =>
      ∀ stored, (set stored).priorOrderStatus = stored.priorOrderStatus
  | .write (.insertOrder _ _) | .write (.insertDispute _ _)
  | .write (.insertDelivery _ _) | .write (.saveDelivery _ _) => False
  | .write _ => True
  | .savepoint => False

/-- A saved order takes its new columns; the other loops stay. -/
theorem loopOf_saveOrder (key id : OrderId) (set : Order → Order) (db : Db) :
    loopOf id ((Stmt.saveOrder key set).apply db) =
      if id = key then
        (db.orders.row id).map fun order =>
          Order.loop (set order) (priorOf id db) (filed id db)
      else loopOf id db := by
  change ((db.orders.modify key set).row id).map (fun order =>
    Order.loop order (priorOf id db) (filed id db)) = _
  by_cases same : id = key
  · subst same
    simp [Option.map_map, Function.comp_def]
  · simp [loopOf, same]

theorem steady_same
    {stmt : Stmt} (calm : steady (.write stmt)) (id : OrderId) (db : Db) :
    SameLoop id db (stmt.apply db) := by
  cases stmt with
  | saveOrder key set =>
      refine ⟨?_, rfl⟩
      rw [loopOf_saveOrder]
      split_ifs
      · simp [loopOf, Order.loop, calm.status, calm.used, calm.allowed]
      · rfl
  | saveDispute key expected set =>
      have prior : priorOf id ((Stmt.saveDispute key expected set).apply db) =
          priorOf id db := by
        by_cases same : id = key
        · subst same
          simp only [priorOf, Stmt.apply, Table.row_modify_self, Option.map_map]
          exact congrArg (Option.map · _) (funext calm)
        · simp [priorOf, Stmt.apply, same]
      exact ⟨by simp only [loopOf, prior]; rfl, rfl⟩
  | insertOrder | insertDispute | insertDelivery | saveDelivery => exact calm.elim
  | _ => exact ⟨rfl, rfl⟩

theorem steady_priors
    {stmt : Stmt} (calm : steady (.write stmt)) (db : Db) :
    KeepsPriors db (stmt.apply db) := by
  cases stmt with
  | saveDispute key expected set =>
      intro id dispute stored
      by_cases same : id = key
      · subst same
        exact ⟨set dispute, by simp [Stmt.apply, stored], calm dispute⟩
      · exact ⟨dispute, by simp [Stmt.apply, same, stored], rfl⟩
  | insertDispute => exact calm.elim
  | _ => exact .refl db

/-- Statements that leave the loops alone, one after the other. -/
theorem steady_applyAll
    {stmts : List Stmt} (calm : ∀ stmt ∈ stmts, steady (.write stmt)) (db : Db) :
    KeepsPriors db (applyAll stmts db) ∧
      ∀ id, SameLoop id db (applyAll stmts db) :=
  applyAll_keeps (fun after => KeepsPriors db after ∧ ∀ id, SameLoop id db after)
    (fun stmt member current kept =>
      ⟨kept.1.trans _ _ _ (steady_priors (calm stmt member) current),
        fun id => (kept.2 id).trans (steady_same (calm stmt member) id current)⟩)
    ⟨.refl db, fun _ => ⟨rfl, rfl⟩⟩

end Orders

end KnowledgeMarketplace
