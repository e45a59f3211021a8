import KnowledgeMarketplace.Operations.Effects

/-!
# Review timers

Only a delivery starts the timer of an order.  Every other operation leaves it
alone or stops it.
-/

namespace KnowledgeMarketplace

open Transaction

namespace Orders

/-- When the delivery of the order is going to be approved automatically. -/
def timerOf (id : OrderId) (db : Db) : Option Time :=
  (db.orders.row id).bind (·.autoApproveAt)

theorem timerOf_of_row
    {id : OrderId} {db : Db} {order : Order}
    (stored : db.orders.row id = some order) :
    timerOf id db = order.autoApproveAt := by
  simp [timerOf, stored]

/-- The timer of an order goes on, or it is stopped. -/
def StopsTimer (set : Order → Order) : Prop :=
  ∀ stored, (set stored).autoApproveAt = none ∨
    (set stored).autoApproveAt = stored.autoApproveAt

/-- The effects that start no timer. -/
def unarming : Effect Stmt → Prop
  | .write (.saveOrder _ set) => StopsTimer set
  | .write (.insertOrder _ order) => order.autoApproveAt = none
  | _ => True

theorem unarming_elsewhere {stmt : Stmt} (other : stmt.table ≠ .orders) :
    unarming (.write stmt) := by
  cases stmt <;> simp_all [unarming, Stmt.table]

theorem OrderSave.stopsTimer
    {set : Order → Order} (save : OrderSave set) : StopsTimer set := by
  intro stored
  cases save <;> simp

theorem unarming_ordering : Ordering unarming where
  elsewhere stmt other := unarming_elsewhere fun same => other (by simp [same])
  moved _ _ _ _ _ := by simp [ServiceRequests.transition, unarming]
  saved _ _ save := OrderSave.stopsTimer save
  told _ _ := trivial

theorem unarming_founding : Founding unarming where
  matched stmt table := unarming_elsewhere fun same => by simp [same] at table
  created _ _ _ stopped _ := stopped
  told _ := trivial

/-- Only deliveries start timers. -/
theorem operation_unarming
    {operation : Operation} (other : ¬operation.Delivers) :
    operation.call.Emits unarming fun _ => True := by
  refine Operation.emits_of_accounts unarming_ordering trivial
    (fun stmt table => unarming_elsewhere fun same => by simp [same] at table)
    (fun _ _ => .inr rfl) (fun _ _ _ _ => .inl rfl)
    (fun _ _ _ save => by cases save <;> exact fun _ => .inr rfl)
    (fun apart => ?_) fun triages => ?_
  · rcases apart with delivers | extending | marks
    · exact absurd delivers other
    · exact extending.emits (fun _ _ => trivial) (fun _ _ => trivial)
        (fun _ _ _ _ => .inl rfl) (fun _ _ _ => .inr rfl) (fun _ _ => .inr rfl)
        fun _ _ => trivial
    · exact marks.emits fun _ _ _ => trivial
  · by_cases converges : operation.Converges
    · exact converges.emits unarming_founding
    · exact triages.emits
        (fun stmt table => unarming_elsewhere fun same => by simp [same] at table)
        converges

/-- A statement that starts no timer. -/
theorem unarming_timer
    {stmt : Stmt} (fine : unarming (.write stmt)) (id : OrderId) (db : Db) :
    timerOf id (stmt.apply db) = none ∨
      timerOf id (stmt.apply db) = timerOf id db := by
  cases stmt with
  | saveOrder key set =>
      by_cases same : id = key
      · subst same
        rcases stored : db.orders.row id with _ | order
        · exact .inl (by simp [timerOf, Stmt.apply, stored])
        · simpa [timerOf, Stmt.apply, stored] using fine order
      · exact .inr (by simp [timerOf, Stmt.apply, same])
  | insertOrder key order =>
      have stopped : order.autoApproveAt = none := fine
      simp only [timerOf, Stmt.apply, Table.row_insert]
      split_ifs with fresh
      · exact .inl (by simpa using stopped)
      · exact .inr rfl
  | _ => exact .inr rfl

end Orders

end KnowledgeMarketplace
