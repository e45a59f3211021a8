import KnowledgeMarketplace.Operations.Effects
import KnowledgeMarketplace.Transaction.Batches

/-!
# The timeline of an order

The events of an order tell its status: reading them in the order in which they
were appended gives the status column back.  A dispute remembers the status
that its opening event has ended, so that a closing without fault can be read
back as well.
-/

namespace KnowledgeMarketplace

open Transaction

namespace Orders

/-- What the events have told: the status, and the one before a dispute. -/
structure Told where
  status : Option OrderStatus := none
  beforeDispute : Option OrderStatus := none
  deriving DecidableEq

/-- The status that an event tells by its type alone. -/
def statusOf : OrderEventType → Option OrderStatus
  | .created => some .awaitingPayment
  | .paymentConfirmed => some .active
  | .delivered | .redelivered => some .delivered
  | .revisionRequested => some .revisionRequested
  | .approved | .autoApproved | .completed => some .completed
  | .cancelled => some .cancelled
  | .disputeOpened => some .disputed
  | .disputeResolved | .overdueFlagged | .deadlineProposed | .deadlineExtended
  | .deadlineReminded | .autoApproveWarned => none

/-- The outcome in the data of an event, in either shape. -/
def recordedOutcome : OrderEventData → Option DisputeOutcome
  | .none => none
  | .outcome value | .nestedOutcome value => some value

/-- The status that an outcome tells. -/
def statusAfter (beforeDispute : Option OrderStatus) :
    DisputeOutcome → Option OrderStatus
  | .refundStudentFull => some .cancelled
  | .refundStudentPartial | .releaseExpert | .split => some .completed
  | .noFaultClose => beforeDispute

/-- Read one event. -/
def tell (told : Told) (event : OrderEvent) : Told :=
  match event.eventType, recordedOutcome event.data with
  | .disputeOpened, _ => ⟨some .disputed, told.status⟩
  | .disputeResolved, some outcome =>
      { told with status := statusAfter told.beforeDispute outcome }
  | eventType, _ =>
      { told with status := (statusOf eventType).orElse fun _ => told.status }

/-- Read the events in the order in which they were appended. -/
def replay (events : List OrderEvent) : Told :=
  events.foldl tell {}

/-- The events of one order. -/
def timeline (id : OrderId) (db : Db) : List OrderEvent :=
  db.orderEvents.filter (·.order = id)

/-- What the events of an order tell is what is stored about it. -/
structure TimelineAgrees (db : Db) : Prop where
  status : ∀ id order, db.orders.row id = some order →
    (replay (timeline id db)).status = some order.status
  prior : ∀ id dispute, db.disputes.row id = some dispute →
    (replay (timeline id db)).beforeDispute = some dispute.priorOrderStatus

/-- Disputes that exist stay, and remember the same status. -/
def KeepsPriors (first second : Db) : Prop :=
  ∀ id dispute, first.disputes.row id = some dispute →
    ∃ later, second.disputes.row id = some later ∧
      later.priorOrderStatus = dispute.priorOrderStatus

theorem KeepsPriors.refl (db : Db) : KeepsPriors db db :=
  fun _ dispute stored => ⟨dispute, stored, rfl⟩

theorem KeepsPriors.trans
    (first second third : Db) (early : KeepsPriors first second)
    (late : KeepsPriors second third) : KeepsPriors first third := by
  intro id dispute stored
  obtain ⟨middle, present, same⟩ := early id dispute stored
  obtain ⟨last, found, still⟩ := late id middle present
  exact ⟨last, found, still.trans same⟩

/-- The timelines of a later state agree, and its disputes are the same ones. -/
structure Retold (first second : Db) : Prop where
  priors : KeepsPriors first second
  agrees : TimelineAgrees second

/-- Statements after which the timelines still agree. -/
def Retells (stmts : List Stmt) : Prop :=
  ∀ db, TimelineAgrees db → Retold db (applyAll stmts db)

theorem retells_nil : Retells [] :=
  fun db agrees => ⟨.refl db, agrees⟩

theorem Retold.trans
    {first second third : Db} (early : Retold first second)
    (late : Retold second third) : Retold first third :=
  ⟨early.priors.trans _ _ _ late.priors, late.agrees⟩

theorem Retells.append
    {first second : List Stmt} (early : Retells first) (late : Retells second) :
    Retells (first ++ second) := by
  intro db agrees
  rw [applyAll_append]
  exact (early db agrees).trans (late _ (early db agrees).agrees)

/-! ## Statements that tell nothing -/

/-- Effects that move no order and tell nothing about a status. -/
def silent : Effect Stmt → Prop
  | .write (.saveOrder _ set) => ∀ stored, (set stored).status = stored.status
  | .write (.recordEvent event) =>
      statusOf event.eventType = none ∧ event.eventType ≠ .disputeResolved
  | .write (.saveDispute _ _ set) =>
      ∀ stored, (set stored).priorOrderStatus = stored.priorOrderStatus
  | .write (.insertOrder _ _) | .write (.insertDispute _ _) => False
  | .write _ => True
  | .savepoint => False

/-- An event that tells nothing is read over. -/
theorem tell_of_silent
    {event : OrderEvent} (told : Told)
    (mute : silent (.write (.recordEvent event))) : tell told event = told := by
  obtain ⟨eventType, resolved⟩ := mute
  unfold tell
  cases shape : event.eventType <;> simp_all [statusOf]

/-- The timeline after one more event. -/
theorem replay_recordEvent (event : OrderEvent) (id : OrderId) (db : Db) :
    replay (timeline id ((Stmt.recordEvent event).apply db)) =
      if event.order = id then tell (replay (timeline id db)) event
      else replay (timeline id db) := by
  by_cases same : event.order = id <;>
    simp [replay, timeline, Stmt.apply, List.filter_append, same]

/-- An event that tells what is known already. -/
theorem TimelineAgrees.recordEvent
    {event : OrderEvent} {db : Db} (agrees : TimelineAgrees db)
    (known : tell (replay (timeline event.order db)) event =
      replay (timeline event.order db)) :
    Retold db ((Stmt.recordEvent event).apply db) := by
  have same : ∀ id, replay (timeline id ((Stmt.recordEvent event).apply db)) =
      replay (timeline id db) := by
    intro id
    rw [replay_recordEvent]
    split_ifs with here
    · rw [← here, known]
    · rfl
  refine ⟨.refl db, ⟨fun id order stored => ?_, fun id dispute stored => ?_⟩⟩
  · exact (congrArg Told.status (same id)).trans (agrees.status id order stored)
  · exact (congrArg Told.beforeDispute (same id)).trans
      (agrees.prior id dispute stored)

/-- A statement that tells nothing keeps the timelines. -/
theorem retells_of_silent {stmt : Stmt} (mute : silent (.write stmt)) :
    Retells [stmt] := by
  intro db agrees
  cases stmt with
  | insertOrder id order => exact mute.elim
  | insertDispute id dispute => exact mute.elim
  | saveOrder id set =>
      refine ⟨.refl db, ⟨fun other order stored => ?_, agrees.prior⟩⟩
      rcases Table.row_modify_cases stored with ⟨_, same⟩ | ⟨rfl, old, present, rfl⟩
      · exact agrees.status other order same
      · rw [mute old]
        exact agrees.status other old present
  | saveDispute id expected set =>
      refine ⟨fun other dispute stored => ?_,
        ⟨agrees.status, fun other dispute stored => ?_⟩⟩
      · by_cases same : other = id
        · subst same
          exact ⟨set dispute, by simp [Stmt.apply, stored], mute dispute⟩
        · exact ⟨dispute, by simp [Stmt.apply, same, stored], rfl⟩
      · rcases Table.row_modify_cases stored with ⟨_, same⟩ | ⟨rfl, old, present, rfl⟩
        · exact agrees.prior other dispute same
        · rw [mute old]
          exact agrees.prior other old present
  | recordEvent event => exact agrees.recordEvent (tell_of_silent _ mute)
  | _ => exact ⟨.refl db, agrees.status, agrees.prior⟩

/-- Such statements one after the other. -/
theorem retells_of_all
    {stmts : List Stmt} (mute : ∀ stmt ∈ stmts, silent (.write stmt)) :
    Retells stmts := by
  induction stmts with
  | nil => exact retells_nil
  | cons stmt rest inductionHypothesis =>
      exact (retells_of_silent (mute stmt List.mem_cons_self)).append
        (inductionHypothesis
          fun later member => mute later (List.mem_cons_of_mem _ member))

/-! ## Statements that move an order -/

/-- The status of an order is written, then told by events. -/
def moving (id : OrderId) (toStatus : OrderStatus) (events : List OrderEvent) :
    List Stmt :=
  .saveOrder id (fun stored => { stored with status := toStatus }) ::
    events.map Stmt.recordEvent

/-- The timeline after more events. -/
theorem replay_events (events : List OrderEvent) (id : OrderId) (db : Db) :
    replay (timeline id (applyAll (events.map Stmt.recordEvent) db)) =
      (events.filter (·.order = id)).foldl tell (replay (timeline id db)) := by
  induction events generalizing db with
  | nil => rfl
  | cons event rest inductionHypothesis =>
      simp only [List.map_cons, applyAll_cons, store_apply, inductionHypothesis,
        replay_recordEvent, List.filter_cons, decide_eq_true_eq]
      split_ifs <;> rfl

/-- Only the timelines are written by events. -/
theorem applyAll_events (events : List OrderEvent) (db : Db) :
    applyAll (events.map Stmt.recordEvent) db =
      { db with orderEvents := db.orderEvents ++ events } := by
  induction events generalizing db with
  | nil => simp
  | cons event rest inductionHypothesis =>
      simp [inductionHypothesis, Stmt.apply]

/-- A move that its events tell keeps the timelines. -/
theorem TimelineAgrees.move
    {id : OrderId} {toStatus : OrderStatus} {events : List OrderEvent} {db : Db}
    (agrees : TimelineAgrees db) (about : ∀ event ∈ events, event.order = id)
    (tells : events.foldl tell (replay (timeline id db)) =
      { replay (timeline id db) with status := some toStatus }) :
    Retold db (applyAll (moving id toStatus events) db) := by
  have here : events.filter (·.order = id) = events :=
    List.filter_eq_self.mpr fun event member => by simp [about event member]
  have elsewhere : ∀ other, other ≠ id →
      events.filter (·.order = other) = [] := fun other different =>
    List.filter_eq_nil_iff.mpr fun event member => by
      simp [about event member, different.symm]
  have told : ∀ other, replay (timeline other
      (applyAll (moving id toStatus events) db)) =
        if other = id then { replay (timeline id db) with status := some toStatus }
        else replay (timeline other db) := by
    intro other
    have split := replay_events events other (applyAll [.saveOrder id fun stored =>
      { stored with status := toStatus }] db)
    refine split.trans ?_
    split_ifs with same
    · rw [same, here]
      exact tells
    · rw [elsewhere other same]
      rfl
  have kept : (applyAll (moving id toStatus events) db).disputes = db.disputes := by
    simp [moving, applyAll_events, Stmt.apply]
  refine ⟨fun other dispute stored => ⟨dispute, kept ▸ stored, rfl⟩, ⟨?_, ?_⟩⟩
  · intro other order stored
    simp only [moving, applyAll_cons, applyAll_events, store_apply] at stored
    rw [told other]
    rcases Table.row_modify_cases stored with ⟨different, same⟩ | ⟨rfl, old, present, rfl⟩
    · rw [if_neg different]
      exact agrees.status other order same
    · simp
  · intro other dispute stored
    have prior := agrees.prior other dispute (kept ▸ stored)
    rw [told other]
    split_ifs with same
    · exact same ▸ prior
    · exact prior

/-- The same for events that tell the status whatever was told before. -/
theorem retells_moving
    {id : OrderId} {toStatus : OrderStatus} {events : List OrderEvent}
    (about : ∀ event ∈ events, event.order = id)
    (tells : ∀ told, events.foldl tell told =
      { told with status := some toStatus }) :
    Retells (moving id toStatus events) :=
  fun _ agrees => agrees.move about (tells _)

/-- The order that the factory inserts is told by the event that it records. -/
theorem Created.retold
    {base later : Ctx Db Row Stmt} {key : OrderId} {order : Order} {state : Db}
    (created : Created base later key order)
    (waiting : order.status = .awaitingPayment)
    (leaves : LeavesOrders base.writes)
    (before : base.known state → TimelineAgrees state →
      Retold state (applyAll base.writes state))
    (known : later.known state) (agrees : TimelineAgrees state) :
    Retold state (applyAll later.writes state) := by
  obtain ⟨event, rfl, eventType, writes⟩ := created.writes
  have fresh := created.fresh state known
  have early := before (created.known state known) agrees
  rw [writes, applyAll_append]
  refine early.trans ?_
  have current := early.agrees
  rw [← leaves.applyAll_orders state] at fresh
  generalize applyAll base.writes state = db at current fresh
  have tells : ∀ told, tell told event =
      { told with status := some .awaitingPayment } := by
    intro told
    simp [tell, eventType, statusOf]
  have told : ∀ other, replay (timeline other (applyAll
      [.insertOrder event.order order, .recordEvent event] db)) =
        if event.order = other then
          { replay (timeline other db) with status := some .awaitingPayment }
        else replay (timeline other db) := by
    intro other
    refine (replay_recordEvent event other
      ((Stmt.insertOrder event.order order).apply db)).trans ?_
    rw [tells]
    rfl
  refine ⟨.refl db, ⟨fun other found stored => ?_, fun other dispute stored => ?_⟩⟩
  · rw [told]
    rcases Table.row_insert_cases stored with old | ⟨rfl, rfl, _⟩
    · rw [if_neg]
      · exact current.status other found old
      · rintro rfl
        simp [fresh] at old
    · simp [waiting]
  · rw [told]
    have prior := current.prior other dispute stored
    split_ifs <;> exact prior

end Orders

namespace Disputes

open Orders

/-- Money, corrections and the flag tell nothing. -/
theorem silent_of_clearing
    {id : OrderId} {stmt : Stmt} (fine : clearing id (.write stmt)) :
    silent (.write stmt) := by
  cases stmt with
  | saveOrder key set => exact fun stored => by rw [fine.2 stored]
  | _ => trivial

/-- The dispute that is filed remembers what the timeline has told. -/
theorem Opens.retold
    {id : OrderId} {order : Order} {later : Ctx Db Row Stmt} {state : Db}
    (opens : Opens id order later) (known : later.known state)
    (agrees : TimelineAgrees state) :
    Retold state (applyAll later.writes state) := by
  obtain ⟨dispute, flags, prior, _, choice, writes⟩ := opens.writes
  have stored := opens.held state known
  have first := opens.first state known
  have told := agrees.status id order stored
  rw [writes]
  have events : ∀ other, replay (timeline other (applyAll
      ([.insertDispute id dispute] ++ flags ++
        [.saveOrder id fun stored => { stored with status := .disputed },
          .recordEvent { order := id, eventType := .disputeOpened }]) state)) =
        if id = other then ⟨some .disputed, some order.status⟩
        else replay (timeline other state) := by
    intro other
    have last := replay_recordEvent
      { order := id, eventType := .disputeOpened } other
    rcases choice with rfl | rfl <;> refine (last _).trans ?_ <;> split_ifs with same
    · subst same
      exact congrArg (Told.mk _) told
    · rfl
    · subst same
      exact congrArg (Told.mk _) told
    · rfl
  have disputes : (applyAll ([.insertDispute id dispute] ++ flags ++
      [.saveOrder id fun stored => { stored with status := .disputed },
        .recordEvent { order := id, eventType := .disputeOpened }])
          state).disputes = state.disputes.insert id dispute := by
    rcases choice with rfl | rfl <;> rfl
  refine ⟨fun other found present => ?_,
    ⟨fun other found present => ?_, fun other found present => ?_⟩⟩
  · rw [disputes]
    exact ⟨found, Table.row_insert_of_some id dispute present, rfl⟩
  · rw [events]
    split_ifs with same
    · subst same
      rcases choice with rfl | rfl <;> simp [Stmt.apply, stored] at present <;>
        simp [← present]
    · have old : state.orders.row other = some found := by
        rcases choice with rfl | rfl <;>
          simpa [Stmt.apply, Ne.symm same] using present
      exact agrees.status other found old
  · rw [events]
    rw [disputes] at present
    rcases Table.row_insert_cases present with old | ⟨rfl, rfl, _⟩
    · rw [if_neg]
      · exact agrees.prior other found old
      · rintro rfl
        simp [first] at old
    · simp [prior]

/-- A resolution tells where it moves the order, or that the order stays. -/
theorem Closes.retold
    {id : OrderId} {order : Order} {copy : Dispute} {outcome : DisputeOutcome}
    {later : Ctx Db Row Stmt} {seen state : Db}
    (closes : Closes id order copy outcome later)
    (found : seen.disputes.row id = some copy) (known : later.known state)
    (past : KeepsPriors seen state) (agrees : TimelineAgrees state) :
    Retold state (applyAll later.writes state) := by
  obtain ⟨cleared, moved, set, clears, moves, kept, writes⟩ := closes.writes
  have early := retells_of_all
    (fun stmt member => silent_of_clearing (clears stmt member)) state agrees
  obtain ⟨flag, row⟩ := row_of_clearing clears (closes.held state known)
  obtain ⟨dispute, present, same⟩ := past.trans _ _ _ early.priors id copy found
  have save : silent (.write (.saveDispute id copy.status set)) :=
    fun stored => (kept stored).2
  rw [writes, applyAll_append, applyAll_append]
  generalize applyAll cleared state = middle at early row present
  have told := early.agrees.prior id dispute present
  have tells : ∀ event : OrderEvent, event.order = id →
      event.eventType = .disputeResolved →
      recordedOutcome event.data = some outcome →
      Orders.tell (replay (timeline id middle)) event =
        { replay (timeline id middle) with
          status := some (newStatus copy outcome) } := by
    intro event _ eventType recorded
    cases outcome <;>
      simp [Orders.tell, eventType, recorded, statusAfter, told, same, newStatus]
  have after : Retold middle (applyAll moved middle) := by
    cases moves with
    | stays target =>
        refine early.agrees.recordEvent ((tells _ rfl rfl rfl).trans ?_)
        rw [target, ← early.agrees.status id _ row]
    | moves edge =>
        let event : OrderEvent :=
          { order := id, eventType := .disputeResolved,
            data := .nestedOutcome outcome }
        have move : Retold middle
            (applyAll (moving id (newStatus copy outcome) [event]) middle) :=
          early.agrees.move (by simp [event]) (tells event rfl rfl rfl)
        exact move
  exact early.trans (after.trans (retells_of_silent save _ after.agrees))

end Disputes

end KnowledgeMarketplace
