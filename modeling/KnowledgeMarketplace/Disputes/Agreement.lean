import KnowledgeMarketplace.Lifecycle.Operations

/-!
# The payout freeze and the dispute agree

An open dispute is recorded three times: as the flag of its order, as the
order's status, and as the dispute's own status.  Every business step keeps the
three in agreement, except the cancellation of a disputed order.
-/

namespace KnowledgeMarketplace

open Transaction Lifecycle

namespace Disputes

/-- The flag, the order's status and the dispute's status say the same. -/
def Agreed (order : OrderState) (dispute : Option DisputeState) : Prop :=
  (order.frozen = true ↔ order.status = .disputed) ∧
    (order.status = .disputed ↔
      dispute.any (·.status ∈ openStatuses) = true)

/-- Statuses in which disputes have been opened. -/
def priorStatuses : List OrderStatus :=
  .completed :: disputableStatuses

/-- What holds of the row of an order and the row of its dispute. -/
structure AgreedAt
    (order : Option OrderState) (dispute : Option DisputeState) : Prop where
  agreed : ∀ state, order = some state → Agreed state dispute
  known : order = none → dispute = none
  prior : ∀ state, dispute = some state → state.prior ∈ priorStatuses

/-- All orders agree with their disputes. -/
def AllAgreed (life : Lifecycle) : Prop :=
  ∀ id, AgreedAt (life.orders id) (life.disputes id)

variable {life : Lifecycle}

/-- Moves between statuses without a dispute keep the agreement. -/
theorem AgreedAt.undisputed
    {order : OrderState} {dispute : Option DisputeState} {toStatus : OrderStatus}
    (agreed : AgreedAt (some order) dispute)
    (before : order.status ≠ .disputed) (after : toStatus ≠ .disputed) :
    AgreedAt (some { order with status := toStatus }) dispute := by
  refine ⟨fun state same => ?_, by simp, agreed.prior⟩
  obtain rfl := Option.some.inj same
  have rows := agreed.agreed order rfl
  unfold Agreed at rows ⊢
  simp_all

/-- Setting the status of an undisputed order. -/
theorem AllAgreed.setStatus
    {id : OrderId} {order : OrderState} {toStatus : OrderStatus}
    (agreed : AllAgreed life) (stored : life.orders id = some order)
    (before : order.status ≠ .disputed) (after : toStatus ≠ .disputed) :
    AllAgreed (life.setStatus id toStatus) := by
  intro other
  by_cases same : other = id
  · subst same
    have here := agreed other
    rw [stored] at here
    simpa [Lifecycle.setStatus, setOrder, stored] using
      here.undisputed before after
  · simpa [Lifecycle.setStatus, setOrder, same] using agreed other

/-- Requests do not matter. -/
theorem AllAgreed.follow
    {id : RequestId} {fromStatuses : List RequestStatus}
    {toStatus : RequestStatus} (agreed : AllAgreed life) :
    AllAgreed (life.follow id fromStatuses toStatus) := by
  unfold Lifecycle.follow
  split_ifs <;> exact agreed

theorem AllAgreed.openDispute
    {id : OrderId} {order : OrderState} (agreed : AllAgreed life)
    (stored : life.orders id = some order)
    (allowed : order.status = .completed ∨
      order.status ∈ disputableStatuses) :
    AllAgreed ((life.setOrder id fun order =>
      { order with frozen := true, status := .disputed }).addDispute id
        order.status) := by
  intro other
  by_cases same : other = id
  · subst same
    have prior : order.status ∈ priorStatuses := by
      simpa [priorStatuses] using allowed
    refine ⟨?_, ?_, ?_⟩
    · simp [addDispute, setOrder, stored, Agreed, openStatuses]
    · simp [addDispute, setOrder, stored]
    · simpa [addDispute] using prior
  · simpa [addDispute, setOrder, same] using agreed other

theorem AllAgreed.review
    {id : OrderId} {dispute : DisputeState} {toStatus : DisputeStatus}
    (agreed : AllAgreed life) (stored : life.disputes id = some dispute)
    (edge : (transitions dispute.status toStatus).isSome)
    (unresolved : toStatus ≠ .resolved) :
    AllAgreed (life.setDispute id toStatus) := by
  intro other
  by_cases same : other = id
  · subst same
    have here := agreed other
    have still := review_open edge unresolved
    rw [stored] at here
    refine ⟨fun state row => ?_, fun row => ?_, ?_⟩
    · have rows := here.agreed state row
      simpa [Agreed, setDispute, stored, ← still] using rows
    · simpa using here.known row
    · simpa [setDispute, stored] using here.prior dispute rfl
  · simpa [setDispute, same] using agreed other

theorem AllAgreed.resolve
    {id : OrderId} {dispute : DisputeState} {toStatus : OrderStatus}
    (agreed : AllAgreed life) (stored : life.disputes id = some dispute)
    (target : toStatus ∈ [.cancelled, .completed, dispute.prior]) :
    AllAgreed ((life.setOrder id fun order =>
      { order with frozen := false, status := toStatus }).setDispute id
        .resolved) := by
  intro other
  by_cases same : other = id
  · subst same
    have here := agreed other
    rw [stored] at here
    have prior := here.prior dispute rfl
    have settled : toStatus ≠ .disputed := by
      rintro rfl
      have disputed : dispute.prior = .disputed := by simpa [eq_comm] using target
      simp [disputed, priorStatuses, disputableStatuses] at prior
    refine ⟨?_, ?_, ?_⟩
    · simp [setDispute, setOrder, stored, Agreed, openStatuses, settled]
    · intro row
      simpa using here.known (by simpa [setDispute, setOrder] using row)
    · simpa [setDispute, setOrder, stored] using prior
  · simpa [setDispute, setOrder, same] using agreed other

/-- Every step keeps the agreement, unless it cancels a disputed order. -/
theorem AllAgreed.step
    {event : Event} {later : Lifecycle} (agreed : AllAgreed life)
    (taken : Step life event later)
    (spared : ∀ id order, event = .cancel id → life.orders id = some order →
      order.status ≠ .disputed) : AllAgreed later := by
  cases taken with
  | triage orders disputes _ =>
      intro id
      rw [orders, disputes]
      exact agreed id
  | close stored edge => exact agreed
  | accept stored edge free =>
      rename_i request key status
      intro other
      by_cases same : other = key
      · subst same
        have unknown := (agreed other).known free
        refine ⟨?_, ?_, ?_⟩ <;>
          simp [addOrder, Lifecycle.setRequest, unknown, Agreed]
      · simpa [addOrder, Lifecycle.setRequest, same] using agreed other
  | pay stored waiting =>
      exact (agreed.setStatus stored (by simp [waiting]) (by simp)).follow
  | deliver stored working =>
      exact agreed.setStatus stored (by rcases working with at_ | at_ <;> simp [at_])
        (by simp)
  | revise stored delivered =>
      exact agreed.setStatus stored (by simp [delivered]) (by simp)
  | approve stored delivered =>
      exact (agreed.setStatus stored (by simp [delivered]) (by simp)).follow
  | cancel stored edge =>
      exact (agreed.setStatus stored (spared _ _ rfl stored) (by simp)).follow
  | sweep stored waiting =>
      exact agreed.setStatus stored (by simp [waiting]) (by simp)
  | openDispute stored fresh allowed => exact agreed.openDispute stored allowed
  | review stored edge unresolved => exact agreed.review stored edge unresolved
  | resolve stored found underReview target edge =>
      exact agreed.resolve found target

/-! ## Runs of operations -/

/-- The operation is no cancellation of a disputed order by staff. -/
def sparesDisputed : Operation → Db → Prop
  | .order (.cancel _ id actor reason), db =>
      actor.isStaff = true → reason ≠ "" →
        ∀ order, db.orders.row id = some order → order.status ≠ .disputed
  | _, _ => True

/-- The flag, the status and the open dispute of every order agree. -/
structure FreezeAgrees (db : Db) : Prop where
  agreed : ∀ id order, db.orders.row id = some order →
    (order.hasOpenDispute = true ↔ order.status = .disputed) ∧
      (order.status = .disputed ↔
        (db.disputes.row id).any (·.status ∈ openStatuses) = true)
  known : ∀ id, db.orders.row id = none → db.disputes.row id = none
  prior : ∀ id dispute, db.disputes.row id = some dispute →
    dispute.priorOrderStatus ∈ priorStatuses

theorem freezeAgrees_iff {db : Db} :
    FreezeAgrees db ↔ AllAgreed db.lifecycle := by
  constructor
  · intro agrees id
    refine ⟨fun state row => ?_, fun row => ?_, fun state row => ?_⟩
    · obtain ⟨order, stored, rfl⟩ := Option.map_eq_some_iff.mp row
      have rows := agrees.agreed id order stored
      rcases found : db.disputes.row id with _ | dispute <;>
        simpa [Agreed, Db.lifecycle, Order.state, Dispute.state, found] using rows
    · have absent := agrees.known id (Option.map_eq_none_iff.mp row)
      simp [Db.lifecycle, absent]
    · obtain ⟨dispute, stored, rfl⟩ := Option.map_eq_some_iff.mp row
      exact agrees.prior id dispute stored
  · intro agreed
    refine ⟨fun id order stored => ?_, fun id absent => ?_,
      fun id dispute stored => ?_⟩
    · have rows := (agreed id).agreed order.state (lifecycle_order stored)
      rcases found : db.disputes.row id with _ | dispute <;>
        simpa [Agreed, Db.lifecycle, Order.state, Dispute.state, found] using rows
    · have unknown := (agreed id).known (by simp [Db.lifecycle, absent])
      simpa [Db.lifecycle] using unknown
    · exact (agreed id).prior dispute.state (lifecycle_dispute stored)

/-- An operation that spares disputed orders keeps the agreement. -/
theorem FreezeAgrees.after
    {operation : Operation} {db : Db} (agrees : FreezeAgrees db)
    (spares : sparesDisputed operation db) :
    FreezeAgrees (operation.after db) := by
  rw [freezeAgrees_iff] at agrees ⊢
  refine (operation.evolves db).keeps AllAgreed ?step ?job agrees
  case step =>
    intro event later cause taken
    refine agrees.step taken fun id state same row => ?_
    subst same
    obtain ⟨env, actor, reason, rfl, given, entitled⟩ := cause
    obtain ⟨order, stored, rfl⟩ := Option.map_eq_some_iff.mp row
    rcases entitled with staff | waiting
    · exact spares staff given order stored
    · have status : order.status = .awaitingPayment := by
        simpa [stored] using waiting
      simp [Order.state, status]
  case job =>
    intro event current later isJob _ agreed taken
    refine agreed.step taken fun id _ same _ => ?_
    subst same
    exact isJob.elim

/--
In every run of operations of which none cancels a disputed order, the freeze
agrees with the disputes.
-/
theorem freeze_agrees
    (start : Db) (agrees : FreezeAgrees start) (operations : List Operation)
    (spare : Operation.AllMeet sparesDisputed operations start) :
    FreezeAgrees (Operation.afterAll operations start) :=
  spare.keeps FreezeAgrees (fun _ _ spares current => current.after spares)
    agrees

/-- A paid order under work, without a dispute. -/
def underWork : Db :=
  { requests := .insert .empty 10 { student := 1, status := .inProgress }
    orders := .insert .empty 40
      { request := 10
        student := 1
        expert := 2
        source := .openBid
        amount := 5000
        commissionAmount := 750
        expertAmount := 4250
        status := .active
        paidAt := some 1
        createdAt := 0 }
    payments := .insert .empty 40
      { gateway := .manual
        providerReference := some "manual-pay-1"
        amountMinor := 5000
        status := .succeeded } }

theorem underWork_agrees : FreezeAgrees underWork := by
  refine ⟨fun id order stored => ?_, fun _ _ => rfl, fun _ _ stored => ?_⟩
  · simp only [underWork, Table.row_insert, Table.row_empty, and_true,
      Option.ite_none_right_eq_some, Option.some.injEq] at stored
    obtain ⟨-, rfl⟩ := stored
    simp [underWork]
  · simp [underWork] at stored

/-- The student disputes the order. -/
def dispute : Operation :=
  .dispute (.openDispute { now := 2 } 40 ⟨1, false⟩ .qualityBelowExpectations
    "The report misses two chapters." (.ok ()))

/-- Support resolves a dispute and closes it. -/
def fullReview : List Operation :=
  [.dispute (.takeCase 40 (some ⟨9, true⟩)),
    .dispute (.resolve { now := 3, key := 70 } 40 (some ⟨9, true⟩)
      .refundStudentFull "Two chapters are missing." none),
    .dispute (.close { now := 4 } 40 (some ⟨9, true⟩))]

/-- The columns of an order and of its dispute. -/
def freezeColumns (db : Db) :
    Option (OrderStatus × Bool) × Option DisputeStatus :=
  ((db.orders.row 40).map fun order => (order.status, order.hasOpenDispute),
    (db.disputes.row 40).map Dispute.status)

/-- A dispute that support resolves leaves nothing frozen. -/
theorem freeze_agrees_review :
    FreezeAgrees (Operation.afterAll (dispute :: fullReview) underWork) ∧
      freezeColumns (Operation.afterAll (dispute :: fullReview) underWork) =
        (some (.cancelled, false), some .closed) := by
  refine ⟨freeze_agrees underWork underWork_agrees (dispute :: fullReview) ?_,
    by decide +kernel⟩
  exact ⟨trivial, trivial, trivial, trivial, trivial⟩

/-- Support cancels the disputed order. -/
def cancelDisputed : Operation :=
  .order (.cancel { now := 3 } 40 ⟨9, true⟩ "Both parties gave up.")

/-- The cancelled order stays frozen and its dispute open. -/
theorem cancel_leaves_dispute_open :
    let last := Operation.afterAll [dispute, cancelDisputed] underWork
    freezeColumns last = (some (.cancelled, true), some .opened) ∧
      ¬FreezeAgrees last := by
  intro last
  have columns : freezeColumns last =
      (some (.cancelled, true), some .opened) := by decide +kernel
  refine ⟨columns, fun agrees => ?_⟩
  have orderColumns : (last.orders.row 40).map (fun order =>
      (order.status, order.hasOpenDispute)) = some (.cancelled, true) :=
    congrArg Prod.fst columns
  obtain ⟨order, stored, pair⟩ := Option.map_eq_some_iff.mp orderColumns
  obtain ⟨status, flag⟩ := Prod.mk.inj pair
  have disputed := (agrees.agreed 40 order stored).1.mp flag
  simp [status] at disputed

end Disputes

end KnowledgeMarketplace
