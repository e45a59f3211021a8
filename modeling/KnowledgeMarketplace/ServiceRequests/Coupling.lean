import KnowledgeMarketplace.Lifecycle.Operations
import KnowledgeMarketplace.Orders.Rules

/-!
# Requests and orders are coupled

The status of an order determines the status of its request.  The services move
the two together, except where a request is closed, an unpaid order is swept,
or a dispute ends in a status that its request has not.
-/

namespace KnowledgeMarketplace

open Transaction Lifecycle

namespace ServiceRequests

/-- The request's status, given its order and the order's dispute. -/
def coupledStatus (dispute : Option DisputeState) :
    OrderStatus → RequestStatus
  | .awaitingPayment => .matched
  | .active | .delivered | .revisionRequested => .inProgress
  | .completed => .completed
  | .cancelled => .cancelled
  | .disputed =>
      -- an order disputed after its completion leaves its request completed
      if dispute.any (·.prior = .completed) then .completed else .inProgress

theorem coupledStatus_converged
    (dispute : Option DisputeState) (status : OrderStatus) :
    converged (coupledStatus dispute status) = true := by
  cases status <;> simp only [coupledStatus] <;> try rfl
  split_ifs <;> rfl

/-- What holds of an order, its request and its dispute. -/
structure CoupledAt
    (request : Option RequestStatus) (order : OrderState)
    (dispute : Option DisputeState) : Prop where
  coupled : request = some (coupledStatus dispute order.status)
  pending : ∀ state, dispute = some state →
    state.status ∈ Disputes.openStatuses →
    order.status = .disputed ∨ order.status = .cancelled
  prior : ∀ state, dispute = some state →
    state.prior = .completed ∨ state.prior ∈ Disputes.disputableStatuses

/-- All orders are coupled to their requests, one order to a request. -/
structure AllCoupled (life : Lifecycle) : Prop where
  orders : ∀ id order, life.orders id = some order →
    CoupledAt (life.requests order.request) order (life.disputes id)
  single : ∀ first second one other, life.orders first = some one →
    life.orders second = some other → one.request = other.request →
    first = second
  known : ∀ id, life.orders id = none → life.disputes id = none

variable {life later : Lifecycle}

/-- A step on one order, its request and its dispute. -/
theorem AllCoupled.update
    {id : OrderId} {order : OrderState} (coupled : AllCoupled life)
    (after : OrderState) (stored : life.orders id = some order)
    (row : later.orders id = some after) (same : after.request = order.request)
    (orders : ∀ other, other ≠ id → later.orders other = life.orders other)
    (requests : ∀ other, other ≠ order.request →
      later.requests other = life.requests other)
    (disputes : ∀ other, other ≠ id →
      later.disputes other = life.disputes other)
    (here : CoupledAt (life.requests order.request) order (life.disputes id) →
      CoupledAt (later.requests order.request) after (later.disputes id)) :
    AllCoupled later := by
  have about : ∀ other state, later.orders other = some state →
      ∃ before, life.orders other = some before ∧
        before.request = state.request := by
    intro other state present
    by_cases key : other = id
    · subst key
      rw [row] at present
      obtain rfl := Option.some.inj present
      exact ⟨order, stored, same.symm⟩
    · exact ⟨state, orders other key ▸ present, rfl⟩
  refine ⟨fun other state present => ?_, fun first second one two => ?_,
    fun other absent => ?_⟩
  · by_cases key : other = id
    · subst key
      rw [row] at present
      obtain rfl := Option.some.inj present
      rw [same]
      exact here (coupled.orders other order stored)
    · rw [orders other key] at present
      have apart : state.request ≠ order.request := fun shared =>
        key (coupled.single other id state order present stored shared)
      rw [requests _ apart, disputes _ key]
      exact coupled.orders other state present
  · intro firstRow secondRow shared
    obtain ⟨before, beforeRow, beforeSame⟩ := about first one firstRow
    obtain ⟨behind, behindRow, behindSame⟩ := about second two secondRow
    exact coupled.single first second before behind beforeRow behindRow
      (beforeSame.trans (shared.trans behindSame.symm))
  · by_cases key : other = id
    · subst key
      simp [row] at absent
    · rw [orders other key] at absent
      rw [disputes other key]
      exact coupled.known other absent

/-- The request follows the order. -/
theorem AllCoupled.follow
    {id : OrderId} {order : OrderState} {toStatus : OrderStatus}
    {fromStatuses : List RequestStatus} {target : RequestStatus}
    (coupled : AllCoupled life) (stored : life.orders id = some order)
    (follows : (if coupledStatus (life.disputes id) order.status ∈ fromStatuses
      then target else coupledStatus (life.disputes id) order.status) =
        coupledStatus (life.disputes id) toStatus)
    (settled : toStatus = .cancelled ∨
      order.status ≠ .disputed ∧ order.status ≠ .cancelled) :
    AllCoupled ((life.setStatus id toStatus).follow order.request fromStatuses
      target) := by
  have row : (life.setStatus id toStatus).requests order.request =
      some (coupledStatus (life.disputes id) order.status) :=
    (coupled.orders id order stored).coupled
  refine coupled.update { order with status := toStatus } stored ?_ rfl ?_ ?_ ?_ ?_
  · simp [Lifecycle.setStatus, setOrder, stored]
  · intro other different
    simp [Lifecycle.setStatus, setOrder, different]
  · exact fun other different => follow_request_other different
  · intro other _
    simp [Lifecycle.setStatus, setOrder]
  · intro here
    rw [follow_disputes]
    refine ⟨?_, fun state found unresolved => ?_, here.prior⟩
    · exact (follow_request row).trans (congrArg some follows)
    · rcases settled with cancelled | undisputed
      · exact .inr cancelled
      · rcases here.pending state found unresolved with disputed | cancelled
        · exact absurd disputed undisputed.1
        · exact absurd cancelled undisputed.2

/-- A status for which the request need not move. -/
theorem AllCoupled.stay
    {id : OrderId} {order : OrderState} {toStatus : OrderStatus}
    (coupled : AllCoupled life) (stored : life.orders id = some order)
    (follows : coupledStatus (life.disputes id) order.status =
      coupledStatus (life.disputes id) toStatus)
    (settled : order.status ≠ .disputed ∧ order.status ≠ .cancelled) :
    AllCoupled (life.setStatus id toStatus) := by
  have followed : AllCoupled
      ((life.setStatus id toStatus).follow order.request [] .draft) :=
    coupled.follow stored (by simpa using follows) (.inr settled)
  simpa [Lifecycle.follow] using followed

theorem AllCoupled.accept
    {id : RequestId} {key : OrderId} {status : RequestStatus}
    (coupled : AllCoupled life) (stored : life.requests id = some status)
    (edge : (transitions status .matched).isSome)
    (free : life.orders key = none) :
    AllCoupled ((life.setRequest id .matched).addOrder key id) := by
  have unmatched : ∀ other order, life.orders other = some order →
      order.request ≠ id := by
    intro other order row shared
    have here := (coupled.orders other order row).coupled
    rw [shared, stored] at here
    rw [Option.some.inj here] at edge
    revert edge
    cases order.status <;> simp [coupledStatus, transitions]
    split_ifs <;> simp
  refine ⟨fun other order row => ?_, fun first second one two => ?_,
    fun other absent => ?_⟩
  · by_cases same : other = key
    · subst same
      have unknown := coupled.known other free
      obtain rfl : _ = order := by simpa [addOrder] using row
      refine ⟨?_, ?_, ?_⟩ <;>
        simp [addOrder, Lifecycle.setRequest, unknown, coupledStatus, stored]
    · have before : life.orders other = some order := by
        simpa [addOrder, Lifecycle.setRequest, same] using row
      have apart := unmatched other order before
      simpa [addOrder, Lifecycle.setRequest, apart] using
        coupled.orders other order before
  · simp only [addOrder, Lifecycle.setRequest]
    intro firstRow secondRow shared
    by_cases isFirst : first = key <;> by_cases isSecond : second = key
    · rw [isFirst, isSecond]
    · simp only [isFirst, isSecond, if_true, if_false,
        Option.some.injEq] at firstRow secondRow
      subst firstRow
      exact absurd shared.symm (unmatched second two secondRow)
    · simp only [isFirst, isSecond, if_true, if_false,
        Option.some.injEq] at firstRow secondRow
      subst secondRow
      exact absurd shared (unmatched first one firstRow)
    · simp only [isFirst, isSecond, if_false] at firstRow secondRow
      exact coupled.single first second one two firstRow secondRow shared
  · by_cases same : other = key
    · simp [addOrder, same] at absent
    · exact coupled.known other (by
        simpa [addOrder, Lifecycle.setRequest, same] using absent)

theorem AllCoupled.openDispute
    {id : OrderId} {order : OrderState} (coupled : AllCoupled life)
    (stored : life.orders id = some order)
    (allowed : order.status = .completed ∨
      order.status ∈ Disputes.disputableStatuses) :
    AllCoupled ((life.setOrder id fun order =>
      { order with frozen := true, status := .disputed }).addDispute id
        order.status) := by
  refine coupled.update { order with frozen := true, status := .disputed } stored
    ?_ rfl ?_ ?_ ?_ ?_
  · simp [addDispute, setOrder, stored]
  · intro other different
    simp [addDispute, setOrder, different]
  · exact fun _ _ => rfl
  · intro other different
    simp [addDispute, setOrder, different]
  · intro here
    have request : life.requests order.request =
        some (coupledStatus (some ⟨.opened, order.status⟩) .disputed) := by
      rw [here.coupled]
      rcases allowed with completed | working
      · simp [completed, coupledStatus]
      · simp only [Disputes.disputableStatuses, List.mem_cons,
          List.not_mem_nil, or_false] at working
        rcases working with status | status | status <;>
          simp [status, coupledStatus]
    refine ⟨?_, fun _ _ _ => .inl rfl, ?_⟩
    · simpa [addDispute, setOrder] using request
    · simpa [addDispute] using allowed

theorem AllCoupled.review
    {id : OrderId} {dispute : DisputeState} {toStatus : DisputeStatus}
    (coupled : AllCoupled life) (stored : life.disputes id = some dispute)
    (edge : (Disputes.transitions dispute.status toStatus).isSome)
    (unresolved : toStatus ≠ .resolved) :
    AllCoupled (life.setDispute id toStatus) := by
  have still := Disputes.review_open edge unresolved
  refine ⟨fun other order row => ?_, coupled.single, fun other absent => ?_⟩
  · have here := coupled.orders other order row
    by_cases same : other = id
    · subst same
      rw [stored] at here
      have kept : (life.setDispute other toStatus).disputes other =
          some { dispute with status := toStatus } := by
        simp [setDispute, stored]
      rw [kept]
      refine ⟨here.coupled, fun state found pending => ?_, fun state found => ?_⟩
      · obtain rfl := Option.some.inj found
        exact here.pending dispute rfl (still.mpr pending)
      · obtain rfl := Option.some.inj found
        exact here.prior dispute rfl
    · simpa [setDispute, same] using here
  · have unknown := coupled.known other absent
    by_cases same : other = id
    · simp [← same, setDispute, unknown]
    · simpa [setDispute, same] using unknown

/-- A resolution that leads a disputed order back to its prior status. -/
theorem AllCoupled.resolve
    {id : OrderId} {order : OrderState} {dispute : DisputeState}
    {toStatus : OrderStatus} (coupled : AllCoupled life)
    (stored : life.orders id = some order)
    (found : life.disputes id = some dispute)
    (underReview : dispute.status = .underReview)
    (edge : toStatus = order.status ∨
      (Orders.transitions order.status toStatus).isSome)
    (back : order.status = .disputed → toStatus = dispute.prior) :
    AllCoupled ((life.setOrder id fun order =>
      { order with frozen := false, status := toStatus }).setDispute id
        .resolved) := by
  refine coupled.update { order with frozen := false, status := toStatus } stored
    ?_ rfl ?_ ?_ ?_ ?_
  · simp [setDispute, setOrder, stored]
  · intro other different
    simp [setDispute, setOrder, different]
  · exact fun _ _ => rfl
  · intro other different
    simp [setDispute, setOrder, different]
  · intro here
    rw [found] at here
    have kept : (setDispute (life.setOrder id fun order =>
        { order with frozen := false, status := toStatus }) id
          .resolved).disputes id = some { dispute with status := .resolved } := by
      simp [setDispute, setOrder, found]
    rw [kept]
    refine ⟨here.coupled.trans (congrArg some ?_), fun state row pending => ?_,
      fun state row => ?_⟩
    · rcases here.pending dispute rfl (by simp [underReview, Disputes.openStatuses])
        with disputed | cancelled
      · rw [disputed, back disputed]
        rcases here.prior dispute rfl with completed | working
        · simp [completed, coupledStatus]
        · simp only [Disputes.disputableStatuses, List.mem_cons,
            List.not_mem_nil, or_false] at working
          rcases working with status | status | status <;>
            simp [status, coupledStatus]
      · have unmoved : toStatus = .cancelled := by
          simpa [cancelled, Orders.transitions] using edge
        simp [cancelled, unmoved, coupledStatus]
    · obtain rfl := Option.some.inj row
      simp [Disputes.openStatuses] at pending
    · obtain rfl := Option.some.inj row
      exact here.prior dispute rfl

/-- The steps after which a request may have left its order. -/
def mayUncouple (life : Lifecycle) : Event → Prop
  | .close id =>
      ∃ key order, life.orders key = some order ∧ order.request = id
  | .cancel id => ∃ order, life.orders id = some order ∧
      order.status = .disputed ∧ life.requests order.request = some .completed
  | .sweep _ => True
  | .resolve id toStatus => ∃ order dispute, life.orders id = some order ∧
      life.disputes id = some dispute ∧ order.status = .disputed ∧
      toStatus ≠ dispute.prior
  | _ => False

/-- The other steps keep requests and orders coupled. -/
theorem AllCoupled.step
    {event : Event} (coupled : AllCoupled life) (taken : Step life event later)
    (safe : ¬mayUncouple life event) : AllCoupled later := by
  cases taken with
  | triage orders disputes kept =>
      refine ⟨fun id order row => ?_, ?_, ?_⟩
      · rw [orders] at row
        have here := coupled.orders id order row
        have still := kept _ _ here.coupled (coupledStatus_converged _ _)
        rw [disputes]
        exact ⟨still, here.pending, here.prior⟩
      · rw [orders]
        exact coupled.single
      · rw [orders, disputes]
        exact coupled.known
  | close stored edge =>
      rename_i id status
      refine ⟨fun other order row => ?_, coupled.single, coupled.known⟩
      have apart : order.request ≠ id := fun shared =>
        safe ⟨other, order, row, shared⟩
      simpa [Lifecycle.setRequest, apart] using coupled.orders other order row
  | accept stored edge free => exact coupled.accept stored edge free
  | pay stored waiting =>
      exact coupled.follow stored (by simp [waiting, coupledStatus])
        (by simp [waiting])
  | deliver stored working =>
      refine coupled.stay stored ?_ ?_ <;>
        rcases working with status | status <;> simp [status, coupledStatus]
  | revise stored delivered =>
      exact coupled.stay stored (by simp [delivered, coupledStatus])
        (by simp [delivered])
  | approve stored delivered =>
      exact coupled.follow stored (by simp [delivered, coupledStatus])
        (by simp [delivered])
  | cancel stored edge =>
      rename_i id order
      refine coupled.follow stored ?_ (.inl rfl)
      have row := (coupled.orders id order stored).coupled
      cases status : order.status with
      | completed | cancelled => simp [status, Orders.transitions] at edge
      | disputed =>
          have unfinished : life.requests order.request ≠ some .completed :=
            fun finished => safe ⟨order, stored, status, finished⟩
          rw [row, status] at unfinished
          revert unfinished
          simp only [coupledStatus]
          split_ifs <;> simp_all
      | _ => simp [coupledStatus]
  | sweep stored waiting => exact absurd trivial safe
  | openDispute stored fresh allowed => exact coupled.openDispute stored allowed
  | review stored edge unresolved => exact coupled.review stored edge unresolved
  | resolve stored found underReview target edge =>
      rename_i id order dispute toStatus
      refine coupled.resolve stored found underReview edge fun disputed => ?_
      by_contra different
      exact safe ⟨order, dispute, stored, found, disputed, different⟩

/-! ## Runs of operations -/

/--
The operation does not close a request that has an order, sweep unpaid orders,
cancel a disputed order whose request is completed, or resolve a dispute other
than back to the prior status.
-/
def keepsCoupling : Operation → Db → Prop
  | .request (.cancel _ owner id _), db =>
      (db.requests.row id).any (·.student = owner) = true →
        Assignments.orderExists id db = false
  | .order (.cancel _ id actor reason), db =>
      actor.isStaff = true → reason ≠ "" → ∀ order,
        db.orders.row id = some order → order.status = .disputed →
          (db.requests.row order.request).all (·.status ≠ .completed) = true
  | .order (.sweepUnpaid env), db =>
      ∀ id, (db.orders.row id).all (!Orders.unpaid env.now ·) = true
  | .dispute (.resolve _ id actor outcome _ _), db =>
      actor.any Actor.isStaff = true → ∀ order dispute,
        db.orders.row id = some order → db.disputes.row id = some dispute →
          order.status = .disputed →
            Disputes.newStatus dispute outcome = dispute.priorOrderStatus
  | _, _ => True

/-- Every order and its request are in statuses that belong together. -/
structure Coupled (db : Db) : Prop where
  orders : ∀ id order, db.orders.row id = some order → ∃ request,
    db.requests.row order.request = some request ∧
      request.status =
        coupledStatus ((db.disputes.row id).map Dispute.state) order.status
  pending : ∀ id order dispute, db.orders.row id = some order →
    db.disputes.row id = some dispute →
    dispute.status ∈ Disputes.openStatuses →
    order.status = .disputed ∨ order.status = .cancelled
  prior : ∀ id dispute, db.disputes.row id = some dispute →
    dispute.priorOrderStatus = .completed ∨
      dispute.priorOrderStatus ∈ Disputes.disputableStatuses
  single : Orders.SingleOrder db
  known : ∀ id, db.orders.row id = none → db.disputes.row id = none

theorem coupled_iff {db : Db} : Coupled db ↔ AllCoupled db.lifecycle := by
  constructor
  · intro coupled
    refine ⟨fun id state row => ?_, ?_, fun id absent => ?_⟩
    · obtain ⟨order, stored, rfl⟩ := Option.map_eq_some_iff.mp row
      obtain ⟨request, found, status⟩ := coupled.orders id order stored
      refine ⟨(lifecycle_request found).trans (congrArg some status),
        fun state disputed pending => ?_, fun state disputed => ?_⟩
      · obtain ⟨dispute, present, rfl⟩ := Option.map_eq_some_iff.mp disputed
        exact coupled.pending id order dispute stored present pending
      · obtain ⟨dispute, present, rfl⟩ := Option.map_eq_some_iff.mp disputed
        exact coupled.prior id dispute present
    · intro first second one two firstRow secondRow shared
      obtain ⟨order, stored, rfl⟩ := Option.map_eq_some_iff.mp firstRow
      obtain ⟨other, present, rfl⟩ := Option.map_eq_some_iff.mp secondRow
      exact coupled.single order.request first second ⟨order, stored, rfl⟩
        ⟨other, present, shared.symm⟩
    · have unknown := coupled.known id (Option.map_eq_none_iff.mp absent)
      simp [Db.lifecycle, unknown]
  · intro coupled
    refine ⟨fun id order stored => ?_, fun id order dispute stored present => ?_,
      fun id dispute present => ?_, fun request first second => ?_,
      fun id absent => ?_⟩
    · have here := coupled.orders id order.state (lifecycle_order stored)
      obtain ⟨request, found, status⟩ := Option.map_eq_some_iff.mp here.coupled
      exact ⟨request, found, status⟩
    · have here := coupled.orders id order.state (lifecycle_order stored)
      exact here.pending dispute.state (lifecycle_dispute present)
    · rcases stored : db.orders.row id with _ | order
      · have unknown := coupled.known id (by simp [Db.lifecycle, stored])
        rw [lifecycle_dispute present] at unknown
        cases unknown
      · have here := coupled.orders id order.state (lifecycle_order stored)
        exact here.prior dispute.state (lifecycle_dispute present)
    · rintro ⟨one, firstRow, about⟩ ⟨two, secondRow, same⟩
      exact coupled.single first second one.state two.state
        (lifecycle_order firstRow) (lifecycle_order secondRow)
        (about.trans same.symm)
    · have unknown := coupled.known id (by simp [Db.lifecycle, absent])
      simpa [Db.lifecycle] using unknown

/-- What an operation that keeps the coupling does not do. -/
theorem keepsCoupling_safe
    {operation : Operation} {db : Db} {event : Event}
    (keeps : keepsCoupling operation db) (cause : operation.Causes db event) :
    ¬mayUncouple db.lifecycle event := by
  cases event with
  | close id =>
      rintro ⟨key, state, row, about⟩
      obtain ⟨env, owner, reason, rfl, owned⟩ := cause
      obtain ⟨order, stored, rfl⟩ := Option.map_eq_some_iff.mp row
      have absent := Table.any_eq_false.mp (keeps owned) key order stored
      have apart : order.request ≠ id := by simpa using absent
      exact apart about
  | cancel id =>
      rintro ⟨state, row, disputed, finished⟩
      obtain ⟨env, actor, reason, rfl, given, entitled⟩ := cause
      obtain ⟨order, stored, rfl⟩ := Option.map_eq_some_iff.mp row
      obtain ⟨request, found, completed⟩ := Option.map_eq_some_iff.mp finished
      have status : order.status = .disputed := disputed
      have staff : actor.isStaff = true := by
        simpa [stored, status] using entitled
      have unfinished := keeps staff given order stored status
      rw [show order.request = order.state.request from rfl, found] at unfinished
      simp [completed] at unfinished
  | sweep id =>
      obtain ⟨env, rfl, due⟩ := cause
      have none_due := keeps id
      rcases stored : db.orders.row id with _ | order <;> simp_all
  | resolve id toStatus =>
      rintro ⟨state, dispute, row, present, disputed, different⟩
      obtain ⟨env, actor, outcome, notes, amount, copy, rfl, found, rfl, staff⟩ :=
        cause
      obtain ⟨order, stored, rfl⟩ := Option.map_eq_some_iff.mp row
      rw [lifecycle_dispute found] at present
      obtain rfl := Option.some.inj present
      exact different (keeps staff order copy stored found disputed)
  | _ => exact id

/-- An operation that meets the condition keeps the coupling. -/
theorem Coupled.after
    {operation : Operation} {db : Db} (coupled : Coupled db)
    (keeps : keepsCoupling operation db) : Coupled (operation.after db) := by
  rw [coupled_iff] at coupled ⊢
  refine (operation.evolves db).keeps AllCoupled ?step ?job coupled
  case step =>
    exact fun event later cause taken =>
      coupled.step taken (keepsCoupling_safe keeps cause)
  case job =>
    intro event current later isJob cause here taken
    refine here.step taken fun uncouples => ?_
    cases event with
    | sweep id => exact keepsCoupling_safe keeps cause trivial
    | approve id => exact uncouples
    | _ => exact isJob

/--
In every run of operations that meet the condition, every order and its request
are in statuses that belong together.
-/
theorem requests_coupled
    (start : Db) (coupled : Coupled start) (operations : List Operation)
    (keep : Operation.AllMeet keepsCoupling operations start) :
    Coupled (Operation.afterAll operations start) :=
  keep.keeps Coupled (fun _ _ keeps current => current.after keeps) coupled

/-! ## Runs on one request -/

/-- A matched request whose order awaits its payment. -/
def awaiting : Db :=
  { requests := .insert .empty 10 { student := 1, status := .matched }
    orders := .insert .empty 40
      { request := 10
        student := 1
        expert := 2
        source := .openBid
        amount := 5000
        commissionAmount := 750
        expertAmount := 4250
        createdAt := 0 }
    payments := .insert .empty 40
      { gateway := .manual
        providerReference := some "manual-pay-1"
        amountMinor := 5000 } }

theorem awaiting_coupled : Coupled awaiting := by
  have only : ∀ id order, awaiting.orders.row id = some order →
      id = 40 ∧ order.request = 10 ∧ order.status = .awaitingPayment := by
    intro id order stored
    simp only [awaiting, Table.row_insert, Table.row_empty, and_true,
      Option.ite_none_right_eq_some, Option.some.injEq] at stored
    obtain ⟨same, rfl⟩ := stored
    exact ⟨same, rfl, rfl⟩
  refine ⟨fun id order stored => ?_, fun _ _ _ _ absent _ => ?_,
    fun _ _ absent => ?_, fun request first second => ?_, fun _ _ => rfl⟩
  · obtain ⟨rfl, about, status⟩ := only id order stored
    rw [about, status]
    exact ⟨{ student := 1, status := .matched },
      by simp [awaiting, Table.row_insert], rfl⟩
  · simp [awaiting] at absent
  · simp [awaiting] at absent
  · rintro ⟨one, firstRow, _⟩ ⟨two, secondRow, _⟩
    exact (only first one firstRow).1.trans (only second two secondRow).1.symm

/-- The order is paid, delivered and approved. -/
def completion : List Operation :=
  [.payment (.confirmPayment { now := 1 } 40),
    .order (.submitDelivery { now := 2, key := 50 } 40 ⟨2, false⟩
      "Both chapters are attached." (.ok ())),
    .order (.approveDelivery { now := 3, key := 60 } 40 (some ⟨1, false⟩)
      .student)]

/-- The statuses of the request and of its order. -/
def statuses (db : Db) : Option RequestStatus × Option OrderStatus :=
  ((db.requests.row 10).map ServiceRequest.status,
    (db.orders.row 40).map Order.status)

/-- The request is completed with its order. -/
theorem requests_coupled_completion :
    Coupled (Operation.afterAll completion awaiting) ∧
      statuses (Operation.afterAll completion awaiting) =
        (some .completed, some .completed) := by
  refine ⟨requests_coupled awaiting awaiting_coupled completion ?_,
    by decide +kernel⟩
  exact ⟨trivial, trivial, trivial, trivial⟩

/-- Statuses that do not belong together. -/
theorem not_coupled
    {db : Db} {request : RequestStatus} {order : OrderStatus}
    (found : statuses db = (some request, some order))
    (about : (db.orders.row 40).map Order.request = some 10)
    (undisputed : order ≠ .disputed) (apart : request ≠ coupledStatus none order) :
    ¬Coupled db := by
  intro coupled
  obtain ⟨stored, row, status⟩ := Option.map_eq_some_iff.mp
    (show (db.orders.row 40).map Order.status = some order from
      congrArg Prod.snd found)
  obtain ⟨copy, present, rest⟩ := coupled.orders 40 stored row
  have same : stored.request = 10 := by simpa [row] using about
  have requests : (db.requests.row 10).map ServiceRequest.status =
      some request := congrArg Prod.fst found
  rw [same] at present
  rw [present] at requests
  refine apart ((Option.some.inj requests).symm.trans (rest.trans ?_))
  rw [status]
  cases order with
  | disputed => exact absurd rfl undisputed
  | _ => rfl

/-- The student closes the request, whose order waits for its payment. -/
def closing : List Operation :=
  [.request (.cancel { now := 1 } 1 10 "I changed my mind.")]

/-- The unpaid order is swept. -/
def sweeping : List Operation :=
  [.order (.sweepUnpaid { now := days 4 })]

/-- The paid order is disputed and refunded in full. -/
def refunding : List Operation :=
  [.payment (.confirmPayment { now := 1 } 40),
    .dispute (.openDispute { now := 2 } 40 ⟨1, false⟩ .qualityBelowExpectations
      "The report misses two chapters." (.ok ())),
    .dispute (.takeCase 40 (some ⟨9, true⟩)),
    .dispute (.resolve { now := 3, key := 70 } 40 (some ⟨9, true⟩)
      .refundStudentFull "Two chapters are missing." none)]

/-- A closed request keeps its live order; a dead order its live request. -/
theorem requests_leave_orders :
    ¬Coupled (Operation.afterAll closing awaiting) ∧
      ¬Coupled (Operation.afterAll sweeping awaiting) ∧
      ¬Coupled (Operation.afterAll refunding awaiting) := by
  have closed : statuses (Operation.afterAll closing awaiting) =
      (some .cancelled, some .awaitingPayment) := by decide +kernel
  have swept : statuses (Operation.afterAll sweeping awaiting) =
      (some .matched, some .cancelled) := by decide +kernel
  have refunded : statuses (Operation.afterAll refunding awaiting) =
      (some .inProgress, some .cancelled) := by decide +kernel
  exact ⟨not_coupled closed (by decide +kernel) (by simp) (by simp [coupledStatus]),
    not_coupled swept (by decide +kernel) (by simp) (by simp [coupledStatus]),
    not_coupled refunded (by decide +kernel) (by simp) (by simp [coupledStatus])⟩

end ServiceRequests

end KnowledgeMarketplace
