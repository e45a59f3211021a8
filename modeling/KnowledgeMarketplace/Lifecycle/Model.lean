import KnowledgeMarketplace.Disputes.Services

/-!
# The life cycle of requests, orders and disputes

What the status columns of the three tables can do together.  Each event names
one business step; the services are shown to take only such steps.
-/

namespace KnowledgeMarketplace

/-- The statuses of a request that has an order. -/
def ServiceRequests.converged : RequestStatus → Bool
  | .matched | .inProgress | .completed | .cancelled => true
  | _ => false

/-- The statuses of a dispute stay open, or stay resolved. -/
theorem Disputes.review_open
    {fromStatus toStatus : DisputeStatus}
    (edge : (Disputes.transitions fromStatus toStatus).isSome)
    (unresolved : toStatus ≠ .resolved) :
    fromStatus ∈ Disputes.openStatuses ↔ toStatus ∈ Disputes.openStatuses := by
  revert edge unresolved
  cases fromStatus <;> cases toStatus <;> decide

/-- The columns of an order that the life cycle is about. -/
structure OrderState where
  request : RequestId
  status : OrderStatus
  frozen : Bool

/-- The columns of a dispute that the life cycle is about. -/
structure DisputeState where
  status : DisputeStatus
  prior : OrderStatus

/-- Requests, orders and disputes, by their status columns. -/
@[ext] structure Lifecycle where
  requests : RequestId → Option RequestStatus
  orders : OrderId → Option OrderState
  disputes : OrderId → Option DisputeState

namespace Lifecycle

/-- Set the status of a request. -/
def setRequest (life : Lifecycle) (id : RequestId) (status : RequestStatus) :
    Lifecycle :=
  { life with
    requests := fun other =>
      if other = id then (life.requests id).map fun _ => status
      else life.requests other }

/-- Change an order. -/
def setOrder (life : Lifecycle) (id : OrderId)
    (change : OrderState → OrderState) : Lifecycle :=
  { life with
    orders := fun other =>
      if other = id then (life.orders id).map change else life.orders other }

/-- Set the status of an order. -/
def setStatus (life : Lifecycle) (id : OrderId) (status : OrderStatus) :
    Lifecycle :=
  life.setOrder id fun order => { order with status }

/-- Set the status of a dispute. -/
def setDispute (life : Lifecycle) (id : OrderId) (status : DisputeStatus) :
    Lifecycle :=
  { life with
    disputes := fun other =>
      if other = id then
        (life.disputes id).map fun dispute => { dispute with status }
      else
        life.disputes other }

/-- A new order of a request. -/
def addOrder (life : Lifecycle) (id : OrderId) (request : RequestId) :
    Lifecycle :=
  { life with
    orders := fun other =>
      if other = id then some ⟨request, .awaitingPayment, false⟩
      else life.orders other }

/-- A new dispute about an order. -/
def addDispute (life : Lifecycle) (id : OrderId) (prior : OrderStatus) :
    Lifecycle :=
  { life with
    disputes := fun other =>
      if other = id then some ⟨.opened, prior⟩ else life.disputes other }

/-- The request follows its order, from some of its statuses. -/
def follow (life : Lifecycle) (id : RequestId)
    (fromStatuses : List RequestStatus) (toStatus : RequestStatus) :
    Lifecycle :=
  if (life.requests id).any (· ∈ fromStatuses) then life.setRequest id toStatus
  else life

@[simp] theorem follow_orders
    (life : Lifecycle) (id : RequestId) (fromStatuses : List RequestStatus)
    (toStatus : RequestStatus) :
    (life.follow id fromStatuses toStatus).orders = life.orders := by
  unfold follow
  split_ifs <;> rfl

@[simp] theorem follow_disputes
    (life : Lifecycle) (id : RequestId) (fromStatuses : List RequestStatus)
    (toStatus : RequestStatus) :
    (life.follow id fromStatuses toStatus).disputes = life.disputes := by
  unfold follow
  split_ifs <;> rfl

/-- The request that follows. -/
theorem follow_request
    {life : Lifecycle} {id : RequestId} {status : RequestStatus}
    {fromStatuses : List RequestStatus} {toStatus : RequestStatus}
    (stored : life.requests id = some status) :
    (life.follow id fromStatuses toStatus).requests id =
      some (if status ∈ fromStatuses then toStatus else status) := by
  unfold follow
  split_ifs <;> simp_all [setRequest]

/-- The other requests. -/
theorem follow_request_other
    {life : Lifecycle} {id other : RequestId}
    {fromStatuses : List RequestStatus} {toStatus : RequestStatus}
    (different : other ≠ id) :
    (life.follow id fromStatuses toStatus).requests other =
      life.requests other := by
  unfold follow
  split_ifs <;> simp [setRequest, different]

/-- Two changes of an order are one. -/
theorem setOrder_setOrder
    (life : Lifecycle) (id : OrderId) (first second : OrderState → OrderState) :
    (life.setOrder id first).setOrder id second =
      life.setOrder id fun order => second (first order) := by
  refine Lifecycle.ext rfl (funext fun other => ?_) rfl
  by_cases same : other = id <;>
    simp [setOrder, same, Option.map_map, Function.comp_def]

/-- Only the stored order matters. -/
theorem setOrder_congr
    {life : Lifecycle} {id : OrderId} {order : OrderState}
    {first second : OrderState → OrderState}
    (stored : life.orders id = some order) (same : first order = second order) :
    life.setOrder id first = life.setOrder id second := by
  refine Lifecycle.ext rfl (funext fun other => ?_) rfl
  by_cases key : other = id <;> simp [setOrder, key, stored, same]

/-- A change that changes nothing. -/
theorem setOrder_self
    {life : Lifecycle} {id : OrderId} {order : OrderState}
    {change : OrderState → OrderState}
    (stored : life.orders id = some order) (same : change order = order) :
    life.setOrder id change = life := by
  refine Lifecycle.ext rfl (funext fun other => ?_) rfl
  by_cases key : other = id <;> simp [setOrder, key, stored, same]

/-- The business steps. -/
inductive Event where
  /-- Requests without an order are created, edited, published or rejected. -/
  | triage
  /-- The student closes a request. -/
  | close (request : RequestId)
  | accept (request : RequestId) (order : OrderId)
  | pay (order : OrderId)
  | deliver (order : OrderId)
  | revise (order : OrderId)
  | approve (order : OrderId)
  | cancel (order : OrderId)
  | sweep (order : OrderId)
  | openDispute (order : OrderId)
  | review (order : OrderId)
  | resolve (order : OrderId) (toStatus : OrderStatus)

/-- What the business steps do, and when they are possible. -/
inductive Step : Lifecycle → Event → Lifecycle → Prop where
  | triage {life later : Lifecycle} :
      later.orders = life.orders →
      later.disputes = life.disputes →
      (∀ id status, life.requests id = some status →
        ServiceRequests.converged status = true →
        later.requests id = some status) →
      Step life .triage later
  | close {life : Lifecycle} {id : RequestId} {status : RequestStatus} :
      life.requests id = some status →
      (ServiceRequests.transitions status .cancelled).isSome →
      Step life (.close id) (life.setRequest id .cancelled)
  | accept {life : Lifecycle} {id : RequestId} {key : OrderId}
      {status : RequestStatus} :
      life.requests id = some status →
      (ServiceRequests.transitions status .matched).isSome →
      life.orders key = none →
      Step life (.accept id key) ((life.setRequest id .matched).addOrder key id)
  | pay {life : Lifecycle} {id : OrderId} {order : OrderState} :
      life.orders id = some order →
      order.status = .awaitingPayment →
      Step life (.pay id)
        ((life.setStatus id .active).follow order.request [.matched] .inProgress)
  | deliver {life : Lifecycle} {id : OrderId} {order : OrderState} :
      life.orders id = some order →
      order.status = .active ∨ order.status = .revisionRequested →
      Step life (.deliver id) (life.setStatus id .delivered)
  | revise {life : Lifecycle} {id : OrderId} {order : OrderState} :
      life.orders id = some order →
      order.status = .delivered →
      Step life (.revise id) (life.setStatus id .revisionRequested)
  | approve {life : Lifecycle} {id : OrderId} {order : OrderState} :
      life.orders id = some order →
      order.status = .delivered →
      Step life (.approve id)
        ((life.setStatus id .completed).follow order.request [.inProgress]
          .completed)
  | cancel {life : Lifecycle} {id : OrderId} {order : OrderState} :
      life.orders id = some order →
      (Orders.transitions order.status .cancelled).isSome →
      Step life (.cancel id)
        ((life.setStatus id .cancelled).follow order.request
          [.matched, .inProgress] .cancelled)
  | sweep {life : Lifecycle} {id : OrderId} {order : OrderState} :
      life.orders id = some order →
      order.status = .awaitingPayment →
      Step life (.sweep id) (life.setStatus id .cancelled)
  | openDispute {life : Lifecycle} {id : OrderId} {order : OrderState} :
      life.orders id = some order →
      life.disputes id = none →
      order.status = .completed ∨ order.status ∈ Disputes.disputableStatuses →
      Step life (.openDispute id)
        ((life.setOrder id fun order =>
          { order with frozen := true, status := .disputed }).addDispute id
            order.status)
  | review {life : Lifecycle} {id : OrderId} {dispute : DisputeState}
      {toStatus : DisputeStatus} :
      life.disputes id = some dispute →
      (Disputes.transitions dispute.status toStatus).isSome →
      toStatus ≠ .resolved →
      Step life (.review id) (life.setDispute id toStatus)
  | resolve {life : Lifecycle} {id : OrderId} {order : OrderState}
      {dispute : DisputeState} {toStatus : OrderStatus} :
      life.orders id = some order →
      life.disputes id = some dispute →
      dispute.status = .underReview →
      toStatus ∈ [.cancelled, .completed, dispute.prior] →
      toStatus = order.status ∨
        (Orders.transitions order.status toStatus).isSome →
      Step life (.resolve id toStatus)
        ((life.setOrder id fun order =>
          { order with frozen := false, status := toStatus }).setDispute id
            .resolved)

/-- A step to an equal life cycle. -/
theorem Step.reaching
    {life target later : Lifecycle} {event : Event}
    (step : Step life event target) (same : later = target) :
    Step life event later :=
  same ▸ step

/-- Several business steps, one after the other. -/
inductive Steps : Lifecycle → List Event → Lifecycle → Prop where
  | nil {life : Lifecycle} : Steps life [] life
  | cons {life next last : Lifecycle} {event : Event} {events : List Event} :
      Step life event next → Steps next events last →
      Steps life (event :: events) last

/-- A step after others. -/
theorem Steps.append
    {life next last : Lifecycle} {first second : List Event}
    (before : Steps life first next) (after : Steps next second last) :
    Steps life (first ++ second) last := by
  induction before with
  | nil => exact after
  | cons step _ inductionHypothesis => exact .cons step (inductionHypothesis after)

/-- What every step of some events keeps, all of them keep. -/
theorem Steps.keeps
    {life later : Lifecycle} {events : List Event}
    (steps : Steps life events later) (invariant : Lifecycle → Prop)
    (kept : ∀ event ∈ events, ∀ current next, invariant current →
      Step current event next → invariant next)
    (start : invariant life) : invariant later := by
  induction steps with
  | nil => exact start
  | cons step _ inductionHypothesis =>
      exact inductionHypothesis
        (fun event member => kept event (List.mem_cons_of_mem _ member))
        (kept _ List.mem_cons_self _ _ start step)

end Lifecycle

end KnowledgeMarketplace
