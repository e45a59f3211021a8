import KnowledgeMarketplace.Orders.AutoApproval
import KnowledgeMarketplace.Orders.Moves

/-!
# Rounds of the approval job

Run alone, on orders whose requests are there, the job approves every order of
its list: a round leaves the other orders of the list as they were.
-/

namespace KnowledgeMarketplace

open Transaction

namespace Orders

theorem moveRequest_yields
    {env : Env} {key : RequestId} {request : ServiceRequest} {db : Db}
    (stored : db.requests.row key = some request) :
    ∃ next, (moveRequest env key [.inProgress] .completed "").Yields db () next ∧
      next.orderEvents = db.orderEvents ∧ next.payouts = db.payouts := by
  by_cases working : request.status ∈ [RequestStatus.inProgress]
  · have edge : (ServiceRequests.transitions request.status
        .completed).isSome = true := by
      rw [List.mem_singleton.mp working]
      rfl
    have moves : (ServiceRequests.transition env key request .completed
        "").Yields db _ _ := .bind (.require edge) (.bind .exec .pure)
    exact ⟨_, .bind (.bind .read (.orFail stored))
      (.ite_true working (.bind moves .pure)), rfl, rfl⟩
  · exact ⟨db, .bind (.bind .read (.orFail stored)) (.ite_false working .pure),
      rfl, rfl⟩

theorem schedulePayout_yields
    {env : Env} {id : OrderId} {order : Order} {db : Db}
    (completed : order.status = .completed)
    (fresh : db.payouts.row env.key = none) :
    ∃ value next, (Payments.schedulePayout env id order).Yields db value next ∧
      next.orderEvents = db.orderEvents := by
  have creates : ∀ stmt, (Tx.create (.payout env.key)
      (fun db => (db.payouts.row env.key).isSome) stmt "Payout").Yields db ()
        (stmt.apply db) :=
    fun stmt => .bind .lockRow (.bind .read (.bind (.require (by simp [fresh])) .exec))
  by_cases existing : Payments.firstPayout id (fun _ => true) db ≠ none
  · exact ⟨_, _, .bind (.require completed) (.bind .read (.ite_true existing .pure)), rfl⟩
  by_cases frozen : order.hasOpenDispute = true
  · exact ⟨_, _, .bind (.require completed) (.bind .read
      (.ite_false existing (.ite_true frozen .pure))), rfl⟩
  by_cases small : Payments.expertCreditBalance id db < db.config.payoutMinMinor
  · exact ⟨_, _, .bind (.require completed) (.bind .read
      (.ite_false existing (.ite_false frozen (.bind .read (.bind .read
        (.ite_true small .pure)))))), rfl⟩
  · exact ⟨_, _, .bind (.require completed) (.bind .read
      (.ite_false existing (.ite_false frozen (.bind .read (.bind .read
        (.ite_false small (.bind (creates _) .pure))))))), rfl⟩

theorem approveDelivery_yields
    {env : Env} {id : OrderId} {order : Order} {request : ServiceRequest}
    {db : Db} (stored : db.orders.row id = some order)
    (delivered : order.status = .delivered)
    (linked : db.requests.row order.request = some request)
    (fresh : db.payouts.row env.key = none) :
    ∃ next, (approveDelivery env id none .auto).Yields db () next ∧
      marks .autoApproved id next = marks .autoApproved id db + 1 := by
  let save : DeliveryId → Tx Unit := fun delivery =>
    Tx.exec <| .saveDelivery delivery fun stored =>
      { stored with
        status := .approved
        approvedAt := some env.now
        approvalSource := some .auto }
  obtain ⟨saved, saves, orders, requests, payouts, events⟩ : ∃ saved,
      (Tx.forEach (latestDelivery id db).toList save).Yields db () saved ∧
        saved.orders = db.orders ∧ saved.requests = db.requests ∧
        saved.payouts = db.payouts ∧ saved.orderEvents = db.orderEvents := by
    cases latestDelivery id db with
    | none => exact ⟨db, .forEach_nil, rfl, rfl, rfl, rfl⟩
    | some delivery =>
        exact ⟨_, .forEach_cons .exec .forEach_nil, rfl, rfl, rfl, rfl⟩
  let closed := (Stmt.saveOrder id fun stored =>
    { stored with completedAt := some env.now, autoApproveAt := none }).apply
      saved
  have present : closed.orders.row id = some
      { order with completedAt := some env.now, autoApproveAt := none } := by
    simp [closed, Stmt.apply, orders, stored]
  have completes : (transition id .completed .autoApproved none .none).Yields
      closed _ (moved id .completed { order := id, eventType := .autoApproved } closed) :=
    transition_yields present (by rw [delivered]; rfl)
  let told := (Stmt.recordEvent { order := id, eventType := .completed }).apply
    (moved id .completed { order := id, eventType := .autoApproved } closed)
  have there : told.requests.row order.request = some request := by
    simpa [told, moved, closed, Stmt.apply, requests] using linked
  obtain ⟨followed, follows, later, kept⟩ : ∃ followed,
      (moveRequest env order.request [.inProgress] .completed "").Yields told
          () followed ∧
        followed.orderEvents = told.orderEvents ∧
        followed.payouts = told.payouts :=
    moveRequest_yields there
  have unused : followed.payouts.row env.key = none := by
    rw [kept]
    simpa [told, moved, closed, Stmt.apply, payouts] using fresh
  let finished : Order := { order with
    completedAt := some env.now, autoApproveAt := none, status := .completed }
  obtain ⟨payout, last, pays, same⟩ : ∃ payout last,
      (Payments.schedulePayout env id finished).Yields followed payout last ∧
        last.orderEvents = followed.orderEvents :=
    schedulePayout_yields rfl unused
  refine ⟨last, ?_, ?_⟩
  · exact .bind (getForUpdate_yields stored) <| .bind (.ofExcept rfl) <|
      .bind (.require delivered) <| .bind .read <| .bind saves <|
      .bind .exec <| .bind completes <| .bind .exec <| .bind follows <|
      .bind pays .pure
  · have recorded : last.orderEvents = db.orderEvents ++
        [{ order := id, eventType := .autoApproved }] ++
        [{ order := id, eventType := .completed }] := by
      rw [same, later]
      simp [told, moved, closed, Stmt.apply, events]
    simp [marks, recorded, List.countP_append]

/-- The effects of an approval: this order, and one payout. -/
def finishing (id : OrderId) (payout : PayoutId) : Effect Stmt → Prop
  | .write (.recordEvent event) => event.order = id
  | .write (.saveOrder key _) => key = id
  | .write (.insertOrder _ _) => False
  | .write (.insertPayout key _) => key = payout
  | _ => True

/-- Other orders stay, requests stay there, and only this payout is new. -/
structure Spares (id : OrderId) (payout : PayoutId) (db next : Db) : Prop where
  rows : ∀ other, other ≠ id → next.orders.row other = db.orders.row other
  events : ∀ other, other ≠ id → ∀ eventType,
    marks eventType other next = marks eventType other db
  requests : ∀ key, (db.requests.row key).isSome = true →
    (next.requests.row key).isSome = true
  payouts : ∀ other, other ≠ payout → db.payouts.row other = none →
    next.payouts.row other = none

theorem Spares.apply
    {id : OrderId} {payout : PayoutId} {stmt : Stmt} {db now : Db}
    (spares : Spares id payout db now)
    (fine : finishing id payout (.write stmt)) :
    Spares id payout db (stmt.apply now) := by
  have skips : ∀ other, other ≠ id → skipping other (.write stmt) := by
    intro other different
    cases stmt with
    | recordEvent event =>
        have about : event.order = id := fine
        exact fun same => different (same.symm.trans about)
    | saveOrder key set =>
        have about : key = id := fine
        exact fun same => different (same.symm.trans about)
    | insertOrder key order => exact fine.elim
    | _ => trivial
  refine ⟨fun other different => ?_, fun other different eventType => ?_,
    fun key present => ?_, fun other different fresh => ?_⟩
  · exact (skipping_apply (skips other different) now).2.trans
      (spares.rows other different)
  · exact ((skipping_apply (skips other different) now).1 eventType).trans
      (spares.events other different eventType)
  · have before := spares.requests key present
    obtain ⟨request, stored⟩ := Option.isSome_iff_exists.mp before
    cases stmt with
    | insertRequest other value =>
        simp [Stmt.apply, Table.row_insert_of_some other value stored]
    | saveRequest other loaded set | updateRequest other set =>
        simp only [Stmt.apply, Table.row_modify]
        split_ifs <;> simp [stored]
    | _ => exact before
  · have before := spares.payouts other different fresh
    cases stmt with
    | insertPayout key value =>
        have about : key = payout := fine
        simp only [Stmt.apply, Table.row_insert]
        rw [if_neg fun both => different (both.1.trans about)]
        exact before
    | savePayout key set =>
        simp only [Stmt.apply, Table.row_modify]
        split_ifs <;> simp [before]
    | _ => exact before

theorem approveDelivery_spares
    {env : Env} {id : OrderId} {db next : Db}
    (yields : (approveDelivery env id none .auto).Yields db () next) :
    Spares id env.key db next := by
  have emits : (approveDelivery env id none .auto).Emits (finishing id env.key)
      fun _ => True :=
    approveDelivery_emits (fun _ _ => trivial) (fun _ about _ => about) rfl
      (fun _ => rfl)
      (fun _ _ => by simp [ServiceRequests.transition, finishing])
      fun _ _ => rfl
  have post := emits.keeps (Spares id env.key db)
    (fun stmt fine now before => before.apply fine)
    ⟨fun _ _ => rfl, fun _ _ _ => rfl, fun _ present => present,
      fun _ _ fresh => fresh⟩
  rw [Prog.Post, yields] at post
  exact post.2

/-- One round of the job, on an order whose request is there. -/
theorem autoApproveOne_yields
    {env : Env} {id : OrderId} {order : Order} {request : ServiceRequest}
    {db : Db} (stored : db.orders.row id = some order)
    (linked : db.requests.row order.request = some request)
    (fresh : db.payouts.row env.key = none) :
    ∃ next, (autoApproveOne env id).Yields db () next ∧
      Spares id env.key db next ∧
      (order.status = .delivered ∧ order.autoApproveAt ≠ none →
        marks .autoApproved id next = marks .autoApproved id db + 1) := by
  by_cases running : order.status = .delivered ∧ order.autoApproveAt ≠ none
  · obtain ⟨next, approves, marked⟩ :=
      approveDelivery_yields stored running.1 linked fresh
    exact ⟨next, .bind (getForUpdate_yields stored) (.ite_true running approves),
      approveDelivery_spares approves, fun _ => marked⟩
  · exact ⟨db, .bind (getForUpdate_yields stored) (.ite_false running .pure),
      ⟨fun _ _ => rfl, fun _ _ _ => rfl, fun _ present => present,
        fun _ _ fresh => fresh⟩, fun both => absurd both running⟩

/-- The job, in the middle of its list. -/
structure Halfway
    (key : Nat) (id : OrderId) (order : Order) (count : Nat)
    (rest : List (OrderId × Nat)) (db : Db) : Prop where
  linked : ∀ item ∈ rest, ∃ order, db.orders.row item.1 = some order ∧
    (db.requests.row order.request).isSome = true
  fresh : ∀ item ∈ rest, db.payouts.row (key + item.2) = none
  distinct : rest.Pairwise fun first second =>
    first.1 ≠ second.1 ∧ first.2 ≠ second.2
  waits : id ∈ rest.map Prod.fst →
    db.orders.row id = some order ∧ marks .autoApproved id db = count
  done : id ∉ rest.map Prod.fst → count < marks .autoApproved id db

theorem Halfway.round
    {env : Env} {id : OrderId} {order : Order} {count : Nat}
    {item : OrderId × Nat} {rest : List (OrderId × Nat)} {db : Db}
    (halfway : Halfway env.key id order count (item :: rest) db)
    (running : order.status = .delivered ∧ order.autoApproveAt ≠ none) :
    ∃ next, (autoApproveOne { env with key := env.key + item.2 } item.1).Yields
        db () next ∧ Halfway env.key id order count rest next := by
  obtain ⟨found, stored, there⟩ := halfway.linked item List.mem_cons_self
  obtain ⟨request, linked⟩ := Option.isSome_iff_exists.mp there
  have unused := halfway.fresh item List.mem_cons_self
  let own : Env := { env with key := env.key + item.2 }
  obtain ⟨next, yields, spares, marked⟩ : ∃ next,
      (autoApproveOne own item.1).Yields db () next ∧
        Spares item.1 own.key db next ∧
        (found.status = .delivered ∧ found.autoApproveAt ≠ none →
          marks .autoApproved item.1 next = marks .autoApproved item.1 db + 1) :=
    autoApproveOne_yields stored linked unused
  obtain ⟨apart, distinct⟩ := List.pairwise_cons.mp halfway.distinct
  refine ⟨next, yields, fun other member => ?_, fun other member => ?_,
    distinct, fun listed => ?_, fun unlisted => ?_⟩
  · obtain ⟨value, present, linked⟩ :=
      halfway.linked other (List.mem_cons_of_mem _ member)
    refine ⟨value, ?_, spares.requests _ linked⟩
    exact (spares.rows _ (apart other member).1.symm).trans present
  · have different : env.key + other.2 ≠ env.key + item.2 := fun same =>
      (apart other member).2 (Nat.add_left_cancel same).symm
    exact spares.payouts _ different
      (halfway.fresh other (List.mem_cons_of_mem _ member))
  · obtain ⟨other, member, rfl⟩ := List.mem_map.mp listed
    obtain ⟨same, fresh⟩ := halfway.waits
      (List.mem_map.mpr ⟨other, List.mem_cons_of_mem _ member, rfl⟩)
    have different := (apart other member).1.symm
    exact ⟨(spares.rows _ different).trans same,
      (spares.events _ different _).trans fresh⟩
  · by_cases here : item.1 = id
    · obtain ⟨same, fresh⟩ := halfway.waits
        (List.mem_map.mpr ⟨item, List.mem_cons_self, here⟩)
      rw [here] at stored marked
      obtain rfl := Option.some.inj (same.symm.trans stored)
      rw [marked running, fresh]
      exact Nat.lt_succ_self count
    · have absent : id ∉ (item :: rest).map Prod.fst := by
        simp only [List.map_cons, List.mem_cons, not_or]
        exact ⟨Ne.symm here, unlisted⟩
      rw [spares.events _ (Ne.symm here)]
      exact halfway.done absent

/-- The request of every order is there. -/
def Linked (db : Db) : Prop :=
  ∀ id order, db.orders.row id = some order →
    (db.requests.row order.request).isSome = true

theorem linked_iff {db : Db} :
    Linked db ↔ ∀ id ∈ db.orders.keys, (db.orders.row id).all fun order =>
      (db.requests.row order.request).isSome := by
  constructor
  · intro linked id _
    rw [Option.all_eq_true]
    exact fun order stored => linked id order stored
  · intro all id order stored
    have listed := (db.orders.mem_keys id).mpr (by simp [stored])
    exact (Option.all_eq_true _ _).mp (all id listed) order stored

instance (db : Db) : Decidable (Linked db) :=
  decidable_of_iff _ linked_iff.symm

/-- With unused keys, the job approves whatever is due. -/
theorem autoApproves_of_due
    {env : Env} {id : OrderId} {db : Db} (linked : Linked db)
    (fresh : ∀ key, env.key ≤ key → db.payouts.row key = none)
    (due : (db.orders.row id).any (approvalDue env.now) = true) :
    AutoApproves env id db := by
  obtain ⟨order, stored, late⟩ := (Option.any_eq_true _ _).mp due
  have running : order.status = .delivered ∧ order.autoApproveAt ≠ none := by
    obtain ⟨timer, timed, _⟩ := timer_of_due due
    rw [approvalDue, Bool.and_eq_true, decide_eq_true_eq] at late
    exact ⟨late.1, by simp [← timerOf_of_row stored, timed]⟩
  have listed : id ∈ ((dueApprovals env.now db).zipIdx).map Prod.fst := by
    rw [List.zipIdx_map_fst]
    exact Table.mem_select.mpr ⟨order, stored, late⟩
  have start : Halfway env.key id order (marks .autoApproved id db)
      (dueApprovals env.now db).zipIdx db := by
    refine ⟨fun item member => ?_, fun item _ => fresh _ (Nat.le_add_right _ _),
      ?_, fun _ => ⟨stored, rfl⟩, fun unlisted => absurd listed unlisted⟩
    · obtain ⟨value, present, _⟩ :=
        Table.mem_select.mp (List.fst_mem_of_mem_zipIdx member)
      exact ⟨value, present, linked _ _ present⟩
    · have keys : ((dueApprovals env.now db).zipIdx.map Prod.fst).Nodup := by
        rw [List.zipIdx_map_fst]
        exact db.orders.nodup.filter _
      have places : ((dueApprovals env.now db).zipIdx.map Prod.snd).Nodup := by
        rw [List.zipIdx_map_snd]
        exact List.nodup_range'
      exact (List.pairwise_map.mp keys).and (List.pairwise_map.mp places)
  suffices whole : (autoApproveAll env (dueApprovals env.now db).zipIdx).Leaves
      db [] fun _ next _ => marks .autoApproved id db < marks .autoApproved id next
    from Request.leaves_iff_run.mp whole
  refine (Request.leaves_forEach_rest (Halfway env.key id order _) ?_
    start).mono ?_
  · intro item rest current halfway
    obtain ⟨next, yields, later⟩ := halfway.round running
    refine Request.leaves_tryCatch.mpr (Request.leaves_atomic.mpr ?_)
    rw [applyAll_nil, Prog.Post, yields]
    exact ⟨rfl, later, rfl⟩
  · rintro result next later ⟨_, finished, _⟩
    exact finished.done (by simp)

end Orders

end KnowledgeMarketplace
