import KnowledgeMarketplace.Disputes.Agreement
import KnowledgeMarketplace.Reviews.Replies

/-!
# The standing of reviews

A review is eligible when it is written.  Afterwards its order can be disputed,
and what the dispute does to the order does not reach the review.
-/

namespace KnowledgeMarketplace

open Transaction Lifecycle

namespace Reviews

/-- The database of the marketplace, and that of the reviews. -/
structure Standing where
  market : KnowledgeMarketplace.Db
  reviews : Db

/-- The order is completed, or its dispute was opened after completion. -/
def Stands (id : OrderId) (market : KnowledgeMarketplace.Db) : Prop :=
  ∃ order, market.orders.row id = some order ∧
    (order.status = .completed ∨ order.status = .disputed ∧
      ∃ dispute, market.disputes.row id = some dispute ∧
        dispute.priorOrderStatus = .completed)

/-- A review counts towards the rating of its expert. -/
def Counts (id : OrderId) (reviews : Db) : Prop :=
  ∃ review, reviews.reviews.row id = some review ∧ review.status = .published

/-- Every review that counts is of an order that stands. -/
def AllStand (standing : Standing) : Prop :=
  ∀ id, Counts id standing.reviews → Stands id standing.market

/-- Disputes are opened in some statuses only. -/
def KnownPriors (market : KnowledgeMarketplace.Db) : Prop :=
  ∀ id dispute, market.disputes.row id = some dispute →
    dispute.priorOrderStatus ∈ Disputes.priorStatuses

/-! ## Runs -/

/-- A submission goes by the order that its view has read. -/
def ReviewCall.Loaded (market : KnowledgeMarketplace.Db) : ReviewCall → Prop
  | .submit _ _ id order _ _ _ _ => market.orders.row id = some order
  | _ => True

/--
Support cancels a disputed order, or resolves the dispute under review with a
full refund.
-/
def Cancels (id : OrderId) (market : KnowledgeMarketplace.Db) :
    Operation → Prop
  | .order (.cancel _ key actor reason) =>
      key = id ∧ actor.isStaff = true ∧ reason ≠ "" ∧
        ∃ order, market.orders.row id = some order ∧ order.status = .disputed
  | .dispute (.resolve _ key actor outcome _ _) =>
      key = id ∧ actor.any Actor.isStaff = true ∧
        outcome = .refundStudentFull ∧
        ∃ dispute, market.disputes.row id = some dispute ∧
          dispute.status = .underReview
  | _ => False

/-- The operation cancels no order whose review counts. -/
def Spares (standing : Standing) (operation : Operation) : Prop :=
  ∀ id, Counts id standing.reviews → ¬Cancels id standing.market operation

/-- A hidden review is only restored while its order stands. -/
def RestoresStanding (standing : Standing) : ReviewCall → Prop
  | .setHidden _ id actor false =>
      actor.any Actor.isStaff = true →
        ∀ review, standing.reviews.reviews.row id = some review →
          Stands id standing.market
  | _ => True

/-- The states that operations and requests reach one after the other. -/
inductive Runs
    (operates : Standing → Operation → Prop)
    (reviews : Standing → ReviewCall → Prop) (start : Standing) :
    Standing → Prop where
  | refl : Runs operates reviews start start
  | operate {standing : Standing} (operation : Operation) :
      Runs operates reviews start standing → operates standing operation →
      Runs operates reviews start
        { standing with market := operation.after standing.market }
  | review {standing : Standing} (call : ReviewCall) :
      Runs operates reviews start standing → call.Loaded standing.market →
      reviews standing call →
      Runs operates reviews start
        { standing with reviews := (Request.run call.call standing.reviews).2 }

/-! ## Business steps -/

/-- The same of the columns of the life cycle. -/
def StandsIn (id : OrderId) (life : Lifecycle) : Prop :=
  ∃ order, life.orders id = some order ∧
    (order.status = .completed ∨ order.status = .disputed ∧
      ∃ dispute, life.disputes id = some dispute ∧ dispute.prior = .completed)

theorem standsIn_lifecycle {id : OrderId} {market : KnowledgeMarketplace.Db} :
    StandsIn id market.lifecycle ↔ Stands id market := by
  simp [StandsIn, Stands, Db.lifecycle, Order.state, Dispute.state]

/-- What no step changes about the disputes. -/
def PriorsIn (life : Lifecycle) : Prop :=
  ∀ id dispute, life.disputes id = some dispute →
    dispute.prior ∈ Disputes.priorStatuses

theorem priorsIn_lifecycle {market : KnowledgeMarketplace.Db} :
    PriorsIn market.lifecycle ↔ KnownPriors market := by
  simp [PriorsIn, KnownPriors, Db.lifecycle, Dispute.state]

variable {id other : OrderId} {life later : Lifecycle}

/-- A change of another order. -/
theorem StandsIn.setOrder_other
    (stands : StandsIn id life) (different : id ≠ other)
    (change : OrderState → OrderState) :
    StandsIn id (life.setOrder other change) := by
  simpa [StandsIn, Lifecycle.setOrder, different] using stands

/-- The request of an order does not matter. -/
theorem StandsIn.follow
    {request : RequestId} {fromStatuses : List RequestStatus}
    {toStatus : RequestStatus} (stands : StandsIn id life) :
    StandsIn id (life.follow request fromStatuses toStatus) := by
  simpa [StandsIn] using stands

/-- An order in another status is another order. -/
theorem StandsIn.apart
    (stands : StandsIn id life) {order : OrderState}
    (stored : life.orders other = some order)
    (status : order.status ∉ [.completed, .disputed]) : id ≠ other := by
  rintro rfl
  obtain ⟨found, row, statuses⟩ := stands
  obtain rfl : found = order := Option.some.inj (row.symm.trans stored)
  rcases statuses with completed | ⟨disputed, _⟩
  · simp [completed] at status
  · simp [disputed] at status

/-- A dispute of an order that stands ends with the order completed. -/
theorem StandsIn.resolve
    {order : OrderState} {dispute : DisputeState} {toStatus : OrderStatus}
    (stands : StandsIn id life) (priors : PriorsIn life)
    (stored : life.orders id = some order)
    (found : life.disputes id = some dispute)
    (target : toStatus ∈ [.cancelled, .completed, dispute.prior])
    (edge : toStatus = order.status ∨
      (Orders.transitions order.status toStatus).isSome)
    (kept : toStatus ≠ .cancelled) : toStatus = .completed := by
  obtain ⟨row, present, statuses⟩ := stands
  obtain rfl : row = order := Option.some.inj (present.symm.trans stored)
  rcases statuses with completed | ⟨_, earlier, opened, prior⟩
  · -- only a dispute follows on a completed order, and none is a prior status
    have known := priors id dispute found
    rw [completed] at edge
    rcases edge with same | follows
    · exact same
    · have disputed : toStatus = .disputed := by
        revert follows
        cases toStatus <;> decide
      have prior : dispute.prior = .disputed := by
        simpa [disputed, eq_comm] using target
      simp [prior, Disputes.priorStatuses, Disputes.disputableStatuses] at known
  · obtain rfl : earlier = dispute := Option.some.inj (opened.symm.trans found)
    simpa [prior, kept] using target

/-- A step that does not cancel the order leaves it standing. -/
theorem StandsIn.step
    {event : Event} (stands : StandsIn id life) (priors : PriorsIn life)
    (taken : Step life event later)
    (spared : ∀ order, event = .cancel id → life.orders id = some order →
      order.status ≠ .disputed)
    (kept : event ≠ .resolve id .cancelled) : StandsIn id later := by
  cases taken with
  | triage orders disputes _ => simpa [StandsIn, orders, disputes] using stands
  | close stored edge => exact stands
  | accept stored edge free =>
      rename_i request key status
      have different : id ≠ key := by
        rintro rfl
        obtain ⟨order, row, _⟩ := stands
        simp [free] at row
      simpa [StandsIn, addOrder, Lifecycle.setRequest, different] using stands
  | pay stored waiting =>
      exact (stands.setOrder_other (stands.apart stored (by simp [waiting]))
        _).follow
  | deliver stored working =>
      exact stands.setOrder_other (stands.apart stored
        (by rcases working with at_ | at_ <;> simp [at_])) _
  | revise stored delivered =>
      exact stands.setOrder_other (stands.apart stored (by simp [delivered])) _
  | approve stored delivered =>
      exact (stands.setOrder_other (stands.apart stored (by simp [delivered]))
        _).follow
  | sweep stored waiting =>
      exact stands.setOrder_other (stands.apart stored (by simp [waiting])) _
  | @cancel key order stored edge =>
      have different : id ≠ key := by
        rintro rfl
        obtain ⟨row, present, statuses⟩ := stands
        obtain rfl : row = order := Option.some.inj (present.symm.trans stored)
        rcases statuses with completed | ⟨disputed, _⟩
        · simp [completed, Orders.transitions] at edge
        · exact spared row rfl stored disputed
      exact (stands.setOrder_other different _).follow
  | @openDispute key order stored fresh allowed =>
      by_cases same : id = key
      · subst same
        obtain ⟨row, present, statuses⟩ := stands
        obtain rfl : row = order := Option.some.inj (present.symm.trans stored)
        have completed : row.status = .completed := by
          rcases statuses with completed | ⟨_, dispute, found, _⟩
          · exact completed
          · simp [fresh] at found
        simp [StandsIn, setOrder, addDispute, stored, completed]
      · simpa [StandsIn, setOrder, addDispute, same] using stands
  | @review key dispute toStatus stored edge unresolved =>
      obtain ⟨order, present, statuses⟩ := stands
      refine ⟨order, present, statuses.imp_right fun reopened => ?_⟩
      obtain ⟨disputed, opened⟩ := reopened
      obtain ⟨row, found, prior⟩ := opened
      refine ⟨disputed, ?_⟩
      by_cases same : id = key
      · subst same
        exact ⟨{ row with status := toStatus }, by simp [setDispute, found],
          prior⟩
      · exact ⟨row, by simpa [setDispute, same] using found, prior⟩
  | @resolve key order dispute toStatus stored found underReview target edge =>
      by_cases same : id = key
      · subst same
        have completed := stands.resolve priors stored found target edge
          fun cancelled => kept (by rw [cancelled])
        exact ⟨{ order with frozen := false, status := toStatus },
          by simp [setOrder, setDispute, stored], .inl completed⟩
      · simpa [StandsIn, setOrder, setDispute, same] using stands

/-- The status of a dispute does not matter. -/
theorem PriorsIn.setDispute
    (priors : PriorsIn life) (key : OrderId) (toStatus : DisputeStatus) :
    PriorsIn (life.setDispute key toStatus) := by
  intro id dispute found
  by_cases same : id = key
  · subst same
    obtain ⟨row, stored, rfl⟩ : ∃ row, life.disputes id = some row ∧
        { row with status := toStatus } = dispute := by
      simpa [Lifecycle.setDispute] using found
    exact priors id row stored
  · exact priors id dispute (by simpa [Lifecycle.setDispute, same] using found)

/-- No step changes in which status a dispute was opened. -/
theorem PriorsIn.step
    {event : Event} (priors : PriorsIn life) (taken : Step life event later) :
    PriorsIn later := by
  cases taken with
  | triage orders disputes _ => simpa [PriorsIn, disputes] using priors
  | @openDispute key order stored fresh allowed =>
      intro id dispute found
      by_cases same : id = key
      · obtain rfl : ⟨.opened, order.status⟩ = dispute := by
          simpa [addDispute, same] using found
        simpa [Disputes.priorStatuses] using allowed
      · exact priors id dispute
          (by simpa [addDispute, setOrder, same] using found)
  | @review key dispute toStatus stored edge unresolved =>
      exact priors.setDispute key toStatus
  | @resolve key order dispute toStatus stored found underReview target edge =>
      exact PriorsIn.setDispute
        (by simpa [PriorsIn, setOrder] using priors) key .resolved
  | _ =>
      simpa [PriorsIn, setStatus, setOrder, addOrder, Lifecycle.setRequest]
        using priors

/-! ## Every run -/

/-- Operations do not change in which status a dispute was opened. -/
theorem KnownPriors.after
    {market : KnowledgeMarketplace.Db} (priors : KnownPriors market)
    (operation : Operation) : KnownPriors (operation.after market) := by
  rw [← priorsIn_lifecycle] at priors ⊢
  exact (operation.evolves market).keeps PriorsIn
    (fun _ _ _ taken => priors.step taken)
    (fun _ _ _ _ _ before taken => before.step taken) priors

/-- An operation that spares it leaves an order standing. -/
theorem Stands.after
    {market : KnowledgeMarketplace.Db} {operation : Operation}
    (stands : Stands id market) (priors : KnownPriors market)
    (spared : ¬Cancels id market operation) :
    Stands id (operation.after market) := by
  rw [← standsIn_lifecycle] at stands ⊢
  rw [← priorsIn_lifecycle] at priors
  suffices both : StandsIn id (operation.after market).lifecycle ∧
      PriorsIn (operation.after market).lifecycle from both.1
  refine (operation.evolves market).keeps
    (fun life => StandsIn id life ∧ PriorsIn life) ?step ?job ⟨stands, priors⟩
  case step =>
    intro event later cause taken
    refine ⟨stands.step priors taken (fun order same row disputed => ?_)
      (fun same => ?_), priors.step taken⟩
    · subst same
      obtain ⟨env, actor, reason, rfl, given, entitled⟩ := cause
      obtain ⟨found, stored, rfl⟩ := Option.map_eq_some_iff.mp row
      have status : found.status = .disputed := disputed
      rcases entitled with staff | waiting
      · exact spared ⟨rfl, staff, given, found, stored, status⟩
      · simp [stored, status] at waiting
    · subst same
      obtain ⟨env, actor, outcome, notes, amount, dispute, rfl, found, target,
        staff⟩ := cause
      have reviewed : dispute.status = .underReview := by
        cases taken with
        | resolve _ present underReview =>
            rw [lifecycle_dispute found] at present
            obtain rfl := Option.some.inj present
            exact underReview
      have known := priors id dispute.state (lifecycle_dispute found)
      cases outcome with
      | refundStudentFull =>
          exact spared ⟨rfl, staff, rfl, dispute, found, reviewed⟩
      | noFaultClose =>
          have prior : dispute.state.prior = .cancelled := target.symm
          simp [prior, Disputes.priorStatuses, Disputes.disputableStatuses]
            at known
      | _ => simp [Disputes.newStatus] at target
  case job =>
    intro event current later isJob _ before taken
    refine ⟨before.1.step before.2 taken (fun order same _ => ?_)
      (fun same => ?_), before.2.step taken⟩
    · subst same
      exact isJob.elim
    · subst same
      exact isJob.elim

/-- What a request may write so that the reviews that count stand. -/
def standing (before : Standing) : Effect Stmt → Prop
  | .write (.insertReview id _) => Stands id before.market
  | .write (.saveStatus id copy) =>
      copy.status = .published →
        (before.reviews.reviews.row id).isSome = true → Stands id before.market
  | _ => True

/-- The reviews that count stand, and the new ones would. -/
structure Kept (before : Standing) (reviews : Db) : Prop where
  all : ∀ id, Counts id reviews → Stands id before.market
  fresh : ∀ id, (reviews.reviews.row id).isSome = true →
    (before.reviews.reviews.row id).isSome = true ∨ Stands id before.market

/-- A save that publishes no review, or one whose order stands. -/
theorem Kept.modify
    {before : Standing} {reviews : Db} (kept : Kept before reviews)
    (key : OrderId) (change : Review → Review)
    (publishes : ∀ stored, reviews.reviews.row key = some stored →
      (change stored).status = .published →
        stored.status = .published ∨ Stands key before.market) :
    Kept before
      { reviews with reviews := reviews.reviews.modify key change } := by
  refine ⟨fun id ⟨review, row, status⟩ => ?_, fun id present => ?_⟩
  · by_cases same : id = key
    · subst same
      obtain ⟨stored, found, rfl⟩ : ∃ stored,
          reviews.reviews.row id = some stored ∧ change stored = review := by
        simpa using row
      rcases publishes stored found status with published | stands
      · exact kept.all id ⟨stored, found, published⟩
      · exact stands
    · exact kept.all id ⟨review, by simpa [same] using row, status⟩
  · by_cases same : id = key
    · subst same
      exact kept.fresh id (by simpa using present)
    · exact kept.fresh id (by simpa [same] using present)

theorem Kept.apply
    {before : Standing} {reviews : Db} {stmt : Stmt}
    (kept : Kept before reviews) (fine : standing before (.write stmt)) :
    Kept before (stmt.apply reviews) := by
  cases stmt with
  | insertReview key value =>
      have row : ∀ id, (reviews.reviews.insert key value).row id =
          reviews.reviews.row id ∨ id = key := by
        intro id
        by_cases same : id = key
        · exact .inr same
        · exact .inl (by simp [same])
      refine ⟨fun id ⟨review, found, status⟩ => ?_, fun id present => ?_⟩
      · rcases row id with old | rfl
        · exact kept.all id ⟨review, old ▸ found, status⟩
        · exact fine
      · rcases row id with old | rfl
        · exact kept.fresh id (old ▸ present)
        · exact .inr fine
  | saveEdit key loaded copy | saveReply key loaded copy =>
      exact kept.modify key _ fun _ _ published => .inl published
  | saveStatus key copy =>
      refine kept.modify key _ fun stored found published => ?_
      rcases kept.fresh key (by simp [found]) with present | stands
      · exact .inr (fine published present)
      · exact .inr stands
  | updateRating expert basis rating => exact ⟨kept.all, kept.fresh⟩

/-- A request on reviews leaves those that count on orders that stand. -/
theorem allStand_review
    {before : Standing} {call : ReviewCall} (all : AllStand before)
    (loaded : call.Loaded before.market)
    (restores : RestoresStanding before call) :
    AllStand { before with
      reviews := (Request.run call.call before.reviews).2 } := by
  have emits : call.call.Emits (standing before) fun _ => True := by
    refine ReviewCall.emits ?_ (fun _ _ => trivial) (fun _ _ => trivial) ?_
      (fun _ _ _ => trivial)
    · intro env clock id order actor rating body scores review same completed
      subst same
      exact ⟨order, loaded, .inl completed⟩
    · intro clock id actor hidden copy same staff status published present
      subst same
      cases hidden with
      | true => exact absurd (status.symm.trans published) (by simp)
      | false =>
          obtain ⟨review, stored⟩ := Option.isSome_iff_exists.mp present
          exact restores staff review stored
  have start : Kept before before.reviews := ⟨all, fun _ => .inl⟩
  exact (emits.keeps (Kept before) (fun _ fine _ kept => kept.apply fine)
    start).all

/--
In every run in which no order of a published review is cancelled, and reviews
are only restored while their orders stand, each published review is of an order
that is completed, or in a dispute that was opened after completion.
-/
theorem reviews_stand
    (start : Standing) (all : AllStand start) (priors : KnownPriors start.market)
    (last : Standing) (reached : Runs Spares RestoresStanding start last) :
    AllStand last := by
  suffices whole : AllStand last ∧ KnownPriors last.market from whole.1
  induction reached with
  | refl => exact ⟨all, priors⟩
  | @operate standing operation _ spares inductionHypothesis =>
      obtain ⟨before, known⟩ := inductionHypothesis
      exact ⟨fun id counts => (before id counts).after known (spares id counts),
        known.after operation⟩
  | @review standing call _ loaded restores inductionHypothesis =>
      obtain ⟨before, known⟩ := inductionHypothesis
      exact ⟨allStand_review before loaded restores, known⟩

/-! ## A refund after the review -/

/-- A completed order of an expert with a profile, before its review. -/
def unreviewed : Standing where
  market := { Disputes.underWork with
    orders := Disputes.underWork.orders.modify 40 fun order =>
      { order with status := .completed, completedAt := some 1 } }
  reviews := { profiles := .insert .empty 2 {} }

theorem unreviewed_stands : AllStand unreviewed := by
  rintro id ⟨review, stored, _⟩
  exact nomatch stored

theorem unreviewed_priors : KnownPriors unreviewed.market := by
  intro id dispute stored
  exact nomatch stored

/-- The student reviews the order. -/
def praise : ReviewCall :=
  .submit { now := 1 } 1 40
    { request := 10
      student := 1
      expert := 2
      source := .openBid
      amount := 5000
      commissionAmount := 750
      expertAmount := 4250
      status := .completed
      paidAt := some 1
      completedAt := some 1
      createdAt := 0 } 1 (.number 5) "Every chapter came back on time." {}

/-- The review is published. -/
noncomputable def praised : Standing :=
  { unreviewed with
    reviews := (Request.run praise.call unreviewed.reviews).2 }

theorem praised_runs
    {operates : Standing → Operation → Prop} :
    Runs operates RestoresStanding unreviewed praised :=
  .review praise .refl rfl trivial

/-- Support resolves the dispute that the student has opened. -/
def ruling (outcome : DisputeOutcome) (amount : Option Int) : Operation :=
  .dispute (.resolve { now := 3, key := 70 } 40 (some ⟨9, true⟩) outcome
    "Two chapters are missing." amount)

/-- The student disputes the order, and support takes the case. -/
noncomputable def contested : Standing :=
  { praised with
    market := Operation.after (.dispute (.takeCase 40 (some ⟨9, true⟩)))
      (Disputes.dispute.after praised.market) }

theorem contested_runs : Runs Spares RestoresStanding unreviewed contested :=
  .operate (.dispute (.takeCase 40 (some ⟨9, true⟩)))
    (.operate Disputes.dispute praised_runs fun _ _ cancels => cancels)
    fun _ _ cancels => cancels

/-- A partial refund completes the order again, and the review counts on. -/
theorem reviews_stand_partialRefund :
    AllStand { contested with
      market := (ruling .refundStudentPartial (some 1000)).after
        contested.market } :=
  reviews_stand unreviewed unreviewed_stands unreviewed_priors _
    (.operate _ contested_runs fun _ _ cancels => nomatch cancels.2.2.1)

/-- After a full refund the review of the cancelled order still counts. -/
theorem fullRefund_counts :
    let last := { contested with
      market := (ruling .refundStudentFull none).after contested.market }
    Runs (fun _ _ => True) RestoresStanding unreviewed last ∧
      Counts 40 last.reviews ∧
      (last.market.orders.row 40).map Order.status = some .cancelled ∧
      ¬AllStand last := by
  intro last
  have cancelled : (last.market.orders.row 40).map Order.status =
      some .cancelled := by decide +kernel
  have counts : Counts 40 last.reviews := ⟨_, rfl, rfl⟩
  have runs : Runs (fun _ _ => True) RestoresStanding unreviewed last :=
    .operate _ (.operate (.dispute (.takeCase 40 (some ⟨9, true⟩)))
      (.operate Disputes.dispute praised_runs trivial) trivial) trivial
  refine ⟨runs, counts, cancelled, fun all => ?_⟩
  obtain ⟨order, stored, statuses⟩ := all 40 counts
  rw [stored] at cancelled
  have status : order.status = .cancelled := Option.some.inj cancelled
  rcases statuses with completed | ⟨disputed, _⟩
  · exact nomatch completed.symm.trans status
  · exact nomatch disputed.symm.trans status

end Reviews

end KnowledgeMarketplace
