import KnowledgeMarketplace.Assignments.Artifacts
import KnowledgeMarketplace.Lifecycle.Operations
import KnowledgeMarketplace.Operations.Effects

/-!
# Acceptance converges a request

An acceptance should leave one accepted artifact, no pending one, and an order
with the accepted terms.  Each of the three services closes the competing
artifacts of its own kind at most, and none of them passes a deadline on.
-/

namespace KnowledgeMarketplace

open Transaction Lifecycle

/-! ## Accepted artifacts belong to converged requests -/

/-- Statements that accept nothing and keep the terms of orders. -/
def unaccepting : Effect Stmt → Prop
  | .write (.insertOffer _ value) => value.status ≠ .accepted
  | .write (.saveOffer _ set) => ∀ stored, (set stored).status ≠ .accepted
  | .write (.insertInvitation _ value) => value.status ≠ .accepted
  | .write (.saveInvitation _ set) => ∀ stored, (set stored).status ≠ .accepted
  | .write (.insertAssignment _ value) => value.status ≠ .accepted
  | .write (.saveAssignment _ set) => ∀ stored, (set stored).status ≠ .accepted
  | .write (.insertOrder _ _) => False
  | .write (.saveOrder _ set) => ∀ stored,
      (set stored).request = stored.request ∧
        (set stored).expert = stored.expert ∧
        (set stored).amount = stored.amount
  | _ => True

@[simp] theorem OfferStatus.stage_accepted {status : OfferStatus} :
    status.stage = .accepted ↔ status = .accepted := by
  cases status <;> simp [stage]

@[simp] theorem InvitationStatus.stage_accepted {status : InvitationStatus} :
    status.stage = .accepted ↔ status = .accepted := by
  cases status <;> simp [stage]

@[simp] theorem AssignmentStatus.stage_accepted {status : AssignmentStatus} :
    status.stage = .accepted ↔ status = .accepted := by
  cases status <;> simp [stage]

/-- What is accepted after such a statement was accepted before. -/
theorem accepted_before
    {stmt : Stmt} (fine : unaccepting (.write stmt)) {db : Db}
    {artifact : Artifact} {proposal : Proposal}
    (found : (stmt.apply db).proposal artifact = some proposal)
    (accepted : proposal.stage = .accepted) :
    db.proposal artifact = some proposal := by
  cases artifact with
  | offer id =>
      obtain ⟨offer, stored, rfl⟩ := Option.map_eq_some_iff.mp found
      cases stmt with
      | insertOffer key value =>
          rcases Table.row_insert_cases stored with old | ⟨rfl, rfl, _⟩
          · simp [Db.proposal, old]
          · exact absurd (by simpa using accepted) fine
      | saveOffer key set =>
          rcases Table.row_modify_cases stored with
            ⟨_, old⟩ | ⟨rfl, old, before, rfl⟩
          · simp [Db.proposal, old]
          · exact absurd (by simpa using accepted) (fine old)
      | _ => exact found
  | invitation id =>
      obtain ⟨invitation, stored, rfl⟩ := Option.map_eq_some_iff.mp found
      cases stmt with
      | insertInvitation key value =>
          rcases Table.row_insert_cases stored with old | ⟨rfl, rfl, _⟩
          · simp [Db.proposal, old]
          · exact absurd (by simpa using accepted) fine
      | saveInvitation key set =>
          rcases Table.row_modify_cases stored with
            ⟨_, old⟩ | ⟨rfl, old, before, rfl⟩
          · simp [Db.proposal, old]
          · exact absurd (by simpa using accepted) (fine old)
      | _ => exact found
  | assignment id =>
      obtain ⟨assignment, stored, rfl⟩ := Option.map_eq_some_iff.mp found
      cases stmt with
      | insertAssignment key value =>
          rcases Table.row_insert_cases stored with old | ⟨rfl, rfl, _⟩
          · simp [Db.proposal, old]
          · exact absurd (by simpa using accepted) fine
      | saveAssignment key set =>
          rcases Table.row_modify_cases stored with
            ⟨_, old⟩ | ⟨rfl, old, before, rfl⟩
          · simp [Db.proposal, old]
          · exact absurd (by simpa using accepted) (fine old)
      | _ => exact found

theorem unaccepting_elsewhere
    (stmt : Stmt) (other : stmt.table ∉ [.offers, .invitations, .assignments, .orders]) :
    unaccepting (.write stmt) := by
  cases stmt <;> first | trivial | simp [Stmt.table] at other

theorem unaccepting_workflow : Workflow unaccepting where
  elsewhere stmt other := unaccepting_elsewhere stmt (by simp_all)
  moved _ _ _ _ _ := by simp [ServiceRequests.transition, unaccepting]
  saved _ _ keeps stored :=
    ⟨keeps.request stored, keeps.expert stored, keeps.amount stored⟩
  frozen _ _ := ⟨rfl, rfl, rfl⟩

theorem Bidding.pending_of_owned
    {expert : UserId} {offer : Offer} {value : Unit}
    (owned : ownedPending expert offer = .ok value) :
    offer.status = .pending := by
  unfold ownedPending at owned
  split_ifs at owned with own status
  simpa using status

/-- Operations that are no acceptance accept nothing. -/
theorem operation_unaccepting
    (operation : Operation)
    (other : ∀ acceptance : Acceptance, acceptance.operation ≠ operation) :
    operation.call.Emits unaccepting fun _ => True := by
  refine Operation.emits_of_accounts unaccepting_workflow.ordering trivial
    (fun stmt table => unaccepting_elsewhere stmt ?_)
    (fun _ _ => ⟨rfl, rfl, rfl⟩) (fun _ => unaccepting_workflow.completed)
    (fun _ => unaccepting_workflow.ended) unaccepting_workflow.apart ?_
  · simp only [List.mem_cons, List.not_mem_nil, or_false] at table
    rcases table with table | table | table | table <;> simp [table]
  intro triages
  cases operation with
  | request call =>
      cases call <;>
        simp [Operation.call, RequestCall.call, Call.performOn, Call.perform,
          Call.get, Call.exec, ServiceRequests.createRequest,
          ServiceRequests.updateDraft, ServiceRequests.publish,
          ServiceRequests.cancel, ServiceRequests.reopen,
          ServiceRequests.expireDue, ServiceRequests.transition, Tx.create,
          unaccepting]
  | offer call =>
      cases call with
      | accept env student id => exact absurd rfl (other (.offer env student id))
      | update env expert id amount currency =>
          simp only [Operation.call, OfferCall.call, OfferCall.onOffer,
            Call.get, Call.exec, Bidding.updateOffer, Request.emits_bind,
            Request.emits_load, Request.emits_orFail, Request.emits_require,
            Request.emits_ofExcept, implies_true, and_true]
          intro _ copy _ _ owned _ _ _ _ _ _ _
          simp [unaccepting, Bidding.pending_of_owned owned]
      | _ =>
        simp [Operation.call, OfferCall.call, OfferCall.onOffer, Call.get,
          Call.exec, Bidding.submit, Bidding.withdraw, Bidding.resubmit,
          Bidding.decline, Bidding.expertGuard, Bidding.limitGuard,
          Bidding.saveOfferCount, Tx.create, unaccepting]
  | managed call =>
      cases call with
      | acceptInvitation env expert id amount =>
          exact absurd rfl (other (.invitation env expert id amount))
      | acceptDirect env expert id =>
          exact absurd rfl (other (.assignment env expert id))
      | _ =>
        simp [Operation.call, ManagedCall.call, Call.performOn, Call.perform,
          Call.get, Assignments.approvePool, Assignments.assignDirect,
          Assignments.supersedeDirect, Assignments.setQuote,
          Assignments.rejectManaged, Assignments.declineInvitation,
          Assignments.declineDirect, Assignments.expireDue,
          Assignments.inviteAll, Assignments.expertGuard, Tx.create,
          ServiceRequests.transition, unaccepting]
  | _ => exact triages.elim

/-- The request of every accepted artifact is matched, or went on from there. -/
def AcceptedConverged (db : Db) : Prop :=
  ∀ artifact proposal, db.proposal artifact = some proposal →
    proposal.stage = .accepted →
    ∃ request, db.requests.row proposal.request = some request ∧
      ServiceRequests.converged request.status = true

/-- A request of the life cycle that has converged. -/
def Lifecycle.ConvergedAt (id : RequestId) (life : Lifecycle) : Prop :=
  ∃ status, life.requests id = some status ∧
    ServiceRequests.converged status = true

/-- Moving a request to such a status keeps all of them. -/
theorem Lifecycle.ConvergedAt.setRequest
    {id other : RequestId} {life : Lifecycle} {toStatus : RequestStatus}
    (converged : ConvergedAt id life)
    (target : ServiceRequests.converged toStatus = true) :
    ConvergedAt id (life.setRequest other toStatus) := by
  obtain ⟨status, stored, holds⟩ := converged
  by_cases same : id = other
  · exact ⟨toStatus, by simp [Lifecycle.setRequest, ← same, stored], target⟩
  · exact ⟨status, by simp [Lifecycle.setRequest, same, stored], holds⟩

theorem Lifecycle.ConvergedAt.follow
    {id other : RequestId} {life : Lifecycle}
    {fromStatuses : List RequestStatus} {toStatus : RequestStatus}
    (converged : ConvergedAt id life)
    (target : ServiceRequests.converged toStatus = true) :
    ConvergedAt id (life.follow other fromStatuses toStatus) := by
  unfold Lifecycle.follow
  split_ifs
  · exact converged.setRequest target
  · exact converged

/-- No business step takes a converged request back. -/
theorem Lifecycle.Step.keeps_converged
    {id : RequestId} {life later : Lifecycle} {event : Event}
    (step : Step life event later) (converged : ConvergedAt id life) :
    ConvergedAt id later := by
  cases step with
  | triage _ _ settled =>
      obtain ⟨status, stored, holds⟩ := converged
      exact ⟨status, settled id status stored holds, holds⟩
  | close _ _ | accept _ _ _ =>
      refine converged.setRequest ?_
      rfl
  | pay _ _ | approve _ _ | cancel _ _ =>
      refine ConvergedAt.follow ?_ ?_
      · exact converged
      · rfl
  | _ => exact converged

/-- A converged request, by its row. -/
theorem convergedAt_iff {id : RequestId} {db : Db} :
    Lifecycle.ConvergedAt id db.lifecycle ↔
      ∃ request, db.requests.row id = some request ∧
        ServiceRequests.converged request.status = true := by
  constructor
  · rintro ⟨status, stored, holds⟩
    obtain ⟨request, row, rfl⟩ := Option.map_eq_some_iff.mp stored
    exact ⟨request, row, holds⟩
  · rintro ⟨request, row, holds⟩
    exact ⟨request.status, lifecycle_request row, holds⟩

/-- Operations keep a request converged. -/
theorem Operation.keeps_converged
    {id : RequestId} {db : Db} (operation : Operation)
    (converged : Lifecycle.ConvergedAt id db.lifecycle) :
    Lifecycle.ConvergedAt id (operation.after db).lifecycle :=
  (operation.evolves db).keeps (Lifecycle.ConvergedAt id)
    (fun _ _ _ step => step.keeps_converged converged)
    (fun _ _ _ _ _ holds step => step.keeps_converged holds) converged

/-- What is accepted afterwards was so before, or an acceptance has chosen it. -/
theorem Operation.accepted_after
    {db : Db} {operation : Operation} {artifact : Artifact}
    {proposal : Proposal}
    (found : (operation.after db).proposal artifact = some proposal)
    (stage : proposal.stage = .accepted) :
    db.proposal artifact = some proposal ∨
      ∃ acceptance : Acceptance, ∃ chosen request order,
        acceptance.Matches chosen request order db (operation.after db) ∧
          chosen.request = proposal.request := by
  by_cases accepts : ∃ acceptance : Acceptance,
      acceptance.operation = operation
  · obtain ⟨acceptance, rfl⟩ := accepts
    cases acceptance.ends db with
    | failed _ same => exact .inl (same ▸ found)
    | succeeded _ left =>
        obtain ⟨chosen, request, order, matched⟩ := left
        by_cases same : artifact = acceptance.chosen
        · subst same
          obtain rfl := Option.some.inj (found.symm.trans matched.accepted)
          exact .inr ⟨acceptance, chosen, request, order, matched, rfl⟩
        · obtain ⟨before, stored, rfl⟩ := Option.map_eq_some_iff.mp
            ((matched.others artifact same).symm.trans found)
          refine .inl ?_
          unfold Proposal.settle at stage ⊢
          split_ifs at stage ⊢ with settles
          · exact absurd stage (by simp [Proposal.close])
          · exact stored
  · have emits := operation_unaccepting operation
      fun acceptance same => accepts ⟨acceptance, same⟩
    refine .inl (emits.keeps (fun next : Db =>
      next.proposal artifact = some proposal → db.proposal artifact =
        some proposal) (fun stmt fine next earlier later => ?_) id found)
    exact earlier (accepted_before fine later stage)

/-- Operations accept artifacts of requests that converge. -/
theorem AcceptedConverged.after
    {db : Db} (accepted : AcceptedConverged db) (operation : Operation) :
    AcceptedConverged (operation.after db) := by
  intro artifact proposal found stage
  rcases Operation.accepted_after found stage with
    earlier | ⟨_, chosen, request, order, matched, same⟩
  · have before := accepted artifact proposal earlier stage
    exact convergedAt_iff.mp
      (operation.keeps_converged (convergedAt_iff.mpr before))
  · rw [← same]
    exact ⟨_, matched.matched, rfl⟩

/-! ## An acceptance that converges -/

/-- The request is matched by one artifact, whose terms the order has. -/
structure Selected
    (artifact : Artifact) (proposal : Proposal) (request : ServiceRequest)
    (order : Order) (key : OrderId) (db : Db) : Prop where
  chosen : db.proposal artifact = some proposal
  accepted : proposal.stage = .accepted
  requestRow : db.requests.row proposal.request = some request
  matched : request.status = .matched
  single : ∀ other competing, db.proposal other = some competing →
    competing.request = proposal.request → competing.stage = .accepted →
    other = artifact
  settled : ∀ other competing, db.proposal other = some competing →
    competing.request = proposal.request → competing.stage ≠ .pending
  orderRow : db.orders.row key = some order
  about : order.request = proposal.request
  expert : order.expert = proposal.expert
  currency : order.currency = proposal.currency.getD request.currency
  deadline : order.deadline = (proposal.deadline <|> request.deadline)

namespace Acceptance

/-- The acceptance converged its request. -/
def Converges (acceptance : Acceptance) (db : Db) : Prop :=
  ∃ proposal request order,
    Selected acceptance.chosen proposal request order acceptance.key db

/--
Every pending artifact of the request is the chosen one or one that the
service closes, and a deadline of the chosen one is the request's own.
-/
def Unrivaled (acceptance : Acceptance) (db : Db) : Prop :=
  ∃ proposal request, db.proposal acceptance.chosen = some proposal ∧
    db.requests.row proposal.request = some request ∧
    (∀ other competing, db.proposal other = some competing →
      competing.request = proposal.request → competing.stage = .pending →
      other = acceptance.chosen ∨ acceptance.closes other = true) ∧
    ∀ deadline, proposal.deadline = some deadline →
      request.deadline = some deadline

/-- An unrivaled acceptance leaves the other artifacts closed. -/
theorem Matches.rival_closed
    {acceptance : Acceptance} {proposal : Proposal} {request : ServiceRequest}
    {order : Order} {db next : Db} (accepted : AcceptedConverged db)
    (matched : acceptance.Matches proposal request order db next)
    (settles : ∀ other competing, db.proposal other = some competing →
      competing.request = proposal.request → competing.stage = .pending →
      other = acceptance.chosen ∨ acceptance.closes other = true)
    (other : Artifact) (competing : Proposal)
    (different : other ≠ acceptance.chosen)
    (after : next.proposal other = some competing)
    (about : competing.request = proposal.request) :
    competing.stage = .closed := by
  obtain ⟨before, stored, rfl⟩ := Option.map_eq_some_iff.mp
    ((matched.others other different).symm.trans after)
  unfold Proposal.settle at about ⊢
  split_ifs at about ⊢ with closed
  · rfl
  cases stage : before.stage with
  | closed => rfl
  | pending =>
      have covered := settles other before stored about stage
      exact absurd ⟨covered.resolve_left different, about, stage⟩ closed
  | accepted =>
      -- its request has converged, so it could not be matched again
      obtain ⟨row, found, holds⟩ := accepted other before stored stage
      rw [about] at found
      obtain rfl := Option.some.inj (found.symm.trans matched.requestRow)
      have unmatched := matched.unmatched
      cases status : row.status <;>
        simp_all [ServiceRequests.converged, ServiceRequests.transitions]

/-- A match is complete exactly when nothing else was pending. -/
theorem Matches.converges_iff
    {acceptance : Acceptance} {proposal : Proposal} {request : ServiceRequest}
    {order : Order} {db next : Db} (accepted : AcceptedConverged db)
    (matched : acceptance.Matches proposal request order db next) :
    acceptance.Converges next ↔ acceptance.Unrivaled db := by
  constructor
  · rintro ⟨chosen, row, booked, selected⟩
    obtain rfl := Option.some.inj (selected.chosen.symm.trans matched.accepted)
    obtain rfl := Option.some.inj (selected.requestRow.symm.trans matched.matched)
    obtain rfl := Option.some.inj (selected.orderRow.symm.trans matched.orderRow)
    refine ⟨proposal, request, matched.chosen, matched.requestRow, ?_, ?_⟩
    · intro other competing stored about pending
      by_contra open'
      obtain ⟨different, kept⟩ := not_or.mp open'
      have after := matched.others other different
      rw [stored, Bool.eq_false_iff.mpr kept] at after
      exact selected.settled other competing (by simpa using after) about pending
    · intro deadline agreed
      have booked := selected.deadline
      rw [matched.deadline] at booked
      simpa [agreed] using booked
  · rintro ⟨chosen, row, stored, found, settles, deadlines⟩
    obtain rfl := Option.some.inj (stored.symm.trans matched.chosen)
    obtain rfl := Option.some.inj (found.symm.trans matched.requestRow)
    have rival := matched.rival_closed accepted settles
    refine ⟨{ chosen with stage := .accepted }, { row with status := .matched },
      order, ?_⟩
    exact
      { chosen := matched.accepted
        accepted := rfl
        requestRow := matched.matched
        matched := rfl
        single := fun other competing after about stage => by
          by_contra different
          have closed := rival other competing different after about
          simp [closed] at stage
        settled := fun other competing after about stage => by
          by_cases same : other = acceptance.chosen
          · subst same
            rw [matched.accepted] at after
            simp [← Option.some.inj after] at stage
          · simp [rival other competing same after about] at stage
        orderRow := matched.orderRow
        about := matched.about
        expert := matched.expert
        currency := matched.currency
        deadline := by
          rw [matched.deadline]
          cases agreed : chosen.deadline with
          | none => simp
          | some deadline => simp [deadlines deadline agreed] }

end Acceptance

/--
After any run, an acceptance that succeeds converges its request exactly when
it was unrivaled.
-/
theorem accept_converges_iff
    (start : Db) (accepted : AcceptedConverged start)
    (operations : List Operation) (acceptance : Acceptance)
    (ok : (Request.run acceptance.operation.call
      (Operation.afterAll operations start)).1 = .ok ()) :
    acceptance.Converges
        (acceptance.operation.after (Operation.afterAll operations start)) ↔
      acceptance.Unrivaled (Operation.afterAll operations start) := by
  have before : AcceptedConverged (Operation.afterAll operations start) :=
    Operation.afterAll_keeps operations AcceptedConverged
      (fun operation _ holds => holds.after operation) accepted
  cases acceptance.ends (Operation.afterAll operations start) with
  | failed fails _ => exact absurd ok fails
  | succeeded _ left =>
      obtain ⟨proposal, request, order, matched⟩ := left
      exact matched.converges_iff before

/-- Nothing is accepted yet. -/
theorem reviewed_accepted : AcceptedConverged reviewed := by
  intro artifact proposal stored
  cases artifact <;> simp [Db.proposal, reviewed] at stored

/-- Staff invite one expert. -/
def pooling : Operation :=
  .managed (.approvePool { now := 0, key := 20 } (some ⟨9, true⟩) 10 [2]
    (some 5000))

/-- Then they propose the other one, with a deadline. -/
def proposing : Operation :=
  .managed (.assignDirect { now := 0, key := 30 } (some ⟨9, true⟩) 10 3 6000
    (some 50) "")

/-- The only invited expert accepts. -/
theorem accept_converges_pooled :
    (Acceptance.invitation { now := 1, key := 40 } ⟨2, false⟩ 20 none).Converges
      (Operation.afterAll [pooling,
        .managed (.acceptInvitation { now := 1, key := 40 } ⟨2, false⟩ 20 none)]
        reviewed) := by
  refine (accept_converges_iff reviewed reviewed_accepted [pooling]
    (.invitation { now := 1, key := 40 } ⟨2, false⟩ 20 none)
    (by decide +kernel)).mpr ⟨{ request := 10, expert := 2, stage := .pending },
      { student := 1
        mode := .managed
        status := .pooled
        subject := some 1
        quoteAmount := some 5000 }, by decide +kernel, by decide +kernel, ?_,
      by simp⟩
  intro other competing stored _ _
  have only : (Operation.afterAll [pooling] reviewed).artifacts =
      [.invitation 20] := by decide +kernel
  have member := Db.mem_artifacts stored
  rw [only, List.mem_singleton] at member
  exact .inl member

/--
An accepted assignment leaves the invitation pending, and its deadline is not
the order's.
-/
theorem accept_direct_diverges :
    let acceptance : Acceptance :=
      .assignment { now := 1, key := 41 } ⟨3, false⟩ 30
    let db := Operation.afterAll [pooling, proposing] reviewed
    AcceptedConverged reviewed ∧
      (Request.run acceptance.operation.call db).1 = .ok () ∧
      ((acceptance.operation.after db).orders.row 41).map Order.deadline =
        some none ∧
      ¬acceptance.Converges (acceptance.operation.after db) := by
  intro acceptance db
  refine ⟨reviewed_accepted, by decide +kernel, by decide +kernel, ?_⟩
  rintro ⟨proposal, request, order, selected⟩
  have chosen : (acceptance.operation.after db).proposal acceptance.chosen =
      some
        { request := 10
          expert := 3
          stage := .accepted
          amount := some 6000
          currency := some "USD"
          deadline := some 50 } := by decide +kernel
  obtain rfl := Option.some.inj (selected.chosen.symm.trans chosen)
  exact selected.settled (.invitation 20)
    { request := 10, expert := 2, stage := .pending } (by decide +kernel) rfl rfl

end KnowledgeMarketplace
