import KnowledgeMarketplace.Operations.Runs

/-!
# Offers, invitations and assignments as one

An expert is selected by accepting an offer, a pool invitation or a direct
assignment.  Seen as proposals, the three differ in the terms they carry and in
the competing proposals that their acceptance closes.
-/

namespace KnowledgeMarketplace

open Transaction

/-- What an expert can be selected by. -/
inductive Artifact where
  | offer (id : OfferId)
  | invitation (id : InvitationId)
  | assignment (id : AssignmentId)
  deriving DecidableEq

/-- Whether an artifact can still be accepted, was accepted, or neither. -/
inductive Stage where
  | pending
  | accepted
  | closed
  deriving DecidableEq

def OfferStatus.stage : OfferStatus → Stage
  | .pending => .pending
  | .accepted => .accepted
  | .declined | .withdrawn | .expired => .closed

def InvitationStatus.stage : InvitationStatus → Stage
  | .pending => .pending
  | .accepted => .accepted
  | .declined | .expired => .closed

def AssignmentStatus.stage : AssignmentStatus → Stage
  | .pending => .pending
  | .accepted => .accepted
  | .declined | .expired | .superseded => .closed

@[simp] theorem OfferStatus.stage_pending {status : OfferStatus} :
    status.stage = .pending ↔ status = .pending := by
  cases status <;> simp [stage]

@[simp] theorem InvitationStatus.stage_pending {status : InvitationStatus} :
    status.stage = .pending ↔ status = .pending := by
  cases status <;> simp [stage]

@[simp] theorem AssignmentStatus.stage_pending {status : AssignmentStatus} :
    status.stage = .pending ↔ status = .pending := by
  cases status <;> simp [stage]

/-- The terms that an artifact proposes; a missing one is the request's. -/
structure Proposal where
  request : RequestId
  expert : UserId
  stage : Stage
  amount : Option Int := none
  currency : Option String := none
  deadline : Option Time := none
  deriving DecidableEq

@[simps] def Offer.proposal (offer : Offer) : Proposal where
  request := offer.request
  expert := offer.expert
  stage := offer.status.stage
  amount := some offer.amount
  currency := some offer.currency

@[simps] def PoolInvitation.proposal (invitation : PoolInvitation) : Proposal where
  request := invitation.request
  expert := invitation.expert
  stage := invitation.status.stage

@[simps] def DirectAssignment.proposal (assignment : DirectAssignment) : Proposal where
  request := assignment.request
  expert := assignment.expert
  stage := assignment.status.stage
  amount := some assignment.amount
  currency := some assignment.currency
  deadline := assignment.deadline

/-- The proposal that an artifact stores. -/
def Db.proposal (db : Db) : Artifact → Option Proposal
  | .offer id => (db.offers.row id).map Offer.proposal
  | .invitation id => (db.invitations.row id).map PoolInvitation.proposal
  | .assignment id => (db.assignments.row id).map DirectAssignment.proposal

/-- The stored artifacts. -/
def Db.artifacts (db : Db) : List Artifact :=
  db.offers.keys.map .offer ++ db.invitations.keys.map .invitation ++
    db.assignments.keys.map .assignment

theorem Db.mem_artifacts
    {db : Db} {artifact : Artifact} {proposal : Proposal}
    (stored : db.proposal artifact = some proposal) :
    artifact ∈ db.artifacts := by
  have present := Option.isSome_of_mem stored
  cases artifact <;>
    simp_all [artifacts, Db.proposal, Table.mem_keys]

/-- Close a proposal. -/
def Proposal.close (proposal : Proposal) : Proposal :=
  { proposal with stage := .closed }

/-- An acceptance by the student or by the invited or assigned expert. -/
inductive Acceptance where
  | offer (env : Env) (student : Actor) (id : OfferId)
  | invitation (env : Env) (expert : Actor) (id : InvitationId)
      (expectedAmount : Option Int)
  | assignment (env : Env) (expert : Actor) (id : AssignmentId)

namespace Acceptance

/-- The operation that accepts. -/
def operation : Acceptance → Operation
  | .offer env student id => .offer (.accept env student id)
  | .invitation env expert id expectedAmount =>
      .managed (.acceptInvitation env expert id expectedAmount)
  | .assignment env expert id => .managed (.acceptDirect env expert id)

/-- The key of the order that is created. -/
def key : Acceptance → OrderId
  | .offer env _ _ | .invitation env _ _ _ | .assignment env _ _ => env.key

/-- The artifact that is accepted. -/
def chosen : Acceptance → Artifact
  | .offer _ _ id => .offer id
  | .invitation _ _ id _ => .invitation id
  | .assignment _ _ id => .assignment id

/-- The competing artifacts that the service closes. -/
def closes : Acceptance → Artifact → Bool
  | .offer _ _ id, .offer other => other ≠ id
  | .invitation _ _ id _, .invitation other => other ≠ id
  | _, _ => false

end Acceptance

/-- The proposal that a bulk update of competing proposals leaves. -/
def Proposal.settle (request : RequestId) (closes : Bool)
    (proposal : Proposal) : Proposal :=
  if closes = true ∧ proposal.request = request ∧ proposal.stage = .pending then
    proposal.close
  else
    proposal

/-! ## Closing the competing proposals -/

/-- A bulk update that closes the pending proposals for a request. -/
structure Closing
    (request : RequestId) (closes : Artifact → Bool)
    (artifact : Nat → Artifact) (keys : Db → List Nat)
    (holds : Nat → Db → Bool) (stmt : Nat → Stmt) : Prop where
  only : ∀ other, closes other = true → ∃ id, other = artifact id
  injective : ∀ first second, artifact first = artifact second → first = second
  listed : ∀ id db, (db.proposal (artifact id)).isSome → id ∈ keys db
  matching : ∀ id db, holds id db = true ↔
    closes (artifact id) = true ∧ ∃ proposal,
      db.proposal (artifact id) = some proposal ∧
        proposal.request = request ∧ proposal.stage = .pending
  closed : ∀ id db, ((stmt id).apply db).proposal (artifact id) =
    (db.proposal (artifact id)).map Proposal.close
  frame : ∀ id db other, other ≠ artifact id →
    ((stmt id).apply db).proposal other = db.proposal other
  table : ∀ id, (stmt id).table ∈ [.offers, .invitations]

@[simp] theorem Proposal.settle_false (request : RequestId) :
    Proposal.settle request false = id := by
  funext proposal
  simp [settle]

/-- A proposal that is settled already is not pending any more. -/
theorem Proposal.settle_settle
    {request : RequestId} {closes : Bool} {proposal : Proposal}
    (about : (proposal.settle request closes).request = request)
    (pending : (proposal.settle request closes).stage = .pending)
    (competes : closes = true) : False := by
  unfold Proposal.settle at about pending
  split at pending
  · simp [Proposal.close] at pending
  · rename_i unsettled
    simp only [unsettled, if_false] at about
    exact unsettled ⟨competes, about, pending⟩

variable {request : RequestId} {closes : Artifact → Bool}
  {artifact : Nat → Artifact} {keys : Db → List Nat}
  {holds : Nat → Db → Bool} {row : Nat → Row} {stmt : Nat → Stmt}

/-- Every proposal is as before, or settled. -/
structure Settling
    (request : RequestId) (closes : Artifact → Bool) (db current : Db) :
    Prop where
  requests : current.requests = db.requests
  orders : current.orders = db.orders
  proposals : ∀ other, current.proposal other = db.proposal other ∨
    current.proposal other =
      (db.proposal other).map (Proposal.settle request (closes other))

/-- Each row of the bulk update settles its proposal. -/
theorem Closing.settles
    (closing : Closing request closes artifact keys holds stmt)
    {db current : Db} {id : Nat} (matched : holds id current = true)
    (settling : Settling request closes db current) :
    Settling request closes db ((stmt id).apply current) where
  requests := (Stmt.apply_requests fun same => by
    simpa [same] using closing.table id).trans settling.requests
  orders := (Stmt.apply_orders fun same => by
    simpa [same] using closing.table id).trans settling.orders
  proposals other := by
    by_cases same : other = artifact id
    · subst same
      obtain ⟨competes, proposal, found, about, pending⟩ :=
        (closing.matching id current).mp matched
      refine .inr ((closing.closed id current).trans ?_)
      rcases settling.proposals (artifact id) with before | after
      · rw [found] at before
        simp [found, ← before, Proposal.settle, competes, about, pending]
      · rw [found] at after
        obtain ⟨earlier, stored, rfl⟩ := Option.map_eq_some_iff.mp after.symm
        exact (Proposal.settle_settle about pending competes).elim
    · rw [closing.frame id current other same]
      exact settling.proposals other

/-- Once closed, a proposal does not match any more. -/
theorem Closing.closes_match
    (closing : Closing request closes artifact keys holds stmt)
    (id : Nat) (current : Db) : ¬holds id ((stmt id).apply current) = true := by
  intro again
  obtain ⟨-, proposal, found, -, pending⟩ :=
    (closing.matching id _).mp again
  rw [closing.closed] at found
  obtain ⟨before, -, rfl⟩ := Option.map_eq_some_iff.mp found
  simp [Proposal.close] at pending

/-- The bulk update closes exactly the competing pending proposals. -/
theorem Closing.post
    (closing : Closing request closes artifact keys holds stmt) (db : Db) :
    (Tx.updateWhere keys holds row stmt : Tx Nat).Post db fun result next =>
      (∃ count, result = .ok count) ∧
        (next.requests = db.requests ∧ next.orders = db.orders) ∧
        ∀ other, next.proposal other = (db.proposal other).map
          (Proposal.settle request (closes other)) := by
  have kept : (Tx.updateWhere keys holds row stmt : Tx Nat).Post db
      fun result next => Settling request closes db next ∧
        ∃ count, result = .ok count :=
    Prog.post_updateWhere (Settling request closes db)
      (fun _ _ matched settling => closing.settles matched settling)
      ⟨rfl, rfl, fun _ => .inl rfl⟩
  have settled : (Tx.updateWhere keys holds row stmt : Tx Nat).Post db
      fun _ next => ∀ id, ¬holds id next = true := by
    refine Prog.post_updateWhere_settled (fun id matched => ?_)
      (fun id current _ => closing.closes_match id current)
      (fun id other current after => ?_)
    · obtain ⟨-, proposal, found, -⟩ := (closing.matching id db).mp matched
      exact closing.listed id db (by simp [found])
    · by_cases same : other = id
      · exact absurd (same ▸ after) (closing.closes_match id current)
      · refine (closing.matching other current).mpr ?_
        rw [← closing.frame id current (artifact other) fun equal =>
          same (closing.injective _ _ equal)]
        exact (closing.matching other _).mp after
  unfold Prog.Post at kept settled ⊢
  obtain ⟨settling, value⟩ := kept
  refine ⟨value, ⟨settling.requests, settling.orders⟩, fun other => ?_⟩
  rcases settling.proposals other with before | after
  · rw [before]
    cases stored : db.proposal other with
    | none => rfl
    | some proposal =>
        have unsettled : ¬(closes other = true ∧ proposal.request = request ∧
            proposal.stage = .pending) := by
          rintro ⟨competes, about, pending⟩
          obtain ⟨id, rfl⟩ := closing.only other competes
          exact settled id ((closing.matching id _).mpr
            ⟨competes, proposal, before.trans stored, about, pending⟩)
        simp [Proposal.settle, unsettled]
  · exact after

/-! ## What a successful acceptance does -/

namespace Acceptance

/-- A successful acceptance of a proposal for a request, alone. -/
structure Matches
    (acceptance : Acceptance) (proposal : Proposal) (request : ServiceRequest)
    (order : Order) (db next : Db) : Prop where
  chosen : db.proposal acceptance.chosen = some proposal
  pending : proposal.stage = .pending
  requestRow : db.requests.row proposal.request = some request
  unmatched : (ServiceRequests.transitions request.status .matched).isSome
  accepted : next.proposal acceptance.chosen =
    some { proposal with stage := .accepted }
  others : ∀ other, other ≠ acceptance.chosen →
    next.proposal other = (db.proposal other).map
      (Proposal.settle proposal.request (acceptance.closes other))
  matched : next.requests.row proposal.request =
    some { request with status := .matched }
  orderRow : next.orders.row acceptance.key = some order
  about : order.request = proposal.request
  expert : order.expert = proposal.expert
  amount : (proposal.amount <|> request.quoteAmount) = some order.amount
  currency : order.currency = proposal.currency.getD request.currency
  deadline : order.deadline = request.deadline

end Acceptance

/-- The order that the factory creates for a matched request. -/
structure Converged
    (id : RequestId) (request : ServiceRequest) (expert : UserId)
    (amount : Option Int) (currency : String) (key : OrderId) (order : Order)
    (db next : Db) : Prop where
  unmatched : (ServiceRequests.transitions request.status .matched).isSome
  orderRow : next.orders.row key = some order
  about : order.request = id
  expertSame : order.expert = expert
  amountSame : amount = some order.amount
  currencySame : order.currency = currency
  deadline : order.deadline = request.deadline
  matched : db.requests.row id = some request →
    next.requests.row id = some { request with status := .matched }
  proposals : ∀ artifact, next.proposal artifact = db.proposal artifact

/-- The locked request is matched and its order created. -/
theorem converge_post
    (env : Env) (id : RequestId) (request : ServiceRequest) (expert : UserId)
    (amount : ServiceRequest → Option Int)
    (currency : ServiceRequest → String) (source : OrderSource)
    (offerId : Option OfferId) (db : Db) :
    (do
      let matched ← ServiceRequests.markMatched env id request
      Orders.createOrderForRequest env id matched expert (amount matched)
        (currency matched) source offerId : Tx OrderId).Post db
      fun result next => ∀ key, result = .ok key → ∃ order,
        Converged id request expert
          (amount { request with status := .matched })
          (currency { request with status := .matched }) env.key order db
          next := by
  simp only [ServiceRequests.markMatched, ServiceRequests.transition,
    ServiceRequests.moved, reduceCtorEq, or_self, if_false,
    Orders.createOrderForRequest, Orders.recordEvent, Tx.create,
    Prog.post_bind, Prog.post_require, Prog.post_exec, Prog.post_pure,
    Prog.post_read, Prog.post_orFail, Prog.post_lockRow, false_implies,
    implies_true, and_true]
  intro edge _ total priced unused _ _
  have stored : ∀ order, (db.orders.insert env.key order).row env.key =
      some order := fun order =>
    Table.row_insert_self order (by simpa [Stmt.apply] using unused)
  exact ⟨_,
    { unmatched := edge
      orderRow := stored _
      about := rfl
      expertSame := rfl
      amountSame := priced
      currencySame := rfl
      deadline := rfl
      matched := fun row => by simp [Stmt.apply, row]
      proposals := fun artifact => by cases artifact <;> rfl }⟩

/-! ## The three acceptances -/

/-- An accepted offer closes the other pending offers. -/
theorem declineSiblings_closing
    (env : Env) (student : Actor) (later : Env) (request : RequestId)
    (id : OfferId) :
    Closing request (Acceptance.offer env student id).closes .offer
      (fun db => db.offers.keys) (Bidding.sibling request id)
      (fun other => .saveOffer other fun stored =>
        { stored with
          status := .declined
          respondedAt := some later.now
          responseReason := "Another expert was selected" }) where
  only other competes := by
    cases other <;> simp_all [Acceptance.closes]
  injective := by simp
  listed other db := by simp [Db.proposal, Table.mem_keys]
  matching other db := by
    cases stored : db.offers.row other <;>
      simp [Bidding.sibling, Acceptance.closes, Db.proposal, stored, and_comm]
  closed other db := by
    cases stored : db.offers.row other <;>
      simp [Stmt.apply, Db.proposal, stored, Offer.proposal, Proposal.close,
        OfferStatus.stage]
  frame other db another different := by
    cases another <;> simp_all [Stmt.apply, Db.proposal]
  table := by simp [Stmt.table]

/-- An accepted invitation closes the other pending invitations. -/
theorem declineOthers_closing
    (env : Env) (expert : Actor) (expectedAmount : Option Int) (later : Env)
    (request : RequestId) (id : InvitationId) :
    Closing request (Acceptance.invitation env expert id expectedAmount).closes
      .invitation (fun db => db.invitations.keys)
      (fun other db => Assignments.invitationOpen request other db && other ≠ id)
      (fun other => .saveInvitation other fun stored =>
        { stored with
          status := .declined
          respondedAt := some later.now
          declineReason := "Another expert was assigned" }) where
  only other competes := by
    cases other <;> simp_all [Acceptance.closes]
  injective := by simp
  listed other db := by simp [Db.proposal, Table.mem_keys]
  matching other db := by
    cases stored : db.invitations.row other <;>
      simp [Assignments.invitationOpen, Acceptance.closes, Db.proposal, stored,
        and_comm]
  closed other db := by
    cases stored : db.invitations.row other <;>
      simp [Stmt.apply, Db.proposal, stored, PoolInvitation.proposal,
        Proposal.close, InvitationStatus.stage]
  frame other db another different := by
    cases another <;> simp_all [Stmt.apply, Db.proposal]
  table := by simp [Stmt.table]

/-- The student's selection of an offer. -/
theorem accept_matches (env : Env) (student : Actor) (id : OfferId) (db : Db) :
    (Bidding.accept env student id).Post db fun result next =>
      ∀ value, result = .ok value → ∃ proposal request order,
        (Acceptance.offer env student id).Matches proposal request order db
          next := by
  simp only [Bidding.accept, Bidding.getForUpdate, Bidding.getRequestForUpdate,
    Tx.getForUpdate, Tx.get, Prog.post_bind, Prog.post_lockRow,
    Prog.post_read, Prog.post_orFail, Prog.post_require, Prog.post_exec,
    reduceCtorEq, false_implies, implies_true, and_true]
  intro offer stored request found _ _ pending _ _
  refine ((declineSiblings_closing env student env offer.request id).post
    _).mono ?_
  rintro result mid ⟨⟨count, rfl⟩, ⟨requests, orders⟩, proposals⟩
  dsimp only [Bidding.createOrderFromOffer]
  refine Prog.post_bind_of_ok ((converge_post env offer.request request
    offer.expert (fun _ => some offer.amount) (fun _ => offer.currency) .openBid
    (some id) mid).mono ?_)
  intro result next converges value ok
  obtain ⟨order, converged⟩ := converges value ok
  have saved := fun other =>
    (converged.proposals other).trans (proposals other)
  refine ⟨offer.proposal, request, order, ?_⟩
  exact
    { chosen := by simp [Acceptance.chosen, Db.proposal, stored]
      pending := by simpa using pending
      requestRow := found
      unmatched := converged.unmatched
      accepted := by
        rw [saved]
        simp [Acceptance.chosen, Acceptance.closes, Db.proposal, Stmt.apply,
          stored, Offer.proposal, OfferStatus.stage]
      others := fun other different => by
        rw [saved]
        cases other <;>
          simp_all [Acceptance.chosen, Db.proposal, Stmt.apply]
      matched := converged.matched (by rw [requests]; exact found)
      orderRow := converged.orderRow
      about := converged.about
      expert := converged.expertSame
      amount := converged.amountSame
      currency := converged.currencySame
      deadline := converged.deadline }

/-- The acceptance of an invitation, on an up-to-date copy. -/
theorem acceptInvitation_matches
    (env : Env) (expert : Actor) (id : InvitationId) {copy : PoolInvitation}
    (expectedAmount : Option Int) {db : Db}
    (loaded : db.invitations.row id = some copy) :
    (Assignments.acceptInvitation env expert id copy expectedAmount).Post db
      fun result next => ∀ value, result = .ok value →
        ∃ proposal request order,
          (Acceptance.invitation env expert id expectedAmount).Matches
            proposal request order db next := by
  simp only [Assignments.acceptInvitation, Assignments.expertGuard,
    Assignments.matchedGuard, Assignments.getInvitationForUpdate,
    Bidding.getRequestForUpdate, Tx.getForUpdate, Tx.get, Prog.post_bind,
    Prog.post_lockRow, Prog.post_read, Prog.post_orFail, Prog.post_require,
    Prog.post_exec, Prog.post_tryCatch, Prog.post_throw, reduceCtorEq,
    false_implies, implies_true, and_true]
  intro _ own invitation stored request found pending _ _
  obtain rfl := Option.some.inj (loaded.symm.trans stored)
  refine ((declineOthers_closing env expert expectedAmount env
    copy.request id).post _).mono ?_
  rintro result mid ⟨⟨count, rfl⟩, ⟨requests, orders⟩, proposals⟩
  dsimp only
  refine Prog.post_bind_of_ok ((converge_post env copy.request request
    expert.id (·.quoteAmount) (·.currency) .managedPool none mid).mono ?_)
  intro result next converges value ok
  obtain ⟨order, converged⟩ := converges value ok
  have saved := fun other =>
    (converged.proposals other).trans (proposals other)
  refine ⟨copy.proposal, request, order, ?_⟩
  exact
    { chosen := by simp [Acceptance.chosen, Db.proposal, stored]
      pending := by simpa using pending.1
      requestRow := found
      unmatched := converged.unmatched
      accepted := by
        rw [saved]
        simp [Acceptance.chosen, Acceptance.closes, Db.proposal, Stmt.apply,
          stored, PoolInvitation.proposal, InvitationStatus.stage]
      others := fun other different => by
        rw [saved]
        cases other <;>
          simp_all [Acceptance.chosen, Db.proposal, Stmt.apply]
      matched := converged.matched (by rw [requests]; exact found)
      orderRow := converged.orderRow
      about := converged.about
      expert := converged.expertSame.trans own.symm
      amount := converged.amountSame
      currency := converged.currencySame
      deadline := converged.deadline }

/-- The acceptance of an assignment, on an up-to-date copy. -/
theorem acceptDirect_matches
    (env : Env) (expert : Actor) (id : AssignmentId) {copy : DirectAssignment}
    {db : Db} (loaded : db.assignments.row id = some copy) :
    (Assignments.acceptDirect env expert id copy).Post db
      fun result next => ∀ value, result = .ok value →
        ∃ proposal request order,
          (Acceptance.assignment env expert id).Matches proposal request order
            db next := by
  simp only [Assignments.acceptDirect, Assignments.expertGuard,
    Assignments.matchedGuard, Assignments.getAssignmentForUpdate,
    Bidding.getRequestForUpdate, Tx.getForUpdate, Tx.get, Prog.post_bind,
    Prog.post_lockRow, Prog.post_read, Prog.post_orFail, Prog.post_require,
    Prog.post_exec, reduceCtorEq, false_implies, implies_true, and_true]
  intro _ own assignment stored request found pending _ _
  obtain rfl := Option.some.inj (loaded.symm.trans stored)
  refine Prog.post_bind_of_ok ((converge_post env copy.request request
    expert.id (fun _ => some copy.amount) (fun _ => copy.currency)
    .managedDirect none _).mono ?_)
  intro result next converges value ok
  obtain ⟨order, converged⟩ := converges value ok
  refine ⟨copy.proposal, request, order, ?_⟩
  exact
    { chosen := by simp [Acceptance.chosen, Db.proposal, stored]
      pending := by simpa using pending.1
      requestRow := found
      unmatched := converged.unmatched
      accepted := by
        rw [converged.proposals]
        simp [Acceptance.chosen, Db.proposal, Stmt.apply, stored,
          DirectAssignment.proposal, AssignmentStatus.stage]
      others := fun other different => by
        rw [converged.proposals]
        cases other <;>
          simp_all [Acceptance.chosen, Acceptance.closes, Db.proposal,
            Stmt.apply]
      matched := converged.matched found
      orderRow := converged.orderRow
      about := converged.about
      expert := converged.expertSame.trans own.symm
      amount := converged.amountSame
      currency := converged.currencySame
      deadline := converged.deadline }

/-- An acceptance that runs alone matches its request, or changes nothing. -/
theorem Acceptance.ends (acceptance : Acceptance) (db : Db) :
    Call.Ends acceptance.operation.call db fun next =>
      ∃ proposal request order,
        acceptance.Matches proposal request order db next := by
  cases acceptance with
  | offer env student id =>
      exact Call.perform_ends (accept_matches env student id db)
  | invitation env expert id expectedAmount =>
      exact Call.performOn_ends fun copy loaded =>
        acceptInvitation_matches env expert id expectedAmount loaded
  | assignment env expert id =>
      exact Call.performOn_ends fun copy loaded =>
        acceptDirect_matches env expert id loaded

/-- A managed request in review, and two experts. -/
def reviewed : Db :=
  { experts := .insert (.insert .empty 2 ⟨true, true, [1]⟩) 3 ⟨true, true, [1]⟩
    requests := .insert .empty 10
      { student := 1, mode := .managed, status := .inReview, subject := some 1 } }

end KnowledgeMarketplace
