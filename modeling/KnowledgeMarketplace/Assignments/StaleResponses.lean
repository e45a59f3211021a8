import KnowledgeMarketplace.Assignments.Convergence
import KnowledgeMarketplace.Database.Locks

/-!
# Accepted artifacts stay accepted

The acceptances lock their artifact and read it again.  Every other response
checks the status of a copy that the view has loaded, and saves over whatever
is stored when it commits.
-/

namespace KnowledgeMarketplace

open Transaction
open Orders (LeavesOrders MadeFor Created)

/-- The artifact that a statement saves. -/
def Stmt.artifact : Stmt → Option Artifact
  | .saveOffer id _ => some (.offer id)
  | .saveInvitation id _ => some (.invitation id)
  | .saveAssignment id _ => some (.assignment id)
  | _ => none

/-- The statement saves no artifact that is accepted. -/
def Spares (stmt : Stmt) (db : Db) : Prop :=
  ∀ proposal ∈ stmt.artifact.bind db.proposal, proposal.stage ≠ .accepted

instance (stmt : Stmt) (db : Db) : Decidable (Spares stmt db) :=
  inferInstanceAs (Decidable (∀ proposal ∈ stmt.artifact.bind db.proposal,
    proposal.stage ≠ .accepted))

/-- The statement creates the order of an acceptance. -/
def Stmt.createsOrder : Stmt → Bool
  | .insertOrder _ _ => true
  | _ => false

/-- A commit that is no acceptance saves no artifact that is accepted. -/
def Sparing (stmts : List Stmt) (db : Db) : Prop :=
  stmts.any Stmt.createsOrder = true ∨ Along Spares stmts db

instance (stmts : List Stmt) (db : Db) : Decidable (Sparing stmts db) :=
  inferInstanceAs (Decidable (_ ∨ _))

/-! ## What a commit does to accepted artifacts -/

/-- The other artifacts are as before. -/
theorem proposal_kept
    {stmt : Stmt} {db : Db} {artifact : Artifact} {proposal : Proposal}
    (other : stmt.artifact ≠ some artifact)
    (stored : db.proposal artifact = some proposal) :
    (stmt.apply db).proposal artifact = some proposal := by
  cases artifact with
  | offer id =>
      obtain ⟨row, found, rfl⟩ := Option.map_eq_some_iff.mp stored
      cases stmt with
      | insertOffer key value =>
          simp [Db.proposal, Stmt.apply, Table.row_insert_of_some key value found]
      | saveOffer key set =>
          have different : id ≠ key := fun same => other (by rw [same]; rfl)
          simp [Db.proposal, Stmt.apply, different, found]
      | _ => exact stored
  | invitation id =>
      obtain ⟨row, found, rfl⟩ := Option.map_eq_some_iff.mp stored
      cases stmt with
      | insertInvitation key value =>
          simp [Db.proposal, Stmt.apply, Table.row_insert_of_some key value found]
      | saveInvitation key set =>
          have different : id ≠ key := fun same => other (by rw [same]; rfl)
          simp [Db.proposal, Stmt.apply, different, found]
      | _ => exact stored
  | assignment id =>
      obtain ⟨row, found, rfl⟩ := Option.map_eq_some_iff.mp stored
      cases stmt with
      | insertAssignment key value =>
          simp [Db.proposal, Stmt.apply, Table.row_insert_of_some key value found]
      | saveAssignment key set =>
          have different : id ≠ key := fun same => other (by rw [same]; rfl)
          simp [Db.proposal, Stmt.apply, different, found]
      | _ => exact stored

/-- A sparing transaction keeps accepted artifacts. -/
theorem accepted_kept
    {stmts : List Stmt} {db : Db} (spares : Along Spares stmts db)
    {artifact : Artifact} {proposal : Proposal}
    (stored : db.proposal artifact = some proposal)
    (accepted : proposal.stage = .accepted) :
    (applyAll stmts db).proposal artifact = some proposal := by
  induction stmts generalizing db with
  | nil => exact stored
  | cons stmt rest inductionHypothesis =>
      refine inductionHypothesis spares.2 (proposal_kept ?_ stored)
      intro saves
      exact spares.1 proposal (by simp [saves, stored]) accepted

/-- What is accepted after statements that accept nothing was so before. -/
theorem accepted_before_all
    {stmts : List Stmt} (fine : ∀ stmt ∈ stmts, unaccepting (.write stmt))
    {db : Db} {artifact : Artifact} {proposal : Proposal}
    (found : (applyAll stmts db).proposal artifact = some proposal)
    (accepted : proposal.stage = .accepted) :
    db.proposal artifact = some proposal := by
  induction stmts generalizing db with
  | nil => exact found
  | cons stmt rest inductionHypothesis =>
      have middle := inductionHypothesis
        (fun other member => fine other (List.mem_cons_of_mem _ member)) found
      exact accepted_before (fine stmt List.mem_cons_self) middle accepted

/-- A save that accepts nothing leaves its artifact unaccepted. -/
theorem unaccepted_of_saves
    {stmt : Stmt} (fine : unaccepting (.write stmt)) {db : Db}
    {artifact : Artifact} {proposal : Proposal}
    (saves : stmt.artifact = some artifact)
    (found : (stmt.apply db).proposal artifact = some proposal) :
    proposal.stage ≠ .accepted := by
  cases stmt <;> simp [Stmt.artifact] at saves <;> subst saves
  all_goals
    obtain ⟨row, stored, rfl⟩ := Option.map_eq_some_iff.mp found
    rcases Table.row_modify_cases stored with ⟨different, _⟩ | ⟨_, old, _, rfl⟩
    · exact absurd rfl different
    · simpa using fine old

/-- Every accepted artifact is still accepted. -/
def KeepsAccepted (before after : Db) : Prop :=
  ∀ artifact proposal, before.proposal artifact = some proposal →
    proposal.stage = .accepted →
    ∃ later, after.proposal artifact = some later ∧ later.stage = .accepted

/-- A commit that accepts nothing keeps what is accepted only by sparing it. -/
theorem along_spares_of_keeps
    {stmts : List Stmt} (fine : ∀ stmt ∈ stmts, unaccepting (.write stmt))
    {db : Db} (keeps : KeepsAccepted db (applyAll stmts db)) :
    Along Spares stmts db := by
  induction stmts generalizing db with
  | nil => trivial
  | cons stmt rest inductionHypothesis =>
      have others : ∀ other ∈ rest, unaccepting (.write other) :=
        fun other member => fine other (List.mem_cons_of_mem _ member)
      have first := fine stmt List.mem_cons_self
      refine ⟨fun proposal member accepted => ?_, inductionHypothesis others ?_⟩
      · obtain ⟨artifact, saves, stored⟩ := Option.bind_eq_some_iff.mp member
        obtain ⟨later, after, still⟩ :=
          keeps artifact proposal stored accepted
        have middle := accepted_before_all others after still
        exact unaccepted_of_saves first saves middle still
      · intro artifact proposal stored accepted
        exact keeps artifact proposal (accepted_before first stored accepted)
          accepted

/-! ## Acceptances, under their locks -/

namespace Acceptance

/-- The chosen artifact is accepted, and an order created with its amount. -/
def Books (acceptance : Acceptance) (db : Db) : Prop :=
  ∃ proposal order, db.proposal acceptance.chosen = some proposal ∧
    proposal.stage = .accepted ∧
    db.orders.row acceptance.key = some order ∧
    order.request = proposal.request ∧
    ∀ amount, proposal.amount = some amount → order.amount = amount

/-- An operation accepts one artifact. -/
theorem operation_injective
    {first second : Acceptance} (same : first.operation = second.operation) :
    first = second := by
  cases first <;> cases second <;> simp_all [operation]

theorem closes_chosen (acceptance : Acceptance) :
    acceptance.closes acceptance.chosen = false := by
  cases acceptance <;> simp [closes, chosen]

end Acceptance

/-- Stored orders keep the terms that were agreed on. -/
def KeepsAgreed (before after : Db) : Prop :=
  ∀ key order, before.orders.row key = some order →
    ∃ later, after.orders.row key = some later ∧
      later.request = order.request ∧ later.amount = order.amount

/-- What the commits of an operation may do. -/
structure Responds (operation : Operation) (stmts : List Stmt) (db : Db) :
    Prop where
  accepts : ∀ acceptance : Acceptance, acceptance.operation = operation →
    Along Spares stmts db ∧ KeepsAgreed db (applyAll stmts db) ∧
      acceptance.Books (applyAll stmts db)
  others : (∀ acceptance : Acceptance, acceptance.operation ≠ operation) →
    ∀ stmt ∈ stmts, unaccepting (.write stmt)

/-- An acceptance that has accepted the artifact whose lock it holds. -/
structure Accepting
    (acceptance : Acceptance) (proposal : Proposal) (ctx : Ctx Db Row Stmt) :
    Prop where
  leaves : LeavesOrders ctx.writes
  spares : ∀ state, ctx.known state → Along Spares ctx.writes state
  accepted : ∀ state, ctx.known state →
    (applyAll ctx.writes state).proposal acceptance.chosen =
      some { proposal with stage := .accepted }

namespace Accepting

variable {acceptance : Acceptance} {proposal : Proposal}
  {ctx later : Ctx Db Row Stmt}

/-- The first statement accepts the chosen artifact. -/
theorem start
    (proposal : Proposal) {stmt : Stmt} (writes : later.writes = [stmt])
    (stored : ∀ state, later.known state →
      state.proposal acceptance.chosen = some proposal)
    (pending : proposal.stage = .pending)
    (saves : stmt.artifact = some acceptance.chosen)
    (accepts : ∀ db, (stmt.apply db).proposal acceptance.chosen =
      (db.proposal acceptance.chosen).map fun proposal =>
        { proposal with stage := .accepted }) :
    Accepting acceptance proposal later where
  leaves := by
    intro other member
    rw [writes] at member
    obtain rfl := List.mem_singleton.mp member
    intro same
    cases other <;> simp_all [Stmt.artifact, Stmt.table]
  spares state known := by
    simp [writes, Spares, saves, stored state known, pending]
  accepted state known := by
    simp [writes, accepts state, stored state known]

/-- Another statement that is no save of an accepted artifact. -/
theorem push
    {stmt : Stmt} (accepting : Accepting acceptance proposal ctx)
    (known : ∀ state, later.known state → ctx.known state)
    (writes : later.writes = ctx.writes ++ [stmt])
    (table : stmt.table ≠ .orders)
    (spares : ∀ state, later.known state →
      Spares stmt (applyAll ctx.writes state)) :
    Accepting acceptance proposal later where
  leaves := by
    intro other member
    rw [writes] at member
    rcases List.mem_append.mp member with early | last
    · exact accepting.leaves other early
    · exact (List.mem_singleton.mp last) ▸ table
  spares state holds := by
    rw [writes, along_append]
    exact ⟨accepting.spares state (known state holds), spares state holds,
      trivial⟩
  accepted state holds := by
    have before := accepting.accepted state (known state holds)
    have last : Along Spares [stmt] (applyAll ctx.writes state) :=
      ⟨spares state holds, trivial⟩
    rw [writes, applyAll_append]
    exact accepted_kept last before rfl

theorem saveRequest
    (accepting : Accepting acceptance proposal ctx) (id : RequestId)
    (loaded : RequestStatus) (set : ServiceRequest → ServiceRequest) :
    Accepting acceptance proposal (ctx.push (.saveRequest id loaded set)) :=
  accepting.push (fun _ known => known) rfl (by simp [Stmt.table])
    fun _ _ => by simp [Spares, Stmt.artifact]

/-- A longer look changes nothing. -/
theorem observe
    (accepting : Accepting acceptance proposal ctx)
    (known : ∀ state, later.known state → ctx.known state)
    (writes : later.writes = ctx.writes) :
    Accepting acceptance proposal later where
  leaves := writes ▸ accepting.leaves
  spares state holds := writes ▸ accepting.spares state (known state holds)
  accepted state holds :=
    writes ▸ accepting.accepted state (known state holds)

/-- With the order, the acceptance is complete. -/
theorem commit
    {key : OrderId} {order : Order}
    (accepting : Accepting acceptance proposal ctx)
    (sameKey : acceptance.key = key) (about : order.request = proposal.request)
    (amount : ∀ value, proposal.amount = some value → order.amount = value)
    (created : Created ctx later key order) :
    later.CommitOk rowLocks (Responds acceptance.operation) := by
  refine rowLocks_commit fun state known => ?_
  have start := created.known state known
  have orders := created.applyAll_orders accepting.leaves state
  have fresh := created.fresh state known
  obtain ⟨event, _, _, split⟩ := created.writes
  have last : Along Spares [.insertOrder key order, .recordEvent event]
      (applyAll ctx.writes state) := by
    simp [Spares, Stmt.artifact]
  refine ⟨fun other same => ?_, fun other => absurd rfl (other acceptance)⟩
  obtain rfl := Acceptance.operation_injective same
  refine ⟨?_, fun other earlier stored => ?_, ?_⟩
  · rw [split, along_append]
    exact ⟨accepting.spares state start, last⟩
  · have kept := Table.row_insert_of_some key order stored
    exact ⟨earlier, by rw [orders, kept], rfl, rfl⟩
  · refine ⟨{ proposal with stage := .accepted }, order, ?_, rfl, ?_, about,
      amount⟩
    · rw [split, applyAll_append]
      exact accepted_kept last (accepting.accepted state start) rfl
    · rw [orders, sameKey]
      exact Table.row_insert_self order fresh

/-- Matching the request and creating the order end the acceptance. -/
theorem converge
    {env : Env} {request : ServiceRequest} {expert : UserId}
    {source : OrderSource} {offerId : Option OfferId}
    (accepting : Accepting acceptance proposal ctx)
    (amount : ServiceRequest → Option Int) (currency : ServiceRequest → String)
    (key : acceptance.key = env.key)
    (priced : ∀ row value, proposal.amount = some value →
      amount row = some value) :
    (do
      let matched ← ServiceRequests.markMatched env proposal.request request
      Orders.createOrderForRequest env proposal.request matched expert
        (amount matched) (currency matched) source offerId : Tx OrderId).wp
      rowLocks ctx
      (Ctx.Finishes rowLocks (Responds acceptance.operation)) := by
  simp only [ServiceRequests.markMatched, ServiceRequests.transition,
    Prog.wp_bind, Prog.wp_require, Prog.wp_exec, Prog.wp_pure,
    Ctx.finishes_error, implies_true, and_true]
  intro _
  refine Orders.createOrderForRequest_wp (fun _ _ _ same => same)
    (accepting.saveRequest _ _ _).leaves (fun _ _ => trivial) ?_
  intro order later made created
  refine (accepting.saveRequest _ _ _).commit key made.request
    (fun value same => ?_) created
  have booked := (priced _ value same).symm.trans made.amount
  exact (Option.some.inj booked).symm

/-- Closing the competing artifacts spares the accepted one. -/
theorem closeOthers
    {request : RequestId} {artifact : Nat → Artifact} {keys : Db → List Nat}
    {holds : Nat → Db → Bool} {row : Nat → Row} {stmt : Nat → Stmt}
    {goal : Except Error Nat → Ctx Db Row Stmt → Prop}
    (closing : Closing request acceptance.closes artifact keys holds stmt)
    (saves : ∀ id, (stmt id).artifact = some (artifact id))
    (locked : ∀ id stmts first second, SameRow (row id) first second →
      (applyAll stmts first).proposal (artifact id) =
        (applyAll stmts second).proposal (artifact id))
    (accepting : Accepting acceptance proposal ctx)
    (finish : ∀ count later, Accepting acceptance proposal later →
      goal (.ok count) later) :
    (Tx.updateWhere keys holds row stmt : Tx Nat).wp rowLocks ctx goal := by
  refine Prog.wp_updateWhere (Accepting acceptance proposal) (fun seen => ?_)
    (fun id current seen kept _ _ => ?_) (fun id current seen kept _ _ matched => ?_)
    finish
  · exact accepting.observe (fun _ known => known.1) rfl
  · exact kept.observe (fun _ known => known.1) rfl
  · refine kept.push (fun _ known => known.1) rfl ?_ fun state known => ?_
    · intro same
      simpa [same] using closing.table id
    · obtain ⟨_, found, stored, _, pending⟩ :=
        (closing.matching id _).mp matched
      have same := known.2 (row id) (by simp)
      rw [locked id current.writes seen state same] at stored
      simp [Spares, saves, stored, pending]

end Accepting

/-- An offer after a transaction depends on that offer only. -/
theorem applyAll_offer_congr
    {stmts : List Stmt} {first second : Db} {id : OfferId}
    (same : first.offers.row id = second.offers.row id) :
    (applyAll stmts first).offers.row id =
      (applyAll stmts second).offers.row id := by
  refine applyAll_congr (fun db : Db => db.offers.row id)
    (fun stmt _ _ same => ?_) same
  cases stmt with
  | insertOffer key _ | saveOffer key _ =>
      by_cases target : id = key
      · subst target
        simp [Stmt.apply, Table.row_insert, same]
      · simp [Stmt.apply, target, same]
  | _ => exact same

/-- An invitation after a transaction depends on that invitation only. -/
theorem applyAll_invitation_congr
    {stmts : List Stmt} {first second : Db} {id : InvitationId}
    (same : first.invitations.row id = second.invitations.row id) :
    (applyAll stmts first).invitations.row id =
      (applyAll stmts second).invitations.row id := by
  refine applyAll_congr (fun db : Db => db.invitations.row id)
    (fun stmt _ _ same => ?_) same
  cases stmt with
  | insertInvitation key _ | saveInvitation key _ =>
      by_cases target : id = key
      · subst target
        simp [Stmt.apply, Table.row_insert, same]
      · simp [Stmt.apply, target, same]
  | _ => exact same

/-- The student's selection keeps what is accepted. -/
theorem accept_wp (env : Env) (student : Actor) (id : OfferId) :
    (Bidding.accept env student id).wp rowLocks .start (Ctx.Finishes rowLocks
      (Responds (Acceptance.offer env student id).operation)) := by
  simp only [Bidding.accept, Bidding.getForUpdate, Bidding.getRequestForUpdate,
    Tx.getForUpdate, Tx.get, Prog.wp_bind, Prog.wp_lockRow, Prog.wp_read,
    Prog.wp_orFail, Prog.wp_require, Prog.wp_exec, Ctx.start_writes,
    Ctx.take_writes, Ctx.observe_writes, applyAll_nil, Ctx.finishes_error,
    implies_true, and_true]
  intro first _ _ offer stored second _ _ request _ _ _ pending _ third _ _ _
  refine (Accepting.start offer.proposal rfl (fun state known => ?_)
    (by simpa using pending) rfl fun db => ?_).closeOthers
    (declineSiblings_closing env student env offer.request id) (fun _ => rfl)
    (fun other stmts first second same => ?_) fun count later accepting => ?_
  · simp only [Ctx.push_known, Ctx.observe_known, Ctx.take_known] at known
    have same : first.offers.row id = state.offers.row id :=
      known.1.1.2 (.offer id) (by simp)
    simp [Acceptance.chosen, Db.proposal, ← same, stored]
  · cases present : db.offers.row id <;>
      simp [Acceptance.chosen, Db.proposal, Stmt.apply, present,
        Offer.proposal, OfferStatus.stage]
  · exact congrArg (Option.map Offer.proposal) (applyAll_offer_congr same)
  · exact Prog.wp_bind.mp (accepting.converge (fun _ => some offer.amount)
      (fun _ => offer.currency) rfl fun _ _ same => same)

/-- The acceptance of an invitation keeps what is accepted. -/
theorem acceptInvitation_wp
    (env : Env) (expert : Actor) (id : InvitationId) (copy : PoolInvitation)
    (expectedAmount : Option Int) :
    (Assignments.acceptInvitation env expert id copy expectedAmount).wp rowLocks
      .start (Ctx.Finishes rowLocks (Responds
        (Acceptance.invitation env expert id expectedAmount).operation)) := by
  simp only [Assignments.acceptInvitation, Assignments.expertGuard,
    Assignments.getInvitationForUpdate, Assignments.matchedGuard,
    Bidding.getRequestForUpdate, Tx.getForUpdate, Tx.get, Prog.wp_bind,
    Prog.wp_lockRow, Prog.wp_read, Prog.wp_orFail, Prog.wp_require,
    Prog.wp_exec, Prog.wp_tryCatch, Prog.wp_throw, Ctx.start_writes,
    Ctx.take_writes, Ctx.observe_writes, applyAll_nil, Ctx.start_observe,
    Ctx.finishes_error, implies_true, and_true]
  intro _ _ _ _ own first _ _ invitation stored second _ _ request _ pending _
    third _ _ _
  refine (Accepting.start invitation.proposal rfl (fun state known => ?_)
    (by simpa using pending.1) rfl fun db => ?_).closeOthers
    (declineOthers_closing env expert expectedAmount env invitation.request id)
    (fun _ => rfl) (fun other stmts first second same => ?_)
    fun count later accepting => ?_
  · simp only [Ctx.push_known, Ctx.observe_known, Ctx.take_known] at known
    have same : first.invitations.row id = state.invitations.row id :=
      known.1.1.2 (.invitation id) (by simp)
    simp [Acceptance.chosen, Db.proposal, ← same, stored]
  · cases present : db.invitations.row id <;>
      simp [Acceptance.chosen, Db.proposal, Stmt.apply, present,
        PoolInvitation.proposal, InvitationStatus.stage]
  · exact congrArg (Option.map PoolInvitation.proposal)
      (applyAll_invitation_congr same)
  · exact Prog.wp_bind.mp (accepting.converge (·.quoteAmount) (·.currency) rfl
      (by simp))

/-- The acceptance of an assignment keeps what is accepted. -/
theorem acceptDirect_wp
    (env : Env) (expert : Actor) (id : AssignmentId) (copy : DirectAssignment) :
    (Assignments.acceptDirect env expert id copy).wp rowLocks .start
      (Ctx.Finishes rowLocks
        (Responds (Acceptance.assignment env expert id).operation)) := by
  simp only [Assignments.acceptDirect, Assignments.expertGuard,
    Assignments.getAssignmentForUpdate, Assignments.matchedGuard,
    Bidding.getRequestForUpdate, Tx.getForUpdate, Tx.get, Prog.wp_bind,
    Prog.wp_lockRow, Prog.wp_read, Prog.wp_orFail, Prog.wp_require,
    Prog.wp_exec, Ctx.start_writes, Ctx.take_writes, Ctx.observe_writes,
    applyAll_nil, Ctx.start_observe, Ctx.finishes_error,
    implies_true, and_true]
  intro _ _ _ _ own first _ _ assignment stored second _ _ request _ pending _
    third _ _ _
  refine Prog.wp_bind.mp ((Accepting.start assignment.proposal rfl
    (fun state known => ?_) (by simpa using pending.1) rfl
    fun db => ?_).converge (fun _ => some assignment.amount)
      (fun _ => assignment.currency) rfl fun _ _ same => same)
  · simp only [Ctx.push_known, Ctx.observe_known, Ctx.take_known] at known
    have same : first.assignments.row id = state.assignments.row id :=
      known.1.1.2 (.assignment id) (by simp)
    simp [Acceptance.chosen, Db.proposal, ← same, stored]
  · cases present : db.assignments.row id <;>
      simp [Acceptance.chosen, Db.proposal, Stmt.apply, present,
        DirectAssignment.proposal, AssignmentStatus.stage]

/-! ## All operations together -/

/-- Every operation responds. -/
theorem operation_responds (operation : Operation) :
    operation.call.Safe rowLocks (Responds operation) := by
  by_cases accepts : ∃ acceptance : Acceptance,
      acceptance.operation = operation
  · obtain ⟨acceptance, rfl⟩ := accepts
    cases acceptance with
    | offer env student id => exact Call.perform_safe (accept_wp env student id)
    | invitation env expert id expectedAmount =>
        exact Call.performOn_safe fun copy =>
          acceptInvitation_wp env expert id copy expectedAmount
    | assignment env expert id =>
        exact Call.performOn_safe fun copy => acceptDirect_wp env expert id copy
  · have other : ∀ acceptance : Acceptance, acceptance.operation ≠ operation :=
      fun acceptance same => accepts ⟨acceptance, same⟩
    exact rowLocks_safe (operation_unaccepting operation other)
      fun stmts all _ => ⟨fun acceptance same => absurd same (other acceptance),
        fun _ => all⟩

theorem KeepsAgreed.of_unaccepting
    {stmts : List Stmt} (fine : ∀ stmt ∈ stmts, unaccepting (.write stmt))
    (db : Db) : KeepsAgreed db (applyAll stmts db) := by
  intro key order stored
  refine applyAll_keeps (fun current : Db => ∃ later,
    current.orders.row key = some later ∧ later.request = order.request ∧
      later.amount = order.amount) (fun stmt member current kept => ?_)
    ⟨order, stored, rfl, rfl⟩
  obtain ⟨later, found, about, amount⟩ := kept
  have good := fine stmt member
  cases stmt with
  | insertOrder id value => exact good.elim
  | saveOrder id set =>
      obtain ⟨request, _, price⟩ := good later
      by_cases same : key = id
      · subst same
        exact ⟨set later, by simp [Stmt.apply, found], request.trans about,
          price.trans amount⟩
      · exact ⟨later, by simp [Stmt.apply, same, found], about, amount⟩
  | _ => exact ⟨later, found, about, amount⟩

/-- Accepted artifacts and the terms of orders are as before. -/
structure Keeps (before after : Db) : Prop where
  accepted : ∀ artifact proposal, before.proposal artifact = some proposal →
    proposal.stage = .accepted → after.proposal artifact = some proposal
  agreed : KeepsAgreed before after

theorem Keeps.refl (db : Db) : Keeps db db where
  accepted _ _ stored _ := stored
  agreed _ order stored := ⟨order, stored, rfl, rfl⟩

theorem Keeps.trans
    {first second third : Db} (early : Keeps first second)
    (late : Keeps second third) : Keeps first third where
  accepted artifact proposal stored accepted :=
    late.accepted artifact proposal
      (early.accepted artifact proposal stored accepted) accepted
  agreed key order stored := by
    obtain ⟨middle, found, about, amount⟩ := early.agreed key order stored
    obtain ⟨last, after, still, same⟩ := late.agreed key middle found
    exact ⟨last, after, still.trans about, same.trans amount⟩

/-- An acceptance that has booked its order stays so. -/
theorem Acceptance.Books.lasts
    {acceptance : Acceptance} {before after : Db}
    (books : acceptance.Books before) (keeps : Keeps before after) :
    acceptance.Books after := by
  obtain ⟨proposal, order, chosen, accepted, stored, about, amount⟩ := books
  obtain ⟨later, found, same, booked⟩ := keeps.agreed _ order stored
  exact ⟨proposal, later, keeps.accepted _ proposal chosen accepted, accepted,
    found, same.trans about, fun value priced =>
      booked.trans (amount value priced)⟩

namespace Responds

variable {operation : Operation} {stmts : List Stmt} {db : Db}

/-- A commit spares what is accepted exactly when it may. -/
theorem sparing_iff (responds : Responds operation stmts db) :
    Sparing stmts db ↔ Along Spares stmts db := by
  refine ⟨fun sparing => ?_, .inr⟩
  by_cases accepts : ∃ acceptance : Acceptance,
      acceptance.operation = operation
  · obtain ⟨acceptance, same⟩ := accepts
    exact (responds.accepts acceptance same).1
  · have fine := responds.others fun acceptance same => accepts ⟨acceptance, same⟩
    refine sparing.resolve_left fun creates => ?_
    obtain ⟨stmt, member, creating⟩ := List.any_eq_true.mp creates
    have good := fine stmt member
    cases stmt <;> simp_all [Stmt.createsOrder, unaccepting]

theorem keeps (responds : Responds operation stmts db)
    (sparing : Sparing stmts db) : Keeps db (applyAll stmts db) where
  accepted _ _ stored accepted :=
    accepted_kept (responds.sparing_iff.mp sparing) stored accepted
  agreed := by
    by_cases accepts : ∃ acceptance : Acceptance,
        acceptance.operation = operation
    · obtain ⟨acceptance, same⟩ := accepts
      exact (responds.accepts acceptance same).2.1
    · exact .of_unaccepting
        (responds.others fun acceptance same => accepts ⟨acceptance, same⟩) db

/-- Only a sparing commit keeps what is accepted. -/
theorem keepsAccepted_iff (responds : Responds operation stmts db) :
    KeepsAccepted db (applyAll stmts db) ↔ Sparing stmts db := by
  constructor
  · intro keeps
    by_cases accepts : ∃ acceptance : Acceptance,
        acceptance.operation = operation
    · obtain ⟨acceptance, same⟩ := accepts
      exact .inr (responds.accepts acceptance same).1
    · exact .inr (along_spares_of_keeps
        (responds.others fun acceptance same => accepts ⟨acceptance, same⟩) keeps)
  · intro sparing artifact proposal stored accepted
    exact ⟨proposal,
      (responds.keeps sparing).accepted artifact proposal stored accepted,
      accepted⟩

end Responds

/--
In every interleaving whose commits save no accepted artifact, what is accepted
stays so, and the order of an acceptance keeps the accepted amount; a commit
that is not sparing takes an accepted artifact back at once.
-/
theorem accepted_stays_iff
    (start : Db) (operations : Nat → Operation) {system : Marketplace}
    (reach : System.Reach Sparing (Marketplace.start start operations) system) :
    (∀ last, System.Reach Sparing system last →
        Keeps system.committed last.committed) ∧
      (∀ client acceptance, operations client = Acceptance.operation acceptance →
        (system.committing (.run client)).isSome →
        ∀ last, System.Reach Sparing (system.step (.run client)) last →
          acceptance.Books last.committed) ∧
      ∀ client stmts, system.committing (.run client) = some stmts →
        (KeepsAccepted system.committed
            (system.step (.run client)).committed ↔
          Sparing stmts system.committed) := by
  have initial : (Marketplace.start start operations).Sound rowLocks
      fun client => Responds (operations client) :=
    System.sound_init trivial fun client => operation_responds (operations client)
  have always : ∀ stmts state, Sparing stmts state →
      rowLocks.Condition stmts state := fun _ _ _ => trivial
  have sound := (reach.mono always).sound initial
  have kept : ∀ {base : Marketplace}, base.Sound rowLocks
      (fun client => Responds (operations client)) → ∀ last,
      System.Reach Sparing base last → Keeps base.committed last.committed := by
    intro base safe last later
    exact (later.lasts safe always
      (fun client stmts state sparing responds keeps =>
        keeps.trans (responds.keeps sparing)) (Keeps.refl _)).2
  have commits : ∀ client stmts, system.committing (.run client) = some stmts →
      Responds (operations client) stmts system.committed :=
    fun client stmts commit => sound.guaranteed (fun _ _ => trivial) commit
  refine ⟨kept sound, ?_, ?_⟩
  · intro client acceptance same commit last later
    obtain ⟨stmts, found⟩ := Option.isSome_iff_exists.mp commit
    have responds := commits client stmts found
    have books := (responds.accepts acceptance same.symm).2.2
    rw [← System.step_committed_of_some found] at books
    have next := sound.step (.run client) fun _ _ => trivial
    exact books.lasts (kept next last later)
  · intro client stmts found
    rw [System.step_committed_of_some found]
    exact (commits client stmts found).keepsAccepted_iff

/-- An open request with two offers. -/
def twoOffers : Db :=
  { experts := .insert (.insert .empty 2 ⟨true, true, [1]⟩) 3 ⟨true, true, [1]⟩
    requests := .insert .empty 10 { student := 1, status := .opened, offerCount := 2 }
    offers := .insert
      (.insert .empty 20 { request := 10, expert := 2, amount := 5000 }) 21
      { request := 10, expert := 3, amount := 6000 } }

/-- The student selects the first offer; another expert answers meanwhile. -/
def answering (call : OfferCall) : Nat → Operation
  | 0 => .offer (.accept { now := 1, key := 40 } ⟨1, false⟩ 20)
  | _ => .offer call

/-- The other view loads its rows before the selection runs. -/
def selected (call : OfferCall) : Marketplace :=
  (Marketplace.start twoOffers (answering call)).runAll
    (turns 1 1 ++ turns 0 60)

/-- Withdrawing the declined offer, from a copy, spares the accepted one. -/
theorem accepted_stays_withdrawn :
    let system := selected (.withdraw { now := 2 } 3 21)
    Keeps system.committed (system.runAll (turns 1 60)).committed := by
  intro system
  have reach : System.Reach Sparing (Marketplace.start twoOffers
      (answering (.withdraw { now := 2 } 3 21))) system :=
    System.reach_of_admitsAll .refl (by decide +kernel)
  exact (accepted_stays_iff twoOffers (answering (.withdraw { now := 2 } 3 21))
    reach).1 _ (System.reach_of_admitsAll .refl (by decide +kernel))

/-- Editing the accepted offer, from a copy, takes the acceptance back. -/
theorem stale_update_reopens :
    let system := selected (.update { now := 2 } 2 20 (some (some 7000)) none)
    let last := system.runAll (turns 1 60)
    system.committed.proposal (.offer 20) = some
        { request := 10
          expert := 2
          stage := .accepted
          amount := some 5000
          currency := some "USD" } ∧
      last.committed.proposal (.offer 20) = some
        { request := 10
          expert := 2
          stage := .pending
          amount := some 7000
          currency := some "USD" } ∧
      (last.committed.orders.row 40).map (fun order =>
        (order.offerId, order.amount)) = some (some 20, 5000) := by
  decide +kernel

end KnowledgeMarketplace
