import KnowledgeMarketplace.Operations
import KnowledgeMarketplace.Orders.Rules

/-!
# The first acceptance wins

Staff triage and expert responses run interleaved on managed requests.  The
lock of a request row protects the set of its orders: only its holder creates
an order for it, after it has seen that there is none.
-/

namespace KnowledgeMarketplace

open Transaction

namespace Assignments

open Orders (HasOrder SingleOrder hasOrder_congr hasOrder_insert LeavesOrders)

/-- The operations on managed requests, with the student's cancellation. -/
def Routes : Operation → Prop
  | .managed _ | .request (.cancel _ _ _ _) | .request (.expireDue _) => True
  | _ => False

/-- The operation accepts an invitation or an assignment. -/
def IsAccept : Operation → Prop
  | .managed (.acceptInvitation _ _ _ _) | .managed (.acceptDirect _ _ _) =>
      True
  | _ => False

/-- The request that an acceptance is about. -/
def accepts (db : Db) : Operation → Option RequestId
  | .managed (.acceptInvitation _ _ id _) =>
      (db.invitations.row id).map PoolInvitation.request
  | .managed (.acceptDirect _ _ id) =>
      (db.assignments.row id).map DirectAssignment.request
  | _ => none

/-- The request lock protects the orders of the request. -/
def firstAccept : Protocol Db Row Stmt where
  Inv := SingleOrder
  Same
    | .request id, first, second =>
        ∀ order, HasOrder id order first ↔ HasOrder id order second
    | .order id, first, second => first.orders.row id = second.orders.row id
    | .invitation id, first, second =>
        first.invitations.row id = second.invitations.row id
    | .assignment id, first, second =>
        first.assignments.row id = second.assignments.row id
    | _, _, _ => True
  Condition _ _ := True
  same_refl := by intro row state; cases row <;> simp
  same_trans := by intro row first second third; cases row <;> simp +contextual

/-- The statements create the first order of the request. -/
def CreatesFirst (request : RequestId) (stmts : List Stmt) (db : Db) : Prop :=
  (∀ id, ¬HasOrder request id db) ∧
    ∃ id, HasOrder request id (applyAll stmts db)

/-- What the commits of an operation may do. -/
def Guarantee (operation : Operation) (stmts : List Stmt) (db : Db) : Prop :=
  IsAccept operation → ∃ request, accepts db operation = some request ∧
    CreatesFirst request stmts db

/-! ## Operations that create no order -/

/-- Effects outside the order table. -/
def quiet : Effect Stmt → Prop
  | .write stmt => stmt.table ≠ .orders
  | .savepoint => False

/-- An operation that accepts nothing writes no order. -/
theorem emits_quiet
    {operation : Operation} (routes : Routes operation)
    (other : ¬IsAccept operation) :
    operation.call.Emits quiet fun _ => True := by
  cases operation with
  | request call =>
      cases call <;> try exact routes.elim
      all_goals simp [Operation.call, RequestCall.call, Call.performOn,
        Call.perform, Call.get, ServiceRequests.expireDue,
        ServiceRequests.cancel, ServiceRequests.transition, quiet, Stmt.table]
  | managed call =>
      cases call <;> try exact (other trivial).elim
      all_goals simp [Operation.call, ManagedCall.call, Call.performOn,
        Call.perform, Call.get, approvePool, assignDirect, supersedeDirect,
        setQuote, rejectManaged, declineInvitation, declineDirect, expireDue,
        inviteAll, expertGuard, ServiceRequests.transition, Tx.create, quiet,
        Stmt.table]
  | _ => exact routes.elim

/-- Statements outside the order table keep the protocol. -/
theorem same_of_leavesOrders
    {stmts : List Stmt} (leaves : LeavesOrders stmts)
    (db : Db) {row : Row} (free : row ∉ rowsOf Db stmts) :
    firstAccept.Same row db (applyAll stmts db) := by
  have unlocked : ∀ stmt ∈ stmts, row ∉ stmt.rows :=
    fun stmt member inside => free (mem_rowsOf.mpr ⟨stmt, member, inside⟩)
  cases row with
  | request id =>
      exact fun order => hasOrder_congr (leaves.applyAll_orders db).symm id order
  | order id =>
      exact congrArg (·.row id) (leaves.applyAll_orders db).symm
  | invitation id =>
      exact (applyAll_frame (fun current : Db => current.invitations.row id)
        fun stmt member _ =>
          Stmt.apply_invitation_row (unlocked stmt member)).symm
  | assignment id =>
      exact (applyAll_frame (fun current : Db => current.assignments.row id)
        fun stmt member _ =>
          Stmt.apply_assignment_row (unlocked stmt member)).symm
  | _ => trivial

/-- An operation that accepts nothing is safe. -/
theorem safe_of_not_accept
    {operation : Operation} (routes : Routes operation)
    (other : ¬IsAccept operation) :
    operation.call.Safe firstAccept (Guarantee operation) := by
  refine (emits_quiet routes other).safe ?_ ?_
  · intro stmts state all single _
    refine ⟨?_, fun accept => absurd accept other⟩
    have same := LeavesOrders.applyAll_orders all state
    intro request first second firstHas secondHas
    exact single request first second
      ((hasOrder_congr same _ _).mp firstHas)
      ((hasOrder_congr same _ _).mp secondHas)
  · exact fun stmts state row all _ _ free =>
      same_of_leavesOrders all state free

/-! ## Acceptances -/

/-- An acceptance that holds the lock of a request without order. -/
structure Converging
    (accepts : Db → Option RequestId) (id : RequestId)
    (ctx : Ctx Db Row Stmt) : Prop where
  leaves : LeavesOrders ctx.writes
  locked : ctx.held (.request id)
  about : ∀ state, ctx.known state → accepts state = some id
  unmatched : ∀ state, ctx.known state → ∀ order, ¬HasOrder id order state

/-- Statements outside the order table do not disturb an acceptance. -/
theorem Converging.of_extends
    {accepts : Db → Option RequestId} {id : RequestId}
    {base later : Ctx Db Row Stmt}
    (converging : Converging accepts id base)
    (grown : base.Extends (fun stmt => stmt.table ≠ .orders) later) :
    Converging accepts id later where
  leaves := converging.leaves.of_extends grown
  locked := grown.held _ converging.locked
  about := fun state known =>
    converging.about state (grown.known state known)
  unmatched := fun state known =>
    converging.unmatched state (grown.known state known)

/-- What the commit of an acceptance does. -/
def CreatesAccepted
    (accepts : Db → Option RequestId) (stmts : List Stmt) (db : Db) : Prop :=
  ∃ request, accepts db = some request ∧ CreatesFirst request stmts db

/-- The end of an acceptance: the factory creates the first order. -/
theorem Converging.create
    {env : Env} {id : RequestId} {request : ServiceRequest} {expert : UserId}
    {amount : Option Int} {currency : String} {source : OrderSource}
    {offerId : Option OfferId} {ctx : Ctx Db Row Stmt}
    {accepts : Db → Option RequestId}
    (converging : Converging accepts id ctx) :
    (Orders.createOrderForRequest env id request expert amount currency source
      offerId).wp firstAccept ctx fun result later =>
        match result with
        | .ok _ => later.CommitOk firstAccept (CreatesAccepted accepts)
        | .error _ => True := by
  refine Orders.createOrderForRequest_wp (fun _ _ _ same => same)
    converging.leaves (fun _ _ => trivial) ?_
  intro order later made created state single known _ rows
  have sameRequest := made.request
  have fresh := created.fresh state known
  have orders := created.applyAll_orders converging.leaves state
  have start := created.known state known
  have before := converging.unmatched state start
  have added := hasOrder_insert fresh orders
  refine ⟨single.insert (sameRequest ▸ before) added,
    ⟨id, converging.about state start, before, env.key,
      (added id env.key).mpr (.inr ⟨rfl, sameRequest⟩)⟩, ?_⟩
  · intro row free
    cases row with
    | request other =>
        intro key
        refine Iff.symm ((added other key).trans (or_iff_left ?_))
        rintro ⟨rfl, rfl⟩
        exact free (sameRequest ▸ created.held _ converging.locked)
    | order other =>
        change state.orders.row other = _
        rw [orders, Table.row_insert_other]
        rintro rfl
        exact free created.locked
    | invitation other =>
        refine (applyAll_frame (fun db : Db => db.invitations.row other)
          fun stmt member _ => Stmt.apply_invitation_row fun inside => ?_).symm
        exact free (rows _ (mem_rowsOf.mpr ⟨stmt, member, inside⟩))
    | assignment other =>
        refine (applyAll_frame (fun db : Db => db.assignments.row other)
          fun stmt member _ => Stmt.apply_assignment_row fun inside => ?_).symm
        exact free (rows _ (mem_rowsOf.mpr ⟨stmt, member, inside⟩))
    | _ => trivial

/-- Matching the request writes no order. -/
theorem Converging.markMatched
    {env : Env} {id : RequestId} {request : ServiceRequest}
    {ctx : Ctx Db Row Stmt} {accepts : Db → Option RequestId}
    {goal : Except Error ServiceRequest → Ctx Db Row Stmt → Prop}
    (converging : Converging accepts id ctx)
    (errors : ∀ error later, goal (.error error) later)
    (next : ∀ matched later, Converging accepts id later →
      goal (.ok matched) later) :
    (ServiceRequests.markMatched env id request).wp firstAccept ctx goal := by
  have emits : (ServiceRequests.markMatched env id request).Emits quiet
      fun _ => True := by
    simp [ServiceRequests.markMatched, ServiceRequests.transition, quiet,
      Stmt.table]
  refine Prog.wp_of_emits emits (by simp [quiet]) ?_
  rintro (error | matched) later _ grown
  · exact errors error later
  · exact next matched later (converging.of_extends grown)

/-- No order was seen under the request lock, so there is none later. -/
theorem unmatched_of_seen
    {id : RequestId} {seen later : Db}
    (none : ¬orderExists id seen) (same : firstAccept.Same (.request id) seen later)
    (order : OrderId) : ¬HasOrder id order later := by
  rintro has
  obtain ⟨row, stored, about⟩ := (same order).mpr has
  refine none (Table.any_eq_true.mpr ⟨order, row, stored, ?_⟩)
  simpa using about

/-- Every path of accepting an invitation keeps the protocol. -/
theorem acceptInvitation_wp
    (env : Env) (expert : Actor) (id : InvitationId)
    (invitation : PoolInvitation) (expectedAmount : Option Int) :
    (acceptInvitation env expert id invitation expectedAmount).wp
      firstAccept .start fun result later =>
        match result with
        | .ok _ => later.CommitOk firstAccept <| CreatesAccepted fun db =>
            (db.invitations.row id).map PoolInvitation.request
        | .error _ => True := by
  simp only [acceptInvitation, expertGuard, getInvitationForUpdate,
    Bidding.getRequestForUpdate, Tx.getForUpdate, Tx.get, matchedGuard,
    Prog.wp_bind, Prog.wp_read, Prog.wp_require, Prog.wp_lockRow,
    Prog.wp_orFail, Prog.wp_tryCatch, Prog.wp_throw, Prog.wp_exec,
    Ctx.start_writes, Ctx.take_writes, Ctx.observe_writes, applyAll_nil,
    Ctx.start_observe, implies_true, and_true]
  intro _ _ _ _ _ first _ _ found stored second _ _ request _ _ _
    third _ _ none
  have converging : Converging
      (fun db => (db.invitations.row id).map PoolInvitation.request)
      found.request
      ((((Ctx.observe firstAccept (Ctx.start.take (.invitation id)) first).take
        (.request found.request)).observe firstAccept second).observe
          firstAccept third) := by
    refine ⟨by simp [LeavesOrders], by simp, ?_, ?_⟩
    · intro state known
      simp only [Ctx.observe_known, Ctx.take_known, Ctx.start_known] at known
      have same := known.1.1.2 (.invitation id) (by simp)
      change first.invitations.row id = state.invitations.row id at same
      simp [← same, stored]
    · intro state known
      simp only [Ctx.observe_known] at known
      exact unmatched_of_seen none (known.2 _ (by simp))
  have declines : (declineOthers env found.request id).Emits quiet
      fun _ => True := by
    simp [declineOthers, quiet, Stmt.table]
  refine Prog.wp_of_emits declines (by simp [quiet]) ?_
  rintro (error | count) later _ grown
  · trivial
  · have saved := converging.of_extends <| (Ctx.Extends.push ?_).trans grown
    exact saved.markMatched (fun _ _ => trivial) fun _ _ held => held.create
    simp [Stmt.table]

/-- Every path of accepting an assignment keeps the protocol. -/
theorem acceptDirect_wp
    (env : Env) (expert : Actor) (id : AssignmentId)
    (assignment : DirectAssignment) :
    (acceptDirect env expert id assignment).wp
      firstAccept .start fun result later =>
        match result with
        | .ok _ => later.CommitOk firstAccept <| CreatesAccepted fun db =>
            (db.assignments.row id).map DirectAssignment.request
        | .error _ => True := by
  simp only [acceptDirect, expertGuard, getAssignmentForUpdate,
    Bidding.getRequestForUpdate, Tx.getForUpdate, Tx.get, matchedGuard,
    Prog.wp_bind, Prog.wp_read, Prog.wp_require, Prog.wp_lockRow,
    Prog.wp_orFail, Prog.wp_exec,
    Ctx.start_writes, Ctx.take_writes, Ctx.observe_writes, applyAll_nil,
    Ctx.start_observe, implies_true, and_true]
  intro _ _ _ _ _ first _ _ found stored second _ _ request _ _ _
    third _ _ none
  have converging : Converging
      (fun db => (db.assignments.row id).map DirectAssignment.request)
      found.request
      ((((Ctx.observe firstAccept (Ctx.start.take (.assignment id)) first).take
        (.request found.request)).observe firstAccept second).observe
          firstAccept third) := by
    refine ⟨by simp [LeavesOrders], by simp, ?_, ?_⟩
    · intro state known
      simp only [Ctx.observe_known, Ctx.take_known, Ctx.start_known] at known
      have same := known.1.1.2 (.assignment id) (by simp)
      change first.assignments.row id = state.assignments.row id at same
      simp [← same, stored]
    · intro state known
      simp only [Ctx.observe_known] at known
      exact unmatched_of_seen none (known.2 _ (by simp))
  refine Converging.markMatched (converging.of_extends (.push ?_))
    (fun _ _ => trivial) fun _ _ held => held.create
  simp [Stmt.table]

/-- Every operation on managed requests is safe. -/
theorem safe_of_routes {operation : Operation} (routes : Routes operation) :
    operation.call.Safe firstAccept (Guarantee operation) := by
  by_cases accept : IsAccept operation
  · rcases operation with _ | _ | call | _ | _ | _ <;> try exact accept.elim
    cases call with
    | acceptInvitation env expert id expectedAmount =>
        refine Call.performOn_safe fun copy => Prog.wp_mono
          (acceptInvitation_wp env expert id copy expectedAmount) ?_
        rintro (error | order) later commits
        · trivial
        · exact commits.mono fun _ _ created _ => created
    | acceptDirect env expert id =>
        refine Call.performOn_safe fun copy => Prog.wp_mono
          (acceptDirect_wp env expert id copy) ?_
        rintro (error | order) later commits
        · trivial
        · exact commits.mono fun _ _ created _ => created
    | _ => exact accept.elim
  · exact safe_of_not_accept routes accept

/-- An acceptance succeeds by its only commit. -/
theorem byCommit_of_accept
    {operation : Operation} (accept : IsAccept operation) :
    Proc.ByCommit operation.call := by
  rcases operation with _ | _ | call | _ | _ | _ <;> try exact accept.elim
  cases call with
  | acceptInvitation env expert id expectedAmount =>
      exact Call.byCommit_performOn _ _ _
  | acceptDirect env expert id => exact Call.byCommit_performOn _ _ _
  | _ => exact accept.elim

/-- The client's operation has ended without an error. -/
def Succeeded (system : Marketplace) (client : Nat) : Prop :=
  (system.clients client).proc = .halt (.ok ())

/--
At any time of any interleaving, every request has at most one order.  The
next turn of an acceptance that has not succeeded either changes nothing and
does not succeed, or creates the first order of its request and succeeds.
-/
theorem first_accept_wins
    (start : Db) (single : SingleOrder start)
    (operations : Nat → Operation)
    (routes : ∀ client, Routes (operations client))
    (schedule : List Turn) :
    let system := (Marketplace.start start operations).runAll schedule
    SingleOrder system.committed ∧
      ∀ client, IsAccept (operations client) → ¬Succeeded system client →
        let next := system.turn client
        (next.committed = system.committed ∧ ¬Succeeded next client) ∨
          ∃ request,
            accepts system.committed (operations client) = some request ∧
            (∀ id, ¬HasOrder request id system.committed) ∧
            (∃ id, HasOrder request id next.committed) ∧
            Succeeded next client := by
  intro system
  have sound : system.Sound firstAccept fun client =>
      Guarantee (operations client) :=
    (System.reach_runAll (Marketplace.start start operations) schedule).sound
      (System.sound_init single fun client => safe_of_routes (routes client))
  refine ⟨sound.inv, fun client accept running => ?_⟩
  have ends : system.EndsByCommit client :=
    System.EndsByCommit.runAll (.inr (byCommit_of_accept accept)) schedule
  rcases commits : system.committing (.run client : Turn) with _ | stmts
  · refine .inl ⟨System.step_committed_of_none commits, fun succeeded => ?_⟩
    by_cases halted : ∃ result, (system.clients client).proc = .halt result
    · obtain ⟨result, halted⟩ := halted
      have same : system.turn client = system := by
        simp only [System.turn, halted]
      exact running (same ▸ succeeded)
    · obtain ⟨stmts, commit⟩ := ends.turn
        (fun result halt => halted ⟨result, halt⟩) succeeded
      simp [commits] at commit
  · obtain ⟨request, about, before, order, after⟩ :=
      sound.guaranteed (fun _ _ => trivial) commits accept
    rw [← System.step_committed_of_some commits] at after
    obtain ⟨value, succeeded⟩ := ends.succeeds commits
    exact .inr ⟨request, about, before, ⟨order, after⟩, succeeded⟩

/-- A pooled request with one invitation and one direct assignment. -/
def routed : Db :=
  { experts := .insert (.insert .empty 2 ⟨true, true, [1]⟩) 3 ⟨true, true, [1]⟩
    requests := .insert .empty 10
      { student := 1
        mode := .managed
        status := .pooled
        subject := some 1
        quoteAmount := some 5000 }
    invitations := .insert .empty 20
      { request := 10, expert := 2, expiresAt := 100, invitedBy := 9 }
    assignments := .insert .empty 30
      { request := 10
        expert := 3
        amount := 6000
        expiresAt := 100
        decidedByAdmin := 9 } }

/-- Both experts accept. -/
def rivals : Nat → Operation
  | 0 => .managed (.acceptInvitation { now := 1, key := 40 } ⟨2, false⟩ 20 none)
  | _ => .managed (.acceptDirect { now := 1, key := 41 } ⟨3, false⟩ 30)

/-- The two acceptances run in turns; the second one waits for the lock. -/
def rivalTurns : List Turn :=
  (List.replicate 30 (turns 0 1 ++ turns 1 1)).flatten

/-- The invitation wins, the assignment fails. -/
theorem first_accept_wins_race :
    SingleOrder
        ((Marketplace.start routed rivals).runAll rivalTurns).committed ∧
      ((Marketplace.start routed rivals).runAll
        rivalTurns).committed.orders.keys = [40] := by
  have routes : ∀ client, Routes (rivals client) := by
    intro client
    cases client <;> trivial
  refine ⟨(first_accept_wins routed ?_ rivals routes rivalTurns).1,
    by decide +kernel⟩
  rintro request first second ⟨order, stored, _⟩
  simp [routed] at stored

end Assignments

end KnowledgeMarketplace
