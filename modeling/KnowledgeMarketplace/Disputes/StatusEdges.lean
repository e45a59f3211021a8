import KnowledgeMarketplace.Disputes.Rules
import KnowledgeMarketplace.Operations

/-!
# A dispute is resolved once

The review services check the copy of the dispute that the page has read, and
save it without its lock.  As long as no copy is out of date when its save
commits, the stored status moves along the edges of the table, a dispute is
resolved once and its refund is booked once.
-/

namespace KnowledgeMarketplace

open Transaction

namespace Disputes

open Payments (booked)

/-- The status stays or moves along an edge. -/
def Follows (before after : DisputeStatus) : Prop :=
  after = before ∨ (transitions before after).isSome

/-- Every stored dispute is still stored, and its status follows the edges. -/
def MovesAlongEdges (before after : Db) : Prop :=
  ∀ id dispute, before.disputes.row id = some dispute →
    ∃ later, after.disputes.row id = some later ∧
      Follows dispute.status later.status

/-- The statement moves every stored status along edges. -/
def Moves (stmt : Stmt) (db : Db) : Prop :=
  MovesAlongEdges db (stmt.apply db)

/-- The dispute that a statement saves, with the status of the copy. -/
def savedCopy : Stmt → Option (OrderId × DisputeStatus)
  | .saveDispute id loaded _ => some (id, loaded)
  | _ => none

/-- A saved dispute still has the status of the copy. -/
def Fresh (stmt : Stmt) (db : Db) : Prop :=
  ∀ copy ∈ savedCopy stmt,
    (db.disputes.row copy.1).any (·.status = copy.2) = true

instance (stmt : Stmt) (db : Db) : Decidable (Fresh stmt db) :=
  inferInstanceAs (Decidable (∀ copy ∈ savedCopy stmt,
    (db.disputes.row copy.1).any (·.status = copy.2) = true))

/-- How often a dispute of the order has been resolved, by its timeline. -/
def resolutions (id : OrderId) (db : Db) : Nat :=
  db.orderEvents.countP fun event =>
    event.order = id && event.eventType = .disputeResolved

/-- The order has no dispute, or one that is not resolved. -/
def Unresolved (id : OrderId) (db : Db) : Prop :=
  ∀ dispute, db.disputes.row id = some dispute →
    dispute.status ∈ openStatuses

/--
Since `start` no dispute was resolved twice, and every refund that was booked
belongs to a resolution.
-/
structure ResolvedOnce (start db : Db) : Prop where
  once : ∀ id, resolutions id db ≤ 1
  pending : ∀ id, Unresolved id db → resolutions id db = 0
  paired : ∀ id, booked .refund id db + resolutions id start ≤
    booked .refund id start + resolutions id db

/-- What every commit of a review keeps while its copies are up to date. -/
def review (start : Db) : Protocol Db Row Stmt where
  Inv := ResolvedOnce start
  Same _ _ _ := True
  Condition := Along Fresh
  same_refl _ _ := trivial
  same_trans _ _ _ _ _ _ := trivial

/-! ## Statements that resolve nothing -/

/-- Effects that move disputes along edges, and neither resolve nor refund. -/
def gentle : Effect Stmt → Prop
  | .write (.saveDispute _ loaded set) =>
      ∀ stored, (transitions loaded (set stored).status).isSome
  | .write (.insertDispute _ value) => value.status = .opened
  | .write (.recordEvent value) => value.eventType ≠ .disputeResolved
  | .write (.appendLedger _) => False
  | .savepoint => False
  | _ => True

theorem moves_of_same
    {before after : Db} (same : after.disputes = before.disputes) :
    MovesAlongEdges before after :=
  fun _ dispute stored => ⟨dispute, same ▸ stored, .inl rfl⟩

/-- A save of an up-to-date copy along an edge moves along edges. -/
theorem moves_saveDispute
    {id : OrderId} {loaded : DisputeStatus} {set : Dispute → Dispute} {db : Db}
    (fresh : Fresh (.saveDispute id loaded set) db)
    (edge : ∀ stored, (transitions loaded (set stored).status).isSome) :
    Moves (.saveDispute id loaded set) db := by
  intro other dispute stored
  by_cases same : other = id
  · subst same
    have found := fresh _ rfl
    simp only [stored, Option.any_some, decide_eq_true_eq] at found
    exact ⟨set dispute, by simp [Stmt.apply, stored],
      .inr (found ▸ edge dispute)⟩
  · exact ⟨dispute, by simp [Stmt.apply, same, stored], .inl rfl⟩

/-- A gentle statement moves along edges when its copy is up to date. -/
theorem moves_of_gentle
    {stmt : Stmt} (fine : gentle (.write stmt)) {db : Db}
    (fresh : Fresh stmt db) : Moves stmt db := by
  cases stmt with
  | saveDispute id loaded set => exact moves_saveDispute fresh fine
  | insertDispute id value =>
      exact fun other dispute stored =>
        ⟨dispute, Table.row_insert_of_some id value stored, .inl rfl⟩
  | _ => exact moves_of_same rfl

/-- Along edges a resolved dispute stays resolved. -/
theorem unresolved_of_moves
    {before after : Db} (moves : MovesAlongEdges before after)
    {id : OrderId} (unresolved : Unresolved id after) :
    Unresolved id before := by
  intro dispute stored
  obtain ⟨later, found, follows⟩ := moves id dispute stored
  have waiting := unresolved later found
  rcases follows with same | edge
  · exact same ▸ waiting
  · cases first : dispute.status <;> cases last : later.status <;>
      simp_all [transitions, openStatuses]

/-- A gentle statement resolves nothing. -/
theorem resolutions_of_gentle
    {stmt : Stmt} (fine : gentle (.write stmt)) (db : Db) (id : OrderId) :
    resolutions id (stmt.apply db) = resolutions id db := by
  cases stmt with
  | recordEvent value =>
      have other : value.eventType ≠ .disputeResolved := fine
      simp [resolutions, Stmt.apply, other]
  | _ => rfl

/-- A gentle statement books nothing. -/
theorem booked_of_gentle
    {stmt : Stmt} (fine : gentle (.write stmt)) (db : Db) (id : OrderId) :
    booked .refund id (stmt.apply db) = booked .refund id db := by
  cases stmt with
  | appendLedger entry => exact fine.elim
  | _ => rfl

/-- Gentle statements are harmless. -/
theorem harmless_of_gentle
    {start : Db} {stmt : Stmt} (fine : gentle (.write stmt)) :
    (review start).Harmless Fresh Moves stmt where
  keeps db inv fresh := by
    have moves := moves_of_gentle fine fresh
    constructor <;> intro id <;>
      simp only [store_apply, resolutions_of_gentle fine,
        booked_of_gentle fine]
    · exact inv.once id
    · exact fun unresolved =>
        inv.pending id (unresolved_of_moves moves unresolved)
    · exact inv.paired id
  meets db _ fresh := moves_of_gentle fine fresh
  frame _ _ _ _ _ := trivial

/-! ## The resolution -/

/-- A refund books at most one entry, for its order. -/
theorem booked_reimburses
    {protocol : Protocol Db Row Stmt} {base later : Ctx Db Row Stmt}
    {env : Env} {id : OrderId} {actor : Option Actor} {money : List Stmt}
    (reimburses : Reimburses protocol base later env id actor money)
    (db : Db) (order : OrderId) :
    booked .refund order (applyAll money db) ≤
      booked .refund order db + if order = id then 1 else 0 := by
  rcases reimburses with rfl | ⟨amount, payment, row, reference, parts, -, rfl⟩
  · simp
  · by_cases credit : parts.2 = 0 <;> by_cases commission : parts.1 = 0 <;>
      by_cases same : id = order <;>
      simp [Payments.refunding, booked, Stmt.apply, credit, commission, same,
        eq_comm]

/-- The statements of a resolution before its event. -/
theorem apart_of_resolution
    {protocol : Protocol Db Row Stmt} {base later : Ctx Db Row Stmt}
    {env : Env} {id : OrderId} {actor : Option Actor}
    {money extra : List Stmt}
    (reimburses : Reimburses protocol base later env id actor money)
    (after : ∀ stmt ∈ extra, Aftermath id stmt) :
    ∀ stmt ∈ money ++ extra,
      stmt.table ≠ .disputes ∧ stmt.table ≠ .orderEvents := by
  intro stmt member
  rcases List.mem_append.mp member with paid | later
  · rcases reimburses with rfl | ⟨amount, payment, row, reference, parts, -, rfl⟩
    · simp at paid
    · rcases Payments.refunding_tables stmt paid with table | table | table <;>
        simp [table]
  · have fine := after stmt later
    cases stmt <;> simp_all [Aftermath, Stmt.table]

/-- The aftermath books nothing. -/
theorem booked_aftermath
    {id : OrderId} {extra : List Stmt}
    (after : ∀ stmt ∈ extra, Aftermath id stmt) (db : Db) (order : OrderId) :
    booked .refund order (applyAll extra db) = booked .refund order db := by
  refine applyAll_frame (booked .refund order) fun stmt member current => ?_
  have fine := after stmt member
  cases stmt <;> first | rfl | exact fine.elim

/-- A resolution of an up-to-date copy may commit. -/
theorem Resolved.commitOk
    {start : Db} {later : Ctx Db Row Stmt} {env : Env} {id : OrderId}
    {dispute : Dispute} {actor : Option Actor}
    (resolved : Resolved (review start) .start later env id dispute actor) :
    later.CommitOk (review start) (Along Moves) := by
  obtain ⟨money, extra, data, set, reimburses, after, sets, split⟩ :=
    resolved.writes
  intro state inv _ fresh _
  rw [Ctx.start_writes, List.nil_append] at split
  rw [split] at fresh ⊢
  obtain ⟨-, -, found, -⟩ := along_append.mp fresh
  have apart := apart_of_resolution reimburses after
  have disputes : (applyAll (money ++ extra) state).disputes = state.disputes :=
    applyAll_frame Db.disputes fun stmt member _ =>
      Stmt.apply_disputes (apart stmt member).1
  have events : (applyAll (money ++ extra) state).orderEvents =
      state.orderEvents :=
    applyAll_frame Db.orderEvents fun stmt member _ =>
      Stmt.apply_orderEvents (apart stmt member).2
  have refunds : ∀ order, booked .refund order
      (applyAll (money ++ extra) state) ≤
        booked .refund order state + if order = id then 1 else 0 := by
    intro order
    rw [applyAll_append, booked_aftermath after]
    exact booked_reimburses reimburses state order
  have edge : ∀ stored, (transitions dispute.status (set stored).status).isSome
      := fun stored => by simp [resolved.underReview, sets, transitions]
  have quiet : Along Moves (money ++ extra) state :=
    along_of_forall state fun stmt member _ =>
      moves_of_same (Stmt.apply_disputes (apart stmt member).1)
  refine ⟨?_, along_append.mpr ⟨quiet, moves_of_same rfl,
    moves_saveDispute found edge, trivial⟩, fun _ _ => trivial⟩
  rw [applyAll_append]
  generalize applyAll (money ++ extra) state = middle at *
  -- the stored dispute is under review, so that nothing was resolved before
  obtain ⟨stored, present, same⟩ :=
    Option.any_eq_true _ _ |>.mp (found _ rfl)
  have present : state.disputes.row id = some stored := disputes ▸ present
  have status : stored.status = .underReview := by
    simpa [resolved.underReview] using same
  have first : resolutions id state = 0 := by
    refine inv.pending id fun other also => ?_
    obtain rfl : stored = other := Option.some.inj (present.symm.trans also)
    simp [status, openStatuses]
  let last := applyAll
    [.recordEvent { order := id, eventType := .disputeResolved, data },
      .saveDispute id dispute.status set] middle
  have counted : ∀ order, resolutions order last =
      resolutions order state + if order = id then 1 else 0 := by
    intro order
    by_cases same : id = order <;>
      simp [last, resolutions, Stmt.apply, events, same, eq_comm]
  have rows : last.disputes = state.disputes.modify id set := by
    simp [last, Stmt.apply, disputes]
  refine ⟨fun order => ?_, fun order unresolved => ?_, fun order => ?_⟩
  · change resolutions order last ≤ 1
    have before := inv.once order
    by_cases same : order = id <;> simp [counted, same, first, before]
  · change resolutions order last = 0
    have other : order ≠ id := by
      rintro rfl
      have open_ := unresolved (set stored) (by
        change last.disputes.row order = _
        simp [rows, present])
      simp [sets, openStatuses] at open_
    have pending := inv.pending order fun dispute waits => unresolved dispute (by
      change last.disputes.row order = _
      simp [rows, other, waits])
    simp [counted, other, pending]
  · change booked .refund order middle + _ ≤ _ + resolutions order last
    have paired := inv.paired order
    have refund := refunds order
    rw [counted]
    omega

/-! ## Every review -/

/-- The operations on disputes. -/
def Reviews : Operation → Prop
  | .dispute _ => True
  | _ => False

/-- The operations that do not resolve are gentle. -/
theorem disputeCall_gentle
    {call : DisputeCall}
    (other : ∀ env id actor outcome notes amount,
      call ≠ .resolve env id actor outcome notes amount) :
    call.call.Emits gentle fun _ => True := by
  cases call with
  | resolve env id actor outcome notes amount =>
      exact absurd rfl (other env id actor outcome notes amount)
  | _ =>
      simp +contextual [DisputeCall.call, DisputeCall.onDispute,
        Call.performOn, Call.perform, Call.get, openDispute, freeze, takeCase,
        awaitResponse, resumeReview, close, transition, Orders.transition,
        Orders.getForUpdate, Orders.recordEvent, Tx.get, Tx.getForUpdate,
        Tx.create, gentle]

/-- Every operation on disputes is safe. -/
theorem reviews_safe
    {start : Db} {operation : Operation} (reviews : Reviews operation) :
    operation.call.Safe (review start) (Along Moves) := by
  rcases operation with _ | _ | _ | _ | _ | call <;> try exact reviews.elim
  by_cases resolves : ∃ env id actor outcome notes amount,
      call = .resolve env id actor outcome notes amount
  · obtain ⟨env, id, actor, outcome, notes, amount, rfl⟩ := resolves
    simp only [Request.Safe, Operation.call, DisputeCall.call,
      DisputeCall.onDispute, Call.performOn, Call.perform, Call.get,
      Request.wp_bind, Request.wp_load, Request.wp_orFail,
      Request.wp_atomic, Prog.wp_bind, Prog.wp_pure, Ctx.start_observe,
      implies_true, and_true]
    intro _ _ _ copy _
    exact resolve_wp (fun _ _ => trivial) fun _ resolved => resolved.commitOk
  · exact (disputeCall_gentle fun env id actor outcome notes amount same =>
      resolves ⟨env, id, actor, outcome, notes, amount, same⟩).safe_of_harmless
        (fun _ fine => harmless_of_gentle fine) (fun _ _ fresh => fresh)
        fun _ _ _ moves => moves

/--
While no commit saves an out-of-date copy of a dispute, the stored statuses
move along edges, a dispute is resolved at most once, and every booked refund
belongs to its resolution.
-/
theorem dispute_resolved_once
    (start : Db) (once : ∀ id, resolutions id start ≤ 1)
    (pending : ∀ id, Unresolved id start → resolutions id start = 0)
    (operations : Nat → Operation)
    (reviews : ∀ client, Reviews (operations client)) (system : Marketplace)
    (reach : System.Reach (Along Fresh)
      (Marketplace.start start operations) system) :
    ResolvedOnce start system.committed ∧
      ∀ event stmts, system.committing event = some stmts →
        Along Fresh stmts system.committed →
          Along Moves stmts system.committed := by
  have sound : system.Sound (review start) fun _ => Along Moves :=
    reach.sound (System.sound_init ⟨once, pending, fun _ => le_refl _⟩
      fun client => reviews_safe (reviews client))
  refine ⟨sound.inv, fun event stmts commits fresh => ?_⟩
  cases event with
  | kill client result => simp [System.committing] at commits
  | run client =>
      refine sound.guaranteed (fun others same => ?_) commits
      rw [commits] at same
      exact Option.some.inj same ▸ fresh

/-- A dispute under review, about a paid order. -/
def underReview : Db :=
  { requests := .insert .empty 10 { student := 1, status := .inProgress }
    orders := .insert .empty 40
      { request := 10
        student := 1
        expert := 2
        source := .openBid
        amount := 5000
        commissionAmount := 750
        expertAmount := 4250
        status := .disputed
        hasOpenDispute := true
        paidAt := some 1
        createdAt := 0 }
    payments := .insert .empty 40
      { gateway := .manual
        providerReference := some "manual-pay-1"
        amountMinor := 5000
        status := .succeeded }
    disputes := .insert .empty 40
      { openedBy := 1
        reason := .qualityBelowExpectations
        description := "The report misses two chapters."
        priorOrderStatus := .delivered
        status := .underReview } }

/-- Support resolves the same case twice, and closes it. -/
def doubleClick : Nat → Operation
  | 0 => .dispute (.resolve { now := 5, key := 70 } 40 (some ⟨9, true⟩)
      .refundStudentPartial "Two chapters are missing." (some 1000))
  | 1 => .dispute (.resolve { now := 5, key := 71 } 40 (some ⟨9, true⟩)
      .refundStudentPartial "Two chapters are missing." (some 1000))
  | _ => .dispute (.close { now := 6 } 40 (some ⟨9, true⟩))

/-- The stored status of the dispute. -/
def storedStatus (system : Marketplace) : Option DisputeStatus :=
  (system.committed.disputes.row 40).map Dispute.status

/-- The second request reads the dispute before the first one resolves it. -/
def secondWaits : List Turn :=
  turns 1 1 ++ turns 0 40

/--
The second request resolves the closed dispute again and books its refund a
second time.
-/
theorem stale_resolve_refunds_twice :
    let closed := (Marketplace.start underReview doubleClick).runAll
      (secondWaits ++ turns 2 10)
    let last := closed.runAll (turns 1 40)
    storedStatus closed = some .closed ∧ storedStatus last = some .resolved ∧
      booked .refund 40 closed.committed = 1 ∧
      booked .refund 40 last.committed = 2 ∧
      ¬MovesAlongEdges closed.committed last.committed ∧
      ¬ResolvedOnce underReview last.committed := by
  intro closed last
  have before : storedStatus closed = some .closed := by decide +kernel
  have after : storedStatus last = some .resolved := by decide +kernel
  have twice : resolutions 40 last.committed = 2 := by decide +kernel
  refine ⟨before, after, by decide +kernel, by decide +kernel,
    fun moves => ?_, fun once => ?_⟩
  · obtain ⟨dispute, stored, status⟩ := Option.map_eq_some_iff.mp before
    obtain ⟨later, present, follows⟩ := moves 40 dispute stored
    have resolved : later.status = .resolved := by
      simpa [storedStatus, present] using after
    rw [status, resolved] at follows
    simp [Follows, transitions] at follows
  · have atMost := once.once 40
    rw [twice] at atMost
    omega

/-- A single resolution and its closing. -/
theorem dispute_resolved_once_closed :
    ResolvedOnce underReview
      ((Marketplace.start underReview doubleClick).runAll
        (turns 0 40 ++ turns 2 10)).committed := by
  refine (dispute_resolved_once underReview (fun id => ?_) (fun id _ => ?_)
    doubleClick ?_ _ (System.reach_of_admitsAll .refl (by decide +kernel))).1
  · simp [resolutions, underReview]
  · simp [resolutions, underReview]
  · rintro (_ | _ | client) <;> trivial

end Disputes

end KnowledgeMarketplace
