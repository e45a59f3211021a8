import KnowledgeMarketplace.Database.Locks
import KnowledgeMarketplace.Operations.Effects

/-!
# Payout freeze

A settlement reads the flag of the order under the order's lock and holds the
lock until it commits.  Only a resolution clears the flag, so from the commit
that opens a dispute to the commit of its first resolution nothing is paid out.
-/

namespace KnowledgeMarketplace

open Transaction

namespace Payments

/-- The payout of the order is frozen. -/
def Frozen (id : OrderId) (db : Db) : Prop :=
  ∃ order, db.orders.row id = some order ∧ order.hasOpenDispute = true

/-- The statements append a payout of the order to the ledger. -/
def BooksPayout (id : OrderId) (stmts : List Stmt) : Prop :=
  ∃ entry, .appendLedger entry ∈ stmts ∧ entry.order = id ∧
    entry.entryType = .payout

/-- What a commit of an operation does to a frozen payout. -/
structure Respects (id : OrderId) (operation : Operation)
    (stmts : List Stmt) (db : Db) : Prop where
  freezes : operation.Opens id → Frozen id (applyAll stmts db)
  keeps : ¬operation.Resolves id → Frozen id db →
    Frozen id (applyAll stmts db) ∧ ¬BooksPayout id stmts

/-- Effects that neither unfreeze the order nor pay out. -/
def restrained (id : OrderId) : Effect Stmt → Prop
  | .write (.saveOrder key set) => key = id →
      ∀ stored, stored.hasOpenDispute = true →
        (set stored).hasOpenDispute = true
  | .write (.appendLedger entry) => entry.entryType ≠ .payout
  | _ => True

variable {id : OrderId}

theorem restrained_catalog : Catalog (restrained id) where
  elsewhere stmt other := by cases stmt <;> simp_all [Stmt.table, restrained]
  created _ _ _ := trivial
  saved key set keeps := fun _ stored frozen =>
    (keeps.frozen stored).trans frozen
  frozen key := fun _ _ _ => rfl

theorem restrained_turnover : Turnover (restrained id) where
  savepoint := trivial
  payments stmt about := by cases stmt <;> simp_all [Stmt.table, restrained]
  refunds stmt about := by cases stmt <;> simp_all [Stmt.table, restrained]
  ledger entry other := other

/-- A restrained statement keeps a frozen payout frozen. -/
theorem frozen_of_restrained
    {stmt : Stmt} (fine : restrained id (.write stmt)) {db : Db}
    (before : Frozen id db) : Frozen id (stmt.apply db) := by
  obtain ⟨order, stored, frozen⟩ := before
  cases stmt with
  | saveOrder key set =>
      by_cases same : id = key
      · subst same
        exact ⟨set order, by simp [Stmt.apply, stored],
          fine rfl order frozen⟩
      · exact ⟨order, by simp [Stmt.apply, same, stored], frozen⟩
  | insertOrder key value =>
      exact ⟨order, Table.row_insert_of_some key value stored, frozen⟩
  | _ => exact ⟨order, stored, frozen⟩

/-- Restrained statements keep a frozen payout frozen and pay nothing out. -/
theorem respects_of_restrained
    {operation : Operation} {stmts : List Stmt} (db : Db)
    (all : ∀ stmt ∈ stmts, restrained id (.write stmt))
    (freezes : operation.Opens id → Frozen id (applyAll stmts db)) :
    Respects id operation stmts db where
  freezes := freezes
  keeps _ before := by
    refine ⟨applyAll_keeps (Frozen id)
      (fun stmt member db => frozen_of_restrained (all stmt member)) before, ?_⟩
    rintro ⟨entry, member, -, payout⟩
    exact all _ member payout

/-! ## The operations -/

/-- Opening a dispute leaves the payout frozen. -/
theorem openDispute_respects
    (env : Env) (key : OrderId) (actor : Actor) (reason : DisputeReason)
    (description : String) (evidence : Except Error Unit) :
    (DisputeCall.openDispute env key actor reason description
      evidence).call.Safe rowLocks (Respects id
        (.dispute (.openDispute env key actor reason description evidence))) := by
  simp only [Request.Safe, DisputeCall.call, Call.perform,
    Disputes.openDispute, Disputes.freeze, Orders.transition,
    Orders.getForUpdate, Orders.recordEvent, Tx.getForUpdate, Tx.get,
    Tx.create, Request.wp_atomic, Prog.wp_bind, Prog.wp_pure, Prog.wp_read,
    Prog.wp_require, Prog.wp_lockRow, Prog.wp_orFail, Prog.wp_exec,
    Prog.wp_ofExcept, Prog.wp_ite, implies_true, and_true]
  intro first _ _ order stored _ _ _ _ _ _ _ _ _ _ _ _ _ _ _ _ _
  refine ⟨fun unfrozen _ _ _ copy _ _ => ?_, fun frozen _ _ _ copy _ _ => ?_⟩
  all_goals
    refine rowLocks_commit fun state known => respects_of_restrained state
      (by simp [restrained]) ?_
    rintro rfl
    simp only [Ctx.push_known, Ctx.observe_known, Ctx.take_known] at known
    have row : state.orders.row key = some order :=
      (known.1.1.1.1.2 (.order key) (by simp)).symm.trans stored
  · simp [Frozen, Stmt.apply, row]
  · simpa [Frozen, Stmt.apply, row] using frozen

/-- A settlement commits only while the locked order is not frozen. -/
theorem settlePayout_respects
    (env : Env) (key : PayoutId) (actor : Option Actor) :
    (PaymentCall.settlePayout env key actor).call.Safe rowLocks
      (Respects id (.payment (.settlePayout env key actor))) := by
  simp only [Request.Safe, PaymentCall.call, Call.perform, settlePayout,
    getPayoutForUpdate, ledger, Orders.getForUpdate, Tx.getForUpdate, Tx.get,
    Request.wp_atomic, Prog.wp_bind, Prog.wp_pure, Prog.wp_read,
    Prog.wp_require, Prog.wp_lockRow, Prog.wp_orFail, Prog.wp_exec,
    Prog.wp_ofExcept, implies_true, and_true]
  intro _ first _ _ payout _ _ _ second _ _ order stored unfrozen _ _
  refine rowLocks_commit fun state known => ⟨fun opens => opens.elim, ?_⟩
  rintro - ⟨copy, found, frozen⟩
  simp only [Ctx.push_known, Ctx.observe_known, Ctx.take_known] at known
  have row : state.orders.row payout.order = some order :=
    (known.2 (.order payout.order) (by simp)).symm.trans stored
  have other : payout.order ≠ id := by
    rintro rfl
    obtain rfl := Option.some.inj (row.symm.trans found)
    exact unfrozen frozen
  refine ⟨⟨copy, by simpa [Stmt.apply] using found, frozen⟩, ?_⟩
  rintro ⟨entry, member, about, -⟩
  simp at member
  exact other (by simpa [member] using about)

/-- Resolving another dispute neither unfreezes the order nor pays out. -/
theorem resolve_respects
    (env : Env) (key : OrderId) (actor : Option Actor)
    (outcome : DisputeOutcome) (notes : String)
    (refundAmountMinor : Option Int) :
    (DisputeCall.resolve env key actor outcome notes
      refundAmountMinor).call.Safe rowLocks (Respects id
        (.dispute (.resolve env key actor outcome notes
          refundAmountMinor))) := by
  by_cases same : key = id
  · have anything : Catalog fun _ => True := ⟨by simp, by simp, by simp, by simp⟩
    have emits := Turnover.resolve ⟨trivial, by simp, by simp, by simp⟩
      anything.workflow.ordering env key actor outcome notes refundAmountMinor
      (by simp) trivial
    exact rowLocks_safe emits fun stmts _ state =>
      ⟨False.elim, fun other => absurd same other⟩
  · have emits := restrained_turnover.resolve
      restrained_catalog.workflow.ordering env key actor outcome notes refundAmountMinor (fun _ _ => trivial)
      fun about => absurd about same
    exact rowLocks_safe emits fun stmts all state =>
      respects_of_restrained state all False.elim

/-- Every operation of the marketplace respects the freeze. -/
theorem operation_respects (operation : Operation) :
    operation.call.Safe rowLocks (Respects id operation) := by
  have plain : operation.call.Emits (restrained id) (fun _ => True) →
      (¬operation.Opens id) →
      operation.call.Safe rowLocks (Respects id operation) :=
    fun emits other => rowLocks_safe emits fun stmts all state =>
      respects_of_restrained state all fun opens => absurd opens other
  by_cases schedules : operation.Schedules
  · refine plain (schedules.emits restrained_catalog.workflow.ordering
      (fun _ => restrained_catalog.workflow.completed)
      fun _ _ _ => trivial)
      fun opens => ?_
    rcases operation with _ | _ | _ | _ | _ | _ <;>
      first | exact schedules.elim | exact opens.elim
  by_cases fails : operation.FailsPayout
  · refine plain (fails.emits fun _ _ => trivial) fun opens => ?_
    rcases operation with _ | _ | _ | _ | _ | _ <;>
      first | exact fails.elim | exact opens.elim
  by_cases settles : operation.Settles
  · rcases operation with _ | _ | _ | _ | call | _ <;> try exact settles.elim
    cases call with
    | settlePayout env key actor => exact settlePayout_respects env key actor
    | _ => exact settles.elim
  by_cases resolves : ∃ key, operation.Resolves key
  · obtain ⟨other, resolves⟩ := resolves
    rcases operation with _ | _ | _ | _ | _ | call <;> try exact resolves.elim
    cases call with
    | resolve env key actor outcome notes amount =>
        exact resolve_respects env key actor outcome notes amount
    | _ => exact resolves.elim
  by_cases opens : operation.Opens id
  · rcases operation with _ | _ | _ | _ | _ | call <;> try exact opens.elim
    cases call with
    | openDispute env key actor reason description evidence =>
        exact openDispute_respects env key actor reason description evidence
    | _ => exact opens.elim
  exact plain (operation.emits_of_turnover restrained_catalog.workflow.ordering
    restrained_turnover (fun _ => restrained_catalog.workflow.ended)
    restrained_catalog.workflow.apart
    restrained_catalog.triage schedules fails settles (not_exists.mp resolves)) opens

/-- The event commits a resolution of the dispute of the order. -/
def CommitsResolution
    (id : OrderId) (operations : Nat → Operation) (system : Marketplace) :
    Turn → Prop
  | .run client => (operations client).Resolves id ∧
      (system.committing (.run client : Turn)).isSome
  | .kill _ _ => False

instance
    (id : OrderId) (operations : Nat → Operation) (system : Marketplace) :
    DecidablePred (CommitsResolution id operations system)
  | .run _ => instDecidableAnd
  | .kill _ _ => .isFalse False.elim

/--
In any interleaving of all operations: after the commit that opens a dispute,
and before a resolution of that dispute commits, no event commits a payout of
the order to the ledger.
-/
theorem payout_frozen
    (start : Db) (operations : Nat → Operation) (earlier later : List Turn)
    (id : OrderId) (opener : Nat) (opening : List Stmt)
    (opens : (operations opener).Opens id)
    (commits : ((Marketplace.start start operations).runAll
      earlier).committing (.run opener : Turn) = some opening)
    (unresolved : ∀ step ∈ (((Marketplace.start start operations).runAll
      earlier).step (.run opener)).trace later,
        ¬CommitsResolution id operations step.1 step.2) :
    ∀ step ∈ (((Marketplace.start start operations).runAll earlier).step
      (.run opener)).trace later,
        ∀ stmts, step.1.committing step.2 = some stmts →
          ¬BooksPayout id stmts := by
  have sound : ((Marketplace.start start operations).runAll earlier).Sound
      rowLocks fun client => Respects id (operations client) :=
    (System.reach_runAll (Marketplace.start start operations) earlier).sound
      (System.sound_init trivial
        fun client => operation_respects (operations client))
  have frozen : Frozen id (((Marketplace.start start operations).runAll
      earlier).step (.run opener)).committed := by
    rw [System.step_committed_of_some commits]
    exact (sound.guaranteed (fun _ _ => trivial) commits).freezes opens
  have traced := (sound.step (.run opener) fun _ _ => trivial).traced
    (CommitsResolution id operations) (fun _ _ => trivial) (fun current client stmts commits other respects
      before => (respects.keeps (fun resolves => other
        ⟨resolves, by simp [commits]⟩) before).1) frozen unresolved
  intro step member stmts commits
  obtain ⟨stepSound, still⟩ := traced step member
  obtain ⟨system, event⟩ := step
  cases event with
  | kill client result => simp [System.committing] at commits
  | run client =>
      have respects := stepSound.guaranteed (fun _ _ => trivial) commits
      exact (respects.keeps (fun resolves => unresolved _ member
        ⟨resolves, by simp [commits]⟩) still).2

/-- A completed order whose payout is scheduled. -/
def scheduledPayout : Db :=
  { requests := .insert .empty 10 { student := 1, status := .completed }
    orders := .insert .empty 40
      { request := 10
        student := 1
        expert := 2
        source := .openBid
        amount := 5000
        commissionAmount := 750
        expertAmount := 4250
        status := .completed
        completedAt := some 5
        paidAt := some 1
        createdAt := 0 }
    payments := .insert .empty 40
      { gateway := .manual
        providerReference := some "manual-pay-1"
        amountMinor := 5000
        status := .succeeded }
    payouts := .insert .empty 60
      { order := 40, expert := 2, amountMinor := 4250 } }

/-- The student opens a dispute while staff settle the payout. -/
def disputedPayout : Nat → Operation
  | 0 => .dispute (.openDispute { now := 6 } 40 ⟨1, false⟩
      .qualityBelowExpectations "The report misses two chapters." (.ok ()))
  | 1 => .payment (.settlePayout { now := 6 } 60 (some ⟨9, true⟩))
  | 2 => .payment (.payoutSweeper { now := 6, key := 70 })
  | 3 => .order (.cancel { now := 7 } 40 ⟨9, true⟩ "Fraud")
  | _ => .payment (.settlePayout { now := 8 } 60 (some ⟨9, true⟩))

/-- The settlement has locked the payout when the dispute opens. -/
def untilOpened : List Turn :=
  turns 1 2 ++ turns 0 12

/-- Both settlements, the job and a cancellation run against the freeze. -/
def whileFrozen : List Turn :=
  turns 1 20 ++ turns 2 20 ++ turns 3 30 ++ turns 4 20

/-- The stored status of the order. -/
def orderStatus (system : Marketplace) : Option OrderStatus :=
  (system.committed.orders.row 40).map Order.status

/-- Staff can cancel the disputed order, but nothing is paid out for it. -/
theorem payout_frozen_disputed :
    let opened := ((Marketplace.start scheduledPayout disputedPayout).runAll
      untilOpened).step (.run 0)
    orderStatus opened = some .disputed ∧
      orderStatus (opened.runAll whileFrozen) = some .cancelled ∧
      ∀ step ∈ opened.trace whileFrozen,
        ∀ stmts, step.1.committing step.2 = some stmts →
          ¬BooksPayout 40 stmts := by
  have opened : (((Marketplace.start scheduledPayout disputedPayout).runAll
      untilOpened).committing (.run 0 : Turn)).isSome = true := by
    decide +kernel
  have frozen := payout_frozen scheduledPayout disputedPayout untilOpened
    whileFrozen 40 0 _ rfl (Option.some_get opened).symm (by decide +kernel)
  exact ⟨by decide +kernel, by decide +kernel, frozen⟩

end Payments

end KnowledgeMarketplace
