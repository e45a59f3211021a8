import KnowledgeMarketplace.Operations.Effects

/-!
# Settlements and the ledger

A settlement holds the locks of its payout and of the order; a resolution
corrects a payout that it has read under the order's lock only.  An unsettled
payout of an order can be settled only under the lock of the order, so the
correction finds it unsettled.
-/

namespace KnowledgeMarketplace

open Transaction

namespace Payments

/-- The ledger entry of a payout that has been paid. -/
def settlementEntry (payout : Payout) : LedgerEntry :=
  { entryType := .payout
    amountMinor := -payout.amountMinor
    currency := payout.currency
    order := payout.order
    user := some payout.expert
    providerObjectId := payout.providerReference }

/-- The entry of a payout of the order, if it has been paid. -/
def paidEntry (order : OrderId) (payout : Payout) : Option LedgerEntry :=
  if payout.order = order ∧ payout.status = .paid then
    some (settlementEntry payout)
  else
    none

/-- The payout entries of an order in the ledger. -/
def payoutEntries (order : OrderId) (db : Db) : List LedgerEntry :=
  db.ledger.filter fun entry =>
    entry.order = order && entry.entryType = .payout

/--
The payout entries of every order are those of its paid payouts: there is one
entry for each paid payout, of minus its amount, and no other.
-/
def PayoutsBooked (db : Db) : Prop :=
  ∀ order, (payoutEntries order db).Perm (db.payouts.collect (paidEntry order))

/-- A paid payout is not touched any more. -/
def KeepsPaid (stmts : List Stmt) (db : Db) : Prop :=
  ∀ key payout, db.payouts.row key = some payout → payout.status = .paid →
    (applyAll stmts db).payouts.row key = some payout

/-- The payout belongs to the order and has not been paid. -/
def Unsettled (order : OrderId) (key : PayoutId) (db : Db) : Prop :=
  ∃ payout, db.payouts.row key = some payout ∧ payout.order = order ∧
    payout.status ≠ .paid

/-- The lock of an order protects that its unsettled payouts stay unsettled. -/
def settling : Protocol Db Row Stmt where
  Inv := PayoutsBooked
  Same
    | .order id, first, second =>
        ∀ key, Unsettled id key first → Unsettled id key second
    | .payout id, first, second =>
        first.payouts.row id = second.payouts.row id
    | _, _, _ => True
  Condition _ _ := True
  same_refl := by intro row state; cases row <;> simp
  same_trans := by intro row first second third; cases row <;> simp +contextual

/-! ## Statements that settle nothing -/

/-- Statements that neither pay nor correct a payout. -/
def Unpaying : Stmt → Prop
  | .insertPayout _ payout => payout.status ≠ .paid
  | .savePayout _ _ => False
  | .appendLedger entry => entry.entryType ≠ .payout
  | _ => True

/-- Effects that neither pay nor correct a payout. -/
def unpaying : Effect Stmt → Prop
  | .write stmt => Unpaying stmt
  | .savepoint => True

theorem unpaying_catalog : Catalog unpaying where
  elsewhere stmt other := by
    cases stmt <;> simp_all [Stmt.table, unpaying, Unpaying]
  created _ _ _ := trivial
  saved _ _ _ := trivial
  frozen _ := trivial

theorem unpaying_turnover : Turnover unpaying where
  savepoint := trivial
  payments stmt about := by
    cases stmt <;> simp_all [Stmt.table, unpaying, Unpaying]
  refunds stmt about := by
    cases stmt <;> simp_all [Stmt.table, unpaying, Unpaying]
  ledger entry other := other

/-- Such a statement keeps the books. -/
theorem payoutsBooked_of_unpaying
    {stmt : Stmt} (fine : Unpaying stmt) {db : Db}
    (before : PayoutsBooked db) : PayoutsBooked (stmt.apply db) := by
  intro order
  cases stmt with
  | insertPayout key payout =>
      have unpaid : paidEntry order payout = none := by
        simp [paidEntry, show payout.status ≠ .paid from fine]
      simpa [Stmt.apply, Table.collect_insert_of_none unpaid, payoutEntries]
        using before order
  | appendLedger entry =>
      have other : entry.entryType ≠ .payout := fine
      simpa [Stmt.apply, payoutEntries, other] using before order
  | savePayout key set => exact fine.elim
  | _ => exact before order

/-- Such a statement leaves every stored payout alone. -/
theorem row_of_unpaying
    {stmt : Stmt} (fine : Unpaying stmt) {db : Db} {key : PayoutId}
    {payout : Payout} (stored : db.payouts.row key = some payout) :
    (stmt.apply db).payouts.row key = some payout := by
  cases stmt with
  | insertPayout other value => exact Table.row_insert_of_some other value stored
  | savePayout other set => exact fine.elim
  | _ => exact stored

/-- Such a statement can be added to any transaction. -/
theorem lasting_of_unpaying {stmt : Stmt} (fine : Unpaying stmt) :
    Ctx.Lasting settling (fun _ _ => True) KeepsPaid stmt where
  harmless :=
    { keeps := fun _ booked _ => payoutsBooked_of_unpaying fine booked
      meets := fun _ _ _ => trivial
      frame := fun db row _ _ free => by
        cases row with
        | order id =>
            rintro key ⟨payout, stored, about, unpaid⟩
            exact ⟨payout, row_of_unpaying fine stored, about, unpaid⟩
        | payout id => exact (Stmt.apply_payout_row free).symm
        | _ => trivial }
  lasts stmts db _ _ keeps key payout stored paid := by
    rw [applyAll_append]
    exact row_of_unpaying fine (keeps key payout stored paid)

/-- The contexts that may commit. -/
def Ready : Ctx Db Row Stmt → Prop :=
  Ctx.Committable settling (fun _ _ => True) KeepsPaid

theorem Ready.of_writes
    {ctx : Ctx Db Row Stmt} (all : ∀ stmt ∈ ctx.writes, Unpaying stmt) :
    Ready ctx :=
  Ctx.committable_of_lasting (fun _ _ _ _ stored _ => stored)
    fun stmt member => lasting_of_unpaying (all stmt member)

theorem Ready.of_extends
    {base later : Ctx Db Row Stmt} (ready : Ready base)
    (grown : base.Extends Unpaying later) : Ready later :=
  Ctx.Committable.of_extends ready
    (grown.weaken fun _ fine => lasting_of_unpaying fine)

theorem ready_commit (ctx : Ctx Db Row Stmt) (ready : Ready ctx) :
    ctx.CommitOk settling KeepsPaid :=
  ready.commitOk fun _ state _ => along_of_forall state fun _ _ _ => trivial

/-- A change of an unsettled payout that leaves it unsettled. -/
@[mk_iff] structure Corrects (set : Payout → Payout) : Prop where
  order : ∀ stored, (set stored).order = stored.order
  unpaid : ∀ stored, stored.status ≠ .paid → (set stored).status ≠ .paid

/-- A payout that is known to be unsettled may be corrected. -/
theorem Ready.correct
    {ctx : Ctx Db Row Stmt} {key : PayoutId} {set : Payout → Payout}
    (ready : Ready ctx) (corrects : Corrects set)
    (unsettled : ∀ state, ctx.known state →
      ∃ order, Unsettled order key (applyAll ctx.writes state)) :
    Ready (ctx.push (.savePayout key set)) := by
  intro state inv known _
  obtain ⟨booked, keeps, frame⟩ :=
    ready state inv known (along_of_forall state fun _ _ _ => trivial)
  obtain ⟨_, payout, stored, -, unpaid⟩ := unsettled state known
  have still := corrects.unpaid payout unpaid
  simp only [Ctx.push_writes, applyAll_append, applyAll_cons, applyAll_nil,
    store_apply]
  refine ⟨fun order => ?_, fun other paidOut before paid => ?_,
    fun row free => ?_⟩
  · have same : ∀ old, (applyAll ctx.writes state).payouts.row key = some old →
        paidEntry order (set old) = paidEntry order old := by
      intro old found
      obtain rfl := Option.some.inj (stored.symm.trans found)
      simp [paidEntry, unpaid, still]
    simpa [Stmt.apply, Table.collect_modify same, payoutEntries]
      using booked order
  · have kept := keeps other paidOut before paid
    have different : other ≠ key := by
      rintro rfl
      obtain rfl := Option.some.inj (stored.symm.trans kept)
      exact unpaid paid
    simp [Stmt.apply, different, kept]
  · have outside : row ∉ rowsOf Db ctx.writes ∧ row ≠ .payout key := by
      simpa [rowsOf, Stmt.rows] using free
    refine settling.same_trans row _ _ _ (frame row outside.1) ?_
    cases row with
    | order id =>
        rintro other ⟨copy, found, about, waiting⟩
        by_cases same : other = key
        · subst same
          exact ⟨set copy, by simp [Stmt.apply, found],
            (corrects.order copy).trans about, corrects.unpaid copy waiting⟩
        · exact ⟨copy, by simp [Stmt.apply, same, found], about, waiting⟩
    | payout id =>
        have different : id ≠ key := fun same => outside.2 (same ▸ rfl)
        simp [settling, Stmt.apply, different]
    | _ => trivial

/-! ## Corrections by a resolution -/

/-- Statements that leave the payouts and their entries alone. -/
def Aside (stmt : Stmt) : Prop :=
  Unpaying stmt ∧ stmt.table ≠ .payouts

/-- Effects of blocks that leave the payouts alone. -/
def aside : Effect Stmt → Prop
  | .write stmt => Aside stmt
  | .savepoint => False

variable {base ctx : Ctx Db Row Stmt}

/-- The payouts are still the committed ones. -/
theorem payouts_of_aside
    {stmts : List Stmt} (all : ∀ stmt ∈ stmts, stmt.table ≠ .payouts)
    (db : Db) : (applyAll stmts db).payouts = db.payouts :=
  applyAll_frame Db.payouts fun stmt member _ =>
    Stmt.apply_payouts (all stmt member)

/-- A context from which a payout can be corrected. -/
structure Correcting (base ctx : Ctx Db Row Stmt) : Prop where
  held : ∀ row, base.held row → ctx.held row
  ready : Ready ctx
  early : ∀ stmt ∈ ctx.writes, stmt.table ≠ .payouts

theorem Correcting.of_extends
    {later : Ctx Db Row Stmt} (correcting : Correcting base ctx)
    (grown : ctx.Extends Aside later) : Correcting base later where
  held row held := grown.held row (correcting.held row held)
  ready := correcting.ready.of_extends (grown.weaken fun _ fine => fine.1)
  early := by
    obtain ⟨extra, split, all⟩ := grown.writes
    intro stmt member
    rw [split] at member
    rcases List.mem_append.mp member with before | after
    · exact correcting.early stmt before
    · exact (all stmt after).2

/-- Staff mark a payout as failed, after a check under its lock. -/
theorem markPayoutFailed_ready
    (correcting : Correcting base ctx) (key : PayoutId)
    (actor : Option Actor) (reason : String) :
    (markPayoutFailed key actor reason).wp settling ctx fun result later =>
      result = .ok () → Ready later := by
  simp only [markPayoutFailed, getPayoutForUpdate, Tx.getForUpdate, Tx.get,
    Prog.wp_bind, Prog.wp_require, Prog.wp_lockRow, Prog.wp_read,
    Prog.wp_orFail, Prog.wp_exec, reduceCtorEq, false_implies, implies_true,
    and_true, forall_const]
  intro _ seen _ _ payout found unpaid
  refine (correcting.ready.of_extends (.trans .take .observe)).correct
    (by simp [corrects_iff]) fun state known => ?_
  simp only [Ctx.observe_known, Ctx.take_known, Ctx.take_writes,
    Ctx.observe_writes, payouts_of_aside correcting.early] at known found ⊢
  have same : seen.payouts.row key = state.payouts.row key :=
    known.2 (.payout key) (by simp)
  exact ⟨payout.order, payout, by
    rw [payouts_of_aside correcting.early, ← same, found], rfl, unpaid⟩

/-- The refund of an outcome, and the payout that it voids. -/
theorem refundOutcome_ready
    (correcting : Correcting base ctx)
    (env : Env) (id : OrderId) (actor : Option Actor)
    (outcome : DisputeOutcome) (payment : Option Payment)
    (refundAmountMinor : Option Int) :
    (Disputes.refundOutcome env id actor outcome payment
      refundAmountMinor).wp settling ctx fun result later =>
        result = .ok () → Ready later ∧
          (Disputes.adjustsPayout outcome → Correcting base later) := by
  simp only [Disputes.refundOutcome, Prog.wp_ite, Prog.wp_bind, Prog.wp_pure,
    Prog.wp_orFail, Prog.wp_ofExcept, reduceCtorEq, false_implies,
    implies_true, and_true, forall_const]
  refine ⟨fun _ _ _ amount _ => ?_, fun _ =>
    ⟨correcting.ready, fun _ => correcting⟩⟩
  have refund : (issueRefund env id amount .disputeResolution actor).Emits
      aside fun _ => True :=
    issueRefund_emits (by simp [aside, Aside, Unpaying, Stmt.table])
      (fun entry booked => ⟨fun same => by simp [same] at booked,
        by simp [Stmt.table]⟩)
      (by simp [aside, Aside, Unpaying, Stmt.table])
  refine Prog.wp_of_emits refund (by simp [aside]) ?_
  rintro (error | value) later _ grown
  · simp
  have refunded := correcting.of_extends grown
  refine ⟨fun full => ?_, fun _ => ⟨refunded.ready, fun _ => refunded⟩⟩
  simp only [Disputes.voidScheduledPayout, Prog.wp_bind, Prog.wp_read]
  intro seen _ _
  have watching := refunded.of_extends (.observe : later.Extends Aside
    (later.observe settling seen))
  cases firstPayout id (·.status ≠ .paid) (applyAll later.writes seen) with
  | none => simp [Prog.forEach, full, Disputes.adjustsPayout, watching.ready]
  | some key =>
      simp only [Option.toList, Prog.forEach, ← Prog.bind_eq, Prog.wp_bind]
      refine Prog.wp_mono (markPayoutFailed_ready watching key actor _) ?_
      rintro (error | value) last ready
      · simp
      · simp [full, Disputes.adjustsPayout, ready rfl]

/-- The correction of the unsettled payout, under the lock of its order. -/
theorem adjustPayout_ready
    (id : OrderId) {outcome : DisputeOutcome} (ready : Ready ctx)
    (correcting : Disputes.adjustsPayout outcome → Correcting base ctx)
    (locked : base.held (.order id)) :
    (Disputes.adjustPayout id outcome).wp settling ctx fun result later =>
      result = .ok () → Ready later := by
  simp only [Disputes.adjustPayout, Prog.wp_ite, Prog.wp_bind, Prog.wp_pure,
    Prog.wp_read, forall_const]
  refine ⟨fun adjusts seen _ _ second _ _ => ?_, fun _ => ready⟩
  have before := correcting adjusts
  have watching : Ready
      ((ctx.observe settling seen).observe settling second) :=
    ready.of_extends (.trans .observe .observe)
  cases first : firstPayout id (·.status ≠ .paid) (applyAll ctx.writes seen) with
  | none => simpa [Prog.forEach] using watching
  | some key =>
      simp only [Option.toList, Prog.forEach, ← Prog.bind_eq, Prog.wp_bind,
        Prog.wp_exec, Prog.wp_done, forall_const]
      refine watching.correct (by simp [corrects_iff]) fun state known => ?_
      have waiting : Unsettled id key seen := by
        have member := List.min?_mem first
        rw [payouts_of_aside before.early, Table.mem_select] at member
        obtain ⟨payout, stored, holds⟩ := member
        simp only [Bool.and_eq_true, decide_eq_true_eq] at holds
        exact ⟨payout, stored, holds⟩
      obtain ⟨payout, stored, holds⟩ :=
        known.1.2 (.order id) (before.held _ locked) key waiting
      refine ⟨id, payout, ?_, holds⟩
      simpa [payouts_of_aside before.early] using stored

/-- A resolution is safe. -/
theorem resolve_settling
    (env : Env) (id : OrderId) (actor : Option Actor)
    (outcome : DisputeOutcome) (notes : String)
    (refundAmountMinor : Option Int) :
    (DisputeCall.resolve env id actor outcome notes
      refundAmountMinor).call.Safe settling KeepsPaid := by
  simp only [Request.Safe, DisputeCall.call, DisputeCall.onDispute,
    Call.performOn, Call.perform, Call.get, Disputes.resolve,
    Orders.getForUpdate, Tx.getForUpdate, Tx.get, Request.wp_bind,
    Request.wp_load, Request.wp_orFail, Request.wp_atomic, Prog.wp_bind,
    Prog.wp_pure, Prog.wp_read, Prog.wp_require, Prog.wp_lockRow,
    Prog.wp_orFail, Prog.wp_exec, Ctx.start_observe, implies_true, and_true]
  intro _ _ _ copy _ _ _ _ first _ _ order _ second _ _
  have start : Correcting (Ctx.start.take (.order id))
      (((Ctx.start.take (.order id)).observe settling first).observe settling
        second) := ⟨fun _ held => held, .of_writes (by simp), by simp⟩
  refine Prog.wp_mono (refundOutcome_ready start ..) ?_
  rintro (error | value) refunded holds
  · trivial
  obtain ⟨ready, correcting⟩ := holds rfl
  have unfreezes : (Disputes.freeze id order false).Emits aside
      fun _ => True := by
    simp [Disputes.freeze, aside, Aside, Unpaying, Stmt.table]
  refine Prog.wp_of_emits unfreezes (by simp [aside]) ?_
  rintro (error | value) unfrozen _ grown
  · trivial
  refine Prog.wp_mono (adjustPayout_ready id
    (ready.of_extends (grown.weaken fun _ fine => fine.1))
    (fun adjusts => (correcting adjusts).of_extends grown) (by simp)) ?_
  rintro (error | value) adjusted ready
  · trivial
  have moves : (Disputes.moveOrder id order
      (Disputes.newStatus copy outcome) outcome).Emits aside fun _ => True := by
    simp [Disputes.moveOrder, Orders.transition, Orders.getForUpdate,
      Orders.recordEvent, Tx.getForUpdate, Tx.get, aside, Aside, Unpaying,
      Stmt.table]
  refine Prog.wp_of_emits moves (by simp [aside]) ?_
  rintro (error | value) moved _ grown
  · trivial
  · exact ready_commit _ ((ready rfl).of_extends
      (.trans (grown.weaken fun _ fine => fine.1) (.push trivial)))

/-- Paying an unsettled payout and booking its entry keeps the books. -/
theorem payoutsBooked_settle
    {db : Db} {key : PayoutId} {payout : Payout} {set : Payout → Payout}
    (booked : PayoutsBooked db) (stored : db.payouts.row key = some payout)
    (unpaid : payout.status ≠ .paid) (paid : (set payout).status = .paid)
    (about : (set payout).order = payout.order) :
    PayoutsBooked (applyAll [.savePayout key set,
      .appendLedger (settlementEntry (set payout))] db) := by
  intro order
  have nothing : paidEntry order payout = none := by simp [paidEntry, unpaid]
  by_cases same : payout.order = order
  · have something : paidEntry order (set payout) =
        some (settlementEntry (set payout)) := by
      simp [paidEntry, paid, about, same]
    have entries : payoutEntries order (applyAll [.savePayout key set,
        .appendLedger (settlementEntry (set payout))] db) =
        payoutEntries order db ++ [settlementEntry (set payout)] := by
      simp [payoutEntries, Stmt.apply, settlementEntry, about, same]
    rw [entries]
    exact (List.perm_append_singleton _ _).trans (((booked order).cons _).trans
      (Table.collect_modify_perm stored nothing something).symm)
  · have still : ∀ old, db.payouts.row key = some old →
        paidEntry order (set old) = paidEntry order old := by
      intro old found
      obtain rfl := Option.some.inj (stored.symm.trans found)
      simp [paidEntry, about, same]
    simpa [payoutEntries, Stmt.apply, settlementEntry, about, same,
      Table.collect_modify still] using booked order

/-- A settlement books the payout that it has locked. -/
theorem settlePayout_settling
    (env : Env) (key : PayoutId) (actor : Option Actor) :
    (PaymentCall.settlePayout env key actor).call.Safe settling
      KeepsPaid := by
  simp only [Request.Safe, PaymentCall.call, Call.perform, settlePayout,
    getPayoutForUpdate, ledger, Orders.getForUpdate, Tx.getForUpdate, Tx.get,
    Request.wp_atomic, Prog.wp_bind, Prog.wp_pure, Prog.wp_read,
    Prog.wp_require, Prog.wp_lockRow, Prog.wp_orFail, Prog.wp_exec,
    Prog.wp_ofExcept, implies_true, and_true]
  intro _ first _ _ payout found unpaid _ second _ _ order _ _ reference _ state
    booked known _ _
  simp only [Ctx.push_known, Ctx.observe_known, Ctx.take_known] at known
  have row : state.payouts.row key = some payout :=
    (known.1.2 (.payout key) (by simp)).symm.trans found
  refine ⟨payoutsBooked_settle booked row unpaid rfl rfl,
    fun other copy stored paid => ?_, fun other free => ?_⟩
  · have different : other ≠ key := by
      rintro rfl
      obtain rfl := Option.some.inj (row.symm.trans stored)
      exact unpaid paid
    simp [Stmt.apply, different, stored]
  · cases other with
    | order id =>
        rintro other ⟨copy, stored, about, waiting⟩
        have different : other ≠ key := by
          rintro rfl
          obtain rfl := Option.some.inj (row.symm.trans stored)
          simp [about] at free
        exact ⟨copy, by simp [Stmt.apply, different, stored], about, waiting⟩
    | payout id =>
        have different : id ≠ key := by
          rintro rfl
          simp [Stmt.rows] at free
        simp [settling, Stmt.apply, different]
    | _ => trivial

/-- A failed payout was unsettled under its lock. -/
theorem markPayoutFailed_settling
    (key : PayoutId) (actor : Option Actor) (reason : String) :
    (PaymentCall.markPayoutFailed key actor reason).call.Safe settling
      KeepsPaid := by
  simp only [Request.Safe, PaymentCall.call, Call.perform, Request.wp_atomic,
    Prog.wp_bind, Prog.wp_pure]
  have start : Correcting .start .start :=
    ⟨fun _ held => held, .of_writes (by simp), by simp⟩
  refine Prog.wp_mono (markPayoutFailed_ready start key actor reason) ?_
  rintro (error | value) later ready
  · trivial
  · exact ⟨ready_commit later (ready rfl), trivial⟩

/-- Every operation of the marketplace is safe. -/
theorem operation_settling (operation : Operation) :
    operation.call.Safe settling KeepsPaid := by
  have plain : operation.call.Emits unpaying (fun _ => True) →
      operation.call.Safe settling KeepsPaid := fun emits =>
    emits.safe_of_lasting (fun _ fine => lasting_of_unpaying fine)
      (fun _ _ _ _ stored _ => stored)
      fun _ state _ => along_of_forall state fun _ _ _ => trivial
  by_cases schedules : operation.Schedules
  · exact plain (schedules.emits unpaying_catalog.workflow.ordering
      (fun _ => unpaying_catalog.workflow.completed)
      fun _ payout status => by simp [unpaying, Unpaying, status])
  by_cases fails : operation.FailsPayout
  · rcases operation with _ | _ | _ | _ | call | _ <;> try exact fails.elim
    cases call with
    | markPayoutFailed key actor reason =>
        exact markPayoutFailed_settling key actor reason
    | _ => exact fails.elim
  by_cases settles : operation.Settles
  · rcases operation with _ | _ | _ | _ | call | _ <;> try exact settles.elim
    cases call with
    | settlePayout env key actor => exact settlePayout_settling env key actor
    | _ => exact settles.elim
  by_cases resolves : ∃ key, operation.Resolves key
  · obtain ⟨other, resolves⟩ := resolves
    rcases operation with _ | _ | _ | _ | _ | call <;> try exact resolves.elim
    cases call with
    | resolve env key actor outcome notes amount =>
        exact resolve_settling env key actor outcome notes amount
    | _ => exact resolves.elim
  exact plain (operation.emits_of_turnover unpaying_catalog.workflow.ordering
    unpaying_turnover (fun _ => unpaying_catalog.workflow.ended)
    unpaying_catalog.workflow.apart unpaying_catalog.triage
    schedules fails settles (not_exists.mp resolves))

/--
In any interleaving of all operations, the payout entries of every order are
those of its paid payouts, and a paid payout is not touched any more.
-/
theorem paid_payouts_booked
    (start : Db) (booked : PayoutsBooked start)
    (operations : Nat → Operation) (schedule later : List Turn) :
    let system := (Marketplace.start start operations).runAll schedule
    PayoutsBooked system.committed ∧
      ∀ key payout, system.committed.payouts.row key = some payout →
        payout.status = .paid →
          (system.runAll later).committed.payouts.row key = some payout := by
  intro system
  have sound : system.Sound settling fun _ => KeepsPaid :=
    (System.reach_runAll (Marketplace.start start operations) schedule).sound
      (System.sound_init booked
        fun client => operation_settling (operations client))
  refine ⟨sound.inv, fun key payout stored paid => ?_⟩
  exact ((System.reach_runAll system later).lasts sound
    (fun _ _ _ => trivial)
    (fun _ stmts db _ keeps before => keeps key payout before paid) stored).2

/-- A dispute under review, about a completed order with a failed payout. -/
def failedPayout : Db :=
  { requests := .insert .empty 10 { student := 1, status := .completed }
    orders := .insert .empty 40
      { request := 10
        student := 1
        expert := 2
        source := .openBid
        amount := 5000
        commissionAmount := 750
        expertAmount := 4250
        status := .disputed
        createdAt := 0 }
    payments := .insert .empty 40
      { gateway := .manual
        providerReference := some "manual-pay-1"
        amountMinor := 5000
        status := .succeeded }
    payouts := .insert .empty 60
      { order := 40, expert := 2, amountMinor := 4250, status := .failed }
    ledger :=
      [{ entryType := .expertCredit, amountMinor := 4250, order := 40 }]
    disputes := .insert .empty 40
      { openedBy := 1
        reason := .qualityBelowExpectations
        description := "The report misses two chapters."
        priorOrderStatus := .completed
        status := .underReview } }

/-- Two settlements of one payout, its failure and a resolution. -/
def settlers : Nat → Operation
  | 0 => .payment (.settlePayout { now := 5 } 60 (some ⟨9, true⟩))
  | 1 => .dispute (.resolve { now := 5, key := 70 } 40 (some ⟨8, true⟩) .split
      "Both sides share the loss." (some 1000))
  | 2 => .payment (.markPayoutFailed 60 (some ⟨9, true⟩) "Account closed")
  | _ => .payment (.settlePayout { now := 6 } 60 (some ⟨9, true⟩))

/-- The settlement locks the payout, the resolution locks the order. -/
def crossedLocks : List Turn :=
  turns 0 2 ++ turns 1 40 ++ turns 0 10 ++ turns 2 20

/-- The settlement is killed as the victim of the deadlock. -/
def victimKilled : List Turn :=
  .kill 0 (.error (.integrity "deadlock detected")) :: turns 1 40 ++ turns 3 20

/-- The payout is corrected, then paid and booked once. -/
theorem paid_payouts_booked_deadlock :
    let system := (Marketplace.start failedPayout settlers).runAll
      (crossedLocks ++ victimKilled)
    PayoutsBooked system.committed ∧
      ∀ key payout, system.committed.payouts.row key = some payout →
        payout.status = .paid →
          (system.runAll (turns 2 20)).committed.payouts.row key =
            some payout := by
  refine paid_payouts_booked failedPayout (fun order => ?_) settlers
    (crossedLocks ++ victimKilled) (turns 2 20)
  simp [payoutEntries, failedPayout, Table.collect_insert_of_none, paidEntry]

end Payments

end KnowledgeMarketplace
