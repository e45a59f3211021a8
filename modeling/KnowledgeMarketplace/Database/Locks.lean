import KnowledgeMarketplace.Database.Statements
import KnowledgeMarketplace.Transaction.Rely

/-!
# Row locks

A statement changes only rows that it locks.  `rowLocks` is the protocol of
transactions that rely on this and on nothing else.
-/

namespace KnowledgeMarketplace

open Transaction

/-- Two states agree on a row. -/
def SameRow : Row → Db → Db → Prop
  | .config, first, second => first.config = second.config
  | .request id, first, second =>
      first.requests.row id = second.requests.row id
  | .offer id, first, second => first.offers.row id = second.offers.row id
  | .invitation id, first, second =>
      first.invitations.row id = second.invitations.row id
  | .assignment id, first, second =>
      first.assignments.row id = second.assignments.row id
  | .order id, first, second => first.orders.row id = second.orders.row id
  | .delivery id, first, second =>
      first.deliveries.row id = second.deliveries.row id
  | .deadlineProposal id, first, second =>
      first.deadlineProposals.row id = second.deadlineProposals.row id
  | .payment id, first, second =>
      first.payments.row id = second.payments.row id
  | .refund id, first, second => first.refunds.row id = second.refunds.row id
  | .payout id, first, second => first.payouts.row id = second.payouts.row id
  | .webhookEvent id, first, second =>
      first.webhookEvents.row id = second.webhookEvents.row id
  | .dispute id, first, second =>
      first.disputes.row id = second.disputes.row id
  | .application id, first, second =>
      (first.experts.row id).map Expert.approved =
        (second.experts.row id).map Expert.approved
  | .profile id, first, second =>
      (first.experts.row id).map Expert.available =
        (second.experts.row id).map Expert.available
  | .conversation row, first, second =>
      row.Same first.conversations second.conversations

theorem sameRow_refl (row : Row) (db : Db) : SameRow row db db := by
  cases row with
  | conversation row => exact row.same_refl _
  | _ => rfl

theorem sameRow_trans
    (row : Row) (first second third : Db) (early : SameRow row first second)
    (late : SameRow row second third) : SameRow row first third := by
  cases row with
  | conversation row => exact row.same_trans early late
  | _ => exact Eq.trans early late

/-- A statement leaves the rows alone that it does not lock. -/
theorem sameRow_apply
    {stmt : Stmt} (db : Db) (row : Row) (free : row ∉ stmt.rows) :
    SameRow row db (stmt.apply db) := by
  cases row with
  | conversation row =>
      cases stmt with
      | converse stmt =>
          exact row.same_apply _ (by simpa [Stmt.rows] using free)
      | _ => exact row.same_refl _
  | application id | profile id =>
      cases stmt <;> simp [Stmt.rows] at free <;>
        simp [SameRow, Stmt.apply, Table.map_row_modify, free]
  | _ =>
      cases stmt <;> simp [Stmt.rows] at free <;>
        simp [SameRow, Stmt.apply, free]

/-- The locks protect their rows; nothing else is agreed on. -/
def rowLocks : Protocol Db Row Stmt where
  Inv _ := True
  Same := SameRow
  Condition _ _ := True
  same_refl := sameRow_refl
  same_trans := sameRow_trans

/-- Statements leave the rows alone that they do not lock. -/
theorem rowLocks_frame
    {stmts : List Stmt} (db : Db) (row : Row) (free : row ∉ rowsOf Db stmts) :
    rowLocks.Same row db (applyAll stmts db) :=
  rowLocks.same_applyAll (fun _ _ db free => sameRow_apply db row free) free db

/-- Under row locks, a commit has to meet its guarantee only. -/
theorem rowLocks_commit
    {guarantee : List Stmt → Db → Prop} {ctx : Ctx Db Row Stmt}
    (met : ∀ state, ctx.known state → guarantee ctx.writes state) :
    ctx.CommitOk rowLocks guarantee :=
  fun state _ known _ rows => ⟨trivial, met state known, fun row free =>
    rowLocks_frame state row fun inside => free (rows row inside)⟩

/-- Under row locks, a request is safe if its statements meet the guarantee. -/
theorem rowLocks_safe
    {good : Effect Stmt → Prop} {guarantee : List Stmt → Db → Prop}
    {call : Call Unit} (emits : call.Emits good fun _ => True)
    (met : ∀ stmts, (∀ stmt ∈ stmts, good (.write stmt)) →
      ∀ state, guarantee stmts state) :
    call.Safe rowLocks guarantee :=
  emits.safe (fun stmts state all _ _ => ⟨trivial, met stmts all state⟩)
    fun _ state row _ _ _ free => rowLocks_frame state row free

end KnowledgeMarketplace
