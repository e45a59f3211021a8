import KnowledgeMarketplace.Transaction.Looks
import KnowledgeMarketplace.Transaction.Rules

/-!
# Transactions as batches

Some statements belong together: what the first one breaks, the next one mends.
A block keeps batches if, on every path, it ends with a good batch pending
whenever it begins with one; then every commit is a good batch.
-/

namespace Transaction

variable {σ κ ω ε α β : Type} [Store σ κ ω]
  {protocol : Protocol σ κ ω} {good : List ω → Prop}

/-- Every path from a good batch ends in a good batch. -/
def Prog.Batches
    (protocol : Protocol σ κ ω) (good : List ω → Prop)
    (program : Prog σ κ ω ε α) : Prop :=
  ∀ ctx : Ctx σ κ ω, good ctx.writes →
    program.wp protocol ctx fun _ later => good later.writes

namespace Prog

theorem Batches.seq
    {program : Prog σ κ ω ε α} {rest : α → Prog σ κ ω ε β}
    (first : program.Batches protocol good)
    (next : ∀ value, (rest value).Batches protocol good) :
    (program >>= rest).Batches protocol good := by
  intro ctx before
  refine wp_bind.mpr (wp_mono (first ctx before) ?_)
  rintro (error | value) later kept
  · exact kept
  · exact next value later kept

theorem Batches.forEach
    {items : List β} {body : β → Prog σ κ ω ε Unit}
    (round : ∀ item ∈ items, (body item).Batches protocol good) :
    (forEach items body).Batches protocol good := by
  intro ctx before
  refine wp_forEach (fun current => good current.writes) before ?_
    fun _ kept => kept
  intro item member current kept
  refine wp_mono (round item member current kept) ?_
  rintro (error | value) later still <;> exact still

/-- Without a savepoint the handler goes on with what is pending. -/
theorem Batches.tryCatch
    {body : Prog σ κ ω ε α} {handler : ε → Prog σ κ ω ε α}
    (first : body.Batches protocol good)
    (next : ∀ error, (handler error).Batches protocol good) :
    (tryCatch body handler).Batches protocol good := by
  intro ctx before
  refine wp_tryCatch.mpr (wp_mono (first ctx before) ?_)
  rintro (error | value) later kept
  · exact next error later kept
  · exact kept

/-- With a savepoint the handler goes on with what was pending before. -/
theorem Batches.attempt
    {body : Prog σ κ ω ε α} {handler : ε → Prog σ κ ω ε α}
    (plain : body.Emits (· ≠ .savepoint) fun _ => True)
    (first : body.Batches protocol good)
    (next : ∀ error, (handler error).Batches protocol good) :
    (attempt body handler).Batches protocol good := by
  intro ctx before
  refine wp_attempt plain (wp_mono (first ctx before) ?_)
  rintro (error | value) later kept
  · exact fun held => next error (ctx.forget held) before
  · exact kept

/-- Statements that can be added to any batch. -/
theorem batches_of_emits
    {program : Prog σ κ ω ε α} {effects : Effect ω → Prop}
    {results : Except ε α → Prop}
    (emits : program.Emits effects results) (plain : ¬effects .savepoint)
    (grow : ∀ stmts stmt, good stmts → effects (.write stmt) →
      good (stmts ++ [stmt])) :
    program.Batches protocol good := by
  intro ctx before
  refine wp_of_emits emits plain fun _ later _ grown => ?_
  obtain ⟨extra, writes, all⟩ := grown.writes
  rw [writes]
  clear writes grown
  generalize ctx.writes = pending at before
  induction extra generalizing pending with
  | nil => simpa using before
  | cons stmt rest inductionHypothesis =>
      have first := grow pending stmt before (all stmt List.mem_cons_self)
      have whole := inductionHypothesis
        (fun later member => all later (List.mem_cons_of_mem _ member))
        (pending ++ [stmt]) first
      simpa using whole

end Prog

/-- Every commit is a good batch, and the request ends outside a transaction. -/
def Request.Batches
    (protocol : Protocol σ κ ω) (good : List ω → Prop)
    (request : Request σ κ ω ε α) : Prop :=
  request.wp protocol (fun stmts _ => good stmts) .start
    fun _ later => later = .start

namespace Request

theorem Batches.safe
    {request : Request σ κ ω ε α} (batches : request.Batches protocol good) :
    request.Safe protocol fun stmts _ => good stmts :=
  wp_mono batches fun _ _ _ => trivial

theorem Batches.seq
    {request : Request σ κ ω ε α} {rest : α → Request σ κ ω ε β}
    (first : request.Batches protocol good)
    (next : ∀ value, (rest value).Batches protocol good) :
    (request >>= rest).Batches protocol good := by
  refine wp_bind.mpr (wp_mono first ?_)
  rintro (error | value) later rfl
  · exact rfl
  · exact next value

theorem Batches.tryCatch
    {body : Request σ κ ω ε α} {handler : ε → Request σ κ ω ε α}
    (first : body.Batches protocol good)
    (next : ∀ error, (handler error).Batches protocol good) :
    (tryCatch body handler).Batches protocol good := by
  refine wp_tryCatch.mpr (wp_mono first ?_)
  rintro (error | value) later rfl
  · exact next error
  · exact rfl

theorem Batches.forEach
    {items : List β} {body : β → Request σ κ ω ε Unit}
    (round : ∀ item ∈ items, (body item).Batches protocol good) :
    (forEach items body).Batches protocol good :=
  wp_forEach round

theorem Batches.atomic
    {body : Prog σ κ ω ε α}
    (commit : ∀ ctx : Ctx σ κ ω, good ctx.writes →
      ctx.CommitOk protocol fun stmts _ => good stmts)
    (empty : good []) (batches : body.Batches protocol good) :
    (atomic body).Batches protocol good := by
  refine wp_atomic.mpr (Prog.wp_mono (batches .start empty) ?_)
  rintro (error | value) later kept
  · exact rfl
  · exact ⟨commit later kept, rfl⟩

end Request

/-- A safe request may look; its guarantee does not depend on it. -/
theorem Request.Safe.looks
    {request : Request σ κ ω ε α} {guarantee : List ω → σ → Prop}
    {informed : σ → List ω → σ → Prop}
    (safe : request.Safe protocol guarantee)
    (always : ∀ state, protocol.Inv state)
    (stronger : ∀ seen stmts state, guarantee stmts state →
      informed seen stmts state) :
    Proc.Looks protocol informed request := by
  unfold Request at request
  cases request with
  | query next =>
      intro seen
      have first := safe seen (always seen) trivial
      rw [Ctx.start_observe] at first
      exact Proc.wp_guarantee (stronger seen) first
  | _ => exact fun seen => Proc.wp_guarantee (stronger seen) safe

/-- A block that finishes well is safe as a request. -/
theorem Request.safe_atomic
    {body : Prog σ κ ω ε α} {guarantee : List ω → σ → Prop}
    (finishes : body.wp protocol .start (Ctx.Finishes protocol guarantee)) :
    (atomic body).Safe protocol guarantee := by
  refine wp_atomic.mpr (Prog.wp_mono finishes ?_)
  rintro (error | value) later allowed
  · trivial
  · exact ⟨allowed, trivial⟩

/-- A block that begins by reading goes on from what it has read. -/
theorem Request.looks_atomic_read
    {ρ : Type} {get : σ → ρ} {rest : ρ → Prog σ κ ω ε α}
    {informed : σ → List ω → σ → Prop}
    (finishes : ∀ seen, (rest (get seen)).wp protocol .start
      (Ctx.Finishes protocol (informed seen))) :
    Proc.Looks protocol informed (atomic (Prog.read get >>= rest)) := by
  intro seen
  exact Request.safe_atomic (finishes seen)

end Transaction
