import KnowledgeMarketplace.Transaction.Rules

/-!
# Parts of a store

A service of one part of a store runs in the whole store as it does alone: it
queries its part, takes the same locks and writes the same statements.  What
was proved about all its interleavings there holds in the whole store, too.
-/

namespace Transaction

/-- One store inside another, with the statements that write it there. -/
structure Part
    (σ τ : Type) {κ ω υ : Type} [Store σ κ ω] [Store τ κ υ] where
  get : τ → σ
  stmt : ω → υ
  get_apply : ∀ own whole,
    get (Store.apply (stmt own) whole) = Store.apply own (get whole)
  rows_stmt : ∀ own, Store.rows τ (stmt own) = Store.rows σ own

variable {σ τ κ ω υ ε α ρ : Type} [Store σ κ ω] [Store τ κ υ]

namespace Part

/-- Statements of the part change it in the whole as they do alone. -/
@[simp] theorem get_applyAll
    (part : Part σ τ) (stmts : List ω) (whole : τ) :
    part.get (applyAll (stmts.map part.stmt) whole) =
      applyAll stmts (part.get whole) := by
  induction stmts generalizing whole with
  | nil => rfl
  | cons stmt rest inductionHypothesis =>
      rw [List.map_cons, applyAll_cons, inductionHypothesis, part.get_apply,
        applyAll_cons]

/-- The effect writes the part, if anything. -/
def Writes (part : Part σ τ) : Effect υ → Prop
  | .write stmt => ∃ own, stmt = part.stmt own
  | .savepoint => True

/-- Statements that write the part are statements of the part. -/
theorem exists_map_of_writes
    {part : Part σ τ} {stmts : List υ}
    (all : ∀ stmt ∈ stmts, part.Writes (.write stmt)) :
    ∃ own : List ω, stmts = own.map part.stmt := by
  induction stmts with
  | nil => exact ⟨[], rfl⟩
  | cons stmt rest inductionHypothesis =>
      obtain ⟨first, rfl⟩ := all stmt List.mem_cons_self
      obtain ⟨own, rfl⟩ := inductionHypothesis fun other member =>
        all other (List.mem_cons_of_mem _ member)
      exact ⟨first :: own, rfl⟩

end Part

/-- A block of the part, in the whole store. -/
def Prog.within (part : Part σ τ) : Prog σ κ ω ε α → Prog τ κ υ ε α
  | .done value => .done value
  | .fail error => .fail error
  | .query next => .query fun whole => (next (part.get whole)).within part
  | .lock row next => .lock row (next.within part)
  | .write stmt next => .write (part.stmt stmt) (next.within part)
  | .release count next => .release count (next.within part)

/-- A client of the part, in the whole store. -/
def Proc.within (part : Part σ τ) : Proc σ κ ω ρ → Proc τ κ υ ρ
  | .halt result => .halt result
  | .query next => .query fun whole => (next (part.get whole)).within part
  | .lock row next => .lock row (next.within part)
  | .write stmt next => .write (part.stmt stmt) (next.within part)
  | .release count next => .release count (next.within part)
  | .commit next => .commit (next.within part)
  | .rollback next => .rollback (next.within part)

/-- A request of the part, in the whole store. -/
def Request.within (part : Part σ τ) (request : Request σ κ ω ε α) :
    Request τ κ υ ε α :=
  Proc.within part request

/-- A request of the part writes nothing else. -/
theorem Request.emits_within
    (part : Part σ τ) (request : Request σ κ ω ε α) :
    (request.within part).Emits part.Writes fun _ => True := by
  unfold Request.Emits Request.within
  unfold Request at request
  induction request with
  | halt result => trivial
  | query next inductionHypothesis => exact fun _ => inductionHypothesis _
  | lock row next inductionHypothesis => exact inductionHypothesis
  | write stmt next inductionHypothesis =>
      exact ⟨⟨stmt, rfl⟩, inductionHypothesis⟩
  | release count next inductionHypothesis =>
      exact ⟨trivial, inductionHypothesis⟩
  | commit next inductionHypothesis => exact inductionHypothesis
  | rollback next inductionHypothesis => exact inductionHypothesis

/-- The same place in a block, in the whole store and in the part alone. -/
structure Ctx.Within
    (part : Part σ τ) (ctx : Ctx τ κ υ) (own : Ctx σ κ ω) : Prop where
  held : ctx.held = own.held
  writes : ctx.writes = own.writes.map part.stmt
  known : ∀ whole, ctx.known whole → own.known (part.get whole)

/-- Before the first step both know nothing. -/
theorem Ctx.within_start (part : Part σ τ) :
    (Ctx.start : Ctx τ κ υ).Within part .start where
  held := rfl
  writes := rfl
  known _ _ := trivial

omit [Store σ κ ω] in
/-- Nothing is asked of the end of a block. -/
theorem Prog.wp_trivial {protocol : Protocol τ κ υ} {ctx : Ctx τ κ υ}
    (program : Prog τ κ υ ε α) :
    program.wp protocol ctx fun _ _ => True := by
  induction program generalizing ctx with
  | done value => trivial
  | fail error => trivial
  | query next inductionHypothesis => exact fun _ _ _ => inductionHypothesis _
  | lock row next inductionHypothesis => exact inductionHypothesis
  | write stmt next inductionHypothesis => exact inductionHypothesis
  | release count next inductionHypothesis => exact fun _ => inductionHypothesis

/-- What holds of a block in the part alone holds of it in the whole store. -/
theorem Prog.wp_within
    {part : Part σ τ} {protocol : Protocol τ κ υ} {alone : Protocol σ κ ω}
    (inv : ∀ whole, protocol.Inv whole → alone.Inv (part.get whole))
    (same : ∀ row first second, protocol.Same row first second →
      alone.Same row (part.get first) (part.get second))
    {program : Prog σ κ ω ε α} {ctx : Ctx τ κ υ} {own : Ctx σ κ ω}
    {goal : Except ε α → Ctx σ κ ω → Prop}
    (holds : program.wp alone own goal) (within : ctx.Within part own) :
    (program.within part).wp protocol ctx fun result later =>
      ∃ last, goal result last ∧ later.Within part last := by
  induction program generalizing ctx own with
  | done value => exact ⟨own, holds, within⟩
  | fail error => exact ⟨own, holds, within⟩
  | query next inductionHypothesis =>
      intro whole kept known
      rw [within.writes]
      beta_reduce
      rw [part.get_applyAll]
      refine inductionHypothesis _
        (holds _ (inv whole kept) (within.known whole known))
        ⟨within.held, within.writes, fun later grown => ?_⟩
      exact ⟨within.known later grown.1, fun row held =>
        same row _ _ (grown.2 row (within.held ▸ held))⟩
  | lock row next inductionHypothesis =>
      refine inductionHypothesis holds ⟨?_, within.writes, within.known⟩
      rw [Ctx.take, within.held]
      rfl
  | write stmt next inductionHypothesis =>
      refine inductionHypothesis holds ⟨?_, ?_, within.known⟩
      · rw [Ctx.push, within.held, part.rows_stmt]
        rfl
      · simp [Ctx.push, within.writes]
  | release count next inductionHypothesis =>
      exact fun held => inductionHypothesis (holds held)
        ⟨rfl, within.writes, fun _ _ => trivial⟩

end Transaction
