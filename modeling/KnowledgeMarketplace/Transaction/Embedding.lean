import KnowledgeMarketplace.Transaction.Rules

/-!
# Stores inside larger ones

A store that takes locks of its own beside those of a store inside it.  What is
emitted inside is emitted in the larger store.
-/

namespace Transaction

/-- A store inside another, with its locks and its statements there. -/
structure Embedding
    (σ τ : Type) {κ ι ω υ : Type} [Store σ κ ω] [Store τ ι υ] where
  get : τ → σ
  row : κ → ι
  stmt : ω → υ
  get_apply : ∀ own whole,
    get (Store.apply (stmt own) whole) = Store.apply own (get whole)
  rows_stmt : ∀ own,
    Store.rows τ (stmt own) = (Store.rows σ own).map row

variable {σ τ κ ι ω υ ε α ρ : Type} [Store σ κ ω] [Store τ ι υ]

/-- A client of the inner store, in the larger one. -/
def Proc.inside (embedding : Embedding σ τ) : Proc σ κ ω ρ → Proc τ ι υ ρ
  | .halt result => .halt result
  | .query next =>
      .query fun whole => (next (embedding.get whole)).inside embedding
  | .lock row next => .lock (embedding.row row) (next.inside embedding)
  | .write stmt next => .write (embedding.stmt stmt) (next.inside embedding)
  | .release count next => .release count (next.inside embedding)
  | .commit next => .commit (next.inside embedding)
  | .rollback next => .rollback (next.inside embedding)

/-- A request of the inner store, in the larger one. -/
def Request.inside (embedding : Embedding σ τ) (request : Request σ κ ω ε α) :
    Request τ ι υ ε α :=
  Proc.inside embedding request

/-- The effects of the larger store that are `good` inside. -/
def Embedding.Lifts
    (embedding : Embedding σ τ) (good : Effect ω → Prop) : Effect υ → Prop
  | .write stmt => ∃ own, stmt = embedding.stmt own ∧ good (.write own)
  | .savepoint => good .savepoint

/-- What is emitted inside is emitted outside. -/
theorem Request.Emits.inside
    {good : Effect ω → Prop} {request : Request σ κ ω ε α}
    {goal : Except ε α → Prop} (emits : request.Emits good goal)
    (embedding : Embedding σ τ) :
    (request.inside embedding).Emits (embedding.Lifts good) goal := by
  unfold Request.Emits Request.inside
  unfold Request.Emits at emits
  unfold Request at request
  induction request with
  | halt result => exact emits
  | query next inductionHypothesis =>
      exact fun whole => inductionHypothesis _ (emits (embedding.get whole))
  | lock row next inductionHypothesis => exact inductionHypothesis emits
  | write stmt next inductionHypothesis =>
      exact ⟨⟨stmt, rfl, emits.1⟩, inductionHypothesis emits.2⟩
  | release count next inductionHypothesis =>
      exact ⟨emits.1, inductionHypothesis emits.2⟩
  | commit next inductionHypothesis => exact inductionHypothesis emits
  | rollback next inductionHypothesis => exact inductionHypothesis emits

/-- Whatever is done inside consists of statements from there. -/
theorem Request.emits_inside
    (request : Request σ κ ω ε α) (embedding : Embedding σ τ)
    {good : Effect υ → Prop}
    (inner : ∀ own, good (.write (embedding.stmt own)))
    (savepoint : good .savepoint) :
    (request.inside embedding).Emits good fun _ => True := by
  unfold Request.Emits Request.inside
  unfold Request at request
  induction request with
  | halt result => trivial
  | query next inductionHypothesis =>
      exact fun whole => inductionHypothesis (embedding.get whole)
  | lock row next inductionHypothesis => exact inductionHypothesis
  | write stmt next inductionHypothesis =>
      exact ⟨inner stmt, inductionHypothesis⟩
  | release count next inductionHypothesis =>
      exact ⟨savepoint, inductionHypothesis⟩
  | commit next inductionHypothesis => exact inductionHypothesis
  | rollback next inductionHypothesis => exact inductionHypothesis

end Transaction
