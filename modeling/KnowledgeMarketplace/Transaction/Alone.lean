import KnowledgeMarketplace.Transaction.Rules

/-!
# Lone requests

A request that runs alone meets no other commit.  What was proved about all
interleavings of a block holds of its lone run, where nothing changes between
two queries; and a block that emits only some statements leaves a state that
these statements produce.
-/

namespace Transaction

variable {σ κ ω ε α : Type} [Store σ κ ω]

/-- The protocol of a state that nobody else changes. -/
def Protocol.alone (state : σ) : Protocol σ κ ω where
  Inv current := current = state
  Same _ first second := first = second
  Condition _ _ := True
  same_refl _ _ := rfl
  same_trans _ _ _ _ first second := first.trans second

/-- What holds in all interleavings of a block holds of its lone run. -/
theorem Prog.post_of_wp
    {protocol : Protocol σ κ ω} {program : Prog σ κ ω ε α}
    {ctx : Ctx σ κ ω} {goal : Except ε α → Ctx σ κ ω → Prop} {state : σ}
    (holds : program.wp protocol ctx goal)
    (inv : protocol.Inv state) (known : ctx.known state) :
    program.Post (applyAll ctx.writes state) fun result next =>
      ∃ later, goal result later ∧ later.known state ∧
        next = applyAll later.writes state := by
  induction program generalizing ctx with
  | done value => exact ⟨ctx, holds, known, rfl⟩
  | fail error => exact ⟨ctx, holds, known, rfl⟩
  | query next inductionHypothesis =>
      have later := inductionHypothesis _ (holds state inv known)
        ⟨known, fun row _ => protocol.same_refl row state⟩
      exact later
  | lock row next inductionHypothesis =>
      have later := inductionHypothesis holds known
      exact later
  | write stmt next inductionHypothesis =>
      have later := inductionHypothesis holds known
      rw [Ctx.push_writes, applyAll_append] at later
      exact later
  | release count next inductionHypothesis =>
      have later := inductionHypothesis (holds fun _ => False) trivial
      exact later

/-- A block alone, from the start of its transaction. -/
theorem Prog.post_of_wp_start
    {protocol : Protocol σ κ ω} {program : Prog σ κ ω ε α}
    {goal : Except ε α → Ctx σ κ ω → Prop} {state : σ}
    (holds : program.wp protocol .start goal) (inv : protocol.Inv state) :
    program.Post state fun result next =>
      ∃ later, goal result later ∧ later.known state ∧
        next = applyAll later.writes state :=
  Prog.post_of_wp holds inv trivial

/-- A block alone leaves what the statements that it emits produce. -/
theorem Prog.Emits.post
    {good : Effect ω → Prop} {goal : Except ε α → Prop}
    {program : Prog σ κ ω ε α} (emits : program.Emits good goal) (state : σ) :
    program.Post state fun result next =>
      goal result ∧ ∃ stmts, (∀ stmt ∈ stmts, good (.write stmt)) ∧
        next = applyAll stmts state := by
  induction program generalizing state with
  | done value => exact ⟨emits, [], by simp, rfl⟩
  | fail error => exact ⟨emits, [], by simp, rfl⟩
  | query next inductionHypothesis =>
      exact inductionHypothesis state (emits state) state
  | lock row next inductionHypothesis => exact inductionHypothesis emits state
  | write stmt next inductionHypothesis =>
      obtain ⟨reached, stmts, all, last⟩ :=
        inductionHypothesis emits.2 (Store.apply stmt state)
      exact ⟨reached, stmt :: stmts, by simpa using ⟨emits.1, all⟩, last⟩
  | release count next inductionHypothesis =>
      exact inductionHypothesis emits.2 state

/-- What each statement of a block keeps, the lone block keeps. -/
theorem Prog.Emits.keeps
    {good : Effect ω → Prop} {goal : Except ε α → Prop}
    {program : Prog σ κ ω ε α} (emits : program.Emits good goal)
    {state : σ} (invariant : σ → Prop)
    (kept : ∀ stmt, good (.write stmt) → ∀ current, invariant current →
      invariant (Store.apply stmt current))
    (start : invariant state) :
    program.Post state fun result next => goal result ∧ invariant next := by
  refine (emits.post state).mono ?_
  rintro result next ⟨reached, stmts, all, rfl⟩
  exact ⟨reached, applyAll_keeps invariant
    (fun stmt member => kept stmt (all stmt member)) start⟩

/-- What each statement of a request keeps, the lone request keeps. -/
theorem Request.Emits.keeps
    {good : Effect ω → Prop} {goal : Except ε α → Prop}
    {request : Request σ κ ω ε α} (emits : request.Emits good goal)
    {state : σ} (invariant : σ → Prop)
    (kept : ∀ stmt, good (.write stmt) → ∀ current, invariant current →
      invariant (Store.apply stmt current))
    (start : invariant state) : invariant (request.run state).2 := by
  suffices general : ∀ pending, invariant state →
      (∀ stmt ∈ pending, good (.write stmt)) →
      invariant (Proc.solo request state pending).2.1 from
    general [] start (by simp)
  clear start
  unfold Emits at emits
  unfold Request at request
  induction request generalizing state with
  | halt result => exact fun _ holds _ => holds
  | query next inductionHypothesis =>
      exact fun pending => inductionHypothesis _ (emits _) pending
  | lock row next inductionHypothesis => exact inductionHypothesis emits
  | write stmt next inductionHypothesis =>
      intro pending holds all
      refine inductionHypothesis emits.2 (pending ++ [stmt]) holds ?_
      intro other member
      rcases List.mem_append.mp member with earlier | last
      · exact all other earlier
      · exact (List.mem_singleton.mp last) ▸ emits.1
  | release count next inductionHypothesis =>
      exact inductionHypothesis emits.2
  | commit next inductionHypothesis =>
      intro pending holds all
      refine inductionHypothesis emits [] ?_ (by simp)
      exact applyAll_keeps invariant
        (fun stmt member => kept stmt (all stmt member)) holds
  | rollback next inductionHypothesis =>
      exact fun _ holds _ => inductionHypothesis emits [] holds (by simp)

/-- What every statement keeps, every lone request keeps. -/
theorem Request.keeps_of_statements
    (request : Request σ κ ω ε α) {state : σ} (invariant : σ → Prop)
    (kept : ∀ (stmt : ω) current, invariant current →
      invariant (Store.apply stmt current))
    (start : invariant state) : invariant (request.run state).2 := by
  have emits : request.Emits (fun _ => True) fun _ => True := by
    unfold Emits
    unfold Request at request
    induction request with
    | halt result => trivial
    | query next inductionHypothesis => exact fun view => inductionHypothesis view
    | lock row next inductionHypothesis => exact inductionHypothesis
    | write stmt next inductionHypothesis => exact ⟨trivial, inductionHypothesis⟩
    | release count next inductionHypothesis =>
        exact ⟨trivial, inductionHypothesis⟩
    | commit next inductionHypothesis => exact inductionHypothesis
    | rollback next inductionHypothesis => exact inductionHypothesis
  exact emits.keeps invariant (fun stmt _ => kept stmt) start

end Transaction
