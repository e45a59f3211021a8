import KnowledgeMarketplace.Transaction.Derived
import KnowledgeMarketplace.Transaction.Looks

/-!
# Requests that only read

What a request that writes nothing answers depends on the states that it sees,
whoever commits in between.
-/

namespace Transaction

/-- The effect is no statement. -/
def Effect.silent {ω : Type} : Effect ω → Prop
  | .write _ => False
  | .savepoint => True

section Readers

variable {σ κ ω ε α ρ : Type} [Store σ κ ω] {invariant : σ → Prop}

/-- Alone, it answers from the state that it finds, and leaves that state. -/
theorem Request.Derives.answers
    {request : Request σ κ ω ε α} {goal : Except ε α → Prop}
    (derives : request.Derives invariant Effect.silent goal)
    {state : σ} (holds : invariant state) :
    goal (request.run state).1 ∧ (request.run state).2 = state := by
  suffices general : goal (Proc.solo request state []).1 ∧
      (Proc.solo request state []).2.1 = state from general
  unfold Request.Derives at derives
  unfold Request at request
  induction request with
  | halt result => exact ⟨derives, rfl⟩
  | query next inductionHypothesis =>
      exact inductionHypothesis state (derives state holds)
  | lock row next inductionHypothesis => exact inductionHypothesis derives
  | write stmt next inductionHypothesis => exact derives.1.elim
  | release count next inductionHypothesis =>
      exact inductionHypothesis derives.2
  | commit next inductionHypothesis => exact inductionHypothesis derives
  | rollback next inductionHypothesis => exact inductionHypothesis derives

/-- A client that has nothing pending and only reads from now on. -/
def Client.Reads
    (invariant : σ → Prop) (goal : ρ → Prop) (client : Client σ κ ω ρ) : Prop :=
  client.proc.Derives invariant Effect.silent goal ∧ client.writes = []

namespace System

variable [DecidableEq κ] {goal : ρ → Prop} {system : System σ κ ω ρ}

/-- It goes on reading. -/
theorem reads_turn
    {client : Nat} (reads : (system.clients client).Reads invariant goal)
    (holds : invariant system.committed) :
    ((system.turn client).clients client).Reads invariant goal := by
  rcases shape : system.clients client with ⟨proc, writes⟩
  rw [shape] at reads
  obtain ⟨derives, rfl⟩ := reads
  cases proc with
  | halt result =>
      have same : (system.turn client).clients client = ⟨.halt result, []⟩ := by
        simp [turn, shape]
      rw [same]
      exact ⟨derives, rfl⟩
  | query next =>
      have after : (system.turn client).clients client =
          ⟨next system.committed, []⟩ := by
        simp [turn, shape]
      rw [after]
      exact ⟨derives _ holds, rfl⟩
  | lock row next =>
      by_cases free : system.Free client [row]
      · have after : (system.turn client).clients client = ⟨next, []⟩ := by
          simp [turn, shape, free]
        rw [after]
        exact ⟨derives, rfl⟩
      · have after : (system.turn client).clients client =
            ⟨.lock row next, []⟩ := by
          simp [turn, shape, free]
        rw [after]
        exact ⟨derives, rfl⟩
  | write stmt next => exact derives.1.elim
  | release count next =>
      have after : (system.turn client).clients client = ⟨next, []⟩ := by
        simp [turn, shape]
      rw [after]
      exact ⟨derives.2, rfl⟩
  | commit next =>
      have after : (system.turn client).clients client = ⟨next, []⟩ := by
        simp [turn, shape]
      rw [after]
      exact ⟨derives, rfl⟩
  | rollback next =>
      have after : (system.turn client).clients client = ⟨next, []⟩ := by
        simp [turn, shape]
      rw [after]
      exact ⟨derives, rfl⟩

/-- Whatever the others do, as long as the states that it finds are good. -/
theorem reads_runAll
    {client : Nat} {schedule : List (Event ρ)}
    (reads : (system.clients client).Reads invariant goal)
    (alive : ∀ result, .kill client result ∉ schedule)
    (holds : ∀ step ∈ system.trace schedule, invariant step.1.committed) :
    ((system.runAll schedule).clients client).Reads invariant goal := by
  induction schedule generalizing system with
  | nil => exact reads
  | cons event rest inductionHypothesis =>
      simp only [trace, List.mem_cons, forall_eq_or_imp] at holds
      have after : ((system.step event).clients client).Reads invariant goal := by
        cases event with
        | run mover =>
            by_cases same : client = mover
            · exact same ▸ reads_turn (same ▸ reads) holds.1
            · have other : (system.turn mover).clients client =
                system.clients client := turn_other same
              rw [step, other]
              exact reads
        | kill mover result =>
            have different : client ≠ mover := fun same =>
              alive result (by simp [same])
            have other := setClient_other system different ⟨.halt result, []⟩
            simpa only [step, other] using reads
      exact inductionHypothesis after
        (fun result member => alive result (by simp [member])) holds.2

end System

end Readers

end Transaction
