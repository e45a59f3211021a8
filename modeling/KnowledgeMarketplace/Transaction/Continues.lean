import KnowledgeMarketplace.Transaction.Looks
import KnowledgeMarketplace.Transaction.Rules

/-!
# How clients go on

A request decides what it commits and, at the same moment, what is left of it.
Both are known of a client that is about to commit, whatever it has read.
-/

namespace Transaction

section Client

variable {σ κ ω ε α ρ τ : Type}

/-- Each commit of the client goes with what is left of it then. -/
def Proc.Continues (goal : List ω → Proc σ κ ω ρ → Prop) :
    Proc σ κ ω ρ → List ω → Prop
  | .halt _, _ => True
  | .query next, writes => ∀ state, (next state).Continues goal writes
  | .lock _ next, writes => next.Continues goal writes
  | .write stmt next, writes => next.Continues goal (writes ++ [stmt])
  | .release _ next, writes => next.Continues goal writes
  | .commit next, writes => goal writes next ∧ next.Continues goal []
  | .rollback next, _ => next.Continues goal []

/-- Nothing is added to a client that is done. -/
theorem Proc.bind_halt (proc : Proc σ κ ω ρ) : proc.bind .halt = proc := by
  induction proc with
  | halt result => rfl
  | query next inductionHypothesis =>
      exact congrArg Proc.query (funext inductionHypothesis)
  | lock row next inductionHypothesis =>
      exact congrArg (Proc.lock row) inductionHypothesis
  | write stmt next inductionHypothesis =>
      exact congrArg (Proc.write stmt) inductionHypothesis
  | release count next inductionHypothesis =>
      exact congrArg (Proc.release count) inductionHypothesis
  | commit next inductionHypothesis =>
      exact congrArg Proc.commit inductionHypothesis
  | rollback next inductionHypothesis =>
      exact congrArg Proc.rollback inductionHypothesis

/-- What goes on after two parts goes on after the second of them. -/
theorem Proc.bind_assoc {υ : Type}
    (first : Proc σ κ ω ρ) (second : ρ → Proc σ κ ω τ)
    (rest : τ → Proc σ κ ω υ) :
    (first.bind second).bind rest =
      first.bind fun result => (second result).bind rest := by
  induction first with
  | halt result => rfl
  | query next inductionHypothesis =>
      exact congrArg Proc.query (funext inductionHypothesis)
  | lock row next inductionHypothesis =>
      exact congrArg (Proc.lock row) inductionHypothesis
  | write stmt next inductionHypothesis =>
      exact congrArg (Proc.write stmt) inductionHypothesis
  | release count next inductionHypothesis =>
      exact congrArg (Proc.release count) inductionHypothesis
  | commit next inductionHypothesis =>
      exact congrArg Proc.commit inductionHypothesis
  | rollback next inductionHypothesis =>
      exact congrArg Proc.rollback inductionHypothesis

/-- So it is for the values of requests. -/
theorem Request.bind_assoc {β γ : Type}
    (first : Request σ κ ω ε α) (second : α → Request σ κ ω ε β)
    (rest : β → Request σ κ ω ε γ) :
    (first >>= second) >>= rest = first >>= fun value => second value >>= rest := by
  refine (Proc.bind_assoc first _ _).trans (congrArg (Proc.bind first) ?_)
  funext result
  cases result <;> rfl

variable {good : Effect ω → Prop} {writes : List ω}

/-- A part whose commits are right whatever is left, then the rest. -/
theorem Proc.Continues.bind
    {goal : List ω → Proc σ κ ω τ → Prop} {first : Proc σ κ ω ρ}
    {rest : ρ → Proc σ κ ω τ} {met : ρ → Prop}
    (emits : first.Emits good met)
    (enough : ∀ stmts next, (∀ stmt ∈ stmts, good (.write stmt)) →
      goal stmts next)
    (pending : ∀ stmt ∈ writes, good (.write stmt))
    (next : ∀ result later, met result →
      (∀ stmt ∈ later, good (.write stmt)) →
      (rest result).Continues goal later) :
    (first.bind rest).Continues goal writes := by
  induction first generalizing writes with
  | halt result => exact next result writes emits pending
  | query step inductionHypothesis =>
      exact fun state => inductionHypothesis state (emits state) pending
  | lock row step inductionHypothesis => exact inductionHypothesis emits pending
  | write stmt step inductionHypothesis =>
      refine inductionHypothesis emits.2 fun other member => ?_
      rcases List.mem_append.mp member with earlier | last
      · exact pending other earlier
      · exact List.mem_singleton.mp last ▸ emits.1
  | release count step inductionHypothesis =>
      exact inductionHypothesis emits.2 pending
  | commit step inductionHypothesis =>
      exact ⟨enough _ _ pending, inductionHypothesis emits (by simp)⟩
  | rollback step inductionHypothesis => exact inductionHypothesis emits (by simp)

/-- A client whose commits are right whatever is left. -/
theorem Proc.continues_of_emits
    {goal : List ω → Proc σ κ ω ρ → Prop} {proc : Proc σ κ ω ρ}
    (emits : proc.Emits good fun _ => True)
    (enough : ∀ stmts next, (∀ stmt ∈ stmts, good (.write stmt)) →
      goal stmts next)
    (pending : ∀ stmt ∈ writes, good (.write stmt)) :
    proc.Continues goal writes := by
  have whole : (proc.bind .halt).Continues goal writes :=
    Proc.Continues.bind emits enough pending fun _ _ _ _ => trivial
  rwa [Proc.bind_halt] at whole

/-- A block, and what is left when it commits. -/
theorem Proc.continues_toProc
    {goal : List ω → Proc σ κ ω τ → Prop} {body : Prog σ κ ω ε α}
    (rest : Except ε α → Proc σ κ ω τ)
    (emits : body.Emits good fun _ => True)
    (pending : ∀ stmt ∈ writes, good (.write stmt))
    (commits : ∀ stmts value, (∀ stmt ∈ stmts, good (.write stmt)) →
      goal stmts (rest (.ok value)))
    (next : ∀ result, (rest result).Continues goal []) :
    (body.toProc.bind rest).Continues goal writes := by
  induction body generalizing writes with
  | done value => exact ⟨commits writes value pending, next (.ok value)⟩
  | fail error => exact next (.error error)
  | query step inductionHypothesis =>
      exact fun state => inductionHypothesis state (emits state) pending
  | lock row step inductionHypothesis => exact inductionHypothesis emits pending
  | write stmt step inductionHypothesis =>
      refine inductionHypothesis emits.2 fun other member => ?_
      rcases List.mem_append.mp member with earlier | last
      · exact pending other earlier
      · exact List.mem_singleton.mp last ▸ emits.1
  | release count step inductionHypothesis =>
      exact inductionHypothesis emits.2 pending

/-- Each commit of the request goes with what is left of it then. -/
def Request.Continues
    (goal : List ω → Proc σ κ ω (Except ε α) → Prop)
    (request : Request σ κ ω ε α) : Prop :=
  Proc.Continues goal request []

/-- A request that commits nothing before the rest. -/
theorem Request.Continues.seq {β : Type}
    {goal : List ω → Proc σ κ ω (Except ε β) → Prop} {met : α → Prop}
    {first : Request σ κ ω ε α} {rest : α → Request σ κ ω ε β}
    (silent : first.Emits (fun _ => False) fun result =>
      ∀ value, result = .ok value → met value)
    (empty : ∀ next, goal [] next)
    (next : ∀ value, met value → (rest value).Continues goal) :
    (first >>= rest).Continues goal := by
  have none : ∀ stmts : List ω, (∀ stmt ∈ stmts, False) → stmts = [] :=
    fun stmts all => List.eq_nil_iff_forall_not_mem.mpr all
  refine Proc.Continues.bind silent (fun stmts next all => none stmts all ▸ empty next)
    nofun ?_
  rintro (error | value) later found all
  · trivial
  · obtain rfl := none later all
    exact next value (found value rfl)

/-- A block, and what is left of the request when it commits. -/
theorem Request.Continues.commit {β : Type}
    {goal : List ω → Proc σ κ ω (Except ε β) → Prop}
    {body : Prog σ κ ω ε α} {rest : α → Request σ κ ω ε β}
    (emits : body.Emits good fun _ => True)
    (commits : ∀ stmts value, (∀ stmt ∈ stmts, good (.write stmt)) →
      goal stmts (rest value))
    (next : ∀ value, (rest value).Continues goal) :
    (atomic body >>= rest).Continues goal := by
  refine Proc.continues_toProc _ emits (by simp) commits ?_
  rintro (error | value)
  · trivial
  · exact next value

end Client

namespace System

variable {σ κ ω ρ : Type} [Store σ κ ω] [DecidableEq κ]
  {goal : List ω → Proc σ κ ω ρ → Prop} {system : System σ κ ω ρ}

/-- A turn of a client leaves the rest of it. -/
theorem continues_turn
    (client : Nat)
    (continues : (system.clients client).proc.Continues goal
      (system.clients client).writes) :
    ((system.turn client).clients client).proc.Continues goal
      ((system.turn client).clients client).writes := by
  rcases shape : system.clients client with ⟨proc, writes⟩
  simp only [shape] at continues
  simp only [turn, shape]
  cases proc with
  | halt result => simp [shape, Proc.Continues]
  | query next => simpa using continues _
  | lock row next =>
      rw [Proc.Continues] at continues
      by_cases free : system.Free client [row]
      · simpa [free] using continues
      · simpa [free, shape, Proc.Continues] using continues
  | write stmt next =>
      rw [Proc.Continues] at continues
      by_cases free : system.Free client (Store.rows σ stmt)
      · simpa [free] using continues
      · simpa [free, shape, Proc.Continues] using continues
  | release count next => simpa [Proc.Continues] using continues
  | commit next => simpa using continues.2
  | rollback next => simpa [Proc.Continues] using continues

/-- What a client commits goes with what is left of it. -/
theorem continues_commits
    {client : Nat} {stmts : List ω}
    (continues : (system.clients client).proc.Continues goal
      (system.clients client).writes)
    (commits : system.committing (.run client : Event ρ) = some stmts) :
    ∃ next, (system.turn client).clients client = ⟨next, []⟩ ∧
      goal stmts next := by
  rcases shape : system.clients client with ⟨proc, writes⟩
  simp only [shape] at continues
  simp only [committing, shape] at commits
  cases proc with
  | commit next =>
      obtain rfl := Option.some.inj commits
      exact ⟨next, by simp [turn, shape], continues.1⟩
  | _ => simp at commits

end System

/-! ## Runs in which nobody is killed -/

namespace System

variable {σ κ ω ρ : Type} [Store σ κ ω] [DecidableEq κ]

/-- The systems reached by turns of clients that are all allowed. -/
inductive Turns
    (allowed : System σ κ ω ρ → Nat → Prop) (start : System σ κ ω ρ) :
    System σ κ ω ρ → Prop where
  | refl : Turns allowed start start
  | turn {system : System σ κ ω ρ} (client : Nat) :
      Turns allowed start system → allowed system client →
      Turns allowed start (system.turn client)

/-- Nobody is killed in such a run; otherwise it is like any other. -/
theorem Turns.reach
    {allowed : System σ κ ω ρ → Nat → Prop} {start system : System σ κ ω ρ}
    (turns : Turns allowed start system) :
    Reach (fun _ _ => True) start system := by
  induction turns with
  | refl => exact .refl
  | turn client _ _ inductionHypothesis =>
      exact .step (.run client) inductionHypothesis fun _ _ => trivial

/-- Every event of a schedule is a turn that passes a check. -/
def allowsAll (check : System σ κ ω ρ → Nat → Bool) :
    System σ κ ω ρ → List (Event ρ) → Bool
  | _, [] => true
  | system, .run client :: rest =>
      check system client && allowsAll check (system.turn client) rest
  | _, .kill _ _ :: _ => false

/-- A schedule that passes the check is such a run. -/
theorem turns_of_allowsAll
    {allowed : System σ κ ω ρ → Nat → Prop} {check : System σ κ ω ρ → Nat → Bool}
    (sound : ∀ system client, check system client = true →
      allowed system client)
    {start system : System σ κ ω ρ} {schedule : List (Event ρ)}
    (before : Turns allowed start system)
    (checked : system.allowsAll check schedule = true) :
    Turns allowed start (system.runAll schedule) := by
  induction schedule generalizing system with
  | nil => exact before
  | cons event rest inductionHypothesis =>
      cases event with
      | kill client result => simp [allowsAll] at checked
      | run client =>
          rw [allowsAll, Bool.and_eq_true] at checked
          exact inductionHypothesis
            (.turn client before (sound system client checked.1)) checked.2

/-- A client that has no turn stays as it is. -/
theorem runAll_other
    {client : Nat} {schedule : List (Event ρ)}
    (others : ∀ event ∈ schedule, ∃ other, client ≠ other ∧ event = .run other)
    (system : System σ κ ω ρ) :
    (system.runAll schedule).clients client = system.clients client := by
  induction schedule generalizing system with
  | nil => rfl
  | cons event rest inductionHypothesis =>
      obtain ⟨other, different, rfl⟩ := others event List.mem_cons_self
      have later := inductionHypothesis
        (fun event member => others event (List.mem_cons_of_mem _ member))
        (system.turn other)
      exact later.trans (turn_other different)

end System

end Transaction
