import KnowledgeMarketplace.Transaction.Request
import Mathlib.Data.List.Induction

/-!
# Interleaved clients

A system is one committed state and a pool of clients.  At every step one
client executes its next statement: a query sees the committed state and the
client's own pending writes, a row lock waits until no other client holds it,
and a commit publishes the pending writes and gives the locks back.  This is
the read-committed isolation level with row locks.  A client can also be
killed, as the victim of a deadlock is; its open transaction has no effect.
-/

namespace Transaction

/-- One client: the rest of its request and its open transaction's writes. -/
structure Client (σ κ ω ρ : Type) where
  proc : Proc σ κ ω ρ
  writes : List ω

/-- A database with its clients; `locks` lists owners, the newest lock first. -/
structure System (σ κ ω ρ : Type) where
  committed : σ
  clients : Nat → Client σ κ ω ρ
  locks : List (Nat × κ)

/-- One turn of the scheduler. -/
inductive Event (ρ : Type) where
  | run (client : Nat)
  | kill (client : Nat) (result : ρ)

/-- Forget the `count` newest locks of one client. -/
def dropLocks {κ : Type} (client : Nat) :
    Nat → List (Nat × κ) → List (Nat × κ)
  | 0, locks => locks
  | _ + 1, [] => []
  | count + 1, entry :: rest =>
      if entry.1 = client then
        dropLocks client count rest
      else
        entry :: dropLocks client (count + 1) rest

namespace System

variable {σ κ ω ρ : Type}

/-- All clients are about to start and no row is locked. -/
def init (state : σ) (requests : Nat → Proc σ κ ω ρ) : System σ κ ω ρ where
  committed := state
  clients := fun client => ⟨requests client, []⟩
  locks := []

/-- No other client holds one of the rows. -/
def Free (system : System σ κ ω ρ) (client : Nat) (rows : List κ) : Prop :=
  ∀ entry ∈ system.locks, entry.1 ≠ client → entry.2 ∉ rows

instance [DecidableEq κ]
    (system : System σ κ ω ρ) (client : Nat) (rows : List κ) :
    Decidable (system.Free client rows) := by
  unfold Free
  infer_instance

/-- Replace one client. -/
def setClient
    (system : System σ κ ω ρ) (client : Nat)
    (next : Client σ κ ω ρ) : Nat → Client σ κ ω ρ :=
  fun query => if query = client then next else system.clients query

@[simp] theorem setClient_same
    (system : System σ κ ω ρ) (client : Nat) (next : Client σ κ ω ρ) :
    system.setClient client next client = next := by
  simp [setClient]

theorem setClient_other
    (system : System σ κ ω ρ) {client other : Nat}
    (different : other ≠ client) (next : Client σ κ ω ρ) :
    system.setClient client next other = system.clients other := by
  simp [setClient, different]

/-- The locks of the other clients. -/
def othersLocks (system : System σ κ ω ρ) (client : Nat) : List (Nat × κ) :=
  system.locks.filter fun entry => entry.1 ≠ client

/-- One client executes its next statement; a blocked client stays put. -/
def turn [Store σ κ ω] [DecidableEq κ]
    (system : System σ κ ω ρ) (client : Nat) : System σ κ ω ρ :=
  let writes := (system.clients client).writes
  match (system.clients client).proc with
  | .halt _ => system
  | .query next =>
      { system with
        clients := system.setClient client
          ⟨next (applyAll writes system.committed), writes⟩ }
  | .lock row next =>
      if system.Free client [row] then
        { system with
          clients := system.setClient client ⟨next, writes⟩
          locks := (client, row) :: system.locks }
      else
        system
  | .write stmt next =>
      if system.Free client (Store.rows σ stmt) then
        { system with
          clients := system.setClient client ⟨next, writes ++ [stmt]⟩
          locks := (Store.rows σ stmt).map (client, ·) ++ system.locks }
      else
        system
  | .release count next =>
      -- rows with pending writes stay locked until the transaction ends
      { system with
        clients := system.setClient client ⟨next, writes⟩
        locks := (rowsOf σ writes).map (client, ·) ++
          dropLocks client count system.locks }
  | .commit next =>
      { committed := applyAll writes system.committed
        clients := system.setClient client ⟨next, []⟩
        locks := system.othersLocks client }
  | .rollback next =>
      { system with
        clients := system.setClient client ⟨next, []⟩
        locks := system.othersLocks client }

/-- One step of the scheduler. -/
def step [Store σ κ ω] [DecidableEq κ]
    (system : System σ κ ω ρ) : Event ρ → System σ κ ω ρ
  | .run client => system.turn client
  | .kill client result =>
      { system with
        clients := system.setClient client ⟨.halt result, []⟩
        locks := system.othersLocks client }

/-- Run a finite schedule. -/
def runAll [Store σ κ ω] [DecidableEq κ]
    (system : System σ κ ω ρ) (schedule : List (Event ρ)) : System σ κ ω ρ :=
  schedule.foldl step system

/-- Each event of a schedule, with the system that it finds. -/
def trace [Store σ κ ω] [DecidableEq κ] (system : System σ κ ω ρ) :
    List (Event ρ) → List (System σ κ ω ρ × Event ρ)
  | [] => []
  | event :: rest => (system, event) :: (system.step event).trace rest

/-- The statements that an event is about to commit. -/
def committing (system : System σ κ ω ρ) : Event ρ → Option (List ω)
  | .run client =>
      match (system.clients client).proc with
      | .commit _ => some (system.clients client).writes
      | _ => none
  | .kill _ _ => none

/-- Every commit of the event meets a condition on its statements and state. -/
def Admits
    (condition : List ω → σ → Prop)
    (system : System σ κ ω ρ) (event : Event ρ) : Prop :=
  ∀ stmts, system.committing event = some stmts →
    condition stmts system.committed

/-- The systems reached by schedules all of whose commits meet a condition. -/
inductive Reach [Store σ κ ω] [DecidableEq κ]
    (condition : List ω → σ → Prop)
    (start : System σ κ ω ρ) : System σ κ ω ρ → Prop where
  | refl : Reach condition start start
  | step {system : System σ κ ω ρ} (event : Event ρ) :
      Reach condition start system →
      Admits condition system event →
      Reach condition start (system.step event)

variable [Store σ κ ω] [DecidableEq κ]

/-- An event that commits nothing leaves the committed state unchanged. -/
theorem step_committed_of_none
    {system : System σ κ ω ρ} {event : Event ρ}
    (quiet : system.committing event = none) :
    (system.step event).committed = system.committed := by
  cases event with
  | kill client result => rfl
  | run client =>
      simp only [committing] at quiet
      simp only [step, turn]
      split <;> try rfl
      · split <;> rfl
      · split <;> rfl
      · rename_i next shape
        simp [shape] at quiet

/-- A commit publishes exactly its pending statements. -/
theorem step_committed_of_some
    {system : System σ κ ω ρ} {event : Event ρ} {stmts : List ω}
    (commits : system.committing event = some stmts) :
    (system.step event).committed = applyAll stmts system.committed := by
  cases event with
  | kill client result => simp [committing] at commits
  | run client =>
      simp only [committing] at commits
      split at commits
      · rename_i next shape
        simp only [Option.some.injEq] at commits
        subst commits
        simp [step, turn, shape]
      · simp at commits

/-- A run under a condition is a run under a weaker one. -/
theorem Reach.mono
    {condition weaker : List ω → σ → Prop} {start system : System σ κ ω ρ}
    (reach : Reach condition start system)
    (weaken : ∀ stmts state, condition stmts state → weaker stmts state) :
    Reach weaker start system := by
  induction reach with
  | refl => exact .refl
  | step event _ admits inductionHypothesis =>
      exact .step event inductionHypothesis fun stmts commits =>
        weaken stmts _ (admits stmts commits)

/-- Without a condition every schedule is a run. -/
theorem reach_runAll
    (start : System σ κ ω ρ) (schedule : List (Event ρ)) :
    Reach (fun _ _ => True) start (start.runAll schedule) := by
  induction schedule using List.reverseRecOn with
  | nil => exact .refl
  | append_singleton earlier event inductionHypothesis =>
      rw [runAll, List.foldl_append]
      exact .step event inductionHypothesis fun _ _ => trivial

/-- Every commit of a schedule meets a condition that can be evaluated. -/
def admitsAll
    (condition : List ω → σ → Prop)
    [∀ stmts state, Decidable (condition stmts state)] :
    System σ κ ω ρ → List (Event ρ) → Bool
  | _, [] => true
  | system, event :: rest =>
      ((system.committing event).all fun stmts =>
        decide (condition stmts system.committed)) &&
          admitsAll condition (system.step event) rest

/-- A schedule that passes the check is a run under the condition. -/
theorem reach_of_admitsAll
    {condition : List ω → σ → Prop}
    [∀ stmts state, Decidable (condition stmts state)]
    {start system : System σ κ ω ρ} {schedule : List (Event ρ)}
    (reach : Reach condition start system)
    (checked : system.admitsAll condition schedule = true) :
    Reach condition start (system.runAll schedule) := by
  induction schedule generalizing system with
  | nil => exact reach
  | cons event rest inductionHypothesis =>
      rw [admitsAll, Bool.and_eq_true] at checked
      refine inductionHypothesis (.step event reach ?_) checked.2
      intro stmts commits
      have holds := checked.1
      rw [commits, Option.all_some, decide_eq_true_eq] at holds
      exact holds

end System

/-!
## Success by commit

A request that commits once, as its last step, succeeds exactly when that
commit happens.
-/

/-- Every path ends with an error, or with its only commit and success. -/
def Proc.ByCommit {σ κ ω ε α : Type} : Proc σ κ ω (Except ε α) → Prop
  | .halt (.ok _) => False
  | .halt (.error _) => True
  | .query next => ∀ state, (next state).ByCommit
  | .lock _ next => next.ByCommit
  | .write _ next => next.ByCommit
  | .release _ next => next.ByCommit
  | .commit next => ∃ value, next = .halt (.ok value)
  | .rollback next => next.ByCommit

/-- A block run as a request succeeds by its commit. -/
theorem Request.byCommit_atomic {σ κ ω ε α : Type}
    (body : Prog σ κ ω ε α) : Proc.ByCommit (Request.atomic body) := by
  unfold Request.atomic
  induction body with
  | done value => exact ⟨value, rfl⟩
  | fail error => exact trivial
  | query next inductionHypothesis => exact inductionHypothesis
  | lock row next inductionHypothesis => exact inductionHypothesis
  | write stmt next inductionHypothesis => exact inductionHypothesis
  | release count next inductionHypothesis => exact inductionHypothesis

namespace System

variable {σ κ ω ε α : Type} [Store σ κ ω] [DecidableEq κ]

/-- The client has ended, or will succeed by a commit. -/
def EndsByCommit (system : System σ κ ω (Except ε α)) (client : Nat) : Prop :=
  (∃ result, (system.clients client).proc = .halt result) ∨
    Proc.ByCommit (system.clients client).proc

/-- A turn that ends a client with success commits. -/
theorem EndsByCommit.turn
    {system : System σ κ ω (Except ε α)} {client : Nat}
    (ends : system.EndsByCommit client) {value : α}
    (running : ∀ result, (system.clients client).proc ≠ .halt result)
    (succeeded :
      ((system.turn client).clients client).proc = .halt (.ok value)) :
    ∃ stmts, system.committing
      (.run client : Event (Except ε α)) = some stmts := by
  rcases ends with ⟨result, ended⟩ | pending
  · exact absurd ended (running result)
  rcases shape : system.clients client with ⟨proc, writes⟩
  simp only [shape] at pending running
  simp only [System.turn, shape] at succeeded
  cases proc with
  | halt result => exact absurd rfl (running result)
  | commit next => exact ⟨writes, by simp [committing, shape]⟩
  | query next =>
      simp only [setClient_same] at succeeded
      have later := pending (applyAll writes system.committed)
      rw [succeeded] at later
      exact later.elim
  | lock row next =>
      by_cases free : system.Free client [row]
      · simp only [free, ↓reduceIte, setClient_same] at succeeded
        subst succeeded
        exact pending.elim
      · simp [free, shape] at succeeded
  | write stmt next =>
      by_cases free : system.Free client (Store.rows σ stmt)
      · simp only [free, ↓reduceIte, setClient_same] at succeeded
        subst succeeded
        exact pending.elim
      · simp [free, shape] at succeeded
  | release count next =>
      simp only [setClient_same] at succeeded
      subst succeeded
      exact pending.elim
  | rollback next =>
      simp only [setClient_same] at succeeded
      subst succeeded
      exact pending.elim

/-- The turn that commits ends its client with success. -/
theorem EndsByCommit.succeeds
    {system : System σ κ ω (Except ε α)} {client : Nat}
    (ends : system.EndsByCommit client) {stmts : List ω}
    (commits : system.committing
      (.run client : Event (Except ε α)) = some stmts) :
    ∃ value, ((system.turn client).clients client).proc =
      .halt (.ok value) := by
  simp only [committing] at commits
  split at commits
  · rename_i next shape
    rcases ends with ⟨result, ended⟩ | pending
    · simp [shape] at ended
    · rw [shape] at pending
      obtain ⟨value, rfl⟩ := pending
      exact ⟨value, by simp [System.turn, shape]⟩
  · simp at commits

/-- Every step keeps what `EndsByCommit` says about each client. -/
theorem EndsByCommit.step
    {system : System σ κ ω (Except ε α)} {client : Nat}
    (ends : system.EndsByCommit client) (event : Event (Except ε α)) :
    (system.step event).EndsByCommit client := by
  have other : ∀ mover next, client ≠ mover →
      system.setClient mover next client = system.clients client :=
    fun mover next different => setClient_other system different next
  cases event with
  | kill mover result =>
      by_cases same : client = mover
      · subst same
        exact .inl ⟨result, by simp [System.step]⟩
      · unfold EndsByCommit at ends ⊢
        simpa [System.step, other mover _ same] using ends
  | run mover =>
      by_cases same : client = mover
      · subst same
        rcases ends with ⟨result, ended⟩ | pending
        · exact .inl ⟨result, by simp [System.step, System.turn, ended]⟩
        rcases shape : system.clients client with ⟨proc, writes⟩
        simp only [shape] at pending
        unfold EndsByCommit
        simp only [System.step, System.turn, shape]
        cases proc with
        | halt result => exact .inl ⟨result, by simp [shape]⟩
        | commit next =>
            simp only [setClient_same]
            obtain ⟨value, rfl⟩ := pending
            exact .inl ⟨_, rfl⟩
        | query next =>
            simp only [setClient_same]
            exact .inr (pending _)
        | lock row next =>
            by_cases free : system.Free client [row]
            · simp only [free, ↓reduceIte, setClient_same]
              exact .inr pending
            · simp only [free, ↓reduceIte, shape]
              exact .inr pending
        | write stmt next =>
            by_cases free : system.Free client (Store.rows σ stmt)
            · simp only [free, ↓reduceIte, setClient_same]
              exact .inr pending
            · simp only [free, ↓reduceIte, shape]
              exact .inr pending
        | release count next =>
            simp only [setClient_same]
            exact .inr pending
        | rollback next =>
            simp only [setClient_same]
            exact .inr pending
      · have unchanged : (system.turn mover).clients client =
            system.clients client := by
          simp only [System.turn]
          split <;> (try split) <;> first
            | rfl
            | exact other mover _ same
        unfold EndsByCommit at ends ⊢
        simpa only [System.step, unchanged] using ends

/-- Every schedule keeps what `EndsByCommit` says about each client. -/
theorem EndsByCommit.runAll
    {system : System σ κ ω (Except ε α)} {client : Nat}
    (ends : system.EndsByCommit client)
    (schedule : List (Event (Except ε α))) :
    (system.runAll schedule).EndsByCommit client := by
  unfold System.runAll
  induction schedule generalizing system with
  | nil => exact ends
  | cons event rest inductionHypothesis =>
      exact inductionHypothesis (ends.step event)

/-- What every step keeps holds wherever an event finds the system. -/
theorem trace_keeps
    {ρ : Type} {system : System σ κ ω ρ} {schedule : List (Event ρ)}
    (invariant : System σ κ ω ρ → Prop)
    (keeps : ∀ current event, invariant current →
      invariant (current.step event))
    (initial : invariant system) :
    ∀ step ∈ system.trace schedule, invariant step.1 := by
  induction schedule generalizing system with
  | nil => simp [trace]
  | cons event rest inductionHypothesis =>
      simp only [trace, List.mem_cons, forall_eq_or_imp]
      exact ⟨initial, inductionHypothesis (keeps system event initial)⟩

end System

/-- Dropping locks of one client keeps only locks that were there. -/
theorem mem_of_mem_dropLocks {κ : Type}
    {client count : Nat} {locks : List (Nat × κ)} {entry : Nat × κ}
    (member : entry ∈ dropLocks client count locks) : entry ∈ locks := by
  induction locks generalizing count with
  | nil => cases count <;> simp [dropLocks] at member
  | cons first rest inductionHypothesis =>
      cases count with
      | zero => exact member
      | succ count =>
          simp only [dropLocks] at member
          split at member
          · exact List.mem_cons_of_mem _ (inductionHypothesis member)
          · rcases List.mem_cons.mp member with same | later
            · exact same ▸ List.mem_cons_self
            · exact List.mem_cons_of_mem _ (inductionHypothesis later)

/-- Dropping locks of one client keeps every lock of the others. -/
theorem mem_dropLocks_of_ne {κ : Type}
    {client count : Nat} {locks : List (Nat × κ)} {entry : Nat × κ}
    (member : entry ∈ locks) (different : entry.1 ≠ client) :
    entry ∈ dropLocks client count locks := by
  induction locks generalizing count with
  | nil => simp at member
  | cons first rest inductionHypothesis =>
      cases count with
      | zero => exact member
      | succ count =>
          simp only [dropLocks]
          rcases List.mem_cons.mp member with same | later
          · subst same
            simp [different]
          · split
            · exact inductionHypothesis later
            · exact List.mem_cons_of_mem _ (inductionHypothesis later)

end Transaction
