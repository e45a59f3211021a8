import Mathlib.Data.List.Basic
import Mathlib.Logic.Unique

/-!
# Programs of database transactions

A client of a database runs statements one at a time.  A `Prog` is the body of
one transaction: it queries the state it can see, takes row locks, writes
statements and ends with a value or an error.  A `Proc` is a whole request: a
sequence of such transactions with reads between them.

Both are trees, so that one text of a service has two meanings.  The meaning
here runs the tree alone, from a state to a state; the interleaved meaning,
where other clients commit between two statements, is in `Schedule`.
-/

namespace Transaction

/-- What a statement does to the database, and which rows it locks. -/
class Store (σ : Type) (κ ω : outParam Type) where
  apply : ω → σ → σ
  rows : ω → List κ

/-- Apply the pending statements of one transaction in program order. -/
def applyAll {σ κ ω : Type} [Store σ κ ω] (stmts : List ω) (state : σ) : σ :=
  stmts.foldl (fun current stmt => Store.apply stmt current) state

/-- All rows locked by a list of statements. -/
def rowsOf {κ ω : Type} (σ : Type) [Store σ κ ω] (stmts : List ω) : List κ :=
  stmts.flatMap (Store.rows σ)

section ApplyAll

variable {σ κ ω : Type} [Store σ κ ω]

@[simp] theorem applyAll_nil (state : σ) :
    applyAll ([] : List ω) state = state :=
  rfl

@[simp] theorem applyAll_cons
    (stmt : ω) (stmts : List ω) (state : σ) :
    applyAll (stmt :: stmts) state =
      applyAll stmts (Store.apply stmt state) :=
  rfl

@[simp] theorem applyAll_append
    (first second : List ω) (state : σ) :
    applyAll (first ++ second) state =
      applyAll second (applyAll first state) := by
  simp [applyAll, List.foldl_append]

@[simp] theorem mem_rowsOf
    {stmts : List ω} {row : κ} :
    row ∈ rowsOf σ stmts ↔
      ∃ stmt ∈ stmts, row ∈ Store.rows σ stmt := by
  simp [rowsOf]

/-- What each statement keeps, all of them keep. -/
theorem applyAll_keeps
    {stmts : List ω} {state : σ} (invariant : σ → Prop)
    (keeps : ∀ stmt ∈ stmts, ∀ current, invariant current →
      invariant (Store.apply stmt current))
    (start : invariant state) : invariant (applyAll stmts state) := by
  induction stmts generalizing state with
  | nil => exact start
  | cons stmt rest inductionHypothesis =>
      exact inductionHypothesis
        (fun later member => keeps later (List.mem_cons_of_mem _ member))
        (keeps stmt List.mem_cons_self state start)

/-- A view that no statement changes is the same after all of them. -/
theorem applyAll_frame {α : Type}
    {stmts : List ω} {state : σ} (view : σ → α)
    (frame : ∀ stmt ∈ stmts, ∀ current,
      view (Store.apply stmt current) = view current) :
    view (applyAll stmts state) = view state :=
  applyAll_keeps (fun current => view current = view state)
    (fun stmt member current same =>
      (frame stmt member current).trans same) rfl

/-- A view that each statement takes from the view before depends on it only. -/
theorem applyAll_congr {α : Type}
    {stmts : List ω} {first second : σ} (view : σ → α)
    (congr : ∀ stmt first second, view first = view second →
      view (Store.apply stmt first) = view (Store.apply stmt second))
    (same : view first = view second) :
    view (applyAll stmts first) = view (applyAll stmts second) := by
  induction stmts generalizing first second with
  | nil => exact same
  | cons stmt rest inductionHypothesis =>
      exact inductionHypothesis (congr stmt first second same)

/-- Every statement meets a condition in the state it is applied to. -/
def Along (meets : ω → σ → Prop) : List ω → σ → Prop
  | [], _ => True
  | stmt :: rest, state =>
      meets stmt state ∧ Along meets rest (Store.apply stmt state)

instance Along.decidable
    {meets : ω → σ → Prop} [∀ stmt state, Decidable (meets stmt state)] :
    ∀ (stmts : List ω) (state : σ), Decidable (Along meets stmts state)
  | [], _ => .isTrue trivial
  | _ :: rest, _ => @instDecidableAnd _ _ _ (Along.decidable rest _)

@[simp] theorem along_nil {meets : ω → σ → Prop} (state : σ) :
    Along meets [] state :=
  trivial

@[simp] theorem along_cons
    {meets : ω → σ → Prop} {stmt : ω} {rest : List ω} {state : σ} :
    Along meets (stmt :: rest) state ↔
      meets stmt state ∧ Along meets rest (Store.apply stmt state) :=
  Iff.rfl

@[simp] theorem along_append
    {meets : ω → σ → Prop} {first second : List ω} {state : σ} :
    Along meets (first ++ second) state ↔
      Along meets first state ∧
        Along meets second (applyAll first state) := by
  induction first generalizing state with
  | nil => simp
  | cons stmt rest inductionHypothesis =>
      simp [inductionHypothesis, and_assoc]

/-- A condition that every statement always meets. -/
theorem along_of_forall
    {meets : ω → σ → Prop} {stmts : List ω} (state : σ)
    (all : ∀ stmt ∈ stmts, ∀ current, meets stmt current) :
    Along meets stmts state := by
  induction stmts generalizing state with
  | nil => trivial
  | cons stmt rest inductionHypothesis =>
      exact ⟨all stmt List.mem_cons_self state, inductionHypothesis _
        fun later member => all later (List.mem_cons_of_mem _ member)⟩

/-- What each statement keeps under a condition, all of them keep. -/
theorem Along.keeps
    {meets : ω → σ → Prop} {stmts : List ω} {state : σ}
    (along : Along meets stmts state) (invariant : σ → Prop)
    (keeps : ∀ stmt ∈ stmts, ∀ current, meets stmt current →
      invariant current → invariant (Store.apply stmt current))
    (start : invariant state) : invariant (applyAll stmts state) := by
  induction stmts generalizing state with
  | nil => exact start
  | cons stmt rest inductionHypothesis =>
      exact inductionHypothesis along.2
        (fun later member => keeps later (List.mem_cons_of_mem _ member))
        (keeps stmt List.mem_cons_self state along.1 start)

end ApplyAll

/-- The body of one transaction. -/
inductive Prog (σ κ ω ε α : Type) : Type where
  /-- The block ends normally. -/
  | done (value : α)
  /-- The block raises. -/
  | fail (error : ε)
  /-- A query sees the committed rows and the transaction's own writes. -/
  | query (next : σ → Prog σ κ ω ε α)
  /-- `SELECT ... FOR UPDATE` of one row. -/
  | lock (row : κ) (next : Prog σ κ ω ε α)
  /-- An `INSERT` or `UPDATE`, which also locks the rows it writes. -/
  | write (stmt : ω) (next : Prog σ κ ω ε α)
  /-- Rolling back to a savepoint gives up the locks taken after it. -/
  | release (count : Nat) (next : Prog σ κ ω ε α)

namespace Prog

variable {σ κ ω ε α β : Type}

/-- Sequence two parts of one transaction; an error skips the second part. -/
def bind : Prog σ κ ω ε α → (α → Prog σ κ ω ε β) → Prog σ κ ω ε β
  | .done value, rest => rest value
  | .fail error, _ => .fail error
  | .query next, rest => .query fun state => (next state).bind rest
  | .lock row next, rest => .lock row (next.bind rest)
  | .write stmt next, rest => .write stmt (next.bind rest)
  | .release count next, rest => .release count (next.bind rest)

instance : Monad (Prog σ κ ω ε) where
  pure := .done
  bind := bind

/-- Read a value from the visible state. -/
def read (get : σ → α) : Prog σ κ ω ε α :=
  .query fun state => .done (get state)

/-- Lock one row. -/
def lockRow (row : κ) : Prog σ κ ω ε Unit :=
  .lock row (.done ())

/-- Execute one statement. -/
def exec (stmt : ω) : Prog σ κ ω ε Unit :=
  .write stmt (.done ())

/-- Raise an error. -/
def throw (error : ε) : Prog σ κ ω ε α :=
  .fail error

/-- Go on only if a guard holds. -/
def require (guard : Prop) [Decidable guard] (error : ε) : Prog σ κ ω ε Unit :=
  if guard then .done () else .fail error

/-- Take the value of an option, or raise. -/
def orFail (value : Option α) (error : ε) : Prog σ κ ω ε α :=
  match value with
  | some found => .done found
  | none => .fail error

/-- Go on with the value of a computation that does not touch the database. -/
def ofExcept (value : Except ε α) : Prog σ κ ω ε α :=
  match value with
  | .ok found => .done found
  | .error error => .fail error

/-- Take the value of an option, or run a block that makes one. -/
def orElse (value : Option α) (fallback : Prog σ κ ω ε α) : Prog σ κ ω ε α :=
  match value with
  | some found => .done found
  | none => fallback

/-- Run a block for every element of a list, in order. -/
def forEach (items : List β) (body : β → Prog σ κ ω ε Unit) : Prog σ κ ω ε Unit :=
  match items with
  | [] => .done ()
  | item :: rest => (body item).bind fun _ => forEach rest body

/-- Execute statements one after the other before going on. -/
def writeAll : List ω → Prog σ κ ω ε α → Prog σ κ ω ε α
  | [], next => next
  | stmt :: rest, next => .write stmt (writeAll rest next)

/-- Lock rows one after the other before going on. -/
def lockAll : List κ → Prog σ κ ω ε α → Prog σ κ ω ε α
  | [], next => next
  | row :: rest, next => .lock row (lockAll rest next)

/--
A nested `atomic` block under a savepoint.  Its writes stay in `pending` until
the block ends, so that an error drops them, gives up the block's locks and
runs the handler.
-/
def attemptFrom [Store σ κ ω]
    (handler : ε → Prog σ κ ω ε α) :
    List ω → Nat → Prog σ κ ω ε α → Prog σ κ ω ε α
  | pending, _, .done value => writeAll pending (.done value)
  | _, taken, .fail error => .release taken (handler error)
  | pending, taken, .query next =>
      .query fun state =>
        attemptFrom handler pending taken (next (applyAll pending state))
  | pending, taken, .lock row next =>
      .lock row (attemptFrom handler pending (taken + 1) next)
  | pending, taken, .write stmt next =>
      lockAll (Store.rows σ stmt)
        (attemptFrom handler (pending ++ [stmt])
          (taken + (Store.rows σ stmt).length) next)
  | pending, taken, .release count next =>
      .release count (attemptFrom handler pending (taken - count) next)

/-- `try: with atomic(): body  except error: handler`, inside a transaction. -/
def attempt [Store σ κ ω]
    (body : Prog σ κ ω ε α)
    (handler : ε → Prog σ κ ω ε α) : Prog σ κ ω ε α :=
  attemptFrom handler [] 0 body

/-- `try: body  except error: handler` without a savepoint: writes stay. -/
def tryCatch : Prog σ κ ω ε α → (ε → Prog σ κ ω ε α) → Prog σ κ ω ε α
  | .done value, _ => .done value
  | .fail error, handler => handler error
  | .query next, handler => .query fun state => (next state).tryCatch handler
  | .lock row next, handler => .lock row (next.tryCatch handler)
  | .write stmt next, handler => .write stmt (next.tryCatch handler)
  | .release count next, handler => .release count (next.tryCatch handler)

/-- Lock rows one by one and write those for which a condition still holds. -/
def updateEach {ι : Type}
    (holds : ι → σ → Bool) (row : ι → κ) (stmt : ι → ω) :
    List ι → Prog σ κ ω ε Nat
  | [] => .done 0
  | key :: rest =>
      .lock (row key) <| .query fun state =>
        if holds key state then
          .write (stmt key) <|
            (updateEach holds row stmt rest).bind fun count => .done (count + 1)
        else
          updateEach holds row stmt rest

/--
`UPDATE ... WHERE`, with the number of rows written.  The rows that match are
locked one after the other; a row that no longer matches when its lock is
granted is skipped.
-/
def updateWhere {ι : Type}
    (keys : σ → List ι) (holds : ι → σ → Bool)
    (row : ι → κ) (stmt : ι → ω) : Prog σ κ ω ε Nat :=
  .query fun state =>
    updateEach holds row stmt ((keys state).filter (holds · state))

/-- Lock rows one by one and keep those for which a condition still holds. -/
def lockEach {ι : Type} (holds : ι → σ → Bool) (row : ι → κ) :
    List ι → Prog σ κ ω ε (List ι)
  | [] => .done []
  | key :: rest =>
      .lock (row key) <| .query fun state =>
        if holds key state then
          (lockEach holds row rest).bind fun found => .done (key :: found)
        else
          lockEach holds row rest

/-- `SELECT ... WHERE ... FOR UPDATE`: the keys that match once locked. -/
def selectForUpdate {ι : Type}
    (keys : σ → List ι) (holds : ι → σ → Bool) (row : ι → κ) :
    Prog σ κ ω ε (List ι) :=
  .query fun state => lockEach holds row ((keys state).filter (holds · state))

/-- Run a transaction alone: its value or error, and the state it wrote. -/
def eval [Store σ κ ω] : Prog σ κ ω ε α → σ → Except ε α × σ
  | .done value, state => (.ok value, state)
  | .fail error, state => (.error error, state)
  | .query next, state => (next state).eval state
  | .lock _ next, state => next.eval state
  | .write stmt next, state => next.eval (Store.apply stmt state)
  | .release _ next, state => next.eval state

theorem bind_eq
    (program : Prog σ κ ω ε α) (rest : α → Prog σ κ ω ε β) :
    program >>= rest = program.bind rest :=
  rfl

section Eval

variable [Store σ κ ω]

example (stmt : ω) (value : α) (state : σ) :
    (Prog.write stmt (.done value) : Prog σ κ ω ε α).eval state =
      (.ok value, Store.apply stmt state) := by
  simp only [eval]

@[simp] theorem eval_pure (value : α) (state : σ) :
    (pure value : Prog σ κ ω ε α).eval state = (.ok value, state) :=
  rfl

/-- Sequencing evaluates the first part and continues from its state. -/
theorem eval_bind
    (program : Prog σ κ ω ε α) (rest : α → Prog σ κ ω ε β) (state : σ) :
    (program >>= rest).eval state =
      match program.eval state with
      | (.ok value, next) => (rest value).eval next
      | (.error error, next) => (.error error, next) := by
  rw [bind_eq]
  induction program generalizing state with
  | done value => rfl
  | fail error => rfl
  | query next inductionHypothesis =>
      exact inductionHypothesis state state
  | lock row next inductionHypothesis =>
      exact inductionHypothesis state
  | write stmt next inductionHypothesis =>
      exact inductionHypothesis (Store.apply stmt state)
  | release count next inductionHypothesis =>
      exact inductionHypothesis state

/-- A handler without savepoint starts from the state the error left. -/
theorem eval_tryCatch
    (body : Prog σ κ ω ε α) (handler : ε → Prog σ κ ω ε α) (state : σ) :
    (tryCatch body handler).eval state =
      match body.eval state with
      | (.ok value, next) => (.ok value, next)
      | (.error error, next) => (handler error).eval next := by
  induction body generalizing state with
  | done value => rfl
  | fail error => rfl
  | query next inductionHypothesis =>
      exact inductionHypothesis state state
  | lock row next inductionHypothesis =>
      exact inductionHypothesis state
  | write stmt next inductionHypothesis =>
      exact inductionHypothesis (Store.apply stmt state)
  | release count next inductionHypothesis =>
      exact inductionHypothesis state

@[simp] theorem eval_writeAll
    (stmts : List ω) (next : Prog σ κ ω ε α) (state : σ) :
    (writeAll stmts next).eval state = next.eval (applyAll stmts state) := by
  induction stmts generalizing state with
  | nil => rfl
  | cons stmt rest inductionHypothesis =>
      exact inductionHypothesis (Store.apply stmt state)

@[simp] theorem eval_lockAll
    (rows : List κ) (next : Prog σ κ ω ε α) (state : σ) :
    (lockAll rows next).eval state = next.eval state := by
  induction rows with
  | nil => rfl
  | cons row rest inductionHypothesis => exact inductionHypothesis

private theorem eval_attemptFrom
    (handler : ε → Prog σ κ ω ε α)
    (pending : List ω) (taken : Nat)
    (body : Prog σ κ ω ε α) (state : σ) :
    (attemptFrom handler pending taken body).eval state =
      match body.eval (applyAll pending state) with
      | (.ok value, next) => (.ok value, next)
      | (.error error, _) => (handler error).eval state := by
  induction body generalizing pending taken with
  | done value =>
      simp [attemptFrom, eval]
  | fail error => rfl
  | query next inductionHypothesis =>
      exact inductionHypothesis (applyAll pending state) pending taken
  | lock row next inductionHypothesis =>
      exact inductionHypothesis pending (taken + 1)
  | write stmt next inductionHypothesis =>
      simp [attemptFrom, eval, inductionHypothesis]
  | release count next inductionHypothesis =>
      exact inductionHypothesis pending (taken - count)

/-- Alone, a failed nested block leaves no write and the handler runs. -/
theorem eval_attempt
    (body : Prog σ κ ω ε α)
    (handler : ε → Prog σ κ ω ε α) (state : σ) :
    (attempt body handler).eval state =
      match body.eval state with
      | (.ok value, next) => (.ok value, next)
      | (.error error, _) => (handler error).eval state :=
  eval_attemptFrom handler [] 0 body state

end Eval

/-!
## Postconditions of a lone transaction

`Post` states what holds after `eval`: its rules turn a block into the guards
and writes along each of its paths.
-/

/-- The block, run alone from `state`, ends in `goal`. -/
def Post [Store σ κ ω]
    (program : Prog σ κ ω ε α) (state : σ)
    (goal : Except ε α → σ → Prop) : Prop :=
  goal (program.eval state).1 (program.eval state).2

section Post

variable [Store σ κ ω] {state : σ}

@[simp] theorem post_pure {value : α} {goal : Except ε α → σ → Prop} :
    (pure value : Prog σ κ ω ε α).Post state goal ↔ goal (.ok value) state :=
  Iff.rfl

@[simp] theorem post_read {get : σ → α} {goal : Except ε α → σ → Prop} :
    (read get : Prog σ κ ω ε α).Post state goal ↔
      goal (.ok (get state)) state :=
  Iff.rfl

@[simp] theorem post_lockRow {row : κ} {goal : Except ε Unit → σ → Prop} :
    (lockRow row : Prog σ κ ω ε Unit).Post state goal ↔ goal (.ok ()) state :=
  Iff.rfl

@[simp] theorem post_exec {stmt : ω} {goal : Except ε Unit → σ → Prop} :
    (exec stmt : Prog σ κ ω ε Unit).Post state goal ↔
      goal (.ok ()) (Store.apply stmt state) :=
  Iff.rfl

@[simp] theorem post_throw {error : ε} {goal : Except ε α → σ → Prop} :
    (throw error : Prog σ κ ω ε α).Post state goal ↔
      goal (.error error) state :=
  Iff.rfl

@[simp] theorem post_require
    {guard : Prop} [Decidable guard] {error : ε}
    {goal : Except ε Unit → σ → Prop} :
    (require guard error : Prog σ κ ω ε Unit).Post state goal ↔
      (guard → goal (.ok ()) state) ∧
        (¬guard → goal (.error error) state) := by
  by_cases holds : guard <;> simp [Post, require, eval, holds]

@[simp] theorem post_orFail
    {value : Option α} {error : ε} {goal : Except ε α → σ → Prop} :
    (orFail value error : Prog σ κ ω ε α).Post state goal ↔
      (∀ found, value = some found → goal (.ok found) state) ∧
        (value = none → goal (.error error) state) := by
  cases value <;> simp [Post, orFail, eval]

@[simp] theorem post_ofExcept
    {value : Except ε α} {goal : Except ε α → σ → Prop} :
    (ofExcept value : Prog σ κ ω ε α).Post state goal ↔
      (∀ found, value = .ok found → goal (.ok found) state) ∧
        ∀ error, value = .error error → goal (.error error) state := by
  cases value <;> simp [Post, ofExcept, eval]

@[simp] theorem post_orElse
    {value : Option α} {fallback : Prog σ κ ω ε α}
    {goal : Except ε α → σ → Prop} :
    (orElse value fallback).Post state goal ↔
      (∀ found, value = some found → goal (.ok found) state) ∧
        (value = none → fallback.Post state goal) := by
  cases value <;> simp [Post, orElse, eval]

@[simp] theorem post_ite
    {condition : Prop} [Decidable condition]
    {first second : Prog σ κ ω ε α} {goal : Except ε α → σ → Prop} :
    (if condition then first else second).Post state goal ↔
      (condition → first.Post state goal) ∧
        (¬condition → second.Post state goal) := by
  by_cases holds : condition <;> simp [holds]

@[simp] theorem post_bind
    {program : Prog σ κ ω ε α} {rest : α → Prog σ κ ω ε β}
    {goal : Except ε β → σ → Prop} :
    (program >>= rest).Post state goal ↔
      program.Post state fun result next =>
        match result with
        | .ok value => (rest value).Post next goal
        | .error error => goal (.error error) next := by
  unfold Post
  rw [eval_bind]
  rcases program.eval state with ⟨result, next⟩
  cases result <;> exact Iff.rfl

@[simp] theorem post_tryCatch
    {body : Prog σ κ ω ε α} {handler : ε → Prog σ κ ω ε α}
    {goal : Except ε α → σ → Prop} :
    (tryCatch body handler).Post state goal ↔
      body.Post state fun result next =>
        match result with
        | .ok value => goal (.ok value) next
        | .error error => (handler error).Post next goal := by
  unfold Post
  rw [eval_tryCatch]
  rcases body.eval state with ⟨result, next⟩
  cases result <;> exact Iff.rfl

/-- A nested block that fails hands the state before it to its handler. -/
@[simp] theorem post_attempt
    {body : Prog σ κ ω ε α} {handler : ε → Prog σ κ ω ε α}
    {goal : Except ε α → σ → Prop} :
    (attempt body handler).Post state goal ↔
      body.Post state fun result next =>
        match result with
        | .ok value => goal (.ok value) next
        | .error error => (handler error).Post state goal := by
  unfold Post
  rw [eval_attempt]
  rcases body.eval state with ⟨result, next⟩
  cases result <;> exact Iff.rfl

/-- A weaker goal follows. -/
theorem Post.mono
    {program : Prog σ κ ω ε α} {goal weaker : Except ε α → σ → Prop}
    (holds : program.Post state goal)
    (weaken : ∀ result next, goal result next → weaker result next) :
    program.Post state weaker :=
  weaken _ _ holds

/-- A goal about the success of two blocks, once the first one is split off. -/
theorem post_bind_of_ok
    {program : Prog σ κ ω ε α} {rest : α → Prog σ κ ω ε β}
    {goal : β → σ → Prop}
    (whole : (program >>= rest).Post state fun result next =>
      ∀ value, result = .ok value → goal value next) :
    program.Post state fun result next =>
      match result with
      | .ok value => (rest value).Post next fun result next =>
          ∀ value, result = .ok value → goal value next
      | .error _ => True := by
  refine (post_bind.mp whole).mono ?_
  rintro (error | value) next later
  · trivial
  · exact later

/-- A loop keeps what each of its rounds keeps. -/
theorem post_forEach
    {items : List β} {body : β → Prog σ κ ω ε Unit}
    (invariant : σ → Prop)
    (round : ∀ item ∈ items, ∀ current, invariant current →
      (body item).Post current fun _ next => invariant next)
    (start : invariant state) :
    (forEach items body).Post state fun _ next => invariant next := by
  induction items generalizing state with
  | nil => exact start
  | cons item rest inductionHypothesis =>
      rw [forEach, ← bind_eq, post_bind]
      refine (round item (by simp) state start).mono ?_
      intro result next kept
      cases result with
      | ok value =>
          exact inductionHypothesis
            (fun later member => round later (by simp [member])) kept
      | error error => exact kept

/-- A loop that succeeds keeps what each of its successful rounds keeps. -/
theorem post_forEach_ok
    {items : List β} {body : β → Prog σ κ ω ε Unit}
    (invariant : σ → Prop)
    (round : ∀ item ∈ items, ∀ current, invariant current →
      (body item).Post current fun result next =>
        result = .ok () → invariant next)
    (start : invariant state) :
    (forEach items body).Post state fun result next =>
      result = .ok () → invariant next := by
  induction items generalizing state with
  | nil => exact fun _ => start
  | cons item rest inductionHypothesis =>
      rw [forEach, ← bind_eq, post_bind]
      refine (round item (by simp) state start).mono ?_
      intro result next kept
      cases result with
      | ok value =>
          exact inductionHypothesis
            (fun later member => round later (by simp [member])) (kept rfl)
      | error error => simp

private theorem post_updateEach {ι : Type}
    {holds : ι → σ → Bool} {row : ι → κ} {stmt : ι → ω}
    (invariant : σ → Prop)
    (round : ∀ key current, holds key current → invariant current →
      invariant (Store.apply (stmt key) current))
    (keys : List ι) (start : invariant state) :
    (updateEach holds row stmt keys : Prog σ κ ω ε Nat).Post state
      fun result next => invariant next ∧ ∃ count, result = .ok count := by
  induction keys generalizing state with
  | nil => exact ⟨start, 0, rfl⟩
  | cons key rest inductionHypothesis =>
      simp only [Post, updateEach, eval]
      by_cases matched : holds key state
      · simp only [matched, if_true, eval]
        rw [← bind_eq, eval_bind]
        have kept := inductionHypothesis (round key state matched start)
        unfold Post at kept
        obtain ⟨inv, count, value⟩ := kept
        rcases outcome : (updateEach holds row stmt rest :
          Prog σ κ ω ε Nat).eval (Store.apply (stmt key) state) with
          ⟨result, next⟩
        simp only [outcome] at inv value
        subst value
        exact ⟨inv, count + 1, rfl⟩
      · simp only [matched]
        exact inductionHypothesis start

/-- A bulk update never fails and keeps what each of its rows keeps. -/
theorem post_updateWhere {ι : Type}
    {keys : σ → List ι} {holds : ι → σ → Bool}
    {row : ι → κ} {stmt : ι → ω}
    (invariant : σ → Prop)
    (round : ∀ key current, holds key current → invariant current →
      invariant (Store.apply (stmt key) current))
    (start : invariant state) :
    (updateWhere keys holds row stmt : Prog σ κ ω ε Nat).Post state
      fun result next => invariant next ∧ ∃ count, result = .ok count :=
  post_updateEach invariant round _ start

private theorem post_updateEach_settled {ι : Type}
    {holds : ι → σ → Bool} {row : ι → κ} {stmt : ι → ω}
    (settles : ∀ key current, holds key current →
      ¬holds key (Store.apply (stmt key) current))
    (others : ∀ key other current,
      holds other (Store.apply (stmt key) current) → holds other current)
    (keys : List ι) (covers : ∀ key, holds key state → key ∈ keys) :
    (updateEach holds row stmt keys : Prog σ κ ω ε Nat).Post state
      fun _ next => ∀ key, ¬holds key next := by
  induction keys generalizing state with
  | nil => exact fun key matched => by simpa using covers key matched
  | cons key rest inductionHypothesis =>
      simp only [Post, updateEach, eval]
      by_cases matched : holds key state
      · simp only [matched, if_true, eval]
        rw [← bind_eq, eval_bind]
        have covered : ∀ other, holds other (Store.apply (stmt key) state) →
            other ∈ rest := by
          intro other after
          rcases List.mem_cons.mp (covers other (others key other state after))
            with rfl | member
          · exact absurd after (settles other state matched)
          · exact member
        have later := inductionHypothesis covered
        unfold Post at later
        rcases outcome : (updateEach holds row stmt rest :
          Prog σ κ ω ε Nat).eval (Store.apply (stmt key) state) with
          ⟨result, next⟩
        rw [outcome] at later
        cases result <;> exact later
      · simp only [matched]
        refine inductionHypothesis fun other after => ?_
        rcases List.mem_cons.mp (covers other after) with rfl | member
        · exact absurd after matched
        · exact member

/-- After a bulk update no row matches any more, if each match settles. -/
theorem post_updateWhere_settled {ι : Type}
    {keys : σ → List ι} {holds : ι → σ → Bool}
    {row : ι → κ} {stmt : ι → ω}
    (covers : ∀ key, holds key state → key ∈ keys state)
    (settles : ∀ key current, holds key current →
      ¬holds key (Store.apply (stmt key) current))
    (others : ∀ key other current,
      holds other (Store.apply (stmt key) current) → holds other current) :
    (updateWhere keys holds row stmt : Prog σ κ ω ε Nat).Post state
      fun _ next => ∀ key, ¬holds key next :=
  post_updateEach_settled settles others _ fun key matched =>
    List.mem_filter.mpr ⟨covers key matched, matched⟩

private theorem eval_lockEach {ι : Type}
    (holds : ι → σ → Bool) (row : ι → κ) (keys : List ι) (state : σ) :
    (lockEach holds row keys : Prog σ κ ω ε (List ι)).eval state =
      (.ok (keys.filter (holds · state)), state) := by
  induction keys with
  | nil => rfl
  | cons key rest inductionHypothesis =>
      simp only [lockEach, eval]
      by_cases matched : holds key state
      · simp only [matched, if_true]
        rw [← bind_eq, eval_bind, inductionHypothesis]
        simp [eval, matched]
      · simp [matched, inductionHypothesis]

/-- Alone, a locking query returns exactly the rows that match. -/
@[simp] theorem post_selectForUpdate {ι : Type}
    {keys : σ → List ι} {holds : ι → σ → Bool} {row : ι → κ}
    {goal : Except ε (List ι) → σ → Prop} :
    (selectForUpdate keys holds row : Prog σ κ ω ε (List ι)).Post state goal ↔
      goal (.ok ((keys state).filter (holds · state))) state := by
  simp [Post, selectForUpdate, eval, eval_lockEach]

end Post

end Prog

end Transaction
