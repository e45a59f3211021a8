import KnowledgeMarketplace.Transaction.Program

/-!
# Requests

A request of a client reads rows outside any transaction and runs blocks of
statements, each in a transaction of its own.  `Proc` is the tree of all its
steps; `Request` is the form the services use, where an error of one block
ends the request unless it is caught.
-/

namespace Transaction

/-- Every step of one client, transactions and commits included. -/
inductive Proc (σ κ ω ρ : Type) : Type where
  | halt (result : ρ)
  | query (next : σ → Proc σ κ ω ρ)
  | lock (row : κ) (next : Proc σ κ ω ρ)
  | write (stmt : ω) (next : Proc σ κ ω ρ)
  | release (count : Nat) (next : Proc σ κ ω ρ)
  | commit (next : Proc σ κ ω ρ)
  | rollback (next : Proc σ κ ω ρ)

namespace Proc

variable {σ κ ω ρ τ : Type}

/-- Go on with the result of a finished part. -/
def bind : Proc σ κ ω ρ → (ρ → Proc σ κ ω τ) → Proc σ κ ω τ
  | .halt result, rest => rest result
  | .query next, rest => .query fun state => (next state).bind rest
  | .lock row next, rest => .lock row (next.bind rest)
  | .write stmt next, rest => .write stmt (next.bind rest)
  | .release count next, rest => .release count (next.bind rest)
  | .commit next, rest => .commit (next.bind rest)
  | .rollback next, rest => .rollback (next.bind rest)

/--
Run a client alone.  The arguments are the committed state and the statements
its open transaction has pending.
-/
def solo [Store σ κ ω] : Proc σ κ ω ρ → σ → List ω → ρ × σ × List ω
  | .halt result, committed, pending => (result, committed, pending)
  | .query next, committed, pending =>
      (next (applyAll pending committed)).solo committed pending
  | .lock _ next, committed, pending => next.solo committed pending
  | .write stmt next, committed, pending =>
      next.solo committed (pending ++ [stmt])
  | .release _ next, committed, pending => next.solo committed pending
  | .commit next, committed, pending =>
      next.solo (applyAll pending committed) []
  | .rollback next, committed, _ => next.solo committed []

example [Store σ κ ω] (stmt : ω) (result : ρ) (committed : σ) :
    (Proc.write stmt (.commit (.halt result)) : Proc σ κ ω ρ).solo
      committed [] = (result, Store.apply stmt committed, []) := by
  simp only [solo]
  rfl

/-- Alone, a sequence runs its first part and goes on where that stopped. -/
theorem solo_bind [Store σ κ ω]
    (first : Proc σ κ ω ρ) (rest : ρ → Proc σ κ ω τ)
    (committed : σ) (pending : List ω) :
    (first.bind rest).solo committed pending =
      let stopped := first.solo committed pending
      (rest stopped.1).solo stopped.2.1 stopped.2.2 := by
  induction first generalizing committed pending with
  | halt result => rfl
  | query next inductionHypothesis =>
      exact inductionHypothesis _ committed pending
  | lock row next inductionHypothesis =>
      exact inductionHypothesis committed pending
  | write stmt next inductionHypothesis =>
      exact inductionHypothesis committed (pending ++ [stmt])
  | release count next inductionHypothesis =>
      exact inductionHypothesis committed pending
  | commit next inductionHypothesis =>
      exact inductionHypothesis (applyAll pending committed) []
  | rollback next inductionHypothesis =>
      exact inductionHypothesis committed []

end Proc

/-- A transaction's block as steps of a client: it commits or rolls back. -/
def Prog.toProc {σ κ ω ε α : Type} :
    Prog σ κ ω ε α → Proc σ κ ω (Except ε α)
  | .done value => .commit (.halt (.ok value))
  | .fail error => .rollback (.halt (.error error))
  | .query next => .query fun state => (next state).toProc
  | .lock row next => .lock row next.toProc
  | .write stmt next => .write stmt next.toProc
  | .release count next => .release count next.toProc

/-- A client's request, which ends with a value or an error. -/
def Request (σ κ ω ε α : Type) : Type :=
  Proc σ κ ω (Except ε α)

namespace Request

variable {σ κ ω ε α β : Type}

/-- Go on with the value of the first part, or pass its error on. -/
def bind
    (first : Request σ κ ω ε α)
    (rest : α → Request σ κ ω ε β) : Request σ κ ω ε β :=
  Proc.bind first fun
    | .ok value => rest value
    | .error error => .halt (.error error)

instance : Monad (Request σ κ ω ε) where
  pure value := .halt (.ok value)
  bind := bind

/-- Read committed rows outside a transaction. -/
def load (get : σ → α) : Request σ κ ω ε α :=
  .query fun state => .halt (.ok (get state))

/-- Run a block in a transaction of its own. -/
def atomic (body : Prog σ κ ω ε α) : Request σ κ ω ε α :=
  body.toProc

/-- End the request with an error. -/
def throw (error : ε) : Request σ κ ω ε α :=
  .halt (.error error)

/-- Go on only if a guard holds. -/
def require
    (guard : Prop) [Decidable guard] (error : ε) : Request σ κ ω ε Unit :=
  if guard then .halt (.ok ()) else .halt (.error error)

/-- Take the value of an option, or raise. -/
def orFail (value : Option α) (error : ε) : Request σ κ ω ε α :=
  match value with
  | some found => .halt (.ok found)
  | none => .halt (.error error)

/-- Take the value of a computation, or raise its error. -/
def ofExcept (value : Except ε α) : Request σ κ ω ε α :=
  .halt value

/-- Handle an error of a part that is not inside a transaction. -/
def tryCatch
    (body : Request σ κ ω ε α)
    (handler : ε → Request σ κ ω ε α) : Request σ κ ω ε α :=
  Proc.bind body fun
    | .ok value => .halt (.ok value)
    | .error error => handler error

/-- Run a part for every element of a list, in order. -/
def forEach
    (items : List β)
    (body : β → Request σ κ ω ε Unit) : Request σ κ ω ε Unit :=
  match items with
  | [] => .halt (.ok ())
  | item :: rest => (body item).bind fun _ => forEach rest body

/-- Run a request alone from a committed state. -/
def run [Store σ κ ω]
    (request : Request σ κ ω ε α) (state : σ) : Except ε α × σ :=
  let stopped := Proc.solo request state []
  (stopped.1, stopped.2.1)

section Run

variable [Store σ κ ω]

private theorem solo_toProc
    (body : Prog σ κ ω ε α) (committed : σ) (pending : List ω) :
    body.toProc.solo committed pending =
      match body.eval (applyAll pending committed) with
      | (.ok value, next) => (.ok value, next, [])
      | (.error error, _) => (.error error, committed, []) := by
  induction body generalizing pending with
  | done value => rfl
  | fail error => rfl
  | query next inductionHypothesis =>
      exact inductionHypothesis _ pending
  | lock row next inductionHypothesis =>
      exact inductionHypothesis pending
  | write stmt next inductionHypothesis =>
      simpa [Prog.toProc, Proc.solo, Prog.eval] using
        inductionHypothesis (pending ++ [stmt])
  | release count next inductionHypothesis =>
      exact inductionHypothesis pending

/-- Alone, a block commits its whole effect or leaves the state unchanged. -/
theorem run_atomic
    (body : Prog σ κ ω ε α) (state : σ) :
    (atomic body).run state =
      match body.eval state with
      | (.ok value, next) => (.ok value, next)
      | (.error error, _) => (.error error, state) := by
  simp only [run, atomic, solo_toProc, applyAll_nil]
  rcases body.eval state with ⟨result, next⟩
  cases result <;> rfl

end Run

/-!
## What a lone request leaves

`Leaves` states a property of the end of a lone request.  The statements still
pending at that point are part of it, so that its rules compose; between two
transactions there are none.
-/

/-- Where the request, run alone, ends: its result and what it leaves. -/
def Leaves [Store σ κ ω]
    (request : Request σ κ ω ε α) (state : σ) (pending : List ω)
    (goal : Except ε α → σ → List ω → Prop) : Prop :=
  let stopped := Proc.solo request state pending
  goal stopped.1 stopped.2.1 stopped.2.2

section Leaves

variable [Store σ κ ω] {state : σ} {pending : List ω}

/-- `Leaves` speaks about `run`. -/
theorem leaves_iff_run
    {request : Request σ κ ω ε α} {goal : Except ε α → σ → Prop} :
    (request.Leaves state [] fun result next _ => goal result next) ↔
      goal (request.run state).1 (request.run state).2 :=
  Iff.rfl

@[simp] theorem leaves_pure
    {value : α} {goal : Except ε α → σ → List ω → Prop} :
    (pure value : Request σ κ ω ε α).Leaves state pending goal ↔
      goal (.ok value) state pending :=
  Iff.rfl

@[simp] theorem leaves_throw
    {error : ε} {goal : Except ε α → σ → List ω → Prop} :
    (throw error : Request σ κ ω ε α).Leaves state pending goal ↔
      goal (.error error) state pending :=
  Iff.rfl

@[simp] theorem leaves_load
    {get : σ → α} {goal : Except ε α → σ → List ω → Prop} :
    (load get : Request σ κ ω ε α).Leaves state pending goal ↔
      goal (.ok (get (applyAll pending state))) state pending :=
  Iff.rfl

@[simp] theorem leaves_require
    {guard : Prop} [Decidable guard] {error : ε}
    {goal : Except ε Unit → σ → List ω → Prop} :
    (require guard error : Request σ κ ω ε Unit).Leaves state pending goal ↔
      (guard → goal (.ok ()) state pending) ∧
        (¬guard → goal (.error error) state pending) := by
  by_cases holds : guard <;> simp [Leaves, require, Proc.solo, holds]

@[simp] theorem leaves_ofExcept
    {value : Except ε α} {goal : Except ε α → σ → List ω → Prop} :
    (ofExcept value : Request σ κ ω ε α).Leaves state pending goal ↔
      (∀ found, value = .ok found → goal (.ok found) state pending) ∧
        ∀ error, value = .error error →
          goal (.error error) state pending := by
  cases value <;> simp [Leaves, ofExcept, Proc.solo]

@[simp] theorem leaves_orFail
    {value : Option α} {error : ε}
    {goal : Except ε α → σ → List ω → Prop} :
    (orFail value error : Request σ κ ω ε α).Leaves state pending goal ↔
      (∀ found, value = some found → goal (.ok found) state pending) ∧
        (value = none → goal (.error error) state pending) := by
  cases value <;> simp [Leaves, orFail, Proc.solo]

@[simp] theorem leaves_ite
    {condition : Prop} [Decidable condition]
    {first second : Request σ κ ω ε α}
    {goal : Except ε α → σ → List ω → Prop} :
    (if condition then first else second).Leaves state pending goal ↔
      (condition → first.Leaves state pending goal) ∧
        (¬condition → second.Leaves state pending goal) := by
  by_cases holds : condition <;> simp [holds]

/-- A block either commits what `Post` says or changes nothing. -/
@[simp] theorem leaves_atomic
    {body : Prog σ κ ω ε α} {goal : Except ε α → σ → List ω → Prop} :
    (atomic body).Leaves state pending goal ↔
      body.Post (applyAll pending state) fun result next =>
        match result with
        | .ok value => goal (.ok value) next []
        | .error error => goal (.error error) state [] := by
  simp only [Leaves, atomic, solo_toProc, Prog.Post]
  rcases body.eval (applyAll pending state) with ⟨result, next⟩
  cases result <;> exact Iff.rfl

/-- The rest of a request starts from what its first part leaves. -/
@[simp] theorem leaves_bind
    {first : Request σ κ ω ε α} {rest : α → Request σ κ ω ε β}
    {goal : Except ε β → σ → List ω → Prop} :
    (first >>= rest).Leaves state pending goal ↔
      first.Leaves state pending fun result next later =>
        match result with
        | .ok value => (rest value).Leaves next later goal
        | .error error => goal (.error error) next later := by
  have whole := Proc.solo_bind first
    (fun result : Except ε α =>
      match result with
      | .ok value => rest value
      | .error error => .halt (.error error)) state pending
  change (let ended := (Proc.bind first _).solo state pending
    goal ended.1 ended.2.1 ended.2.2) ↔ _
  rw [whole]
  unfold Leaves
  rcases Proc.solo first state pending with ⟨result, next, later⟩
  cases result <;> exact Iff.rfl

/-- A handler starts from what the failed part leaves. -/
@[simp] theorem leaves_tryCatch
    {body : Request σ κ ω ε α} {handler : ε → Request σ κ ω ε α}
    {goal : Except ε α → σ → List ω → Prop} :
    (tryCatch body handler).Leaves state pending goal ↔
      body.Leaves state pending fun result next later =>
        match result with
        | .ok value => goal (.ok value) next later
        | .error error => (handler error).Leaves next later goal := by
  have whole := Proc.solo_bind body
    (fun result : Except ε α =>
      match result with
      | .ok value => .halt (.ok value)
      | .error error => handler error) state pending
  change (let ended := (Proc.bind body _).solo state pending
    goal ended.1 ended.2.1 ended.2.2) ↔ _
  rw [whole]
  unfold Leaves
  rcases Proc.solo body state pending with ⟨result, next, later⟩
  cases result <;> exact Iff.rfl

/-- A weaker goal follows. -/
theorem Leaves.mono
    {request : Request σ κ ω ε α}
    {goal weaker : Except ε α → σ → List ω → Prop}
    (leaves : request.Leaves state pending goal)
    (weaken : ∀ result next later,
      goal result next later → weaker result next later) :
    request.Leaves state pending weaker :=
  weaken _ _ _ leaves

/-- A loop keeps what each of its rounds keeps. -/
theorem leaves_forEach
    {items : List β} {body : β → Request σ κ ω ε Unit}
    (invariant : σ → Prop)
    (round : ∀ item ∈ items, ∀ current, invariant current →
      (body item).Leaves current [] fun _ next later =>
        invariant next ∧ later = [])
    (start : invariant state) :
    (forEach items body).Leaves state [] fun _ next later =>
      invariant next ∧ later = [] := by
  induction items generalizing state with
  | nil => exact ⟨start, rfl⟩
  | cons item rest inductionHypothesis =>
      refine leaves_bind.mpr ((round item (by simp) state start).mono ?_)
      rintro result next later ⟨kept, rfl⟩
      cases result with
      | ok value =>
          exact inductionHypothesis
            (fun other member => round other (by simp [member])) kept
      | error error => exact ⟨kept, rfl⟩

/-- A loop whose invariant speaks about the items that remain. -/
theorem leaves_forEach_rest
    {items : List β} {body : β → Request σ κ ω ε Unit}
    (invariant : List β → σ → Prop)
    (round : ∀ item rest current, invariant (item :: rest) current →
      (body item).Leaves current [] fun result next later =>
        result = .ok () ∧ invariant rest next ∧ later = [])
    (start : invariant items state) :
    (forEach items body).Leaves state [] fun result next later =>
      result = .ok () ∧ invariant [] next ∧ later = [] := by
  induction items generalizing state with
  | nil => exact ⟨rfl, start, rfl⟩
  | cons item rest inductionHypothesis =>
      refine leaves_bind.mpr ((round item rest state start).mono ?_)
      rintro result next later ⟨rfl, kept, rfl⟩
      exact inductionHypothesis kept

end Leaves

end Request

end Transaction
