import KnowledgeMarketplace.Transaction.Alone

/-!
# Statements derived from good states

A value that a block copies from one row to another is as good as the state it
was read from.  `Derives` is `Emits` for blocks whose queries only see states
of an invariant; statements that keep the invariant justify it.
-/

namespace Transaction

variable {σ κ ω ε α β : Type} {invariant : σ → Prop} {good : Effect ω → Prop}

/-- Every effect is `good` on every path whose queries see good states. -/
def Prog.Derives
    (invariant : σ → Prop) (good : Effect ω → Prop)
    (goal : Except ε α → Prop) : Prog σ κ ω ε α → Prop
  | .done value => goal (.ok value)
  | .fail error => goal (.error error)
  | .query next =>
      ∀ state, invariant state → (next state).Derives invariant good goal
  | .lock _ next => next.Derives invariant good goal
  | .write stmt next =>
      good (.write stmt) ∧ next.Derives invariant good goal
  | .release _ next => good .savepoint ∧ next.Derives invariant good goal

namespace Prog

@[simp] theorem derives_pure {value : α} {goal : Except ε α → Prop} :
    (pure value : Prog σ κ ω ε α).Derives invariant good goal ↔
      goal (.ok value) :=
  Iff.rfl

@[simp] theorem derives_done {value : α} {goal : Except ε α → Prop} :
    (Prog.done value : Prog σ κ ω ε α).Derives invariant good goal ↔
      goal (.ok value) :=
  Iff.rfl

@[simp] theorem derives_read {get : σ → α} {goal : Except ε α → Prop} :
    (read get : Prog σ κ ω ε α).Derives invariant good goal ↔
      ∀ state, invariant state → goal (.ok (get state)) :=
  Iff.rfl

@[simp] theorem derives_lockRow {row : κ} {goal : Except ε Unit → Prop} :
    (lockRow row : Prog σ κ ω ε Unit).Derives invariant good goal ↔
      goal (.ok ()) :=
  Iff.rfl

@[simp] theorem derives_exec {stmt : ω} {goal : Except ε Unit → Prop} :
    (exec stmt : Prog σ κ ω ε Unit).Derives invariant good goal ↔
      good (.write stmt) ∧ goal (.ok ()) :=
  Iff.rfl

@[simp] theorem derives_throw {error : ε} {goal : Except ε α → Prop} :
    (throw error : Prog σ κ ω ε α).Derives invariant good goal ↔
      goal (.error error) :=
  Iff.rfl

@[simp] theorem derives_require
    {guard : Prop} [Decidable guard] {error : ε}
    {goal : Except ε Unit → Prop} :
    (require guard error : Prog σ κ ω ε Unit).Derives invariant good goal ↔
      (guard → goal (.ok ())) ∧ (¬guard → goal (.error error)) := by
  by_cases holds : guard <;> simp [require, Derives, holds]

@[simp] theorem derives_orFail
    {value : Option α} {error : ε} {goal : Except ε α → Prop} :
    (orFail value error : Prog σ κ ω ε α).Derives invariant good goal ↔
      (∀ found, value = some found → goal (.ok found)) ∧
        (value = none → goal (.error error)) := by
  cases value <;> simp [orFail, Derives]

@[simp] theorem derives_ofExcept
    {value : Except ε α} {goal : Except ε α → Prop} :
    (ofExcept value : Prog σ κ ω ε α).Derives invariant good goal ↔
      (∀ found, value = .ok found → goal (.ok found)) ∧
        ∀ error, value = .error error → goal (.error error) := by
  cases value <;> simp [ofExcept, Derives]

@[simp] theorem derives_orElse
    {value : Option α} {fallback : Prog σ κ ω ε α}
    {goal : Except ε α → Prop} :
    (orElse value fallback).Derives invariant good goal ↔
      (∀ found, value = some found → goal (.ok found)) ∧
        (value = none → fallback.Derives invariant good goal) := by
  cases value <;> simp [orElse]

@[simp] theorem derives_ite
    {condition : Prop} [Decidable condition]
    {first second : Prog σ κ ω ε α} {goal : Except ε α → Prop} :
    (if condition then first else second).Derives invariant good goal ↔
      (condition → first.Derives invariant good goal) ∧
        (¬condition → second.Derives invariant good goal) := by
  by_cases holds : condition <;> simp [holds]

@[simp] theorem derives_bind
    {program : Prog σ κ ω ε α} {rest : α → Prog σ κ ω ε β}
    {goal : Except ε β → Prop} :
    (program >>= rest).Derives invariant good goal ↔
      program.Derives invariant good fun result =>
        match result with
        | .ok value => (rest value).Derives invariant good goal
        | .error error => goal (.error error) := by
  rw [bind_eq]
  induction program with
  | done value => exact Iff.rfl
  | fail error => exact Iff.rfl
  | query next inductionHypothesis =>
      exact forall_congr' fun state => forall_congr' fun _ =>
        inductionHypothesis state
  | lock row next inductionHypothesis => exact inductionHypothesis
  | write stmt next inductionHypothesis =>
      exact and_congr_right fun _ => inductionHypothesis
  | release count next inductionHypothesis =>
      exact and_congr_right fun _ => inductionHypothesis

@[simp] theorem derives_tryCatch
    {body : Prog σ κ ω ε α} {handler : ε → Prog σ κ ω ε α}
    {goal : Except ε α → Prop} :
    (tryCatch body handler).Derives invariant good goal ↔
      body.Derives invariant good fun result =>
        match result with
        | .ok value => goal (.ok value)
        | .error error => (handler error).Derives invariant good goal := by
  induction body with
  | done value => exact Iff.rfl
  | fail error => exact Iff.rfl
  | query next inductionHypothesis =>
      exact forall_congr' fun state => forall_congr' fun _ =>
        inductionHypothesis state
  | lock row next inductionHypothesis => exact inductionHypothesis
  | write stmt next inductionHypothesis =>
      exact and_congr_right fun _ => inductionHypothesis
  | release count next inductionHypothesis =>
      exact and_congr_right fun _ => inductionHypothesis

/-- A weaker goal follows. -/
theorem Derives.mono
    {program : Prog σ κ ω ε α} {goal weaker : Except ε α → Prop}
    (derives : program.Derives invariant good goal)
    (weaken : ∀ result, goal result → weaker result) :
    program.Derives invariant good weaker := by
  induction program with
  | done value => exact weaken _ derives
  | fail error => exact weaken _ derives
  | query next inductionHypothesis =>
      exact fun state holds => inductionHypothesis state (derives state holds)
  | lock row next inductionHypothesis => exact inductionHypothesis derives
  | write stmt next inductionHypothesis =>
      exact ⟨derives.1, inductionHypothesis derives.2⟩
  | release count next inductionHypothesis =>
      exact ⟨derives.1, inductionHypothesis derives.2⟩

/-- What is emitted whatever is read is derived. -/
theorem Emits.derives
    {program : Prog σ κ ω ε α} {goal : Except ε α → Prop}
    (emits : program.Emits good goal) :
    program.Derives invariant good goal := by
  induction program with
  | done value => exact emits
  | fail error => exact emits
  | query next inductionHypothesis =>
      exact fun state _ => inductionHypothesis state (emits state)
  | lock row next inductionHypothesis => exact inductionHypothesis emits
  | write stmt next inductionHypothesis =>
      exact ⟨emits.1, inductionHypothesis emits.2⟩
  | release count next inductionHypothesis =>
      exact ⟨emits.1, inductionHypothesis emits.2⟩

/-- A block that derives something goes before one that needs a result of it. -/
theorem Derives.bind
    {first : Prog σ κ ω ε α} {rest : α → Prog σ κ ω ε β} {result : α → Prop}
    (head : first.Derives invariant good fun outcome =>
      ∀ value, outcome = .ok value → result value)
    (tail : ∀ value, result value →
      (rest value).Derives invariant good fun _ => True) :
    (first >>= rest).Derives invariant good fun _ => True := by
  refine derives_bind.mpr (head.mono fun outcome met => ?_)
  cases outcome with
  | ok value => exact tail value (met value rfl)
  | error error => trivial

/-- Both parts of a sequence derive what they derive, whatever their results. -/
theorem Derives.seq
    {first : Prog σ κ ω ε α} {rest : α → Prog σ κ ω ε β}
    (head : first.Derives invariant good fun _ => True)
    (tail : ∀ value, (rest value).Derives invariant good fun _ => True) :
    (first >>= rest).Derives invariant good fun _ => True :=
  (head.mono fun _ _ _ _ => trivial).bind fun value _ => tail value

/-- A loop derives what its rounds derive. -/
theorem derives_forEach
    {items : List β} {body : β → Prog σ κ ω ε Unit}
    (round : ∀ item ∈ items,
      (body item).Derives invariant good fun _ => True) :
    (forEach items body).Derives invariant good fun _ => True := by
  induction items with
  | nil => trivial
  | cons item rest inductionHypothesis =>
      refine derives_bind.mpr ((round item (by simp)).mono ?_)
      intro outcome _
      cases outcome with
      | ok value =>
          exact inductionHypothesis
            fun other member => round other (by simp [member])
      | error error => trivial

private theorem derives_writeAll
    {stmts : List ω} {next : Prog σ κ ω ε α} {goal : Except ε α → Prop}
    (all : ∀ stmt ∈ stmts, good (.write stmt))
    (rest : next.Derives invariant good goal) :
    (writeAll stmts next).Derives invariant good goal := by
  induction stmts with
  | nil => exact rest
  | cons stmt later inductionHypothesis =>
      exact ⟨all stmt (by simp), inductionHypothesis fun other member =>
        all other (by simp [member])⟩

private theorem derives_lockAll
    {rows : List κ} {next : Prog σ κ ω ε α} {goal : Except ε α → Prop}
    (rest : next.Derives invariant good goal) :
    (lockAll rows next).Derives invariant good goal := by
  induction rows with
  | nil => exact rest
  | cons row later inductionHypothesis => exact inductionHypothesis

/-- A nested block sees its own pending statements, which keep the invariant. -/
theorem derives_attempt [Store σ κ ω]
    {body : Prog σ κ ω ε α} {handler : ε → Prog σ κ ω ε α}
    {goal : Except ε α → Prop}
    (kept : ∀ stmt, good (.write stmt) → ∀ state : σ, invariant state →
      invariant (Store.apply stmt state))
    (nested : good .savepoint)
    (inner : body.Derives invariant good fun result =>
      match result with
      | .ok value => goal (.ok value)
      | .error error => (handler error).Derives invariant good goal) :
    (attempt body handler).Derives invariant good goal := by
  suffices general : ∀ pending taken,
      (∀ stmt ∈ pending, good (.write stmt)) →
      (attemptFrom handler pending taken body).Derives invariant good goal from
    general [] 0 (by simp)
  induction body with
  | done value =>
      exact fun pending taken all => derives_writeAll all inner
  | fail error => exact fun pending taken all => ⟨nested, inner⟩
  | query next inductionHypothesis =>
      intro pending taken all state holds
      have seen : invariant (applyAll pending state) :=
        applyAll_keeps invariant
          (fun stmt member => kept stmt (all stmt member)) holds
      exact inductionHypothesis _ (inner _ seen) pending taken all
  | lock row next inductionHypothesis =>
      exact fun pending taken all => inductionHypothesis inner pending _ all
  | write stmt next inductionHypothesis =>
      intro pending taken all
      refine derives_lockAll (inductionHypothesis inner.2 _ _ ?_)
      intro other member
      rcases List.mem_append.mp member with earlier | last
      · exact all other earlier
      · exact (List.mem_singleton.mp last) ▸ inner.1
  | release count next inductionHypothesis =>
      exact fun pending taken all =>
        ⟨nested, inductionHypothesis inner.2 pending _ all⟩

end Prog

/-- Every effect is `good` on every path whose queries see good states. -/
def Proc.Derives {ρ : Type}
    (invariant : σ → Prop) (good : Effect ω → Prop) (goal : ρ → Prop) :
    Proc σ κ ω ρ → Prop
  | .halt result => goal result
  | .query next =>
      ∀ state, invariant state → (next state).Derives invariant good goal
  | .lock _ next => next.Derives invariant good goal
  | .write stmt next =>
      good (.write stmt) ∧ next.Derives invariant good goal
  | .release _ next => good .savepoint ∧ next.Derives invariant good goal
  | .commit next => next.Derives invariant good goal
  | .rollback next => next.Derives invariant good goal

namespace Request

/-- Every effect is `good` on every path whose queries see good states. -/
def Derives
    (invariant : σ → Prop) (good : Effect ω → Prop)
    (goal : Except ε α → Prop) (request : Request σ κ ω ε α) : Prop :=
  Proc.Derives invariant good goal request

@[simp] theorem derives_pure {value : α} {goal : Except ε α → Prop} :
    (pure value : Request σ κ ω ε α).Derives invariant good goal ↔
      goal (.ok value) :=
  Iff.rfl

@[simp] theorem derives_load {get : σ → α} {goal : Except ε α → Prop} :
    (load get : Request σ κ ω ε α).Derives invariant good goal ↔
      ∀ state, invariant state → goal (.ok (get state)) :=
  Iff.rfl

@[simp] theorem derives_throw {error : ε} {goal : Except ε α → Prop} :
    (throw error : Request σ κ ω ε α).Derives invariant good goal ↔
      goal (.error error) :=
  Iff.rfl

@[simp] theorem derives_require
    {guard : Prop} [Decidable guard] {error : ε}
    {goal : Except ε Unit → Prop} :
    (require guard error : Request σ κ ω ε Unit).Derives
        invariant good goal ↔
      (guard → goal (.ok ())) ∧ (¬guard → goal (.error error)) := by
  by_cases holds : guard <;> simp [require, Derives, Proc.Derives, holds]

@[simp] theorem derives_orFail
    {value : Option α} {error : ε} {goal : Except ε α → Prop} :
    (orFail value error : Request σ κ ω ε α).Derives invariant good goal ↔
      (∀ found, value = some found → goal (.ok found)) ∧
        (value = none → goal (.error error)) := by
  cases value <;> simp [orFail, Derives, Proc.Derives]

@[simp] theorem derives_ofExcept
    {value : Except ε α} {goal : Except ε α → Prop} :
    (ofExcept value : Request σ κ ω ε α).Derives invariant good goal ↔
      (∀ found, value = .ok found → goal (.ok found)) ∧
        ∀ error, value = .error error → goal (.error error) := by
  cases value <;> simp [ofExcept, Derives, Proc.Derives]

@[simp] theorem derives_ite
    {condition : Prop} [Decidable condition]
    {first second : Request σ κ ω ε α} {goal : Except ε α → Prop} :
    (if condition then first else second).Derives invariant good goal ↔
      (condition → first.Derives invariant good goal) ∧
        (¬condition → second.Derives invariant good goal) := by
  by_cases holds : condition <;> simp [holds]

@[simp] theorem derives_atomic
    {body : Prog σ κ ω ε α} {goal : Except ε α → Prop} :
    (atomic body).Derives invariant good goal ↔
      body.Derives invariant good goal := by
  unfold Derives atomic
  induction body with
  | done value => exact Iff.rfl
  | fail error => exact Iff.rfl
  | query next inductionHypothesis =>
      exact forall_congr' fun state => forall_congr' fun _ =>
        inductionHypothesis state
  | lock row next inductionHypothesis => exact inductionHypothesis
  | write stmt next inductionHypothesis =>
      exact and_congr_right fun _ => inductionHypothesis
  | release count next inductionHypothesis =>
      exact and_congr_right fun _ => inductionHypothesis

private theorem derives_procBind {ρ τ : Type}
    {first : Proc σ κ ω ρ} {rest : ρ → Proc σ κ ω τ} {goal : τ → Prop} :
    (first.bind rest).Derives invariant good goal ↔
      first.Derives invariant good fun result =>
        (rest result).Derives invariant good goal := by
  induction first with
  | halt result => exact Iff.rfl
  | query next inductionHypothesis =>
      exact forall_congr' fun state => forall_congr' fun _ =>
        inductionHypothesis state
  | lock row next inductionHypothesis => exact inductionHypothesis
  | write stmt next inductionHypothesis =>
      exact and_congr_right fun _ => inductionHypothesis
  | release count next inductionHypothesis =>
      exact and_congr_right fun _ => inductionHypothesis
  | commit next inductionHypothesis => exact inductionHypothesis
  | rollback next inductionHypothesis => exact inductionHypothesis

/-- A weaker goal follows. -/
theorem Derives.mono
    {request : Request σ κ ω ε α} {goal weaker : Except ε α → Prop}
    (derives : request.Derives invariant good goal)
    (weaken : ∀ result, goal result → weaker result) :
    request.Derives invariant good weaker := by
  unfold Derives at derives ⊢
  unfold Request at request
  induction request with
  | halt result => exact weaken _ derives
  | query next inductionHypothesis =>
      exact fun state holds => inductionHypothesis state (derives state holds)
  | lock row next inductionHypothesis => exact inductionHypothesis derives
  | write stmt next inductionHypothesis =>
      exact ⟨derives.1, inductionHypothesis derives.2⟩
  | release count next inductionHypothesis =>
      exact ⟨derives.1, inductionHypothesis derives.2⟩
  | commit next inductionHypothesis => exact inductionHypothesis derives
  | rollback next inductionHypothesis => exact inductionHypothesis derives

@[simp] theorem derives_bind
    {first : Request σ κ ω ε α} {rest : α → Request σ κ ω ε β}
    {goal : Except ε β → Prop} :
    (first >>= rest).Derives invariant good goal ↔
      first.Derives invariant good fun result =>
        match result with
        | .ok value => (rest value).Derives invariant good goal
        | .error error => goal (.error error) := by
  refine derives_procBind.trans ?_
  constructor <;> refine fun holds => Derives.mono holds ?_ <;>
    intro result reached <;> cases result <;> exact reached

@[simp] theorem derives_tryCatch
    {body : Request σ κ ω ε α} {handler : ε → Request σ κ ω ε α}
    {goal : Except ε α → Prop} :
    (tryCatch body handler).Derives invariant good goal ↔
      body.Derives invariant good fun result =>
        match result with
        | .ok value => goal (.ok value)
        | .error error => (handler error).Derives invariant good goal := by
  refine derives_procBind.trans ?_
  constructor <;> refine fun holds => Derives.mono holds ?_ <;>
    intro result reached <;> cases result <;> exact reached

/-- A request that derives something goes before one that needs its result. -/
theorem Derives.bind
    {first : Request σ κ ω ε α} {rest : α → Request σ κ ω ε β}
    {result : α → Prop}
    (head : first.Derives invariant good fun outcome =>
      ∀ value, outcome = .ok value → result value)
    (tail : ∀ value, result value →
      (rest value).Derives invariant good fun _ => True) :
    (first >>= rest).Derives invariant good fun _ => True := by
  refine derives_bind.mpr (head.mono fun outcome met => ?_)
  cases outcome with
  | ok value => exact tail value (met value rfl)
  | error error => trivial

/-- Both parts of a sequence derive what they derive, whatever their results. -/
theorem Derives.seq
    {first : Request σ κ ω ε α} {rest : α → Request σ κ ω ε β}
    (head : first.Derives invariant good fun _ => True)
    (tail : ∀ value, (rest value).Derives invariant good fun _ => True) :
    (first >>= rest).Derives invariant good fun _ => True :=
  (head.mono fun _ _ _ _ => trivial).bind fun value _ => tail value

/-- A loop derives what its rounds derive. -/
theorem derives_forEach
    {items : List β} {body : β → Request σ κ ω ε Unit}
    (round : ∀ item ∈ items,
      (body item).Derives invariant good fun _ => True) :
    (forEach items body).Derives invariant good fun _ => True := by
  induction items with
  | nil => trivial
  | cons item rest inductionHypothesis =>
      refine derives_bind.mpr ((round item (by simp)).mono ?_)
      intro outcome _
      cases outcome with
      | ok value =>
          exact inductionHypothesis
            fun other member => round other (by simp [member])
      | error error => trivial

/-- What is emitted whatever is read is derived. -/
theorem Emits.derives
    {request : Request σ κ ω ε α} {goal : Except ε α → Prop}
    (emits : request.Emits good goal) :
    request.Derives invariant good goal := by
  unfold Derives
  unfold Emits at emits
  unfold Request at request
  induction request with
  | halt result => exact emits
  | query next inductionHypothesis =>
      exact fun state _ => inductionHypothesis state (emits state)
  | lock row next inductionHypothesis => exact inductionHypothesis emits
  | write stmt next inductionHypothesis =>
      exact ⟨emits.1, inductionHypothesis emits.2⟩
  | release count next inductionHypothesis =>
      exact ⟨emits.1, inductionHypothesis emits.2⟩
  | commit next inductionHypothesis => exact inductionHypothesis emits
  | rollback next inductionHypothesis => exact inductionHypothesis emits

end Request

section Soundness

variable [Store σ κ ω]

/-- The protocol that only asks for an invariant. -/
def Protocol.keeping (invariant : σ → Prop) : Protocol σ κ ω where
  Inv := invariant
  Same _ _ _ := True
  Condition _ _ := True
  same_refl _ _ := trivial
  same_trans _ _ _ _ _ _ := trivial

/-- Derived statements that keep the invariant are safe to commit. -/
theorem Request.Derives.safe
    {request : Request σ κ ω ε α} {goal : Except ε α → Prop}
    (derives : request.Derives invariant good goal)
    (kept : ∀ stmt, good (.write stmt) → ∀ state : σ, invariant state →
      invariant (Store.apply stmt state)) :
    request.Safe (.keeping invariant) fun stmts state =>
      invariant (applyAll stmts state) := by
  have after : ∀ stmts : List ω, (∀ stmt ∈ stmts, good (.write stmt)) →
      ∀ state, invariant state → invariant (applyAll stmts state) :=
    fun stmts all state => applyAll_keeps invariant
      fun stmt member => kept stmt (all stmt member)
  suffices general : ∀ ctx : Ctx σ κ ω,
      (∀ stmt ∈ ctx.writes, good (.write stmt)) →
      Proc.wp (.keeping invariant)
        (fun stmts state => invariant (applyAll stmts state)) request ctx
        fun _ _ => True from
    general .start (by simp)
  unfold Request.Derives at derives
  unfold Request at request
  induction request with
  | halt result => exact fun ctx all => trivial
  | query next inductionHypothesis =>
      intro ctx all state holds known
      exact inductionHypothesis _ (derives _ (after _ all state holds)) _ all
  | lock row next inductionHypothesis =>
      exact fun ctx all => inductionHypothesis derives _ all
  | write stmt next inductionHypothesis =>
      intro ctx all
      refine inductionHypothesis derives.2 _ ?_
      intro other member
      rcases List.mem_append.mp member with earlier | last
      · exact all other earlier
      · exact (List.mem_singleton.mp last) ▸ derives.1
  | release count next inductionHypothesis =>
      exact fun ctx all held => inductionHypothesis derives.2 _ all
  | commit next inductionHypothesis =>
      refine fun ctx all => ⟨fun state holds known condition rows => ?_,
        inductionHypothesis derives .start (by simp)⟩
      have next := after _ all state holds
      exact ⟨next, next, fun _ _ => trivial⟩
  | rollback next inductionHypothesis =>
      exact fun ctx all => inductionHypothesis derives .start (by simp)

/-- What derived statements keep, the lone request keeps. -/
theorem Request.Derives.keeps
    {request : Request σ κ ω ε α} {goal : Except ε α → Prop}
    (derives : request.Derives invariant good goal)
    (kept : ∀ stmt, good (.write stmt) → ∀ state : σ, invariant state →
      invariant (Store.apply stmt state))
    {state : σ} (start : invariant state) :
    invariant (request.run state).2 := by
  have after : ∀ stmts : List ω, (∀ stmt ∈ stmts, good (.write stmt)) →
      ∀ state, invariant state → invariant (applyAll stmts state) :=
    fun stmts all state => applyAll_keeps invariant
      fun stmt member => kept stmt (all stmt member)
  suffices general : ∀ pending : List ω, invariant state →
      (∀ stmt ∈ pending, good (.write stmt)) →
      invariant (Proc.solo request state pending).2.1 from
    general [] start (by simp)
  clear start
  unfold Request.Derives at derives
  unfold Request at request
  induction request generalizing state with
  | halt result => exact fun _ holds _ => holds
  | query next inductionHypothesis =>
      intro pending holds all
      exact inductionHypothesis _ (derives _ (after _ all state holds)) pending
        holds all
  | lock row next inductionHypothesis => exact inductionHypothesis derives
  | write stmt next inductionHypothesis =>
      intro pending holds all
      refine inductionHypothesis derives.2 (pending ++ [stmt]) holds ?_
      intro other member
      rcases List.mem_append.mp member with earlier | last
      · exact all other earlier
      · exact (List.mem_singleton.mp last) ▸ derives.1
  | release count next inductionHypothesis =>
      exact inductionHypothesis derives.2
  | commit next inductionHypothesis =>
      intro pending holds all
      exact inductionHypothesis derives [] (after _ all state holds) (by simp)
  | rollback next inductionHypothesis =>
      exact fun _ holds _ => inductionHypothesis derives [] holds (by simp)

/-- Requests that derive only such statements keep the invariant together. -/
theorem System.Reach.keeps_of_derives [DecidableEq κ]
    {condition : List ω → σ → Prop} {state : σ}
    {requests : Nat → Request σ κ ω ε α}
    {system : System σ κ ω (Except ε α)}
    (reach : System.Reach condition (System.init state requests) system)
    (kept : ∀ stmt, good (.write stmt) → ∀ state : σ, invariant state →
      invariant (Store.apply stmt state))
    (derives : ∀ client,
      (requests client).Derives invariant good fun _ => True)
    (start : invariant state) : invariant system.committed := by
  have sound : (System.init state requests).Sound
      (.keeping invariant) fun _ stmts state =>
        invariant (applyAll stmts state) :=
    System.sound_init start fun client => (derives client).safe kept
  exact (reach.lasts sound (fun _ _ _ => trivial)
    (fun _ _ _ _ next _ => next) start).2

end Soundness

end Transaction
