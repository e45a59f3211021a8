import KnowledgeMarketplace.Transaction.Rely

/-!
# Proof rules for services

The combinators that services are written with have one rule each, so that a
proof about a service never unfolds the tree below it.  The rules of `Prog.wp`
speak about a block inside a transaction and those of `Request.wp` about a
whole request.  `Emits` is the case where the statements alone decide, on
whichever path they are written.
-/

namespace Transaction

section ProgRules

variable {σ κ ω ε α β : Type} [Store σ κ ω]
  {protocol : Protocol σ κ ω} {ctx : Ctx σ κ ω}

namespace Prog

@[simp] theorem wp_pure
    {value : α} {goal : Except ε α → Ctx σ κ ω → Prop} :
    (pure value : Prog σ κ ω ε α).wp protocol ctx goal ↔
      goal (.ok value) ctx :=
  Iff.rfl

@[simp] theorem wp_done
    {value : α} {goal : Except ε α → Ctx σ κ ω → Prop} :
    (Prog.done value : Prog σ κ ω ε α).wp protocol ctx goal ↔
      goal (.ok value) ctx :=
  Iff.rfl

@[simp] theorem wp_read
    {get : σ → α} {goal : Except ε α → Ctx σ κ ω → Prop} :
    (read get : Prog σ κ ω ε α).wp protocol ctx goal ↔
      ∀ state, protocol.Inv state → ctx.known state →
        goal (.ok (get (applyAll ctx.writes state)))
          (ctx.observe protocol state) :=
  Iff.rfl

@[simp] theorem wp_lockRow
    {row : κ} {goal : Except ε Unit → Ctx σ κ ω → Prop} :
    (lockRow row : Prog σ κ ω ε Unit).wp protocol ctx goal ↔
      goal (.ok ()) (ctx.take row) :=
  Iff.rfl

@[simp] theorem wp_exec
    {stmt : ω} {goal : Except ε Unit → Ctx σ κ ω → Prop} :
    (exec stmt : Prog σ κ ω ε Unit).wp protocol ctx goal ↔
      goal (.ok ()) (ctx.push stmt) :=
  Iff.rfl

@[simp] theorem wp_throw
    {error : ε} {goal : Except ε α → Ctx σ κ ω → Prop} :
    (throw error : Prog σ κ ω ε α).wp protocol ctx goal ↔
      goal (.error error) ctx :=
  Iff.rfl

@[simp] theorem wp_require
    {guard : Prop} [Decidable guard] {error : ε}
    {goal : Except ε Unit → Ctx σ κ ω → Prop} :
    (require guard error : Prog σ κ ω ε Unit).wp protocol ctx goal ↔
      (guard → goal (.ok ()) ctx) ∧ (¬guard → goal (.error error) ctx) := by
  by_cases holds : guard <;> simp [require, wp, holds]

@[simp] theorem wp_orFail
    {value : Option α} {error : ε}
    {goal : Except ε α → Ctx σ κ ω → Prop} :
    (orFail value error : Prog σ κ ω ε α).wp protocol ctx goal ↔
      (∀ found, value = some found → goal (.ok found) ctx) ∧
        (value = none → goal (.error error) ctx) := by
  cases value <;> simp [orFail, wp]

@[simp] theorem wp_ofExcept
    {value : Except ε α} {goal : Except ε α → Ctx σ κ ω → Prop} :
    (ofExcept value : Prog σ κ ω ε α).wp protocol ctx goal ↔
      (∀ found, value = .ok found → goal (.ok found) ctx) ∧
        ∀ error, value = .error error → goal (.error error) ctx := by
  cases value <;> simp [ofExcept, wp]

@[simp] theorem wp_orElse
    {value : Option α} {fallback : Prog σ κ ω ε α}
    {goal : Except ε α → Ctx σ κ ω → Prop} :
    (orElse value fallback).wp protocol ctx goal ↔
      (∀ found, value = some found → goal (.ok found) ctx) ∧
        (value = none → fallback.wp protocol ctx goal) := by
  cases value <;> simp [orElse]

@[simp] theorem wp_ite
    {condition : Prop} [Decidable condition]
    {first second : Prog σ κ ω ε α}
    {goal : Except ε α → Ctx σ κ ω → Prop} :
    (if condition then first else second).wp protocol ctx goal ↔
      (condition → first.wp protocol ctx goal) ∧
        (¬condition → second.wp protocol ctx goal) := by
  by_cases holds : condition <;> simp [holds]

@[simp] theorem wp_bind
    {program : Prog σ κ ω ε α} {rest : α → Prog σ κ ω ε β}
    {goal : Except ε β → Ctx σ κ ω → Prop} :
    (program >>= rest).wp protocol ctx goal ↔
      program.wp protocol ctx fun result later =>
        match result with
        | .ok value => (rest value).wp protocol later goal
        | .error error => goal (.error error) later := by
  rw [bind_eq]
  induction program generalizing ctx with
  | done value => exact Iff.rfl
  | fail error => exact Iff.rfl
  | query next inductionHypothesis =>
      exact forall_congr' fun state => forall_congr' fun _ =>
        forall_congr' fun _ => inductionHypothesis _
  | lock row next inductionHypothesis => exact inductionHypothesis
  | write stmt next inductionHypothesis => exact inductionHypothesis
  | release count next inductionHypothesis =>
      exact forall_congr' fun held => inductionHypothesis

/-- A loop keeps what each of its rounds keeps. -/
theorem wp_forEach
    {items : List β} {body : β → Prog σ κ ω ε Unit}
    {goal : Except ε Unit → Ctx σ κ ω → Prop}
    (invariant : Ctx σ κ ω → Prop)
    (start : invariant ctx)
    (round : ∀ item ∈ items, ∀ current, invariant current →
      (body item).wp protocol current fun result later =>
        match result with
        | .ok _ => invariant later
        | .error error => goal (.error error) later)
    (finish : ∀ later, invariant later → goal (.ok ()) later) :
    (forEach items body).wp protocol ctx goal := by
  induction items generalizing ctx with
  | nil => exact finish _ start
  | cons item rest inductionHypothesis =>
      rw [forEach, ← bind_eq, wp_bind]
      refine wp_mono (round item (by simp) ctx start) ?_
      intro result later kept
      cases result with
      | ok value =>
          exact inductionHypothesis kept
            fun other member => round other (by simp [member])
      | error error => exact kept

@[simp] theorem wp_tryCatch
    {body : Prog σ κ ω ε α} {handler : ε → Prog σ κ ω ε α}
    {goal : Except ε α → Ctx σ κ ω → Prop} :
    (tryCatch body handler).wp protocol ctx goal ↔
      body.wp protocol ctx fun result later =>
        match result with
        | .ok value => goal (.ok value) later
        | .error error => (handler error).wp protocol later goal := by
  induction body generalizing ctx with
  | done value => exact Iff.rfl
  | fail error => exact Iff.rfl
  | query next inductionHypothesis =>
      exact forall_congr' fun state => forall_congr' fun _ =>
        forall_congr' fun _ => inductionHypothesis _
  | lock row next inductionHypothesis => exact inductionHypothesis
  | write stmt next inductionHypothesis => exact inductionHypothesis
  | release count next inductionHypothesis =>
      exact forall_congr' fun held => inductionHypothesis

private theorem wp_updateEach {ι : Type}
    {holds : ι → σ → Bool} {row : ι → κ} {stmt : ι → ω}
    {goal : Except ε Nat → Ctx σ κ ω → Prop}
    (invariant : Ctx σ κ ω → Prop)
    (skip : ∀ key current state, invariant current →
      protocol.Inv state → current.known state →
      invariant ((current.take (row key)).observe protocol state))
    (round : ∀ key current state, invariant current →
      protocol.Inv state → current.known state →
      holds key (applyAll current.writes state) →
      invariant
        (((current.take (row key)).observe protocol state).push (stmt key)))
    (finish : ∀ count later, invariant later → goal (.ok count) later)
    (keys : List ι) (start : invariant ctx) :
    (updateEach holds row stmt keys : Prog σ κ ω ε Nat).wp
      protocol ctx goal := by
  suffices general : ∀ (found : Prog σ κ ω ε Nat) (current : Ctx σ κ ω),
      found = updateEach holds row stmt keys → invariant current →
      found.wp protocol current fun result later =>
        ∃ count, result = .ok count ∧ invariant later by
    refine wp_mono (general _ ctx rfl start) ?_
    rintro result later ⟨count, rfl, kept⟩
    exact finish count later kept
  rintro found current rfl kept
  induction keys generalizing current with
  | nil => exact ⟨0, rfl, kept⟩
  | cons key rest inductionHypothesis =>
      intro state inv known
      by_cases matched : holds key (applyAll (current.take (row key)).writes state)
      · simp only [matched, if_true, wp]
        rw [← bind_eq, wp_bind]
        refine wp_mono (inductionHypothesis _
          (round key current state kept inv known matched)) ?_
        rintro result later ⟨count, rfl, still⟩
        exact ⟨count + 1, rfl, still⟩
      · simp only [matched]
        exact inductionHypothesis _ (skip key current state kept inv known)

/-- A bulk update: every written row matches when its lock is held. -/
theorem wp_updateWhere {ι : Type}
    {keys : σ → List ι} {holds : ι → σ → Bool}
    {row : ι → κ} {stmt : ι → ω}
    {goal : Except ε Nat → Ctx σ κ ω → Prop}
    (invariant : Ctx σ κ ω → Prop)
    (start : ∀ state, invariant (ctx.observe protocol state))
    (skip : ∀ key current state, invariant current →
      protocol.Inv state → current.known state →
      invariant ((current.take (row key)).observe protocol state))
    (round : ∀ key current state, invariant current →
      protocol.Inv state → current.known state →
      holds key (applyAll current.writes state) →
      invariant
        (((current.take (row key)).observe protocol state).push (stmt key)))
    (finish : ∀ count later, invariant later → goal (.ok count) later) :
    (updateWhere keys holds row stmt : Prog σ κ ω ε Nat).wp
      protocol ctx goal :=
  fun state _ _ => wp_updateEach invariant skip round finish _ (start state)

end Prog

end ProgRules

namespace Request

variable {σ κ ω ε α β : Type} [Store σ κ ω]
  {protocol : Protocol σ κ ω} {guarantee : List ω → σ → Prop}
  {ctx : Ctx σ κ ω}

/-- The weakest precondition of a request over all interleavings. -/
def wp (protocol : Protocol σ κ ω) (guarantee : List ω → σ → Prop)
    (request : Request σ κ ω ε α) (ctx : Ctx σ κ ω)
    (goal : Except ε α → Ctx σ κ ω → Prop) : Prop :=
  Proc.wp protocol guarantee request ctx goal

/-- The request keeps the protocol and its guarantee on every path. -/
def Safe (protocol : Protocol σ κ ω) (guarantee : List ω → σ → Prop)
    (request : Request σ κ ω ε α) : Prop :=
  request.wp protocol guarantee .start fun _ _ => True

/-- A weaker goal follows. -/
theorem wp_mono
    {request : Request σ κ ω ε α}
    {goal weaker : Except ε α → Ctx σ κ ω → Prop}
    (holds : request.wp protocol guarantee ctx goal)
    (weaken : ∀ result later, goal result later → weaker result later) :
    request.wp protocol guarantee ctx weaker :=
  Proc.wp_mono holds weaken

@[simp] theorem wp_pure
    {value : α} {goal : Except ε α → Ctx σ κ ω → Prop} :
    (pure value : Request σ κ ω ε α).wp protocol guarantee ctx goal ↔
      goal (.ok value) ctx :=
  Iff.rfl

@[simp] theorem wp_throw
    {error : ε} {goal : Except ε α → Ctx σ κ ω → Prop} :
    (throw error : Request σ κ ω ε α).wp protocol guarantee ctx goal ↔
      goal (.error error) ctx :=
  Iff.rfl

@[simp] theorem wp_load
    {get : σ → α} {goal : Except ε α → Ctx σ κ ω → Prop} :
    (load get : Request σ κ ω ε α).wp protocol guarantee ctx goal ↔
      ∀ state, protocol.Inv state → ctx.known state →
        goal (.ok (get (applyAll ctx.writes state)))
          (ctx.observe protocol state) :=
  Iff.rfl

@[simp] theorem wp_require
    {guard : Prop} [Decidable guard] {error : ε}
    {goal : Except ε Unit → Ctx σ κ ω → Prop} :
    (require guard error : Request σ κ ω ε Unit).wp
        protocol guarantee ctx goal ↔
      (guard → goal (.ok ()) ctx) ∧ (¬guard → goal (.error error) ctx) := by
  by_cases holds : guard <;> simp [wp, require, Proc.wp, holds]

@[simp] theorem wp_orFail
    {value : Option α} {error : ε}
    {goal : Except ε α → Ctx σ κ ω → Prop} :
    (orFail value error : Request σ κ ω ε α).wp protocol guarantee ctx goal ↔
      (∀ found, value = some found → goal (.ok found) ctx) ∧
        (value = none → goal (.error error) ctx) := by
  cases value <;> simp [wp, orFail, Proc.wp]

@[simp] theorem wp_ofExcept
    {value : Except ε α} {goal : Except ε α → Ctx σ κ ω → Prop} :
    (ofExcept value : Request σ κ ω ε α).wp protocol guarantee ctx goal ↔
      (∀ found, value = .ok found → goal (.ok found) ctx) ∧
        ∀ error, value = .error error → goal (.error error) ctx := by
  cases value <;> simp [wp, ofExcept, Proc.wp]

@[simp] theorem wp_ite
    {condition : Prop} [Decidable condition]
    {first second : Request σ κ ω ε α}
    {goal : Except ε α → Ctx σ κ ω → Prop} :
    (if condition then first else second).wp protocol guarantee ctx goal ↔
      (condition → first.wp protocol guarantee ctx goal) ∧
        (¬condition → second.wp protocol guarantee ctx goal) := by
  by_cases holds : condition <;> simp [holds]

private theorem wp_procBind {ρ τ : Type}
    {first : Proc σ κ ω ρ} {rest : ρ → Proc σ κ ω τ}
    {goal : τ → Ctx σ κ ω → Prop} :
    (first.bind rest).wp protocol guarantee ctx goal ↔
      first.wp protocol guarantee ctx fun result later =>
        (rest result).wp protocol guarantee later goal := by
  induction first generalizing ctx with
  | halt result => exact Iff.rfl
  | query next inductionHypothesis =>
      exact forall_congr' fun state => forall_congr' fun _ =>
        forall_congr' fun _ => inductionHypothesis _
  | lock row next inductionHypothesis => exact inductionHypothesis
  | write stmt next inductionHypothesis => exact inductionHypothesis
  | release count next inductionHypothesis =>
      exact forall_congr' fun held => inductionHypothesis
  | commit next inductionHypothesis =>
      exact and_congr_right fun _ => inductionHypothesis
  | rollback next inductionHypothesis => exact inductionHypothesis

@[simp] theorem wp_bind
    {first : Request σ κ ω ε α} {rest : α → Request σ κ ω ε β}
    {goal : Except ε β → Ctx σ κ ω → Prop} :
    (first >>= rest).wp protocol guarantee ctx goal ↔
      first.wp protocol guarantee ctx fun result later =>
        match result with
        | .ok value => (rest value).wp protocol guarantee later goal
        | .error error => goal (.error error) later := by
  refine wp_procBind.trans ?_
  constructor <;> refine fun holds => wp_mono holds ?_ <;>
    intro result later reached <;> cases result <;> exact reached

/-- After a guard the rest may use that it holds. -/
theorem Safe.require
    {guard : Prop} [Decidable guard] {error : ε} {rest : Unit → Request σ κ ω ε β}
    (safe : guard → (rest ()).Safe protocol guarantee) :
    (require guard error >>= rest).Safe protocol guarantee :=
  wp_bind.mpr (wp_require.mpr ⟨safe, fun _ => trivial⟩)

/-- After a computation the rest has its value. -/
theorem Safe.ofExcept
    {value : Except ε α} {rest : α → Request σ κ ω ε β}
    (safe : ∀ found, value = .ok found →
      (rest found).Safe protocol guarantee) :
    (ofExcept value >>= rest).Safe protocol guarantee :=
  wp_bind.mpr (wp_ofExcept.mpr ⟨safe, fun _ _ => trivial⟩)

/-- After a query outside a transaction nothing is known. -/
theorem Safe.load
    {get : σ → α} {rest : α → Request σ κ ω ε β}
    (safe : ∀ state, protocol.Inv state →
      (rest (get state)).Safe protocol guarantee) :
    (load get >>= rest).Safe protocol guarantee := by
  refine wp_bind.mpr (wp_load.mpr fun state inv _ => ?_)
  rw [Ctx.start_observe]
  exact safe state inv

@[simp] theorem wp_tryCatch
    {body : Request σ κ ω ε α} {handler : ε → Request σ κ ω ε α}
    {goal : Except ε α → Ctx σ κ ω → Prop} :
    (tryCatch body handler).wp protocol guarantee ctx goal ↔
      body.wp protocol guarantee ctx fun result later =>
        match result with
        | .ok value => goal (.ok value) later
        | .error error => (handler error).wp protocol guarantee later goal := by
  refine wp_procBind.trans ?_
  constructor <;> refine fun holds => wp_mono holds ?_ <;>
    intro result later reached <;> cases result <;> exact reached

@[simp] theorem wp_atomic
    {body : Prog σ κ ω ε α} {goal : Except ε α → Ctx σ κ ω → Prop} :
    (atomic body).wp protocol guarantee ctx goal ↔
      body.wp protocol ctx fun result later =>
        match result with
        | .ok value =>
            later.CommitOk protocol guarantee ∧ goal (.ok value) .start
        | .error error => goal (.error error) .start := by
  unfold wp atomic
  induction body generalizing ctx with
  | done value => exact Iff.rfl
  | fail error => exact Iff.rfl
  | query next inductionHypothesis =>
      exact forall_congr' fun state => forall_congr' fun _ =>
        forall_congr' fun _ => inductionHypothesis _
  | lock row next inductionHypothesis => exact inductionHypothesis
  | write stmt next inductionHypothesis => exact inductionHypothesis
  | release count next inductionHypothesis =>
      exact forall_congr' fun held => inductionHypothesis

/-- A loop whose rounds end outside a transaction. -/
theorem wp_forEach
    {items : List β} {body : β → Request σ κ ω ε Unit}
    (round : ∀ item ∈ items,
      (body item).wp protocol guarantee .start fun _ later => later = .start) :
    (forEach items body).wp protocol guarantee .start
      fun _ later => later = .start := by
  induction items with
  | nil => exact rfl
  | cons item rest inductionHypothesis =>
      refine wp_bind.mpr (wp_mono (round item (by simp)) ?_)
      rintro result later rfl
      cases result with
      | ok value =>
          exact inductionHypothesis
            fun other member => round other (by simp [member])
      | error error => exact rfl

end Request

/-!
## Programs whose statements alone decide

Many services cannot break an invariant whatever they read, because none of
their statements touches it.
-/

/-- What a program does besides reading and locking. -/
inductive Effect (ω : Type) where
  | write (stmt : ω)
  | savepoint

/-- Every effect on every path is `good`, and every result meets `goal`. -/
def Prog.Emits {σ κ ω ε α : Type} (good : Effect ω → Prop)
    (goal : Except ε α → Prop) : Prog σ κ ω ε α → Prop
  | .done value => goal (.ok value)
  | .fail error => goal (.error error)
  | .query next => ∀ state, (next state).Emits good goal
  | .lock _ next => next.Emits good goal
  | .write stmt next => good (.write stmt) ∧ next.Emits good goal
  | .release _ next => good .savepoint ∧ next.Emits good goal

namespace Prog

variable {σ κ ω ε α β : Type} {good : Effect ω → Prop}

@[simp] theorem emits_pure {value : α} {goal : Except ε α → Prop} :
    (pure value : Prog σ κ ω ε α).Emits good goal ↔ goal (.ok value) :=
  Iff.rfl

@[simp] theorem emits_done {value : α} {goal : Except ε α → Prop} :
    (Prog.done value : Prog σ κ ω ε α).Emits good goal ↔
      goal (.ok value) :=
  Iff.rfl

@[simp] theorem emits_read {get : σ → α} {goal : Except ε α → Prop} :
    (read get : Prog σ κ ω ε α).Emits good goal ↔
      ∀ state, goal (.ok (get state)) :=
  Iff.rfl

@[simp] theorem emits_lockRow {row : κ} {goal : Except ε Unit → Prop} :
    (lockRow row : Prog σ κ ω ε Unit).Emits good goal ↔ goal (.ok ()) :=
  Iff.rfl

@[simp] theorem emits_exec {stmt : ω} {goal : Except ε Unit → Prop} :
    (exec stmt : Prog σ κ ω ε Unit).Emits good goal ↔
      good (.write stmt) ∧ goal (.ok ()) :=
  Iff.rfl

@[simp] theorem emits_throw {error : ε} {goal : Except ε α → Prop} :
    (throw error : Prog σ κ ω ε α).Emits good goal ↔ goal (.error error) :=
  Iff.rfl

@[simp] theorem emits_require
    {guard : Prop} [Decidable guard] {error : ε}
    {goal : Except ε Unit → Prop} :
    (require guard error : Prog σ κ ω ε Unit).Emits good goal ↔
      (guard → goal (.ok ())) ∧ (¬guard → goal (.error error)) := by
  by_cases holds : guard <;> simp [require, Emits, holds]

@[simp] theorem emits_orFail
    {value : Option α} {error : ε} {goal : Except ε α → Prop} :
    (orFail value error : Prog σ κ ω ε α).Emits good goal ↔
      (∀ found, value = some found → goal (.ok found)) ∧
        (value = none → goal (.error error)) := by
  cases value <;> simp [orFail, Emits]

@[simp] theorem emits_ofExcept
    {value : Except ε α} {goal : Except ε α → Prop} :
    (ofExcept value : Prog σ κ ω ε α).Emits good goal ↔
      (∀ found, value = .ok found → goal (.ok found)) ∧
        ∀ error, value = .error error → goal (.error error) := by
  cases value <;> simp [ofExcept, Emits]

@[simp] theorem emits_orElse
    {value : Option α} {fallback : Prog σ κ ω ε α}
    {goal : Except ε α → Prop} :
    (orElse value fallback).Emits good goal ↔
      (∀ found, value = some found → goal (.ok found)) ∧
        (value = none → fallback.Emits good goal) := by
  cases value <;> simp [orElse]

@[simp] theorem emits_ite
    {condition : Prop} [Decidable condition]
    {first second : Prog σ κ ω ε α} {goal : Except ε α → Prop} :
    (if condition then first else second).Emits good goal ↔
      (condition → first.Emits good goal) ∧
        (¬condition → second.Emits good goal) := by
  by_cases holds : condition <;> simp [holds]

@[simp] theorem emits_bind
    {program : Prog σ κ ω ε α} {rest : α → Prog σ κ ω ε β}
    {goal : Except ε β → Prop} :
    (program >>= rest).Emits good goal ↔
      program.Emits good fun result =>
        match result with
        | .ok value => (rest value).Emits good goal
        | .error error => goal (.error error) := by
  rw [bind_eq]
  induction program with
  | done value => exact Iff.rfl
  | fail error => exact Iff.rfl
  | query next inductionHypothesis => exact forall_congr' inductionHypothesis
  | lock row next inductionHypothesis => exact inductionHypothesis
  | write stmt next inductionHypothesis =>
      exact and_congr_right fun _ => inductionHypothesis
  | release count next inductionHypothesis =>
      exact and_congr_right fun _ => inductionHypothesis

@[simp] theorem emits_tryCatch
    {body : Prog σ κ ω ε α} {handler : ε → Prog σ κ ω ε α}
    {goal : Except ε α → Prop} :
    (tryCatch body handler).Emits good goal ↔
      body.Emits good fun result =>
        match result with
        | .ok value => goal (.ok value)
        | .error error => (handler error).Emits good goal := by
  induction body with
  | done value => exact Iff.rfl
  | fail error => exact Iff.rfl
  | query next inductionHypothesis => exact forall_congr' inductionHypothesis
  | lock row next inductionHypothesis => exact inductionHypothesis
  | write stmt next inductionHypothesis =>
      exact and_congr_right fun _ => inductionHypothesis
  | release count next inductionHypothesis =>
      exact and_congr_right fun _ => inductionHypothesis

/-- A weaker goal follows. -/
theorem Emits.mono
    {program : Prog σ κ ω ε α} {goal weaker : Except ε α → Prop}
    (emits : program.Emits good goal)
    (weaken : ∀ result, goal result → weaker result) :
    program.Emits good weaker := by
  induction program with
  | done value => exact weaken _ emits
  | fail error => exact weaken _ emits
  | query next inductionHypothesis =>
      exact fun state => inductionHypothesis state (emits state)
  | lock row next inductionHypothesis => exact inductionHypothesis emits
  | write stmt next inductionHypothesis =>
      exact ⟨emits.1, inductionHypothesis emits.2⟩
  | release count next inductionHypothesis =>
      exact ⟨emits.1, inductionHypothesis emits.2⟩

/-- Both parts of a sequence emit what they emit, whatever their results. -/
theorem Emits.seq
    {first : Prog σ κ ω ε α} {rest : α → Prog σ κ ω ε β}
    (head : first.Emits good fun _ => True)
    (tail : ∀ value, (rest value).Emits good fun _ => True) :
    (first >>= rest).Emits good fun _ => True := by
  refine emits_bind.mpr (head.mono fun result _ => ?_)
  cases result with
  | ok value => exact tail value
  | error error => trivial

/-- A loop emits what its rounds emit. -/
@[simp] theorem emits_forEach
    {items : List β} {body : β → Prog σ κ ω ε Unit}
    {goal : Except ε Unit → Prop}
    (round : ∀ item ∈ items, (body item).Emits good fun result =>
      ∀ error, result = .error error → goal (.error error))
    (finish : goal (.ok ())) :
    (forEach items body).Emits good goal := by
  induction items with
  | nil => exact finish
  | cons item rest inductionHypothesis =>
      refine emits_bind.mpr ((round item (by simp)).mono ?_)
      intro result failed
      cases result with
      | ok value =>
          exact inductionHypothesis
            fun other member => round other (by simp [member])
      | error error => exact failed error rfl

private theorem emits_writeAll
    {stmts : List ω} {next : Prog σ κ ω ε α} {goal : Except ε α → Prop}
    (all : ∀ stmt ∈ stmts, good (.write stmt))
    (rest : next.Emits good goal) :
    (writeAll stmts next).Emits good goal := by
  induction stmts with
  | nil => exact rest
  | cons stmt later inductionHypothesis =>
      exact ⟨all stmt (by simp), inductionHypothesis fun other member =>
        all other (by simp [member])⟩

private theorem emits_lockAll
    {rows : List κ} {next : Prog σ κ ω ε α} {goal : Except ε α → Prop}
    (rest : next.Emits good goal) :
    (lockAll rows next).Emits good goal := by
  induction rows with
  | nil => exact rest
  | cons row later inductionHypothesis => exact inductionHypothesis

/-- A nested block emits what its body and its handler emit. -/
@[simp] theorem emits_attempt [Store σ κ ω]
    {body : Prog σ κ ω ε α} {handler : ε → Prog σ κ ω ε α}
    {goal : Except ε α → Prop}
    (nested : good .savepoint)
    (inner : body.Emits good fun result =>
      match result with
      | .ok value => goal (.ok value)
      | .error error => (handler error).Emits good goal) :
    (attempt body handler).Emits good goal := by
  suffices general : ∀ pending taken,
      (∀ stmt ∈ pending, good (.write stmt)) →
      (attemptFrom handler pending taken body).Emits good goal from
    general [] 0 (by simp)
  induction body with
  | done value =>
      exact fun pending taken all => emits_writeAll all inner
  | fail error => exact fun pending taken all => ⟨nested, inner⟩
  | query next inductionHypothesis =>
      exact fun pending taken all state =>
        inductionHypothesis _ (inner _) pending taken all
  | lock row next inductionHypothesis =>
      exact fun pending taken all => inductionHypothesis inner pending _ all
  | write stmt next inductionHypothesis =>
      intro pending taken all
      refine emits_lockAll (inductionHypothesis inner.2 _ _ ?_)
      intro other member
      rcases List.mem_append.mp member with earlier | last
      · exact all other earlier
      · exact (List.mem_singleton.mp last) ▸ inner.1
  | release count next inductionHypothesis =>
      exact fun pending taken all =>
        ⟨nested, inductionHypothesis inner.2 pending _ all⟩

private theorem emits_updateEach {ι : Type}
    {holds : ι → σ → Bool} {row : ι → κ} {stmt : ι → ω}
    {goal : Except ε Nat → Prop}
    (round : ∀ key, good (.write (stmt key)))
    (finish : ∀ count, goal (.ok count)) (keys : List ι) :
    (updateEach holds row stmt keys : Prog σ κ ω ε Nat).Emits good goal := by
  induction keys generalizing goal with
  | nil => exact finish 0
  | cons key rest inductionHypothesis =>
      intro state
      by_cases matched : holds key state
      · simp only [matched, if_true]
        refine ⟨round key, ?_⟩
        rw [← bind_eq, emits_bind]
        exact inductionHypothesis fun count => finish (count + 1)
      · simp only [matched]
        exact inductionHypothesis finish

/-- A locking query writes nothing. -/
@[simp] theorem emits_selectForUpdate {ι : Type}
    {keys : σ → List ι} {holds : ι → σ → Bool} {row : ι → κ}
    {goal : Except ε (List ι) → Prop}
    (finish : ∀ found, goal (.ok found)) :
    (selectForUpdate keys holds row : Prog σ κ ω ε (List ι)).Emits
      good goal := by
  intro state
  suffices general : ∀ (found : List ι) {goal : Except ε (List ι) → Prop},
      (∀ kept, goal (.ok kept)) →
      (lockEach holds row found : Prog σ κ ω ε (List ι)).Emits good goal from
    general _ finish
  intro found
  induction found with
  | nil => exact fun finish => finish []
  | cons key rest inductionHypothesis =>
      intro goal finish current
      by_cases matched : holds key current
      · simp only [matched, if_true]
        rw [← bind_eq, emits_bind]
        exact inductionHypothesis fun kept => finish (key :: kept)
      · simp only [matched]
        exact inductionHypothesis finish

/-- A bulk update emits one statement for every row it writes. -/
@[simp] theorem emits_updateWhere {ι : Type}
    {keys : σ → List ι} {matching : ι → σ → Bool}
    {row : ι → κ} {stmt : ι → ω} {goal : Except ε Nat → Prop}
    (holds : (∀ key, good (.write (stmt key))) ∧ ∀ count, goal (.ok count)) :
    (updateWhere keys matching row stmt : Prog σ κ ω ε Nat).Emits good goal :=
  fun _ => emits_updateEach holds.1 holds.2 _

end Prog

/-- A context later in the same block, after statements that satisfy `good`. -/
structure Ctx.Extends {σ κ ω : Type}
    (good : ω → Prop) (base later : Ctx σ κ ω) : Prop where
  held : ∀ row, base.held row → later.held row
  known : ∀ state, later.known state → base.known state
  writes : ∃ extra, later.writes = base.writes ++ extra ∧
    ∀ stmt ∈ extra, good stmt

namespace Ctx.Extends

variable {σ κ ω : Type} {good : ω → Prop} {base middle later : Ctx σ κ ω}

theorem refl : base.Extends good base :=
  ⟨fun _ held => held, fun _ known => known, [], by simp, by simp⟩

theorem trans
    (first : base.Extends good middle) (second : middle.Extends good later) :
    base.Extends good later := by
  obtain ⟨before, split, all⟩ := first.writes
  obtain ⟨after, splitAfter, allAfter⟩ := second.writes
  refine ⟨fun row held => second.held row (first.held row held),
    fun state known => first.known state (second.known state known),
    before ++ after, by simp [splitAfter, split], ?_⟩
  intro stmt member
  rcases List.mem_append.mp member with early | late
  · exact all stmt early
  · exact allAfter stmt late

/-- A weaker property of the added statements. -/
theorem weaken {weaker : ω → Prop}
    (grown : base.Extends good later)
    (implies : ∀ stmt, good stmt → weaker stmt) :
    base.Extends weaker later := by
  obtain ⟨extra, split, all⟩ := grown.writes
  exact ⟨grown.held, grown.known, extra, split,
    fun stmt member => implies stmt (all stmt member)⟩

theorem observe {protocol : Protocol σ κ ω} {seen : σ} :
    base.Extends good (base.observe protocol seen) :=
  ⟨fun _ held => held, fun _ known => known.1, [], by simp, by simp⟩

theorem take {row : κ} : base.Extends good (base.take row) :=
  ⟨fun _ held => .inr held, fun _ known => known, [], by simp, by simp⟩

theorem push [Store σ κ ω] {stmt : ω} (fine : good stmt) :
    base.Extends good (base.push stmt) :=
  ⟨fun _ held => .inr held, fun _ known => known, [stmt], by simp,
    by simpa using fine⟩

/-- What holds of the statements before and of the new ones holds of all. -/
theorem all
    (grown : base.Extends good later) (before : ∀ stmt ∈ base.writes, good stmt) :
    ∀ stmt ∈ later.writes, good stmt := by
  obtain ⟨extra, writes, fine⟩ := grown.writes
  intro stmt member
  rw [writes] at member
  rcases List.mem_append.mp member with early | late
  · exact before stmt early
  · exact fine stmt late

end Ctx.Extends

namespace Prog

variable {σ κ ω ε α β : Type} {good : Effect ω → Prop}

/-- A block without savepoints leads to a context that extends the first. -/
theorem Emits.wp [Store σ κ ω]
    {protocol : Protocol σ κ ω} {program : Prog σ κ ω ε α}
    {ctx : Ctx σ κ ω} {goal : Except ε α → Prop}
    (emits : program.Emits good goal) (plain : ¬good .savepoint) :
    program.wp protocol ctx fun result later =>
      goal result ∧ ctx.Extends (fun stmt => good (.write stmt)) later := by
  suffices general : ∀ base : Ctx σ κ ω,
      base.Extends (fun stmt => good (.write stmt)) ctx →
      program.wp protocol ctx fun result later =>
        goal result ∧ base.Extends (fun stmt => good (.write stmt)) later from
    general ctx .refl
  intro base grown
  induction program generalizing ctx with
  | done value => exact ⟨emits, grown⟩
  | fail error => exact ⟨emits, grown⟩
  | query next inductionHypothesis =>
      exact fun state _ _ =>
        inductionHypothesis _ (emits _) (grown.trans .observe)
  | lock row next inductionHypothesis =>
      exact inductionHypothesis emits (grown.trans .take)
  | write stmt next inductionHypothesis =>
      exact inductionHypothesis emits.2 (grown.trans (.push emits.1))
  | release count next inductionHypothesis => exact absurd emits.1 plain

/-- Go past a block of which only its effects matter. -/
theorem wp_of_emits [Store σ κ ω]
    {protocol : Protocol σ κ ω} {program : Prog σ κ ω ε α}
    {ctx : Ctx σ κ ω} {results : Except ε α → Prop}
    {goal : Except ε α → Ctx σ κ ω → Prop}
    (emits : program.Emits good results) (plain : ¬good .savepoint)
    (next : ∀ result later, results result →
      ctx.Extends (fun stmt => good (.write stmt)) later →
        goal result later) :
    program.wp protocol ctx goal :=
  wp_mono (emits.wp plain) fun result later holds =>
    next result later holds.1 holds.2

section Attempt

variable [Store σ κ ω] {protocol : Protocol σ κ ω}

private theorem wp_writeAll
    {stmts : List ω} {next : Prog σ κ ω ε α} {ctx : Ctx σ κ ω}
    {goal : Except ε α → Ctx σ κ ω → Prop} :
    (writeAll stmts next).wp protocol ctx goal ↔
      next.wp protocol
        ⟨fun row => row ∈ rowsOf σ stmts ∨ ctx.held row,
          ctx.writes ++ stmts, ctx.known⟩ goal := by
  induction stmts generalizing ctx with
  | nil => simp [writeAll, rowsOf]
  | cons stmt rest inductionHypothesis =>
      refine inductionHypothesis.trans ?_
      have held : ∀ row, (row ∈ rowsOf σ rest ∨ (ctx.push stmt).held row) ↔
          (row ∈ rowsOf σ (stmt :: rest) ∨ ctx.held row) := by
        intro row
        simp only [Ctx.push_held, rowsOf, List.flatMap_cons, List.mem_append]
        tauto
      simp only [held, Ctx.push_writes, Ctx.push_known, List.append_assoc,
        List.singleton_append]

private theorem wp_lockAll
    {rows : List κ} {next : Prog σ κ ω ε α} {ctx : Ctx σ κ ω}
    {goal : Except ε α → Ctx σ κ ω → Prop} :
    (lockAll rows next).wp protocol ctx goal ↔
      next.wp protocol
        ⟨fun row => row ∈ rows ∨ ctx.held row, ctx.writes, ctx.known⟩ goal := by
  induction rows generalizing ctx with
  | nil => simp [lockAll]
  | cons row rest inductionHypothesis =>
      refine inductionHypothesis.trans ?_
      have held : ∀ other, (other ∈ rest ∨ (ctx.take row).held other) ↔
          (other ∈ row :: rest ∨ ctx.held other) := by
        intro other
        simp
        tauto
      simp only [held, Ctx.take_writes, Ctx.take_known]

private theorem wp_attemptFrom
    {body : Prog σ κ ω ε α} {handler : ε → Prog σ κ ω ε α}
    {goal : Except ε α → Ctx σ κ ω → Prop} {writes : List ω}
    (plain : body.Emits (· ≠ .savepoint) fun _ => True)
    (held : κ → Prop) (known : σ → Prop) (pending : List ω) (taken : Nat)
    (rows : ∀ row ∈ rowsOf σ pending, held row)
    (inner : body.wp protocol ⟨held, writes ++ pending, known⟩
      fun result later =>
        match result with
        | .ok value => goal (.ok value) later
        | .error error => ∀ left : κ → Prop,
            (handler error).wp protocol ⟨left, writes, fun _ => True⟩ goal) :
    (attemptFrom handler pending taken body).wp
      protocol ⟨held, writes, known⟩ goal := by
  induction body generalizing held known pending taken with
  | done value =>
      refine wp_writeAll.mpr ?_
      have same : ∀ row, (row ∈ rowsOf σ pending ∨ held row) ↔ held row :=
        fun row => or_iff_right_of_imp (rows row)
      simp only [same]
      exact inner
  | fail error => exact inner
  | query next inductionHypothesis =>
      intro state inv holds
      have after := inner state inv holds
      simp only [applyAll_append] at after
      exact inductionHypothesis _ (plain _) _ _ pending taken rows after
  | lock row next inductionHypothesis =>
      exact inductionHypothesis plain _ known pending _
        (fun other member => .inr (rows other member)) inner
  | write stmt next inductionHypothesis =>
      refine wp_lockAll.mpr (inductionHypothesis plain.2 _ known _ _ ?_ ?_)
      · intro row member
        simp only [rowsOf, List.flatMap_append, List.mem_append,
          List.flatMap_singleton] at member
        exact member.symm.imp_right (rows row)
      · have after := inner
        simp only [wp, Ctx.push, List.append_assoc] at after
        exact after
  | release count next inductionHypothesis => exact absurd rfl plain.1

/--
A nested block without savepoints of its own.  When it fails its handler runs
with the earlier writes, and with nothing known about the state.
-/
theorem wp_attempt
    {body : Prog σ κ ω ε α} {handler : ε → Prog σ κ ω ε α}
    {ctx : Ctx σ κ ω} {goal : Except ε α → Ctx σ κ ω → Prop}
    (plain : body.Emits (· ≠ .savepoint) fun _ => True)
    (inner : body.wp protocol ctx fun result later =>
      match result with
      | .ok value => goal (.ok value) later
      | .error error => ∀ held,
          (handler error).wp protocol (ctx.forget held) goal) :
    (attempt body handler).wp protocol ctx goal :=
  wp_attemptFrom plain ctx.held ctx.known [] 0 (by simp [rowsOf])
    (by rw [List.append_nil]; exact inner)

end Attempt

end Prog

/-- Every effect on every path is `good`, and every result meets `goal`. -/
def Proc.Emits {σ κ ω ρ : Type} (good : Effect ω → Prop) (goal : ρ → Prop) :
    Proc σ κ ω ρ → Prop
  | .halt result => goal result
  | .query next => ∀ state, (next state).Emits good goal
  | .lock _ next => next.Emits good goal
  | .write stmt next => good (.write stmt) ∧ next.Emits good goal
  | .release _ next => good .savepoint ∧ next.Emits good goal
  | .commit next => next.Emits good goal
  | .rollback next => next.Emits good goal

namespace Request

variable {σ κ ω ε α β : Type} {good : Effect ω → Prop}

/-- Every effect on every path is `good`, and every result meets `goal`. -/
def Emits (good : Effect ω → Prop) (goal : Except ε α → Prop)
    (request : Request σ κ ω ε α) : Prop :=
  Proc.Emits good goal request

@[simp] theorem emits_pure {value : α} {goal : Except ε α → Prop} :
    (pure value : Request σ κ ω ε α).Emits good goal ↔ goal (.ok value) :=
  Iff.rfl

@[simp] theorem emits_throw {error : ε} {goal : Except ε α → Prop} :
    (throw error : Request σ κ ω ε α).Emits good goal ↔ goal (.error error) :=
  Iff.rfl

@[simp] theorem emits_load {get : σ → α} {goal : Except ε α → Prop} :
    (load get : Request σ κ ω ε α).Emits good goal ↔
      ∀ state, goal (.ok (get state)) :=
  Iff.rfl

@[simp] theorem emits_require
    {guard : Prop} [Decidable guard] {error : ε}
    {goal : Except ε Unit → Prop} :
    (require guard error : Request σ κ ω ε Unit).Emits good goal ↔
      (guard → goal (.ok ())) ∧ (¬guard → goal (.error error)) := by
  by_cases holds : guard <;> simp [require, Emits, Proc.Emits, holds]

@[simp] theorem emits_orFail
    {value : Option α} {error : ε} {goal : Except ε α → Prop} :
    (orFail value error : Request σ κ ω ε α).Emits good goal ↔
      (∀ found, value = some found → goal (.ok found)) ∧
        (value = none → goal (.error error)) := by
  cases value <;> simp [orFail, Emits, Proc.Emits]

@[simp] theorem emits_ofExcept
    {value : Except ε α} {goal : Except ε α → Prop} :
    (ofExcept value : Request σ κ ω ε α).Emits good goal ↔
      (∀ found, value = .ok found → goal (.ok found)) ∧
        ∀ error, value = .error error → goal (.error error) := by
  cases value <;> simp [ofExcept, Emits, Proc.Emits]

@[simp] theorem emits_ite
    {condition : Prop} [Decidable condition]
    {first second : Request σ κ ω ε α} {goal : Except ε α → Prop} :
    (if condition then first else second).Emits good goal ↔
      (condition → first.Emits good goal) ∧
        (¬condition → second.Emits good goal) := by
  by_cases holds : condition <;> simp [holds]

private theorem emits_procBind {ρ τ : Type}
    {first : Proc σ κ ω ρ} {rest : ρ → Proc σ κ ω τ} {goal : τ → Prop} :
    (first.bind rest).Emits good goal ↔
      first.Emits good fun result => (rest result).Emits good goal := by
  induction first with
  | halt result => exact Iff.rfl
  | query next inductionHypothesis => exact forall_congr' inductionHypothesis
  | lock row next inductionHypothesis => exact inductionHypothesis
  | write stmt next inductionHypothesis =>
      exact and_congr_right fun _ => inductionHypothesis
  | release count next inductionHypothesis =>
      exact and_congr_right fun _ => inductionHypothesis
  | commit next inductionHypothesis => exact inductionHypothesis
  | rollback next inductionHypothesis => exact inductionHypothesis

/-- A weaker goal follows. -/
theorem Emits.mono
    {request : Request σ κ ω ε α} {goal weaker : Except ε α → Prop}
    (emits : request.Emits good goal)
    (weaken : ∀ result, goal result → weaker result) :
    request.Emits good weaker := by
  unfold Emits at emits ⊢
  unfold Request at request
  induction request with
  | halt result => exact weaken _ emits
  | query next inductionHypothesis =>
      exact fun state => inductionHypothesis state (emits state)
  | lock row next inductionHypothesis => exact inductionHypothesis emits
  | write stmt next inductionHypothesis =>
      exact ⟨emits.1, inductionHypothesis emits.2⟩
  | release count next inductionHypothesis =>
      exact ⟨emits.1, inductionHypothesis emits.2⟩
  | commit next inductionHypothesis => exact inductionHypothesis emits
  | rollback next inductionHypothesis => exact inductionHypothesis emits

@[simp] theorem emits_bind
    {first : Request σ κ ω ε α} {rest : α → Request σ κ ω ε β}
    {goal : Except ε β → Prop} :
    (first >>= rest).Emits good goal ↔
      first.Emits good fun result =>
        match result with
        | .ok value => (rest value).Emits good goal
        | .error error => goal (.error error) := by
  refine emits_procBind.trans ?_
  constructor <;> refine fun holds => Emits.mono holds ?_ <;>
    intro result reached <;> cases result <;> exact reached

/-- Both parts of a sequence emit what they emit, whatever their results. -/
theorem Emits.seq
    {first : Request σ κ ω ε α} {rest : α → Request σ κ ω ε β}
    (head : first.Emits good fun _ => True)
    (tail : ∀ value, (rest value).Emits good fun _ => True) :
    (first >>= rest).Emits good fun _ => True := by
  refine emits_bind.mpr (head.mono fun result _ => ?_)
  cases result with
  | ok value => exact tail value
  | error error => trivial

@[simp] theorem emits_tryCatch
    {body : Request σ κ ω ε α} {handler : ε → Request σ κ ω ε α}
    {goal : Except ε α → Prop} :
    (tryCatch body handler).Emits good goal ↔
      body.Emits good fun result =>
        match result with
        | .ok value => goal (.ok value)
        | .error error => (handler error).Emits good goal := by
  refine emits_procBind.trans ?_
  constructor <;> refine fun holds => Emits.mono holds ?_ <;>
    intro result reached <;> cases result <;> exact reached

@[simp] theorem emits_atomic
    {body : Prog σ κ ω ε α} {goal : Except ε α → Prop} :
    (atomic body).Emits good goal ↔ body.Emits good goal := by
  unfold Emits atomic
  induction body with
  | done value => exact Iff.rfl
  | fail error => exact Iff.rfl
  | query next inductionHypothesis => exact forall_congr' inductionHypothesis
  | lock row next inductionHypothesis => exact inductionHypothesis
  | write stmt next inductionHypothesis =>
      exact and_congr_right fun _ => inductionHypothesis
  | release count next inductionHypothesis =>
      exact and_congr_right fun _ => inductionHypothesis

/-- A loop emits what its rounds emit. -/
@[simp] theorem emits_forEach
    {items : List β} {body : β → Request σ κ ω ε Unit}
    (round : ∀ item ∈ items, (body item).Emits good fun _ => True) :
    (forEach items body).Emits good fun _ => True := by
  induction items with
  | nil => trivial
  | cons item rest inductionHypothesis =>
      refine emits_bind.mpr ((round item (by simp)).mono ?_)
      intro result _
      cases result with
      | ok value =>
          exact inductionHypothesis
            fun other member => round other (by simp [member])
      | error error => trivial

/--
A request all of whose statements are harmless is safe: whatever prefix of
them a transaction commits keeps the protocol.
-/
theorem Emits.safe [Store σ κ ω]
    {protocol : Protocol σ κ ω} {guarantee : List ω → σ → Prop}
    {request : Request σ κ ω ε α} {goal : Except ε α → Prop}
    (emits : request.Emits good goal)
    (keeps : ∀ stmts state, (∀ stmt ∈ stmts, good (.write stmt)) →
      protocol.Inv state → protocol.Condition stmts state →
        protocol.Inv (applyAll stmts state) ∧
          guarantee stmts state)
    (frame : ∀ stmts state row, (∀ stmt ∈ stmts, good (.write stmt)) →
      protocol.Inv state → protocol.Condition stmts state →
      row ∉ rowsOf σ stmts → protocol.Same row state (applyAll stmts state)) :
    request.Safe protocol guarantee := by
  have allowed : ∀ ctx : Ctx σ κ ω,
      (∀ stmt ∈ ctx.writes, good (.write stmt)) →
      ctx.CommitOk protocol guarantee := by
    intro ctx all state inv known condition rows
    obtain ⟨kept, met⟩ := keeps ctx.writes state all inv condition
    refine ⟨kept, met, fun row free => ?_⟩
    exact frame ctx.writes state row all inv condition
      fun member => free (rows row member)
  suffices general : ∀ ctx : Ctx σ κ ω,
      (∀ stmt ∈ ctx.writes, good (.write stmt)) →
      Proc.wp protocol guarantee request ctx fun _ _ => True from
    general .start (by simp)
  unfold Emits at emits
  unfold Request at request
  induction request with
  | halt result => exact fun ctx all => trivial
  | query next inductionHypothesis =>
      exact fun ctx all state inv known =>
        inductionHypothesis _ (emits _) _ all
  | lock row next inductionHypothesis =>
      exact fun ctx all => inductionHypothesis emits _ all
  | write stmt next inductionHypothesis =>
      intro ctx all
      refine inductionHypothesis emits.2 _ ?_
      intro other member
      rcases List.mem_append.mp member with earlier | last
      · exact all other earlier
      · exact (List.mem_singleton.mp last) ▸ emits.1
  | release count next inductionHypothesis =>
      exact fun ctx all held => inductionHypothesis emits.2 _ all
  | commit next inductionHypothesis =>
      exact fun ctx all =>
        ⟨allowed ctx all, inductionHypothesis emits .start (by simp)⟩
  | rollback next inductionHypothesis =>
      exact fun ctx all => inductionHypothesis emits .start (by simp)

end Request

/-!
## Harmless statements

Many statements keep a protocol on their own, in whatever transaction they
stand.
-/

/-- A statement that meets its condition keeps the protocol by itself. -/
structure Protocol.Harmless {σ κ ω : Type} [Store σ κ ω]
    (protocol : Protocol σ κ ω) (admitted meets : ω → σ → Prop) (stmt : ω) :
    Prop where
  keeps : ∀ state, protocol.Inv state → admitted stmt state →
    protocol.Inv (Store.apply stmt state)
  meets : ∀ state, protocol.Inv state → admitted stmt state →
    meets stmt state
  frame : ∀ state row, protocol.Inv state → admitted stmt state →
    row ∉ Store.rows σ stmt → protocol.Same row state (Store.apply stmt state)

/-- Harmless statements keep the protocol together. -/
theorem Protocol.Harmless.all {σ κ ω : Type} [Store σ κ ω]
    {protocol : Protocol σ κ ω} {admitted meets : ω → σ → Prop}
    (stmts : List ω) (state : σ)
    (harmless : ∀ stmt ∈ stmts, protocol.Harmless admitted meets stmt)
    (inv : protocol.Inv state) (along : Along admitted stmts state) :
    protocol.Inv (applyAll stmts state) ∧ Along meets stmts state ∧
      ∀ row, row ∉ rowsOf σ stmts →
        protocol.Same row state (applyAll stmts state) := by
  induction stmts generalizing state with
  | nil => exact ⟨inv, trivial, fun row _ => protocol.same_refl row state⟩
  | cons stmt rest inductionHypothesis =>
      have first := harmless stmt List.mem_cons_self
      obtain ⟨kept, met, frame⟩ := inductionHypothesis _
        (fun later member => harmless later (List.mem_cons_of_mem _ member))
        (first.keeps state inv along.1) along.2
      refine ⟨kept, ⟨first.meets state inv along.1, met⟩, ?_⟩
      intro row free
      rw [rowsOf, List.flatMap_cons, List.mem_append, not_or] at free
      exact protocol.same_trans row _ _ _
        (first.frame state row inv along.1 free.1) (frame row free.2)

/-- A request of harmless statements is safe. -/
theorem Request.Emits.safe_of_harmless {σ κ ω ε α : Type} [Store σ κ ω]
    {protocol : Protocol σ κ ω} {guarantee : List ω → σ → Prop}
    {admitted meets : ω → σ → Prop} {good : Effect ω → Prop}
    {request : Request σ κ ω ε α} {goal : Except ε α → Prop}
    (emits : request.Emits good goal)
    (harmless : ∀ stmt, good (.write stmt) →
      protocol.Harmless admitted meets stmt)
    (condition : ∀ stmts state, protocol.Condition stmts state →
      Along admitted stmts state)
    (guaranteed : ∀ stmts state, protocol.Inv state →
      Along meets stmts state → guarantee stmts state) :
    request.Safe protocol guarantee := by
  have together := fun stmts state
      (all : ∀ stmt ∈ stmts, good (.write stmt)) inv holds =>
    Protocol.Harmless.all stmts state
      (fun stmt member => harmless stmt (all stmt member)) inv
      (condition stmts state holds)
  refine emits.safe ?_ ?_
  · intro stmts state all inv holds
    obtain ⟨kept, met, -⟩ := together stmts state all inv holds
    exact ⟨kept, guaranteed stmts state inv met⟩
  · intro stmts state row all inv holds free
    exact (together stmts state all inv holds).2.2 row free

/-!
## Committable contexts

What a context knows may be needed to commit its statements.  Adding harmless
statements, or knowing more, keeps a context committable.
-/

namespace Ctx

variable {σ κ ω : Type} [Store σ κ ω]

/--
The pending statements can be committed in every state that is compatible with
what is known and in which each of them is admitted.
-/
def Committable
    (protocol : Protocol σ κ ω) (admitted : ω → σ → Prop)
    (guarantee : List ω → σ → Prop) (ctx : Ctx σ κ ω) : Prop :=
  ∀ state,
    protocol.Inv state →
    ctx.known state →
    Along admitted ctx.writes state →
    protocol.Inv (applyAll ctx.writes state) ∧
      guarantee ctx.writes state ∧
      ∀ row, row ∉ rowsOf σ ctx.writes →
        protocol.Same row state (applyAll ctx.writes state)

variable {protocol : Protocol σ κ ω} {admitted : ω → σ → Prop}
  {guarantee : List ω → σ → Prop} {base later : Ctx σ κ ω}

/-- A block that ends so may commit when it has succeeded. -/
def Finishes {ε α : Type}
    (protocol : Protocol σ κ ω) (guarantee : List ω → σ → Prop) :
    Except ε α → Ctx σ κ ω → Prop
  | .ok _, later => later.CommitOk protocol guarantee
  | .error _, _ => True

@[simp] theorem finishes_error {ε α : Type} (error : ε) (ctx : Ctx σ κ ω) :
    Finishes protocol guarantee (.error error : Except ε α) ctx :=
  trivial

/-- A committable context may commit. -/
theorem Committable.commitOk
    (committable : base.Committable protocol admitted guarantee)
    (condition : ∀ stmts state, protocol.Condition stmts state →
      Along admitted stmts state) :
    base.CommitOk protocol guarantee := by
  intro state inv known holds rows
  obtain ⟨kept, met, frame⟩ :=
    committable state inv known (condition _ _ holds)
  exact ⟨kept, met, fun row free => frame row fun inside =>
    free (rows row inside)⟩

/-- Statements that are harmless, and under which the guarantee lasts. -/
structure Lasting
    (protocol : Protocol σ κ ω) (admitted : ω → σ → Prop)
    (guarantee : List ω → σ → Prop) (stmt : ω) : Prop where
  harmless : protocol.Harmless admitted (fun _ _ => True) stmt
  lasts : ∀ stmts state, protocol.Inv (applyAll stmts state) →
    admitted stmt (applyAll stmts state) →
    guarantee stmts state → guarantee (stmts ++ [stmt]) state

/-- Lasting statements can be added one after the other. -/
theorem Committable.append
    {stmts : List ω}
    (committable : base.Committable protocol admitted guarantee)
    (known : ∀ state, later.known state → base.known state)
    (writes : later.writes = base.writes ++ stmts)
    (lasting : ∀ stmt ∈ stmts, Lasting protocol admitted guarantee stmt) :
    later.Committable protocol admitted guarantee := by
  induction stmts using List.reverseRecOn generalizing later with
  | nil =>
      intro state inv holds along
      rw [List.append_nil] at writes
      rw [writes] at along ⊢
      exact committable state inv (known state holds) along
  | append_singleton earlier stmt inductionHypothesis =>
      have before :
          (⟨later.held, base.writes ++ earlier, later.known⟩ :
            Ctx σ κ ω).Committable protocol admitted guarantee :=
        inductionHypothesis known rfl fun other member => lasting other (List.mem_append_left _ member)
      have last := lasting stmt (by simp)
      intro state inv holds along
      have split : later.writes = (base.writes ++ earlier) ++ [stmt] := by
        rw [writes, List.append_assoc]
      rw [split] at along ⊢
      obtain ⟨first, second, -⟩ := along_append.mp along
      obtain ⟨kept, met, frame⟩ := before state inv holds first
      simp only at kept met frame
      refine ⟨?_, last.lasts _ _ kept second met, ?_⟩
      · rw [applyAll_append]
        exact last.harmless.keeps _ kept second
      · intro row free
        rw [rowsOf, List.flatMap_append, List.mem_append, not_or,
          List.flatMap_singleton] at free
        rw [applyAll_append]
        exact protocol.same_trans row _ _ _ (frame row free.1)
          (last.harmless.frame _ row kept second free.2)

/-- Lasting statements and more knowledge keep a context committable. -/
theorem Committable.of_extends
    (committable : base.Committable protocol admitted guarantee)
    (grown : base.Extends (Lasting protocol admitted guarantee) later) :
    later.Committable protocol admitted guarantee := by
  obtain ⟨extra, split, all⟩ := grown.writes
  exact committable.append grown.known split all

/-- Lasting statements can be committed without any knowledge. -/
theorem committable_of_lasting
    (initial : ∀ state, protocol.Inv state → guarantee [] state)
    (all : ∀ stmt ∈ later.writes, Lasting protocol admitted guarantee stmt) :
    later.Committable protocol admitted guarantee := by
  have empty : (⟨later.held, [], later.known⟩ : Ctx σ κ ω).Committable
      protocol admitted guarantee :=
    fun state inv _ _ =>
      ⟨inv, initial state inv, fun row _ => protocol.same_refl row state⟩
  exact empty.append (fun _ known => known) rfl all

end Ctx

/-- A request of lasting statements is safe. -/
theorem Request.Emits.safe_of_lasting {σ κ ω ε α : Type} [Store σ κ ω]
    {protocol : Protocol σ κ ω} {admitted : ω → σ → Prop}
    {guarantee : List ω → σ → Prop} {good : Effect ω → Prop}
    {request : Request σ κ ω ε α} {goal : Except ε α → Prop}
    (emits : request.Emits good goal)
    (lasting : ∀ stmt, good (.write stmt) →
      Ctx.Lasting protocol admitted guarantee stmt)
    (initial : ∀ state, protocol.Inv state → guarantee [] state)
    (condition : ∀ stmts state, protocol.Condition stmts state →
      Along admitted stmts state) :
    request.Safe protocol guarantee := by
  have committable : ∀ stmts : List ω,
      (∀ stmt ∈ stmts, good (.write stmt)) →
      (⟨fun _ => False, stmts, fun _ => True⟩ : Ctx σ κ ω).Committable
        protocol admitted guarantee :=
    fun stmts all => Ctx.committable_of_lasting initial
      fun stmt member => lasting stmt (all stmt member)
  refine emits.safe ?_ ?_
  · intro stmts state all inv holds
    obtain ⟨kept, met, -⟩ :=
      committable stmts all state inv trivial (condition _ _ holds)
    exact ⟨kept, met⟩
  · intro stmts state row all inv holds free
    exact (committable stmts all state inv trivial (condition _ _ holds)).2.2
      row free

end Transaction
