import KnowledgeMarketplace.Transaction.Looks
import KnowledgeMarketplace.Transaction.Rules
import KnowledgeMarketplace.Transaction.Watch
import Mathlib.Data.Set.Insert
import Mathlib.Logic.Hydra
import Mathlib.Order.Preorder.Finite

/-!
# Locks that climb

Clients that wait for each other in a circle never move again.  There is no
circle if every client takes its locks in an order of ranks: whoever waits
for a row holds rows of lower ranks only, so that the holder of a row of the
highest rank can move.  Every client can then be run to its end.
-/

namespace Transaction

section Climbs

variable {σ κ ω ε α β ρ τ ι : Type} [Store σ κ ω] [Preorder ι]
  {rank : κ → ι}

/-- Each row is held already, or ranks above all that are held. -/
def Above (rank : κ → ι) (held : Set κ) (rows : List κ) : Prop :=
  ∀ row ∈ rows, row ∈ held ∨ ∀ other ∈ held, rank other < rank row

/-- What is held once these rows are taken. -/
def taking (rows : List κ) (held : Set κ) : Set κ :=
  rows.foldr insert held

omit [Store σ κ ω] in
@[simp] theorem mem_taking {rows : List κ} {held : Set κ} {row : κ} :
    row ∈ taking rows held ↔ row ∈ rows ∨ row ∈ held := by
  induction rows with
  | nil => simp [taking]
  | cons first rest inductionHypothesis =>
      have unfolded : taking (first :: rest) held =
          insert first (taking rest held) := rfl
      rw [unfolded, Set.mem_insert_iff, inductionHypothesis, List.mem_cons,
        or_assoc]

omit [Store σ κ ω] in
@[simp] theorem taking_nil {held : Set κ} : taking [] held = held :=
  rfl

omit [Store σ κ ω] in
@[simp] theorem above_nil {held : Set κ} : Above rank held [] := by
  simp [Above]

/-- The locks of a process climb; it gives all of them back before its end. -/
def Proc.Climbs (rank : κ → ι) : Proc σ κ ω ρ → Set κ → Prop
  | .halt _, held => held = ∅
  | .query next, held => ∀ state, (next state).Climbs rank held
  | .lock row next, held =>
      Above rank held [row] ∧ next.Climbs rank (taking [row] held)
  | .write stmt next, held =>
      Above rank held (Store.rows σ stmt) ∧
        next.Climbs rank (taking (Store.rows σ stmt) held)
  | .release _ next, held => ∀ kept ⊆ held, next.Climbs rank kept
  | .commit next, _ => next.Climbs rank ∅
  | .rollback next, _ => next.Climbs rank ∅

/-- A sequence climbs if its parts do. -/
theorem Proc.Climbs.bind
    {first : Proc σ κ ω ρ} {rest : ρ → Proc σ κ ω τ} {held : Set κ}
    (climbs : first.Climbs rank held)
    (later : ∀ result, (rest result).Climbs rank ∅) :
    (first.bind rest).Climbs rank held := by
  induction first generalizing held with
  | halt result =>
      obtain rfl : held = ∅ := climbs
      exact later result
  | query next inductionHypothesis =>
      exact fun state => inductionHypothesis state (climbs state)
  | lock row next inductionHypothesis =>
      exact ⟨climbs.1, inductionHypothesis climbs.2⟩
  | write stmt next inductionHypothesis =>
      exact ⟨climbs.1, inductionHypothesis climbs.2⟩
  | release count next inductionHypothesis =>
      exact fun kept fewer => inductionHypothesis (climbs kept fewer)
  | commit next inductionHypothesis => exact inductionHypothesis climbs
  | rollback next inductionHypothesis => exact inductionHypothesis climbs

namespace Prog

/-- The locks of a block climb, up to its end. -/
def Climbs (rank : κ → ι) :
    Prog σ κ ω ε α → Set κ → (Except ε α → Set κ → Prop) → Prop
  | .done value, held, goal => goal (.ok value) held
  | .fail error, held, goal => goal (.error error) held
  | .query next, held, goal => ∀ state, (next state).Climbs rank held goal
  | .lock row next, held, goal =>
      Above rank held [row] ∧ next.Climbs rank (taking [row] held) goal
  | .write stmt next, held, goal =>
      Above rank held (Store.rows σ stmt) ∧
        next.Climbs rank (taking (Store.rows σ stmt) held) goal
  | .release _ next, held, goal => ∀ kept ⊆ held, next.Climbs rank kept goal

variable {held : Set κ}

/-- A weaker goal follows. -/
theorem Climbs.mono
    {body : Prog σ κ ω ε α} {goal weaker : Except ε α → Set κ → Prop}
    (climbs : body.Climbs rank held goal)
    (weaken : ∀ result later, goal result later → weaker result later) :
    body.Climbs rank held weaker := by
  induction body generalizing held with
  | done value => exact weaken _ _ climbs
  | fail error => exact weaken _ _ climbs
  | query next inductionHypothesis =>
      exact fun state => inductionHypothesis state (climbs state)
  | lock row next inductionHypothesis =>
      exact ⟨climbs.1, inductionHypothesis climbs.2⟩
  | write stmt next inductionHypothesis =>
      exact ⟨climbs.1, inductionHypothesis climbs.2⟩
  | release count next inductionHypothesis =>
      exact fun kept fewer => inductionHypothesis (climbs kept fewer)

/-- A block that climbs does so as steps of a client. -/
theorem Climbs.toProc
    {body : Prog σ κ ω ε α} {goal : Except ε α → Set κ → Prop}
    (climbs : body.Climbs rank held goal) : body.toProc.Climbs rank held := by
  induction body generalizing held with
  | done value => rfl
  | fail error => rfl
  | query next inductionHypothesis =>
      exact fun state => inductionHypothesis state (climbs state)
  | lock row next inductionHypothesis =>
      exact ⟨climbs.1, inductionHypothesis climbs.2⟩
  | write stmt next inductionHypothesis =>
      exact ⟨climbs.1, inductionHypothesis climbs.2⟩
  | release count next inductionHypothesis =>
      exact fun kept fewer => inductionHypothesis (climbs kept fewer)

@[simp] theorem climbs_pure
    {value : α} {goal : Except ε α → Set κ → Prop} :
    (pure value : Prog σ κ ω ε α).Climbs rank held goal ↔
      goal (.ok value) held :=
  Iff.rfl

@[simp] theorem climbs_read
    {get : σ → α} {goal : Except ε α → Set κ → Prop} :
    (read get : Prog σ κ ω ε α).Climbs rank held goal ↔
      ∀ state, goal (.ok (get state)) held :=
  Iff.rfl

@[simp] theorem climbs_lockRow
    {row : κ} {goal : Except ε Unit → Set κ → Prop} :
    (lockRow row : Prog σ κ ω ε Unit).Climbs rank held goal ↔
      Above rank held [row] ∧ goal (.ok ()) (taking [row] held) :=
  Iff.rfl

@[simp] theorem climbs_exec
    {stmt : ω} {goal : Except ε Unit → Set κ → Prop} :
    (exec stmt : Prog σ κ ω ε Unit).Climbs rank held goal ↔
      Above rank held (Store.rows σ stmt) ∧
        goal (.ok ()) (taking (Store.rows σ stmt) held) :=
  Iff.rfl

@[simp] theorem climbs_throw
    {error : ε} {goal : Except ε α → Set κ → Prop} :
    (throw error : Prog σ κ ω ε α).Climbs rank held goal ↔
      goal (.error error) held :=
  Iff.rfl

@[simp] theorem climbs_require
    {guard : Prop} [Decidable guard] {error : ε}
    {goal : Except ε Unit → Set κ → Prop} :
    (require guard error : Prog σ κ ω ε Unit).Climbs rank held goal ↔
      (guard → goal (.ok ()) held) ∧ (¬guard → goal (.error error) held) := by
  by_cases holds : guard <;> simp [require, Climbs, holds]

@[simp] theorem climbs_orFail
    {value : Option α} {error : ε} {goal : Except ε α → Set κ → Prop} :
    (orFail value error : Prog σ κ ω ε α).Climbs rank held goal ↔
      (∀ found, value = some found → goal (.ok found) held) ∧
        (value = none → goal (.error error) held) := by
  cases value <;> simp [orFail, Climbs]

@[simp] theorem climbs_ofExcept
    {value : Except ε α} {goal : Except ε α → Set κ → Prop} :
    (ofExcept value : Prog σ κ ω ε α).Climbs rank held goal ↔
      (∀ found, value = .ok found → goal (.ok found) held) ∧
        ∀ error, value = .error error → goal (.error error) held := by
  cases value <;> simp [ofExcept, Climbs]

@[simp] theorem climbs_orElse
    {value : Option α} {fallback : Prog σ κ ω ε α}
    {goal : Except ε α → Set κ → Prop} :
    (orElse value fallback).Climbs rank held goal ↔
      (∀ found, value = some found → goal (.ok found) held) ∧
        (value = none → fallback.Climbs rank held goal) := by
  cases value <;> simp [orElse, Climbs]

@[simp] theorem climbs_ite
    {condition : Prop} [Decidable condition] {first second : Prog σ κ ω ε α}
    {goal : Except ε α → Set κ → Prop} :
    (if condition then first else second).Climbs rank held goal ↔
      (condition → first.Climbs rank held goal) ∧
        (¬condition → second.Climbs rank held goal) := by
  by_cases holds : condition <;> simp [holds]

@[simp] theorem climbs_bind
    {first : Prog σ κ ω ε α} {rest : α → Prog σ κ ω ε β}
    {goal : Except ε β → Set κ → Prop} :
    (first >>= rest).Climbs rank held goal ↔
      first.Climbs rank held fun result later =>
        match result with
        | .ok value => (rest value).Climbs rank later goal
        | .error error => goal (.error error) later := by
  change (first.bind rest).Climbs rank held goal ↔ _
  induction first generalizing held with
  | done value => exact Iff.rfl
  | fail error => exact Iff.rfl
  | query next inductionHypothesis =>
      exact forall_congr' fun state => inductionHypothesis state
  | lock row next inductionHypothesis =>
      exact and_congr_right fun _ => inductionHypothesis
  | write stmt next inductionHypothesis =>
      exact and_congr_right fun _ => inductionHypothesis
  | release count next inductionHypothesis =>
      exact forall_congr' fun kept => forall_congr' fun _ =>
        inductionHypothesis

/-- A sequence, by what is held between its parts. -/
theorem Climbs.seq
    {first : Prog σ κ ω ε α} {rest : α → Prog σ κ ω ε β}
    {goal : Except ε β → Set κ → Prop} (middle : Set κ → Prop)
    (climbs : first.Climbs rank held fun _ later => middle later)
    (raises : ∀ error later, middle later → goal (.error error) later)
    (next : ∀ value later, middle later →
      (rest value).Climbs rank later goal) :
    (first >>= rest).Climbs rank held goal := by
  refine climbs_bind.mpr (climbs.mono fun result later between => ?_)
  cases result with
  | ok value => exact next value later between
  | error error => exact raises error later between

/-- A block for the value of an option, if there is one. -/
@[simp] theorem climbs_forOption
    {item : Option β} {body : β → Prog σ κ ω ε Unit}
    {goal : Except ε Unit → Set κ → Prop} :
    (forEach item.toList body).Climbs rank held goal ↔
      (∀ found, item = some found → (body found).Climbs rank held goal) ∧
        (item = none → goal (.ok ()) held) := by
  cases item with
  | none => simp [forEach, Climbs]
  | some found =>
      have once : forEach [found] body = body found >>= fun _ => pure () := rfl
      rw [Option.toList_some, once, climbs_bind]
      simp only [Option.some.injEq, forall_eq', reduceCtorEq, false_implies,
        and_true, climbs_pure]
      constructor <;> refine fun climbs => climbs.mono ?_ <;>
        intro result later reached <;> cases result <;> exact reached

/-- An update of one row, if it matches. -/
@[simp] theorem climbs_updateOne {τ : Type}
    {key : τ} {holds : τ → σ → Bool} {row : τ → κ} {stmt : τ → ω}
    {goal : Except ε Nat → Set κ → Prop} :
    (updateWhere (fun _ => [key]) holds row stmt :
        Prog σ κ ω ε Nat).Climbs rank held goal ↔
      ∀ state, (holds key state = true → Above rank held [row key] ∧
          ∀ now, (holds key now = true →
              Above rank (taking [row key] held) (Store.rows σ (stmt key)) ∧
                goal (.ok 1)
                  (taking (Store.rows σ (stmt key))
                    (taking [row key] held))) ∧
            (holds key now = false → goal (.ok 0) (taking [row key] held))) ∧
        (holds key state = false → goal (.ok 0) held) := by
  refine forall_congr' fun state => ?_
  cases matching : holds key state with
  | false => simp [matching, updateEach, Climbs]
  | true =>
      simp only [List.filter_cons, matching, List.filter_nil, if_true,
        updateEach, Climbs, true_implies, Bool.true_eq_false, false_implies,
        and_true]
      refine and_congr_right fun _ => forall_congr' fun now => ?_
      cases still : holds key now with
      | false => simp [Climbs]
      | true => simp [Prog.bind, Climbs]

/-- What a handler goes on with holds what was held at the error. -/
theorem climbs_tryCatch
    {body : Prog σ κ ω ε α} {handler : ε → Prog σ κ ω ε α}
    {goal : Except ε α → Set κ → Prop}
    (climbs : body.Climbs rank held fun result later =>
      match result with
      | .ok value => goal (.ok value) later
      | .error error => (handler error).Climbs rank later goal) :
    (body.tryCatch handler).Climbs rank held goal := by
  induction body generalizing held with
  | done value => exact climbs
  | fail error => exact climbs
  | query next inductionHypothesis =>
      exact fun state => inductionHypothesis state (climbs state)
  | lock row next inductionHypothesis =>
      exact ⟨climbs.1, inductionHypothesis climbs.2⟩
  | write stmt next inductionHypothesis =>
      exact ⟨climbs.1, inductionHypothesis climbs.2⟩
  | release count next inductionHypothesis =>
      exact fun kept fewer => inductionHypothesis (climbs kept fewer)

/-- Rows that are held are locked and written at any time. -/
theorem climbs_writeAll
    {stmts : List ω} {next : Prog σ κ ω ε α}
    {goal : Except ε α → Set κ → Prop}
    (own : ∀ row ∈ rowsOf σ stmts, row ∈ held)
    (climbs : next.Climbs rank held goal) :
    (writeAll stmts next).Climbs rank held goal := by
  induction stmts with
  | nil => exact climbs
  | cons stmt rest inductionHypothesis =>
      have mine : ∀ row ∈ Store.rows σ stmt, row ∈ held := fun row member =>
        own row (List.mem_append_left _ member)
      have same : taking (Store.rows σ stmt) held = held := by
        ext row
        simpa using mine row
      refine ⟨fun row member => .inl (mine row member), ?_⟩
      rw [same]
      exact inductionHypothesis fun row member =>
        own row (List.mem_append_right _ member)

/-- Rows that are needed at once can be locked one after the other. -/
theorem climbs_lockAll
    {rows : List κ} {next : Prog σ κ ω ε α}
    {goal : Except ε α → Set κ → Prop} (distinct : rows.length ≤ 1)
    (above : Above rank held rows)
    (climbs : next.Climbs rank (taking rows held) goal) :
    (lockAll rows next).Climbs rank held goal := by
  rcases rows with _ | ⟨row, _ | ⟨other, rest⟩⟩
  · exact climbs
  · exact ⟨above, climbs⟩
  · simp at distinct

/--
A nested block without savepoints of its own, each of whose statements locks
one row at most: a handler may have lost any of the locks.
-/
theorem climbs_attempt
    {body : Prog σ κ ω ε α} {handler : ε → Prog σ κ ω ε α}
    {goal : Except ε α → Set κ → Prop}
    (single : body.Emits (fun effect => ∃ stmt, effect = .write stmt ∧
      (Store.rows σ stmt).length ≤ 1) fun _ => True)
    (climbs : body.Climbs rank held fun result later =>
      match result with
      | .ok value => goal (.ok value) later
      | .error error =>
          ∀ kept ⊆ later, (handler error).Climbs rank kept goal) :
    (attempt body handler).Climbs rank held goal := by
  suffices general : ∀ pending taken held,
      (∀ row ∈ rowsOf σ pending, row ∈ held) →
      (body.Climbs rank held fun result later =>
        match result with
        | .ok value => goal (.ok value) later
        | .error error =>
            ∀ kept ⊆ later, (handler error).Climbs rank kept goal) →
      (attemptFrom handler pending taken body).Climbs rank held goal from
    general [] 0 held (by simp [rowsOf]) climbs
  clear climbs
  induction body with
  | done value =>
      exact fun pending taken held own climbs => climbs_writeAll own climbs
  | fail error => exact fun pending taken held own climbs => climbs
  | query next inductionHypothesis =>
      exact fun pending taken held own climbs state =>
        inductionHypothesis _ (single _) pending taken held own (climbs _)
  | lock row next inductionHypothesis =>
      intro pending taken held own climbs
      refine ⟨climbs.1, inductionHypothesis single pending (taken + 1) _
        (fun other member => ?_) climbs.2⟩
      exact mem_taking.mpr (.inr (own other member))
  | write stmt next inductionHypothesis =>
      intro pending taken held own climbs
      obtain ⟨_, same, few⟩ := single.1
      obtain rfl : stmt = _ := Effect.write.inj same
      refine climbs_lockAll few climbs.1 (inductionHypothesis single.2 _ _ _
        (fun row member => ?_) climbs.2)
      simp only [rowsOf, List.flatMap_append, List.mem_append,
        List.flatMap_singleton] at member
      rcases member with earlier | last
      · exact mem_taking.mpr (.inr (own row earlier))
      · exact mem_taking.mpr (.inl last)
  | release count next inductionHypothesis =>
      obtain ⟨_, same, _⟩ := single.1
      cases same

end Prog

namespace Request

/-- The locks of a request climb. -/
def Climbs (rank : κ → ι) (request : Request σ κ ω ε α) : Prop :=
  Proc.Climbs rank request ∅

/-- A sequence climbs if its parts do. -/
theorem Climbs.bind
    {first : Request σ κ ω ε α} {rest : α → Request σ κ ω ε β}
    (climbs : first.Climbs rank) (later : ∀ value, (rest value).Climbs rank) :
    (first >>= rest).Climbs rank := by
  refine Proc.Climbs.bind climbs fun result => ?_
  cases result with
  | ok value => exact later value
  | error error => rfl

@[simp] theorem climbs_pure {value : α} :
    (pure value : Request σ κ ω ε α).Climbs rank :=
  rfl

@[simp] theorem climbs_throw {error : ε} :
    (throw error : Request σ κ ω ε α).Climbs rank :=
  rfl

@[simp] theorem climbs_load {get : σ → α} :
    (load get : Request σ κ ω ε α).Climbs rank :=
  fun _ => rfl

@[simp] theorem climbs_require
    {guard : Prop} [Decidable guard] {error : ε} :
    (require guard error : Request σ κ ω ε Unit).Climbs rank := by
  by_cases holds : guard <;> simp [Climbs, require, Proc.Climbs, holds]

@[simp] theorem climbs_orFail {value : Option α} {error : ε} :
    (orFail value error : Request σ κ ω ε α).Climbs rank := by
  cases value <;> rfl

@[simp] theorem climbs_ofExcept {value : Except ε α} :
    (ofExcept value : Request σ κ ω ε α).Climbs rank := by
  cases value <;> rfl

theorem climbs_ite
    {condition : Prop} [Decidable condition]
    {first second : Request σ κ ω ε α}
    (climbs : first.Climbs rank) (other : second.Climbs rank) :
    (if condition then first else second).Climbs rank := by
  by_cases holds : condition <;> simp [holds, climbs, other]

/-- A block that climbs from no lock. -/
theorem climbs_atomic
    {body : Prog σ κ ω ε α}
    (climbs : body.Climbs rank ∅ fun _ _ => True) :
    (atomic body).Climbs rank :=
  climbs.toProc

theorem climbs_tryCatch
    {body : Request σ κ ω ε α} {handler : ε → Request σ κ ω ε α}
    (climbs : body.Climbs rank) (handled : ∀ error, (handler error).Climbs rank) :
    (tryCatch body handler).Climbs rank := by
  refine Proc.Climbs.bind climbs fun result => ?_
  cases result with
  | ok value => rfl
  | error error => exact handled error

theorem climbs_forEach
    {items : List β} {body : β → Request σ κ ω ε Unit}
    (climbs : ∀ item, (body item).Climbs rank) :
    (forEach items body).Climbs rank := by
  induction items with
  | nil => rfl
  | cons item rest inductionHypothesis =>
      exact .bind (climbs item) fun _ => inductionHypothesis

end Request

end Climbs

/-! ## Steps to the end -/

section Progress

variable {σ κ ω ρ ι : Type}

/-- The rows that the next step of a process needs. -/
def Proc.wants (σ : Type) [Store σ κ ω] : Proc σ κ ω ρ → List κ
  | .lock row _ => [row]
  | .write stmt _ => Store.rows σ stmt
  | _ => []

/-- What is left of a process after its next step. -/
inductive Proc.Next : Proc σ κ ω ρ → Proc σ κ ω ρ → Prop where
  | query (next : σ → Proc σ κ ω ρ) (state : σ) : Next (next state) (.query next)
  | lock (row : κ) (next : Proc σ κ ω ρ) : Next next (.lock row next)
  | write (stmt : ω) (next : Proc σ κ ω ρ) : Next next (.write stmt next)
  | release (count : Nat) (next : Proc σ κ ω ρ) :
      Next next (.release count next)
  | commit (next : Proc σ κ ω ρ) : Next next (.commit next)
  | rollback (next : Proc σ κ ω ρ) : Next next (.rollback next)

/-- Every process takes finitely many steps. -/
theorem Proc.next_wellFounded :
    WellFounded (Proc.Next : Proc σ κ ω ρ → Proc σ κ ω ρ → Prop) := by
  refine ⟨fun proc => ?_⟩
  induction proc with
  | halt result => exact .intro _ fun _ less => by cases less
  | query next inductionHypothesis =>
      refine .intro _ fun _ less => ?_
      cases less with
      | query _ state => exact inductionHypothesis state
  | lock row next inductionHypothesis =>
      refine .intro _ fun _ less => ?_
      cases less
      exact inductionHypothesis
  | write stmt next inductionHypothesis =>
      refine .intro _ fun _ less => ?_
      cases less
      exact inductionHypothesis
  | release count next inductionHypothesis =>
      refine .intro _ fun _ less => ?_
      cases less
      exact inductionHypothesis
  | commit next inductionHypothesis =>
      refine .intro _ fun _ less => ?_
      cases less
      exact inductionHypothesis
  | rollback next inductionHypothesis =>
      refine .intro _ fun _ less => ?_
      cases less
      exact inductionHypothesis

namespace System

/-- The rows that a client holds. -/
def held (system : System σ κ ω ρ) (client : Nat) : Set κ :=
  {row | (client, row) ∈ system.locks}

variable [Store σ κ ω] [Preorder ι] {rank : κ → ι}
  {system : System σ κ ω ρ}

/-- The locks of every client climb. -/
structure Climbing (rank : κ → ι) (system : System σ κ ω ρ) : Prop where
  exclusive : ∀ first second row,
    (first, row) ∈ system.locks → (second, row) ∈ system.locks →
      first = second
  climbs : ∀ client,
    (system.clients client).proc.Climbs rank (system.held client)
  owned : ∀ client, ∀ row ∈ rowsOf σ (system.clients client).writes,
    row ∈ system.held client

/-- Requests that climb start so. -/
theorem climbing_init
    {state : σ} {requests : Nat → Proc σ κ ω ρ}
    (climbs : ∀ client, (requests client).Climbs rank ∅) :
    (init state requests).Climbing rank where
  exclusive := by simp [init]
  climbs := by simpa [init, held] using climbs
  owned := by simp [init, rowsOf]

/-- A step of one client keeps the others climbing. -/
theorem Climbing.update
    (climbing : system.Climbing rank) (client : Nat) (moved : Client σ κ ω ρ)
    {next : System σ κ ω ρ}
    (clients : next.clients = system.setClient client moved)
    (exclusive : ∀ first second row,
      (first, row) ∈ next.locks → (second, row) ∈ next.locks → first = second)
    (others : ∀ other, other ≠ client → next.held other = system.held other)
    (climbs : moved.proc.Climbs rank (next.held client))
    (owned : ∀ row ∈ rowsOf σ moved.writes, row ∈ next.held client) :
    next.Climbing rank where
  exclusive := exclusive
  climbs := by
    intro other
    by_cases same : other = client
    · subst same
      simpa [clients] using climbs
    · rw [others other same, clients, setClient_other system same]
      exact climbing.climbs other
  owned := by
    intro other
    by_cases same : other = client
    · subst same
      simpa [clients] using owned
    · rw [others other same, clients, setClient_other system same]
      exact climbing.owned other

omit [Store σ κ ω] in
/-- At the end of a transaction the others hold what they held. -/
theorem held_othersLocks
    {next : System σ κ ω ρ} {client : Nat}
    (locks : next.locks = system.othersLocks client) :
    next.held client = ∅ ∧
      ∀ other, other ≠ client → next.held other = system.held other := by
  constructor
  · ext row
    simp [held, locks, othersLocks]
  · intro other different
    ext row
    simp [held, locks, othersLocks, different]

/-- The end of a transaction keeps all clients climbing. -/
theorem Climbing.close
    (climbing : system.Climbing rank) (client : Nat) {proc : Proc σ κ ω ρ}
    {next : System σ κ ω ρ}
    (clients : next.clients = system.setClient client ⟨proc, []⟩)
    (locks : next.locks = system.othersLocks client)
    (climbs : proc.Climbs rank ∅) : next.Climbing rank := by
  obtain ⟨none, others⟩ := held_othersLocks locks
  refine climbing.update client ⟨proc, []⟩ clients ?_ others ?_ (by simp [rowsOf])
  · intro first second row firstTaken secondTaken
    rw [locks] at firstTaken secondTaken
    exact climbing.exclusive first second row
      (List.mem_of_mem_filter firstTaken) (List.mem_of_mem_filter secondTaken)
  · rw [none]
    exact climbs

omit [Store σ κ ω] in
/-- Who takes rows holds them besides. -/
theorem held_taking
    {next : System σ κ ω ρ} {client : Nat} {rows : List κ}
    (locks : next.locks = rows.map (client, ·) ++ system.locks) :
    next.held client = taking rows (system.held client) ∧
      ∀ other, other ≠ client → next.held other = system.held other := by
  constructor
  · ext row
    simp [held, locks]
  · intro other different
    ext row
    simp [held, locks, Ne.symm different]

/-- Taking free rows keeps all clients climbing. -/
theorem Climbing.take
    (climbing : system.Climbing rank) {client : Nat} {rows : List κ}
    (free : system.Free client rows) {moved : Client σ κ ω ρ}
    {next : System σ κ ω ρ}
    (clients : next.clients = system.setClient client moved)
    (locks : next.locks = rows.map (client, ·) ++ system.locks)
    (climbs : moved.proc.Climbs rank (taking rows (system.held client)))
    (owned : ∀ row ∈ rowsOf σ moved.writes,
      row ∈ rows ∨ row ∈ system.held client) : next.Climbing rank := by
  obtain ⟨mine, others⟩ := held_taking locks
  refine climbing.update client moved clients ?_ others ?_ ?_
  · rw [locks]
    exact exclusive_append rows climbing.exclusive free
  · rw [mine]
    exact climbs
  · rw [mine]
    exact fun row member => mem_taking.mpr (owned row member)

variable [DecidableEq κ]

/-- A turn keeps all clients climbing. -/
theorem Climbing.turn (climbing : system.Climbing rank) (client : Nat) :
    (system.turn client).Climbing rank := by
  have climbs := climbing.climbs client
  have owned := climbing.owned client
  rcases shape : system.clients client with ⟨proc, writes⟩
  simp only [shape] at climbs owned
  simp only [System.turn, shape]
  cases proc with
  | halt result => exact climbing
  | query next =>
      exact climbing.update client _ rfl climbing.exclusive (fun _ _ => rfl)
        (climbs _) owned
  | lock row next =>
      by_cases free : system.Free client [row]
      · simp only [free, ↓reduceIte]
        exact climbing.take free rfl rfl climbs.2 fun other member =>
          .inr (owned other member)
      · simpa only [free, ↓reduceIte] using climbing
  | write stmt next =>
      by_cases free : system.Free client (Store.rows σ stmt)
      · simp only [free, ↓reduceIte]
        refine climbing.take free rfl rfl climbs.2 fun row member => ?_
        simp only [rowsOf, List.flatMap_append, List.mem_append,
          List.flatMap_singleton] at member
        exact member.symm.imp_right (owned row)
      · simpa only [free, ↓reduceIte] using climbing
  | release count next =>
      have kept : ∀ entry ∈ (rowsOf σ writes).map (client, ·) ++
          dropLocks client count system.locks, entry ∈ system.locks := by
        intro entry member
        rcases List.mem_append.mp member with written | other
        · obtain ⟨row, inside, rfl⟩ := List.mem_map.mp written
          exact owned row inside
        · exact mem_of_mem_dropLocks other
      refine climbing.update client ⟨next, writes⟩ rfl
        (fun first second row firstTaken secondTaken =>
          climbing.exclusive first second row (kept _ firstTaken)
            (kept _ secondTaken)) ?_ (climbs _ fun row member => kept _ member) ?_
      · intro other different
        ext row
        refine ⟨fun member => kept _ member, fun member => ?_⟩
        exact List.mem_append_right _ (mem_dropLocks_of_ne member different)
      · exact fun row member => List.mem_append_left _
          (List.mem_map.mpr ⟨row, member, rfl⟩)
  | commit next => exact climbing.close client rfl rfl climbs
  | rollback next => exact climbing.close client rfl rfl climbs

/-- Every event keeps all clients climbing. -/
theorem Climbing.step
    (climbing : system.Climbing rank) (event : Event ρ) :
    (system.step event).Climbing rank := by
  cases event with
  | run client => exact climbing.turn client
  | kill client result => exact climbing.close client rfl rfl rfl

/-- So it is in every run. -/
theorem Climbing.reach
    {condition : List ω → σ → Prop} {start : System σ κ ω ρ}
    (climbing : start.Climbing rank)
    (reach : Reach condition start system) : system.Climbing rank := by
  induction reach with
  | refl => exact climbing
  | step event _ _ inductionHypothesis => exact inductionHypothesis.step event

/-- A client with work left that waits for no row. -/
def Moves (system : System σ κ ω ρ) (client : Nat) : Prop :=
  (system.clients client).proc.ended = false ∧
    system.Free client ((system.clients client).proc.wants σ)

instance (system : System σ κ ω ρ) (client : Nat) :
    Decidable (system.Moves client) :=
  inferInstanceAs (Decidable (_ ∧ _))

omit [DecidableEq κ] in
/-- Whoever holds a row of the highest rank can move. -/
theorem Climbing.topmost_moves
    (climbing : system.Climbing rank) (some : system.locks ≠ []) :
    ∃ entry ∈ system.locks, system.Moves entry.1 := by
  obtain ⟨entry, top⟩ := Set.Finite.exists_maximalFor
    (fun entry : Nat × κ => rank entry.2) {entry | entry ∈ system.locks}
    (List.finite_toSet system.locks) (List.exists_mem_of_ne_nil _ some)
  refine ⟨entry, top.1, ?_, ?_⟩
  · by_contra ended
    have climbs := climbing.climbs entry.1
    cases shape : (system.clients entry.1).proc with
    | halt result =>
        rw [shape] at climbs
        have none : system.held entry.1 = ∅ := climbs
        have mine : entry.2 ∈ system.held entry.1 := top.1
        simp [none] at mine
    | _ => simp [shape, Proc.ended] at ended
  · intro other taken different wanted
    have above : Above rank (system.held entry.1)
        ((system.clients entry.1).proc.wants σ) := by
      have climbs := climbing.climbs entry.1
      cases shape : (system.clients entry.1).proc with
      | lock row next =>
          rw [shape] at climbs
          exact climbs.1
      | write stmt next =>
          rw [shape] at climbs
          exact climbs.1
      | _ => simp [Above, Proc.wants]
    rcases above other.2 wanted with mine | higher
    · exact different (climbing.exclusive _ _ _ taken mine)
    · have less : rank entry.2 < rank other.2 := higher entry.2 top.1
      exact lt_irrefl _ (less.trans_le (top.2 taken less.le))

/-- If somebody has work left, somebody can move. -/
theorem Climbing.moves
    (climbing : system.Climbing rank) {client : Nat}
    (running : (system.clients client).proc.ended = false) :
    ∃ mover, (mover = client ∨ ∃ row, (mover, row) ∈ system.locks) ∧
      system.Moves mover := by
  by_cases free : system.Free client ((system.clients client).proc.wants σ)
  · exact ⟨client, .inl rfl, running, free⟩
  · have some : system.locks ≠ [] := by
      rintro none
      simp [Free, none] at free
    obtain ⟨entry, taken, moves⟩ := climbing.topmost_moves some
    exact ⟨entry.1, .inr ⟨entry.2, taken⟩, moves⟩

/-- Who can move has less work left after a turn. -/
theorem Moves.next {client : Nat} (moves : system.Moves client) :
    Proc.Next ((system.turn client).clients client).proc
      (system.clients client).proc := by
  obtain ⟨running, free⟩ := moves
  rcases shape : system.clients client with ⟨proc, writes⟩
  simp only [shape] at running free
  simp only [System.turn, shape]
  cases proc with
  | halt result => simp [Proc.ended] at running
  | query next => simpa using .query next _
  | lock row next =>
      have granted : system.Free client [row] := free
      simpa [granted] using .lock row next
  | write stmt next =>
      have granted : system.Free client (Store.rows σ stmt) := free
      simpa [granted] using .write stmt next
  | release count next => simpa using .release count next
  | commit next => simpa using .commit next
  | rollback next => simpa using .rollback next

/-- A turn gives locks to its client only. -/
theorem turn_owner
    {client : Nat} {entry : Nat × κ}
    (taken : entry ∈ (system.turn client).locks)
    (different : entry.1 ≠ client) : entry ∈ system.locks := by
  rcases shape : system.clients client with ⟨proc, writes⟩
  simp only [System.turn, shape] at taken
  cases proc with
  | halt result => exact taken
  | query next => exact taken
  | lock row next =>
      simp only at taken
      split_ifs at taken
      · exact (List.mem_cons.mp taken).resolve_left fun same =>
          different (congrArg Prod.fst same)
      · exact taken
  | write stmt next =>
      simp only at taken
      split_ifs at taken
      · refine (List.mem_append.mp taken).resolve_left fun mine => ?_
        obtain ⟨row, _, rfl⟩ := List.mem_map.mp mine
        exact different rfl
      · exact taken
  | release count next =>
      refine mem_of_mem_dropLocks ((List.mem_append.mp taken).resolve_left
        fun mine => ?_)
      obtain ⟨row, _, rfl⟩ := List.mem_map.mp mine
      exact different rfl
  | commit next => exact List.mem_of_mem_filter taken
  | rollback next => exact List.mem_of_mem_filter taken

/-- Clients among which all locks are come to the end of each of them. -/
theorem Climbing.completes_within
    (crew : Finset Nat) {client : Nat} (member : client ∈ crew)
    (climbing : system.Climbing rank)
    (owners : ∀ entry ∈ system.locks, entry.1 ∈ crew) :
    ∃ schedule : List Nat,
      ((system.runAll (schedule.map .run)).clients client).proc.ended =
        true := by
  -- the work of the crew is replaced by less work of one of its members
  induction left : crew.val.map fun other => (system.clients other).proc using
    (WellFounded.cutExpand Proc.next_wellFounded).induction
    generalizing system with
  | h work inductionHypothesis =>
      by_cases ended : (system.clients client).proc.ended = true
      · exact ⟨[], ended⟩
      obtain ⟨mover, holds, moves⟩ := climbing.moves (by simpa using ended)
      have aboard : mover ∈ crew := by
        rcases holds with rfl | ⟨row, taken⟩
        · exact member
        · exact owners _ taken
      have less : Relation.CutExpand Proc.Next
          (crew.val.map fun other => ((system.turn mover).clients other).proc)
          work := by
        refine ⟨{((system.turn mover).clients mover).proc},
          (system.clients mover).proc, by simpa using moves.next, ?_⟩
        have split : crew.val = mover ::ₘ (crew.erase mover).val := by
          rw [Finset.erase_val, Multiset.cons_erase aboard]
        have same : (crew.erase mover).val.map (fun other =>
              ((system.turn mover).clients other).proc) =
            (crew.erase mover).val.map fun other =>
              (system.clients other).proc :=
          Multiset.map_congr rfl fun other others => by
            rw [turn_other (Finset.ne_of_mem_erase others)]
        rw [← left, split, Multiset.map_cons, Multiset.map_cons, same,
          ← Multiset.singleton_add, ← Multiset.singleton_add, add_right_comm,
          add_comm {((system.turn mover).clients mover).proc}, add_right_comm]
      have aboards : ∀ entry ∈ (system.turn mover).locks, entry.1 ∈ crew := by
        intro entry taken
        by_cases own : entry.1 = mover
        · exact own ▸ aboard
        · exact owners entry (turn_owner taken own)
      obtain ⟨schedule, ends⟩ :=
        inductionHypothesis _ less (climbing.turn mover) aboards rfl
      exact ⟨mover :: schedule, ends⟩

/-- Every client can be run to its end. -/
theorem Climbing.completes
    (climbing : system.Climbing rank) (client : Nat) :
    ∃ schedule : List Nat,
      ((system.runAll (schedule.map .run)).clients client).proc.ended =
        true := by
  refine climbing.completes_within
    (insert client (system.locks.map Prod.fst).toFinset) (by simp)
    fun entry taken => ?_
  simp only [Finset.mem_insert, List.mem_toFinset, List.mem_map]
  exact .inr ⟨entry, taken, rfl⟩

/-- A client that has ended has no more turns. -/
theorem ended_turn {client mover : Nat}
    (ended : (system.clients client).proc.ended = true) :
    ((system.turn mover).clients client).proc.ended = true := by
  by_cases same : client = mover
  · subst same
    cases shape : (system.clients client).proc with
    | halt result => simpa [turn, shape] using ended
    | _ => simp [shape, Proc.ended] at ended
  · rwa [turn_other same]

/-- Turns keep all clients climbing, and the ended ones ended. -/
theorem Climbing.turns
    (climbing : system.Climbing rank) (schedule : List Nat) :
    (system.runAll (schedule.map .run)).Climbing rank ∧
      ∀ client, (system.clients client).proc.ended = true →
        ((system.runAll (schedule.map .run)).clients client).proc.ended =
          true := by
  induction schedule generalizing system with
  | nil => exact ⟨climbing, fun _ ended => ended⟩
  | cons mover rest inductionHypothesis =>
      obtain ⟨still, stays⟩ := inductionHypothesis (climbing.turn mover)
      exact ⟨still, fun client ended => stays client (ended_turn ended)⟩

/-- So can any number of clients together. -/
theorem Climbing.all_complete
    (climbing : system.Climbing rank) (clients : List Nat) :
    ∃ schedule : List Nat, ∀ client ∈ clients,
      ((system.runAll (schedule.map .run)).clients client).proc.ended =
        true := by
  induction clients with
  | nil => exact ⟨[], by simp⟩
  | cons client rest inductionHypothesis =>
      obtain ⟨earlier, done⟩ := inductionHypothesis
      obtain ⟨later, ends⟩ := (climbing.turns earlier).1.completes client
      refine ⟨earlier ++ later, ?_⟩
      rw [List.map_append, runAll, List.foldl_append]
      refine List.forall_mem_cons.mpr ⟨ends, fun other member => ?_⟩
      exact ((climbing.turns earlier).1.turns later).2 other (done other member)

end System

end Progress

end Transaction
