import KnowledgeMarketplace.Transaction.Journal

/-!
# What requests have seen

A journal of looks keeps, for each request, the committed states that it has
read from so far.  What a request commits may depend on any of them; they all
lie in the past of the same run, whoever has committed since.
-/

namespace Transaction

/-- The states that a request has looked at, the latest first. -/
def Journal.looks {σ ω : Type} : Journal σ ω (List σ) where
  look seen state := state :: seen
  commit seen _ := seen
  close _ := []
  abort _ := []

/-- What a request has read from so far, and what it has committed. -/
structure Memory (σ ω : Type) where
  looks : List σ := []
  done : List ω := []

/-- The journal of looks and of commits. -/
def Journal.memory {σ ω : Type} : Journal σ ω (Memory σ ω) where
  look memory state := { memory with looks := state :: memory.looks }
  commit memory stmts := { memory with done := memory.done ++ stmts }
  close _ := {}
  abort _ := {}

section Recalls

variable {σ κ ω ε α β ρ π : Type} [Store σ κ ω]

/-- Each statement is good for what was seen. -/
def recalls (good : List σ → Effect ω → Prop) (seen : List σ)
    (stmts : List ω) : Prop :=
  ∀ stmt ∈ stmts, good seen (.write stmt)

namespace Prog

/-- What a block ends with, the states it has seen and what it has written. -/
def Sees : Prog σ κ ω ε α → List σ → List ω →
    (Except ε α → List σ → List ω → Prop) → Prop
  | .done value, seen, writes, goal => goal (.ok value) seen writes
  | .fail error, seen, writes, goal => goal (.error error) seen writes
  | .query next, seen, writes, goal =>
      ∀ state, (next (applyAll writes state)).Sees (state :: seen) writes goal
  | .lock _ next, seen, writes, goal => next.Sees seen writes goal
  | .write stmt next, seen, writes, goal =>
      next.Sees seen (writes ++ [stmt]) goal
  | .release _ next, seen, writes, goal => next.Sees seen writes goal

variable {seen : List σ} {writes : List ω}

@[simp] theorem sees_read
    {get : σ → α} {goal : Except ε α → List σ → List ω → Prop} :
    (read get : Prog σ κ ω ε α).Sees seen writes goal ↔
      ∀ state, goal (.ok (get (applyAll writes state))) (state :: seen)
        writes :=
  Iff.rfl

@[simp] theorem sees_exec
    {stmt : ω} {goal : Except ε Unit → List σ → List ω → Prop} :
    (exec stmt : Prog σ κ ω ε Unit).Sees seen writes goal ↔
      goal (.ok ()) seen (writes ++ [stmt]) :=
  Iff.rfl

@[simp] theorem sees_pure
    {value : α} {goal : Except ε α → List σ → List ω → Prop} :
    (pure value : Prog σ κ ω ε α).Sees seen writes goal ↔
      goal (.ok value) seen writes :=
  Iff.rfl

@[simp] theorem sees_require
    {guard : Prop} [Decidable guard] {error : ε}
    {goal : Except ε Unit → List σ → List ω → Prop} :
    (require guard error : Prog σ κ ω ε Unit).Sees seen writes goal ↔
      (guard → goal (.ok ()) seen writes) ∧
        (¬guard → goal (.error error) seen writes) := by
  by_cases holds : guard <;> simp [require, Sees, holds]

@[simp] theorem sees_orFail
    {value : Option α} {error : ε} {goal : Except ε α → List σ → List ω → Prop} :
    (orFail value error : Prog σ κ ω ε α).Sees seen writes goal ↔
      (∀ found, value = some found → goal (.ok found) seen writes) ∧
        (value = none → goal (.error error) seen writes) := by
  cases value <;> simp [orFail, Sees]

@[simp] theorem sees_lockRow
    {row : κ} {goal : Except ε Unit → List σ → List ω → Prop} :
    (lockRow row : Prog σ κ ω ε Unit).Sees seen writes goal ↔
      goal (.ok ()) seen writes :=
  Iff.rfl

@[simp] theorem sees_ofExcept
    {value : Except ε α} {goal : Except ε α → List σ → List ω → Prop} :
    (ofExcept value : Prog σ κ ω ε α).Sees seen writes goal ↔
      goal value seen writes := by
  cases value <;> exact Iff.rfl

@[simp] theorem sees_ite
    {condition : Prop} [Decidable condition] {first second : Prog σ κ ω ε α}
    {goal : Except ε α → List σ → List ω → Prop} :
    (if condition then first else second).Sees seen writes goal ↔
      (condition → first.Sees seen writes goal) ∧
        (¬condition → second.Sees seen writes goal) := by
  by_cases holds : condition <;> simp [holds]

@[simp] theorem sees_bind
    {first : Prog σ κ ω ε α} {rest : α → Prog σ κ ω ε β}
    {goal : Except ε β → List σ → List ω → Prop} :
    (first >>= rest).Sees seen writes goal ↔
      first.Sees seen writes fun result later stmts =>
        match result with
        | .ok value => (rest value).Sees later stmts goal
        | .error error => goal (.error error) later stmts := by
  change (first.bind rest).Sees seen writes goal ↔ _
  induction first generalizing seen writes with
  | done value => exact Iff.rfl
  | fail error => exact Iff.rfl
  | query next inductionHypothesis =>
      exact forall_congr' fun state => inductionHypothesis _
  | lock row next inductionHypothesis => exact inductionHypothesis
  | write stmt next inductionHypothesis => exact inductionHypothesis
  | release count next inductionHypothesis => exact inductionHypothesis

end Prog

namespace Request

variable {journal : Journal σ ω π} {promise : π → List ω → Prop}
  {notes : π} {pending : List ω}

@[simp] theorem follows_tryCatch
    {body : Request σ κ ω ε α} {handler : ε → Request σ κ ω ε α}
    {goal : Except ε α → π → List ω → Prop} :
    (tryCatch body handler).Follows journal promise notes pending goal ↔
      body.Follows journal promise notes pending fun result later stmts =>
        match result with
        | .ok value => goal (.ok value) later stmts
        | .error error =>
            (handler error).Follows journal promise later stmts goal := by
  refine Proc.follows_bind.trans ?_
  constructor <;> refine fun holds => Proc.Follows.mono holds ?_ <;>
    intro result later stmts reached <;> cases result <;> exact reached

/-- The value of a request may be ignored. -/
theorem follows_discard
    {request : Request σ κ ω ε α} {goal : List ω → Prop}
    (follows : request.Follows journal promise notes []
      fun _ _ stmts => goal stmts) :
    (do
      let _ ← request
      return () : Request σ κ ω ε Unit).Follows journal promise notes []
      fun _ _ stmts => goal stmts := by
  refine follows_bind.mpr (follows.mono ?_)
  intro result after stmts reached
  cases result <;> exact reached

/-- A loop that ends with its first failure, and an invariant of the notes. -/
theorem follows_each
    {items : List β} {body : β → Request σ κ ω ε Unit} (invariant : π → Prop)
    (round : ∀ item ∈ items, ∀ later, invariant later →
      (body item).Follows journal promise later [] fun _ after stmts =>
        stmts = [] ∧ invariant after)
    (start : invariant notes) :
    (forEach items body).Follows journal promise notes []
      fun _ after stmts => stmts = [] ∧ invariant after := by
  induction items generalizing notes with
  | nil => exact ⟨rfl, start⟩
  | cons item rest inductionHypothesis =>
      refine follows_bind.mpr ((round item (by simp) notes start).mono ?_)
      rintro result later stmts ⟨rfl, kept⟩
      cases result with
      | ok value =>
          exact inductionHypothesis
            (fun other member => round other (by simp [member])) kept
      | error error => exact ⟨rfl, kept⟩

omit [Store σ κ ω] in
/-- What is good in each respect is as good as that makes it. -/
theorem emits_of_all {ι : Type} [Nonempty ι]
    (good : ι → Effect ω → Prop) {whole : Effect ω → Prop}
    {request : Request σ κ ω ε α} {goal : Except ε α → Prop}
    (emits : ∀ index, request.Emits (good index) goal)
    (enough : ∀ effect, (∀ index, good index effect) → whole effect) :
    request.Emits whole goal := by
  unfold Emits at emits ⊢
  unfold Request at request
  induction request with
  | halt result => exact emits (Classical.arbitrary ι)
  | query next inductionHypothesis =>
      exact fun state => inductionHypothesis state fun index =>
        emits index state
  | lock row next inductionHypothesis => exact inductionHypothesis emits
  | write stmt next inductionHypothesis =>
      exact ⟨enough _ fun index => (emits index).1,
        inductionHypothesis fun index => (emits index).2⟩
  | release count next inductionHypothesis =>
      exact ⟨enough _ fun index => (emits index).1,
        inductionHypothesis fun index => (emits index).2⟩
  | commit next inductionHypothesis => exact inductionHypothesis emits
  | rollback next inductionHypothesis => exact inductionHypothesis emits

variable {good : List σ → Effect ω → Prop} {seen : List σ}

/-- What is emitted whatever is read needs no look. -/
theorem follows_of_emitted
    {plain : Effect ω → Prop} {request : Request σ κ ω ε α}
    (emits : request.Emits plain fun _ => True)
    (allowed : ∀ later effect, seen ⊆ later → plain effect →
      good later effect) :
    request.Follows .looks (recalls good) seen [] fun _ _ _ => True := by
  suffices general : ∀ later pending, seen ⊆ later →
      (∀ stmt ∈ pending, plain (.write stmt)) →
      Proc.Follows .looks (recalls good) request later pending
        fun _ _ _ => True from
    general seen [] (List.Subset.refl seen) (by simp)
  unfold Emits at emits
  unfold Request at request
  induction request with
  | halt value => exact fun _ _ _ _ => trivial
  | query next inductionHypothesis =>
      intro later pending more all state
      exact inductionHypothesis _ (emits _) _ pending
        (fun _ member => List.mem_cons_of_mem state (more member)) all
  | lock row next inductionHypothesis => exact inductionHypothesis emits
  | write stmt next inductionHypothesis =>
      intro later pending more all
      refine inductionHypothesis emits.2 later _ more fun other member => ?_
      rcases List.mem_append.mp member with earlier | last
      · exact all other earlier
      · exact List.mem_singleton.mp last ▸ emits.1
  | release count next inductionHypothesis => exact inductionHypothesis emits.2
  | commit next inductionHypothesis =>
      intro later pending more all
      exact ⟨fun stmt member => allowed later _ more (all stmt member),
        inductionHypothesis emits later [] more (by simp)⟩
  | rollback next inductionHypothesis =>
      exact fun later pending more _ =>
        inductionHypothesis emits later [] more (by simp)

/-- So it is of a block, after which nothing is pending. -/
theorem follows_atomic_of_emitted
    (plain : Effect ω → Prop) {body : Prog σ κ ω ε α}
    (emits : body.Emits plain fun _ => True)
    (allowed : ∀ later effect, seen ⊆ later → plain effect →
      good later effect) :
    (atomic body).Follows .looks (recalls good) seen [] fun _ later stmts =>
      stmts = [] ∧ seen ⊆ later := by
  suffices general : ∀ later pending, seen ⊆ later →
      (∀ stmt ∈ pending, plain (.write stmt)) →
      Proc.Follows .looks (recalls good) body.toProc later pending
        fun _ after stmts => stmts = [] ∧ seen ⊆ after from
    general seen [] (List.Subset.refl seen) (by simp)
  induction body with
  | done value =>
      exact fun later pending more all =>
        ⟨fun stmt member => allowed later _ more (all stmt member), rfl, more⟩
  | fail error => exact fun later pending more _ => ⟨rfl, more⟩
  | query next inductionHypothesis =>
      intro later pending more all state
      exact inductionHypothesis _ (emits _) _ pending
        (fun _ member => List.mem_cons_of_mem state (more member)) all
  | lock row next inductionHypothesis => exact inductionHypothesis emits
  | write stmt next inductionHypothesis =>
      intro later pending more all
      refine inductionHypothesis emits.2 later _ more fun other member => ?_
      rcases List.mem_append.mp member with earlier | last
      · exact all other earlier
      · exact List.mem_singleton.mp last ▸ emits.1
  | release count next inductionHypothesis => exact inductionHypothesis emits.2

/-- A block commits what it has written when it ends normally. -/
theorem follows_atomic_sees
    {promise : List σ → List ω → Prop} {body : Prog σ κ ω ε α}
    {goal : Except ε α → List σ → List ω → Prop}
    (sees : body.Sees seen [] fun result later writes =>
      match result with
      | .ok value => promise later writes ∧ goal (.ok value) later []
      | .error error => goal (.error error) later []) :
    (atomic body).Follows .looks promise seen [] goal := by
  suffices general : ∀ later pending,
      (body.Sees later pending fun result after writes =>
        match result with
        | .ok value => promise after writes ∧ goal (.ok value) after []
        | .error error => goal (.error error) after []) →
      Proc.Follows .looks promise body.toProc later pending goal from
    general seen [] sees
  clear sees
  induction body with
  | done value => exact fun _ _ sees => sees
  | fail error => exact fun _ _ sees => sees
  | query next inductionHypothesis =>
      exact fun later pending sees state =>
        inductionHypothesis _ (state :: later) pending (sees state)
  | lock row next inductionHypothesis => exact inductionHypothesis
  | write stmt next inductionHypothesis =>
      exact fun later pending => inductionHypothesis later (pending ++ [stmt])
  | release count next inductionHypothesis => exact inductionHypothesis

/-- So it is remembered, with what was committed before. -/
theorem follows_atomic_remembers
    {promise : Memory σ ω → List ω → Prop} {body : Prog σ κ ω ε α}
    {goal : Except ε α → Memory σ ω → List ω → Prop} {memory : Memory σ ω}
    (sees : body.Sees memory.looks [] fun result later writes =>
      match result with
      | .ok value => promise { memory with looks := later } writes ∧
          goal (.ok value) { looks := later, done := memory.done ++ writes } []
      | .error error => goal (.error error) { memory with looks := later } []) :
    (atomic body).Follows .memory promise memory [] goal := by
  suffices general : ∀ later pending,
      (body.Sees later pending fun result after writes =>
        match result with
        | .ok value => promise { memory with looks := after } writes ∧
            goal (.ok value) { looks := after, done := memory.done ++ writes } []
        | .error error =>
            goal (.error error) { memory with looks := after } []) →
      Proc.Follows .memory promise body.toProc { memory with looks := later }
        pending goal from
    general memory.looks [] sees
  clear sees
  induction body with
  | done value => exact fun _ _ sees => sees
  | fail error => exact fun _ _ sees => sees
  | query next inductionHypothesis =>
      exact fun later pending sees state =>
        inductionHypothesis _ (state :: later) pending (sees state)
  | lock row next inductionHypothesis => exact inductionHypothesis
  | write stmt next inductionHypothesis =>
      exact fun later pending => inductionHypothesis later (pending ++ [stmt])
  | release count next inductionHypothesis => exact inductionHypothesis

end Request

end Recalls

namespace System

variable {σ κ ω ρ π : Type} [Store σ κ ω] [DecidableEq κ] {state : σ}
  {requests : Nat → Proc σ κ ω ρ}

/-- More may be allowed. -/
theorem Noted.mono
    {journal : Journal σ ω π}
    {allow weaker : (Nat → π) → Nat → List ω → σ → Prop} {blank : π}
    {notes : Nat → π} {system : System σ κ ω ρ}
    (noted : Noted journal allow blank state requests notes system)
    (weaken : ∀ notes client stmts state, allow notes client stmts state →
      weaker notes client stmts state) :
    Noted journal weaker blank state requests notes system := by
  induction noted with
  | start => exact .start
  | step event _ allowed inductionHypothesis =>
      exact .step event inductionHypothesis fun client stmts same commits =>
        weaken _ _ _ _ (allowed client stmts same commits)

/-- What the promised commits keep holds of the store of every run. -/
theorem Noted.keeps_base
    {journal : Journal σ ω π} {promise : Nat → π → List ω → Prop}
    {ends : Nat → ρ → π → Prop}
    {allow : (Nat → π) → Nat → List ω → σ → Prop} {blank : π}
    {notes : Nat → π} {system : System σ κ ω ρ} (base : σ → Prop)
    (noted : Noted journal allow blank state requests notes system)
    (follows : ∀ client, (requests client).Follows journal (promise client)
      blank [] fun result later _ => ends client result later)
    (initial : base state)
    (kept : ∀ notes client stmts state, promise client notes stmts →
      base state → base (applyAll stmts state)) :
    system.Following journal promise ends notes ∧ base system.committed := by
  let holds : (Nat → π) → σ → Prop := fun _ => base
  have keeps : system.Following journal promise ends notes ∧
      holds notes system.committed :=
    noted.keeps follows initial (fun _ _ _ held => held)
      (fun notes client stmts state _ promised held =>
        kept (notes client) client stmts state promised held)
      (fun _ _ _ _ _ held => held) fun _ _ _ held => held
  exact keeps

/-- The store is in order, and every look of a client is related to it. -/
structure Recalled
    (related : Nat → σ → σ → Prop) (base : σ → Prop) (seen : Nat → List σ)
    (state : σ) : Prop where
  holds : base state
  past : ∀ client, ∀ look ∈ seen client, related client look state

variable {good : Nat → List σ → Effect ω → Prop}
  {allow : (Nat → List σ) → Nat → List ω → σ → Prop}
  {seen : Nat → List σ} {system : System σ κ ω ρ}

/--
What requests commit that keep to what they have seen: if it keeps the store in
order, and every look related to it, then so it is in every run.
-/
theorem Noted.recalled
    (related : Nat → σ → σ → Prop) (base : σ → Prop)
    (noted : Noted .looks allow [] state requests seen system)
    (follows : ∀ client, (requests client).Follows .looks
      (recalls (good client)) [] [] fun _ _ _ => True)
    (refl : ∀ client state, base state → related client state state)
    (kept : ∀ seen client stmts state, allow seen client stmts state →
      recalls (good client) (seen client) stmts →
      Recalled related base seen state →
        Recalled related base seen (applyAll stmts state))
    (initial : base state) :
    system.Following .looks (fun client => recalls (good client))
        (fun _ _ _ => True) seen ∧
      Recalled related base seen system.committed := by
  have forgets : ∀ (seen : Nat → List σ) client state,
      Recalled related base seen state →
        Recalled related base (Function.update seen client []) state := by
    intro seen client state recalled
    refine ⟨recalled.holds, fun other look member => ?_⟩
    by_cases same : other = client
    · simp [same] at member
    · rw [Function.update_of_ne same] at member
      exact recalled.past other look member
  refine Noted.keeps noted follows ⟨initial, by simp⟩ ?_ ?_
    (fun seen client _ state _ => forgets seen client state) forgets
  · intro seen client state recalled
    refine ⟨recalled.holds, fun other look member => ?_⟩
    by_cases same : other = client
    · subst same
      rw [Function.update_self, Journal.looks, List.mem_cons] at member
      rcases member with rfl | earlier
      · exact refl other look recalled.holds
      · exact recalled.past other look earlier
    · rw [Function.update_of_ne same] at member
      exact recalled.past other look member
  · intro seen client stmts state allowed promised recalled
    have same : Function.update seen client (Journal.looks.commit (seen client)
        stmts) = seen := Function.update_eq_self client seen
    rw [same]
    exact kept seen client stmts state allowed promised recalled

/--
The store is in order, every look of a client is related to it, and what a
client has committed has left its trace.
-/
structure Remembered
    (related : σ → σ → Prop) (traced : ω → σ → Prop) (base : σ → Prop)
    (memories : Nat → Memory σ ω) (state : σ) : Prop where
  holds : base state
  past : ∀ client, ∀ look ∈ (memories client).looks, related look state
  traces : ∀ client, ∀ stmt ∈ (memories client).done, traced stmt state

section Remembering

variable {related : σ → σ → Prop} {traced : ω → σ → Prop} {base : σ → Prop}
  {memories : Nat → Memory σ ω}

omit [Store σ κ ω] [DecidableEq κ] in
/-- A client whose looks and commits are as good has no worse memories. -/
theorem Remembered.update
    (remembered : Remembered related traced base memories state)
    {client : Nat} {memory : Memory σ ω}
    (past : ∀ look ∈ memory.looks, related look state)
    (traces : ∀ stmt ∈ memory.done, traced stmt state) :
    Remembered related traced base (Function.update memories client memory)
      state where
  holds := remembered.holds
  past other look member := by
    by_cases same : other = client
    · rw [same, Function.update_self] at member
      exact past look member
    · rw [Function.update_of_ne same] at member
      exact remembered.past other look member
  traces other stmt member := by
    by_cases same : other = client
    · rw [same, Function.update_self] at member
      exact traces stmt member
    · rw [Function.update_of_ne same] at member
      exact remembered.traces other stmt member

variable {promise : Nat → Memory σ ω → List ω → Prop}
  {allow : (Nat → Memory σ ω) → Nat → List ω → σ → Prop}

/--
What requests commit that keep to what they remember: if it keeps the store in
order and leaves its traces in a state related to the one before, then so it is
in every run.
-/
theorem Noted.remembered
    (noted : Noted .memory allow {} state requests memories system)
    (follows : ∀ client, (requests client).Follows .memory (promise client) {}
      [] fun _ _ _ => True)
    (refl : ∀ state, base state → related state state)
    (trans : ∀ first middle last, related first middle → related middle last →
      related first last)
    (lasts : ∀ stmt state next, traced stmt state → related state next →
      traced stmt next)
    (kept : ∀ memories client stmts state, allow memories client stmts state →
      promise client (memories client) stmts →
      Remembered related traced base memories state →
        base (applyAll stmts state) ∧ related state (applyAll stmts state) ∧
          ∀ stmt ∈ stmts, traced stmt (applyAll stmts state))
    (initial : base state) :
    system.Following .memory promise (fun _ _ _ => True) memories ∧
      Remembered related traced base memories system.committed := by
  refine Noted.keeps noted follows ⟨initial, by simp, by simp⟩ ?_ ?_
    (fun _ _ _ _ _ before => before.update (by simp [Journal.memory])
      (by simp [Journal.memory]))
    fun _ _ _ before => before.update (by simp [Journal.memory])
      (by simp [Journal.memory])
  · intro memories client state before
    refine before.update (fun look member => ?_) (before.traces client)
    rcases List.mem_cons.mp member with rfl | earlier
    · exact refl look before.holds
    · exact before.past client look earlier
  · intro memories client stmts state allowed promised before
    obtain ⟨held, moved, left⟩ :=
      kept memories client stmts state allowed promised before
    have later : Remembered related traced base memories
        (applyAll stmts state) := ⟨held,
      fun other look member => trans _ _ _ (before.past other look member) moved,
      fun other stmt member => lasts _ _ _ (before.traces other stmt member)
        moved⟩
    refine later.update (later.past client) fun stmt member => ?_
    rcases List.mem_append.mp member with earlier | last
    · exact later.traces client stmt earlier
    · exact left stmt last

end Remembering

end System

end Transaction
