import KnowledgeMarketplace.Transaction.Yields

/-!
# Requests in sequence

Requests one after the other, each alone: a block that raises rolls back its
writes, and the next request finds what the last one has left.
-/

namespace Transaction

/-- Two parts of a block keep what each of them keeps when it succeeds. -/
theorem Prog.post_bind_keeps {σ κ ω ε α β : Type} [Store σ κ ω]
    {first : Prog σ κ ω ε α} {rest : α → Prog σ κ ω ε β} {state : σ}
    {invariant : σ → Prop}
    (early : first.Post state fun result next =>
      ∀ value, result = .ok value → invariant next)
    (late : ∀ value next, invariant next → (rest value).Post next
      fun result last => ∀ value, result = .ok value → invariant last) :
    (first >>= rest).Post state fun result last =>
      ∀ value, result = .ok value → invariant last := by
  refine Prog.post_bind.mpr (early.mono ?_)
  rintro (error | value) next reached
  · simp
  · exact late value next (reached value rfl)

/-! ## Bulk updates -/

/-- A statement for each row that changes the rows of a table alike. -/
structure Bulk
    {σ κ ω ι ρ : Type} [Store σ κ ω] (view : ι → σ → Option ρ)
    (due : ι → ρ → Bool) (set : ι → ρ → ρ) (stmt : ι → ω) : Prop where
  own : ∀ key state,
    view key (Store.apply (stmt key) state) = (view key state).map (set key)
  others : ∀ key other state, other ≠ key →
    view other (Store.apply (stmt key) state) = view other state
  done : ∀ key row, due key (set key row) = false

/-- Alone, a bulk update changes exactly the rows that are due. -/
theorem Bulk.post
    {σ κ ω ε ι ρ : Type} [Store σ κ ω] {view : ι → σ → Option ρ}
    {due : ι → ρ → Bool} {set : ι → ρ → ρ} {stmt : ι → ω} {keys : σ → List ι}
    {lock : ι → κ} {state : σ} (bulk : Bulk view due set stmt)
    (listed : ∀ key, (view key state).isSome → key ∈ keys state)
    (frame : σ → Prop)
    (framed : ∀ key current, frame current →
      frame (Store.apply (stmt key) current))
    (start : frame state) :
    (Prog.updateWhere keys
      (fun key current => (view key current).any (due key)) lock stmt :
        Prog σ κ ω ε Nat).Post state fun result next =>
        (∃ count, result = .ok count) ∧ frame next ∧
          ∀ key, view key next =
            (view key state).map fun row =>
              if due key row then set key row else row := by
  let settle : ι → ρ → ρ := fun key row =>
    if due key row then set key row else row
  have settled : ∀ key row, due key (settle key row) = false := by
    intro key row
    by_cases wanted : due key row = true <;> simp [settle, wanted, bulk.done]
  have changed : (Prog.updateWhere keys
      (fun key current => (view key current).any (due key)) lock stmt :
        Prog σ κ ω ε Nat).Post state fun result next =>
          (frame next ∧ ∀ key, view key next = view key state ∨
            view key next = (view key state).map (settle key)) ∧
          ∃ count, result = .ok count := by
    refine Prog.post_updateWhere (fun next => frame next ∧ ∀ key,
      view key next = view key state ∨
        view key next = (view key state).map (settle key)) ?_
      ⟨start, fun _ => .inl rfl⟩
    rintro key current wanted ⟨kept, rows⟩
    refine ⟨framed key current kept, fun other => ?_⟩
    by_cases same : other = key
    · subst same
      obtain ⟨row, present, marked⟩ := (Option.any_eq_true _ _).mp wanted
      rw [bulk.own, present]
      rcases rows other with before | after
      · exact .inr (by simp [← before, present, settle, marked])
      · obtain ⟨earlier, -, rfl⟩ :=
          Option.map_eq_some_iff.mp (after.symm.trans present)
        simp [settled] at marked
    · rw [bulk.others key other current same]
      exact rows other
  have complete : (Prog.updateWhere keys
      (fun key current => (view key current).any (due key)) lock stmt :
        Prog σ κ ω ε Nat).Post state fun _ next =>
          ∀ key, ¬(view key next).any (due key) = true := by
    have cleared : ∀ key current,
        ¬(view key (Store.apply (stmt key) current)).any (due key) = true := by
      intro key current
      rw [bulk.own]
      cases view key current <;> simp [bulk.done]
    refine Prog.post_updateWhere_settled (fun key wanted => ?_)
      (fun key current _ => cleared key current) fun key other current after => ?_
    · obtain ⟨row, present, -⟩ := (Option.any_eq_true _ _).mp wanted
      exact listed key (by simp [present])
    · by_cases same : other = key
      · exact absurd (same ▸ after) (cleared key current)
      · rwa [bulk.others key other current same] at after
  unfold Prog.Post at changed complete ⊢
  obtain ⟨⟨kept, rows⟩, counted⟩ := changed
  refine ⟨counted, kept, fun key => ?_⟩
  rcases rows key with before | after
  · rw [before]
    cases present : view key state with
    | none => rfl
    | some row =>
        have idle := complete key
        rw [before, present] at idle
        simp_all
  · exact after

/-! ## Requests one after the other -/

namespace Request

variable {σ κ ω ε α ι : Type} [Store σ κ ω]
  {perform : ι → Request σ κ ω ε α}

/-- What calls leave that run one after the other. -/
def afterAll (perform : ι → Request σ κ ω ε α) (calls : List ι) (state : σ) :
    σ :=
  calls.foldl (fun current call => ((perform call).run current).2) state

@[simp] theorem afterAll_nil (state : σ) : afterAll perform [] state = state :=
  rfl

@[simp] theorem afterAll_cons (call : ι) (rest : List ι) (state : σ) :
    afterAll perform (call :: rest) state =
      afterAll perform rest ((perform call).run state).2 :=
  rfl

/-- Every call meets a condition in the state that it finds. -/
def AllMeet (perform : ι → Request σ κ ω ε α) (condition : ι → σ → Prop) :
    List ι → σ → Prop
  | [], _ => True
  | call :: rest, state =>
      condition call state ∧
        AllMeet perform condition rest ((perform call).run state).2

/-- What every call keeps under a condition, a sequence keeps. -/
theorem AllMeet.keeps
    {condition : ι → σ → Prop} {calls : List ι} {state : σ}
    (met : AllMeet perform condition calls state) (invariant : σ → Prop)
    (kept : ∀ call current, condition call current → invariant current →
      invariant ((perform call).run current).2)
    (start : invariant state) : invariant (afterAll perform calls state) := by
  induction calls generalizing state with
  | nil => exact start
  | cons call rest inductionHypothesis =>
      exact inductionHypothesis met.2 (kept call state met.1 start)

/-- Two conditions that every call meets. -/
theorem AllMeet.both
    {first second : ι → σ → Prop} {calls : List ι} {state : σ}
    (met : AllMeet perform first calls state)
    (too : AllMeet perform second calls state) :
    AllMeet perform (fun call current => first call current ∧
      second call current) calls state := by
  induction calls generalizing state with
  | nil => trivial
  | cons call rest inductionHypothesis =>
      exact ⟨⟨met.1, too.1⟩, inductionHypothesis met.2 too.2⟩

/-- What follows from a condition and an invariant holds at every call. -/
theorem AllMeet.along
    {condition goal : ι → σ → Prop} {calls : List ι} {state : σ}
    (met : AllMeet perform condition calls state) (invariant : σ → Prop)
    (kept : ∀ call current, condition call current → invariant current →
      invariant ((perform call).run current).2)
    (start : invariant state)
    (reached : ∀ call current, condition call current → invariant current →
      goal call current) : AllMeet perform goal calls state := by
  induction calls generalizing state with
  | nil => trivial
  | cons call rest inductionHypothesis =>
      exact ⟨reached call state met.1 start,
        inductionHypothesis met.2 (kept call state met.1 start)⟩

/--
Calls that keep an invariant exactly under a condition keep it in every state
of a run if and only if all of them meet it.
-/
theorem allMeet_iff
    {condition : ι → σ → Prop} {calls : List ι} {state : σ}
    (side invariant : σ → Prop)
    (sideKept : ∀ call current, side current →
      side ((perform call).run current).2)
    (kept : ∀ call current, side current → invariant current →
      (invariant ((perform call).run current).2 ↔ condition call current))
    (sideStart : side state) (start : invariant state) :
    AllMeet perform condition calls state ↔
      ∀ done, done <+: calls → invariant (afterAll perform done state) := by
  induction calls generalizing state with
  | nil =>
      refine ⟨fun _ done early => ?_, fun _ => trivial⟩
      rw [List.prefix_nil.mp early]
      exact start
  | cons call rest inductionHypothesis =>
      have step := kept call state sideStart start
      have next := sideKept call state sideStart
      constructor
      · rintro ⟨met, later⟩ done early
        rcases List.prefix_cons_iff.mp early with rfl | ⟨more, rfl, ahead⟩
        · exact start
        · exact (inductionHypothesis next (step.mpr met)).mp later more ahead
      · intro always
        have first := always [call] (by simp)
        exact ⟨step.mp first, (inductionHypothesis next first).mpr
          fun done early => always (call :: done)
            (List.cons_prefix_cons.mpr ⟨rfl, early⟩)⟩

/-- A block alone commits what it has reached, or leaves the state alone. -/
theorem run_atomic_of_post
    {body : Prog σ κ ω ε α} {state : σ} {goal : σ → Prop}
    (post : body.Post state fun result next =>
      ∀ value, result = .ok value → goal next)
    (unchanged : goal state) : goal ((atomic body).run state).2 := by
  rw [run_atomic]
  unfold Prog.Post at post
  generalize body.eval state = reached at post
  rcases reached with ⟨_ | value, next⟩
  · exact unchanged
  · exact post value rfl

end Request

end Transaction
