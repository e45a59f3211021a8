import KnowledgeMarketplace.Operations
import KnowledgeMarketplace.Transaction.Yields

/-!
# Runs

Operations one after the other, each alone: an operation that raises rolls back
its writes.
-/

namespace KnowledgeMarketplace

open Transaction

namespace Call

variable {α ρ : Type} {db : Db} {goal : Db → Prop}

/-- A request succeeds with what its service leaves, or changes nothing. -/
inductive Ends (request : Call Unit) (db : Db) (goal : Db → Prop) : Prop where
  | succeeded : (request.run db).1 = .ok () → goal (request.run db).2 →
      Ends request db goal
  | failed : (request.run db).1 ≠ .ok () → (request.run db).2 = db →
      Ends request db goal

/-- What holds before a request and after its success holds after it. -/
theorem Ends.lasting
    {request : Call Unit} (ends : Ends request db goal) (start : goal db) :
    goal (request.run db).2 := by
  cases ends with
  | succeeded _ kept => exact kept
  | failed _ same => rwa [same]

theorem perform_ends {service : Tx α}
    (post : service.Post db fun result next =>
      ∀ value, result = .ok value → goal next) :
    Ends (Call.perform service) db goal := by
  suffices whole : (Call.perform service).Leaves db [] fun result next _ =>
      (result = .ok () ∧ goal next) ∨ (result ≠ .ok () ∧ next = db) by
    rcases Request.leaves_iff_run.mp whole with ⟨ok, left⟩ | ⟨fails, same⟩
    · exact .succeeded ok left
    · exact .failed fails same
  refine Request.leaves_atomic.mpr (Prog.post_bind.mpr (post.mono ?_))
  rintro (error | value) next later
  · exact .inr ⟨nofun, rfl⟩
  · exact .inl ⟨rfl, later value rfl⟩

/-- A service that always succeeds commits what it reaches. -/
theorem perform_reaches {service : Tx α}
    (post : service.Post db fun result next =>
      (∃ value, result = .ok value) ∧ goal next) :
    goal (Request.run (Call.perform service) db).2 := by
  have left : (Call.perform service).Leaves db [] fun _ next _ => goal next := by
    refine Request.leaves_atomic.mpr (Prog.post_bind.mpr (post.mono ?_))
    rintro result next ⟨⟨value, rfl⟩, reached⟩
    exact reached
  exact Request.leaves_iff_run.mp left

/-- The same for a service on a copy that was read first. -/
theorem performOn_ends
    {find : Db → Option ρ} {model : String} {service : ρ → Tx α}
    (post : ∀ copy, find db = some copy → (service copy).Post db
      fun result next => ∀ value, result = .ok value → goal next) :
    Ends (Call.performOn find model service) db goal := by
  suffices whole : (Call.performOn find model service).Leaves db []
      fun result next _ =>
        (result = .ok () ∧ goal next) ∨ (result ≠ .ok () ∧ next = db) by
    rcases Request.leaves_iff_run.mp whole with ⟨ok, left⟩ | ⟨fails, same⟩
    · exact .succeeded ok left
    · exact .failed fails same
  refine Request.leaves_bind.mpr <| Request.leaves_bind.mpr <|
    Request.leaves_load.mpr <| Request.leaves_orFail.mpr
      ⟨fun copy found => ?_, fun _ => .inr ⟨nofun, rfl⟩⟩
  refine Request.leaves_iff_run.mpr ?_
  cases perform_ends (post copy found) with
  | succeeded ok left => exact .inl ⟨ok, left⟩
  | failed fails same => exact .inr ⟨fails, same⟩

/-- A request on a copy that it reads first, alone. -/
theorem onCopy
    {find : Db → Option ρ} {model : String} {rest : ρ → Call Unit}
    (start : goal db)
    (rested : ∀ copy, find db = some copy →
      goal (Request.run (rest copy) db).2) :
    goal (Request.run
      (do let copy ← Call.get find model; rest copy : Call Unit) db).2 := by
  suffices whole : Request.Leaves _ db [] fun _ next _ => goal next from
    Request.leaves_iff_run.mp whole
  refine Request.leaves_bind.mpr <| Request.leaves_bind.mpr <|
    Request.leaves_load.mpr <| Request.leaves_orFail.mpr
      ⟨fun copy found => ?_, fun _ => start⟩
  exact Request.leaves_iff_run.mpr (rested copy found)

/-- A service that succeeds alone leaves its last state. -/
theorem run_perform
    {service : Tx α} {value : α} {next : Db}
    (yields : service.Yields db value next) :
    Request.run (Call.perform service) db = (.ok (), next) :=
  Request.run_of_yields (.bind yields .pure)

/-- A service on a row that is there runs on the copy. -/
theorem run_performOn_some
    {find : Db → Option ρ} {model : String} {service : ρ → Tx α} {copy : ρ}
    (found : find db = some copy) :
    Request.run (Call.performOn find model service) db =
      Request.run (Call.perform (service copy)) db := by
  unfold Request.run Call.performOn
  change (let stopped := Proc.solo (Proc.bind (Call.orFail (find db) _) _) db []
    (stopped.1, stopped.2.1)) = _
  rw [found]
  rfl

/-- Without the row, nothing happens. -/
theorem run_performOn_none
    {find : Db → Option ρ} {model : String} {service : ρ → Tx α}
    (missing : find db = none) :
    (Request.run (Call.performOn find model service) db).2 = db := by
  unfold Request.run Call.performOn
  change (Proc.solo (Proc.bind (Call.orFail (find db) _) _) db []).2.1 = db
  rw [missing]
  rfl

end Call

namespace Operation

/-- What an operation that runs alone leaves. -/
def after (operation : Operation) (db : Db) : Db :=
  (Transaction.Request.run operation.call db).2

/-- What operations leave that run one after the other. -/
def afterAll (operations : List Operation) (db : Db) : Db :=
  operations.foldl (fun current operation => operation.after current) db

/-- Every operation meets a condition in the state that it finds. -/
def AllMeet (condition : Operation → Db → Prop) : List Operation → Db → Prop
  | [], _ => True
  | operation :: rest, db =>
      condition operation db ∧ AllMeet condition rest (operation.after db)

/-- What every operation keeps under a condition, a run keeps. -/
theorem AllMeet.keeps
    {condition : Operation → Db → Prop} {operations : List Operation} {db : Db}
    (met : AllMeet condition operations db) (invariant : Db → Prop)
    (kept : ∀ operation current, condition operation current →
      invariant current → invariant (operation.after current))
    (start : invariant db) : invariant (afterAll operations db) := by
  induction operations generalizing db with
  | nil => exact start
  | cons operation rest inductionHypothesis =>
      exact inductionHypothesis met.2 (kept operation db met.1 start)

/-- Some operation meets a condition in the state that it finds. -/
def SomeMeets (condition : Operation → Db → Prop) : List Operation → Db → Prop
  | [], _ => False
  | operation :: rest, db =>
      condition operation db ∨ SomeMeets condition rest (operation.after db)

/-- What holds in every state that is found can be used by a condition. -/
theorem SomeMeets.congr
    {shared first second : Operation → Db → Prop}
    {operations : List Operation} {db : Db}
    (met : AllMeet shared operations db)
    (same : ∀ operation current, shared operation current →
      (first operation current ↔ second operation current)) :
    SomeMeets first operations db ↔ SomeMeets second operations db := by
  induction operations generalizing db with
  | nil => exact Iff.rfl
  | cons operation rest inductionHypothesis =>
      exact or_congr (same operation db met.1) (inductionHypothesis met.2)

/-- What every operation keeps, a run keeps. -/
theorem afterAll_keeps
    (operations : List Operation) {db : Db} (invariant : Db → Prop)
    (kept : ∀ operation current, invariant current →
      invariant (Operation.after operation current))
    (start : invariant db) : invariant (afterAll operations db) := by
  induction operations generalizing db with
  | nil => exact start
  | cons operation rest inductionHypothesis =>
      exact inductionHypothesis (kept operation db start)

end Operation

end KnowledgeMarketplace
