import KnowledgeMarketplace.Transaction.Rules
import KnowledgeMarketplace.Transaction.Watch

/-!
# Journals of requests

A request that commits more than once relies on what it has done before.  A
journal notes this for each request: at its queries, at its commits, at its end
and when it is killed.  Which commits are allowed, and which invariant they
keep, can then depend on the notes of all requests.
-/

namespace Transaction

/-- What is noted when a request queries, commits, ends and is killed. -/
structure Journal (σ ω π : Type) where
  look : π → σ → π
  commit : π → List ω → π
  close : π → π
  abort : π → π

/-- What a request has seen first, and how often it has committed since. -/
structure Progress (σ : Type) where
  looked : Option σ := none
  commits : Nat := 0

/-- The journal of the first look and of the number of commits. -/
def Journal.progress {σ ω : Type} : Journal σ ω (Progress σ) where
  look notes state := { notes with looked := notes.looked.or (some state) }
  commit notes _ := { notes with commits := notes.commits + 1 }
  close _ := {}
  abort _ := {}

/-- No lock protects anything, and everything is allowed. -/
def Protocol.free {σ κ ω : Type} : Protocol σ κ ω where
  Inv _ := True
  Same _ _ _ := True
  Condition _ _ := True
  same_refl _ _ := trivial
  same_trans _ _ _ _ _ _ := trivial

section Follows

variable {σ κ ω ε α β ρ τ π : Type} [Store σ κ ω]

/--
On every path each commit keeps what the request's notes promise.  The notes
and the pending statements at the end are part of the goal.
-/
def Proc.Follows (journal : Journal σ ω π) (promise : π → List ω → Prop) :
    Proc σ κ ω ρ → π → List ω → (ρ → π → List ω → Prop) → Prop
  | .halt result, notes, pending, goal => goal result notes pending
  | .query next, notes, pending, goal =>
      ∀ state, (next (applyAll pending state)).Follows journal promise
        (journal.look notes state) pending goal
  | .lock _ next, notes, pending, goal =>
      next.Follows journal promise notes pending goal
  | .write stmt next, notes, pending, goal =>
      next.Follows journal promise notes (pending ++ [stmt]) goal
  | .release _ next, notes, pending, goal =>
      next.Follows journal promise notes pending goal
  | .commit next, notes, pending, goal =>
      promise notes pending ∧
        next.Follows journal promise (journal.commit notes pending) [] goal
  | .rollback next, notes, _, goal =>
      next.Follows journal promise notes [] goal

variable {journal : Journal σ ω π} {promise : π → List ω → Prop}
  {notes : π} {pending : List ω}

/-- A weaker goal follows. -/
theorem Proc.Follows.mono
    {proc : Proc σ κ ω ρ} {goal weaker : ρ → π → List ω → Prop}
    (follows : proc.Follows journal promise notes pending goal)
    (weaken : ∀ result later stmts,
      goal result later stmts → weaker result later stmts) :
    proc.Follows journal promise notes pending weaker := by
  induction proc generalizing notes pending with
  | halt result => exact weaken _ _ _ follows
  | query next inductionHypothesis =>
      exact fun state => inductionHypothesis _ (follows state)
  | lock row next inductionHypothesis => exact inductionHypothesis follows
  | write stmt next inductionHypothesis => exact inductionHypothesis follows
  | release count next inductionHypothesis => exact inductionHypothesis follows
  | commit next inductionHypothesis =>
      exact ⟨follows.1, inductionHypothesis follows.2⟩
  | rollback next inductionHypothesis => exact inductionHypothesis follows

/-- A sequence follows its journal part by part. -/
theorem Proc.follows_bind
    {first : Proc σ κ ω ρ} {rest : ρ → Proc σ κ ω τ}
    {goal : τ → π → List ω → Prop} :
    (first.bind rest).Follows journal promise notes pending goal ↔
      first.Follows journal promise notes pending fun result later stmts =>
        (rest result).Follows journal promise later stmts goal := by
  induction first generalizing notes pending with
  | halt result => exact Iff.rfl
  | query next inductionHypothesis =>
      exact forall_congr' fun state => inductionHypothesis _
  | lock row next inductionHypothesis => exact inductionHypothesis
  | write stmt next inductionHypothesis => exact inductionHypothesis
  | release count next inductionHypothesis => exact inductionHypothesis
  | commit next inductionHypothesis =>
      exact and_congr_right fun _ => inductionHypothesis
  | rollback next inductionHypothesis => exact inductionHypothesis

namespace Request

/-- The request keeps, at each commit, what its notes promise. -/
def Follows (journal : Journal σ ω π) (promise : π → List ω → Prop)
    (request : Request σ κ ω ε α) (notes : π) (pending : List ω)
    (goal : Except ε α → π → List ω → Prop) : Prop :=
  Proc.Follows journal promise request notes pending goal

/-- A weaker goal follows. -/
theorem Follows.mono
    {request : Request σ κ ω ε α}
    {goal weaker : Except ε α → π → List ω → Prop}
    (follows : request.Follows journal promise notes pending goal)
    (weaken : ∀ result later stmts,
      goal result later stmts → weaker result later stmts) :
    request.Follows journal promise notes pending weaker :=
  Proc.Follows.mono follows weaken

@[simp] theorem follows_pure
    {value : α} {goal : Except ε α → π → List ω → Prop} :
    (pure value : Request σ κ ω ε α).Follows journal promise notes pending
      goal ↔ goal (.ok value) notes pending :=
  Iff.rfl

@[simp] theorem follows_throw
    {error : ε} {goal : Except ε α → π → List ω → Prop} :
    (throw error : Request σ κ ω ε α).Follows journal promise notes pending
      goal ↔ goal (.error error) notes pending :=
  Iff.rfl

@[simp] theorem follows_load
    {get : σ → α} {goal : Except ε α → π → List ω → Prop} :
    (load get : Request σ κ ω ε α).Follows journal promise notes pending
      goal ↔ ∀ state, goal (.ok (get (applyAll pending state)))
        (journal.look notes state) pending :=
  Iff.rfl

@[simp] theorem follows_require
    {guard : Prop} [Decidable guard] {error : ε}
    {goal : Except ε Unit → π → List ω → Prop} :
    (require guard error : Request σ κ ω ε Unit).Follows journal promise notes
      pending goal ↔
        (guard → goal (.ok ()) notes pending) ∧
          (¬guard → goal (.error error) notes pending) := by
  by_cases holds : guard <;> simp [Follows, require, Proc.Follows, holds]

@[simp] theorem follows_orFail
    {value : Option α} {error : ε} {goal : Except ε α → π → List ω → Prop} :
    (orFail value error : Request σ κ ω ε α).Follows journal promise notes
      pending goal ↔
        (∀ found, value = some found → goal (.ok found) notes pending) ∧
          (value = none → goal (.error error) notes pending) := by
  cases value <;> simp [Follows, orFail, Proc.Follows]

@[simp] theorem follows_ofExcept
    {value : Except ε α} {goal : Except ε α → π → List ω → Prop} :
    (ofExcept value : Request σ κ ω ε α).Follows journal promise notes pending
      goal ↔
        (∀ found, value = .ok found → goal (.ok found) notes pending) ∧
          ∀ error, value = .error error →
            goal (.error error) notes pending := by
  cases value <;> simp [Follows, ofExcept, Proc.Follows]

@[simp] theorem follows_ite
    {condition : Prop} [Decidable condition]
    {first second : Request σ κ ω ε α}
    {goal : Except ε α → π → List ω → Prop} :
    (if condition then first else second).Follows journal promise notes
      pending goal ↔
        (condition → first.Follows journal promise notes pending goal) ∧
          (¬condition →
            second.Follows journal promise notes pending goal) := by
  by_cases holds : condition <;> simp [holds]

@[simp] theorem follows_bind
    {first : Request σ κ ω ε α} {rest : α → Request σ κ ω ε β}
    {goal : Except ε β → π → List ω → Prop} :
    (first >>= rest).Follows journal promise notes pending goal ↔
      first.Follows journal promise notes pending fun result later stmts =>
        match result with
        | .ok value => (rest value).Follows journal promise later stmts goal
        | .error error => goal (.error error) later stmts := by
  refine Proc.follows_bind.trans ?_
  constructor <;> refine fun holds => Proc.Follows.mono holds ?_ <;>
    intro result later stmts reached <;> cases result <;> exact reached

/-- A loop whose invariant speaks about the items that remain. -/
theorem follows_forEach
    {items : List β} {body : β → Request σ κ ω ε Unit}
    (invariant : List β → π → Prop)
    (round : ∀ item rest later, invariant (item :: rest) later →
      (body item).Follows journal promise later [] fun result after stmts =>
        result = .ok () ∧ stmts = [] ∧ invariant rest after)
    (start : invariant items notes) :
    (forEach items body).Follows journal promise notes []
      fun result after stmts =>
        result = .ok () ∧ stmts = [] ∧ invariant [] after := by
  induction items generalizing notes with
  | nil => exact ⟨rfl, rfl, start⟩
  | cons item rest inductionHypothesis =>
      refine follows_bind.mpr ((round item rest notes start).mono ?_)
      rintro result later stmts ⟨rfl, rfl, kept⟩
      exact inductionHypothesis kept

/-- A block whose queries add nothing to the notes. -/
theorem follows_atomic
    {body : Prog σ κ ω ε α} {goal : Except ε α → π → List ω → Prop}
    (settled : ∀ state, journal.look notes state = notes)
    (ends : body.wp Protocol.free .start fun result later =>
      match result with
      | .ok value => promise notes later.writes ∧
          goal (.ok value) (journal.commit notes later.writes) []
      | .error error => goal (.error error) notes []) :
    (atomic body).Follows journal promise notes [] goal := by
  suffices general : ∀ ctx : Ctx σ κ ω, (∀ state, ctx.known state) →
      (body.wp Protocol.free ctx fun result later =>
        match result with
        | .ok value => promise notes later.writes ∧
            goal (.ok value) (journal.commit notes later.writes) []
        | .error error => goal (.error error) notes []) →
      Proc.Follows journal promise body.toProc notes ctx.writes goal from
    general .start (fun _ => trivial) ends
  clear ends
  intro ctx known ends
  induction body generalizing ctx with
  | done value => exact ends
  | fail error => exact ends
  | query next inductionHypothesis =>
      intro state
      rw [settled]
      exact inductionHypothesis _ (ctx.observe Protocol.free state)
        (fun later => ⟨known later, fun _ _ => trivial⟩)
        (ends state trivial (known state))
  | lock row next inductionHypothesis =>
      exact inductionHypothesis (ctx.take row) known ends
  | write stmt next inductionHypothesis =>
      exact inductionHypothesis (ctx.push stmt) known ends
  | release count next inductionHypothesis =>
      exact inductionHypothesis (ctx.forget ctx.held) (fun _ => trivial)
        (ends ctx.held)

/-- What is promised of every statement needs no notes. -/
theorem follows_of_emits
    {request : Request σ κ ω ε α} {good : Effect ω → Prop}
    (emits : request.Emits good fun _ => True)
    (promised : ∀ notes stmts, (∀ stmt ∈ stmts, good (.write stmt)) →
      promise notes stmts) :
    request.Follows journal promise notes [] fun _ _ _ => True := by
  suffices general : ∀ pending : List ω,
      (∀ stmt ∈ pending, good (.write stmt)) →
      Proc.Follows journal promise request notes pending fun _ _ _ => True from
    general [] (by simp)
  unfold Emits at emits
  unfold Request at request
  induction request generalizing notes with
  | halt result => exact fun _ _ => trivial
  | query next inductionHypothesis =>
      exact fun pending all _ => inductionHypothesis _ (emits _) pending all
  | lock row next inductionHypothesis => exact inductionHypothesis emits
  | write stmt next inductionHypothesis =>
      intro pending all
      refine inductionHypothesis emits.2 _ fun other member => ?_
      rcases List.mem_append.mp member with earlier | last
      · exact all other earlier
      · exact List.mem_singleton.mp last ▸ emits.1
  | release count next inductionHypothesis => exact inductionHypothesis emits.2
  | commit next inductionHypothesis =>
      exact fun pending all =>
        ⟨promised _ _ all, inductionHypothesis emits [] (by simp)⟩
  | rollback next inductionHypothesis =>
      exact fun _ _ => inductionHypothesis emits [] (by simp)

/-- One statement in a transaction of its own. -/
@[simp] theorem follows_exec
    {stmt : ω} {goal : Except ε Unit → π → List ω → Prop} :
    (atomic (Prog.exec stmt) : Request σ κ ω ε Unit).Follows journal promise
      notes [] goal ↔
        promise notes [stmt] ∧
          goal (.ok ()) (journal.commit notes [stmt]) [] :=
  Iff.rfl

end Request

end Follows

namespace System

variable {σ κ ω ρ π : Type} [Store σ κ ω] [DecidableEq κ]

/-- What an event adds to the notes of its client. -/
def noting
    (journal : Journal σ ω π) (system : System σ κ ω ρ) (client : Nat)
    (notes : π) : π :=
  match (system.clients client).proc with
  | .query _ => journal.look notes system.committed
  | .commit _ => journal.commit notes (system.clients client).writes
  | _ => notes

/-- The turn ends the request of the client. -/
def ending (system : System σ κ ω ρ) (client : Nat) : Bool :=
  !(system.clients client).proc.ended &&
    ((system.turn client).clients client).proc.ended

/-- The notes after an event; a request closes its own when it ends. -/
def note
    (journal : Journal σ ω π) (system : System σ κ ω ρ) (event : Event ρ)
    (notes : Nat → π) : Nat → π :=
  match event with
  | .run mover =>
      let noted := system.noting journal mover (notes mover)
      Function.update notes mover
        (if system.ending mover then journal.close noted else noted)
  | .kill mover _ =>
      if (system.clients mover).proc.ended then notes
      else Function.update notes mover (journal.abort (notes mover))

/-- The runs with journals, all of whose commits the notes allow. -/
inductive Noted
    (journal : Journal σ ω π)
    (allow : (Nat → π) → Nat → List ω → σ → Prop) (blank : π) (state : σ)
    (requests : Nat → Proc σ κ ω ρ) :
    (Nat → π) → System σ κ ω ρ → Prop where
  | start :
      Noted journal allow blank state requests (fun _ => blank)
        (init state requests)
  | step {notes : Nat → π} {system : System σ κ ω ρ} (event : Event ρ) :
      Noted journal allow blank state requests notes system →
      (∀ client stmts, event = .run client →
        system.committing event = some stmts →
        allow notes client stmts system.committed) →
      Noted journal allow blank state requests
        (system.note journal event notes) (system.step event)

variable {journal : Journal σ ω π}
  {allow : (Nat → π) → Nat → List ω → σ → Prop} {blank : π} {state : σ}
  {requests : Nat → Proc σ κ ω ρ} {notes : Nat → π} {system : System σ κ ω ρ}

/-- The notes after a schedule. -/
def noteAll
    (journal : Journal σ ω π) :
    System σ κ ω ρ → List (Event ρ) → (Nat → π) → Nat → π
  | _, [], notes => notes
  | system, event :: rest, notes =>
      (system.step event).noteAll journal rest (system.note journal event notes)

/-- A client that does not run notes nothing. -/
theorem noteAll_other
    {client other : Nat} (different : other ≠ client) (count : Nat) :
    system.noteAll journal (List.replicate count (.run client)) notes other =
      notes other := by
  induction count generalizing notes system with
  | zero => rfl
  | succ count inductionHypothesis =>
      refine inductionHypothesis.trans ?_
      simp [note, different]

/-- Turns that commit nothing are allowed. -/
theorem Noted.quietly
    (noted : Noted journal allow blank state requests notes system)
    (schedule : List (Event ρ)) (checked : system.quiet schedule = true) :
    Noted journal allow blank state requests
      (system.noteAll journal schedule notes) (system.runAll schedule) := by
  induction schedule generalizing notes system with
  | nil => exact noted
  | cons event rest inductionHypothesis =>
      rw [quiet, Bool.and_eq_true] at checked
      have silent : system.committing event = none := by simpa using checked.1
      refine inductionHypothesis (.step event noted ?_) checked.2
      intro client stmts _ commits
      simp [silent] at commits

/-- A client whose commits are always allowed runs on. -/
theorem Noted.runs
    {client : Nat}
    (noted : Noted journal allow blank state requests notes system)
    (always : ∀ notes stmts state, allow notes client stmts state)
    (count : Nat) :
    Noted journal allow blank state requests
      (system.noteAll journal (List.replicate count (.run client)) notes)
      (system.runAll (List.replicate count (.run client))) := by
  induction count generalizing notes system with
  | zero => exact noted
  | succ count inductionHypothesis =>
      refine inductionHypothesis (.step (.run client) noted ?_)
      intro mover stmts same _
      obtain rfl : client = mover := by simpa using same
      exact always notes stmts _

/-- A client that has not ended keeps its promises, and ends as it should. -/
def Following
    (journal : Journal σ ω π) (promise : Nat → π → List ω → Prop)
    (ends : Nat → ρ → π → Prop) (notes : Nat → π) (system : System σ κ ω ρ) :
    Prop :=
  ∀ client, (system.clients client).proc.ended = false →
    (system.clients client).proc.Follows journal (promise client)
      (notes client) (system.clients client).writes fun result later _ =>
        ends client result later

variable {promise : Nat → π → List ω → Prop} {ends : Nat → ρ → π → Prop}

/-- A turn of a client notes what the client goes on with. -/
theorem Following.turn
    (following : system.Following journal promise ends notes) {mover : Nat}
    (running : (system.clients mover).proc.ended = false) :
    ((system.turn mover).clients mover).proc.Follows journal (promise mover)
      (system.noting journal mover (notes mover))
      ((system.turn mover).clients mover).writes fun result later _ =>
        ends mover result later := by
  have follows := following mover running
  rcases shape : system.clients mover with ⟨proc, writes⟩
  simp only [shape] at follows running
  unfold noting
  cases proc with
  | halt result => simp [Proc.ended] at running
  | query next => simpa [System.turn, shape] using follows system.committed
  | lock row next =>
      by_cases free : system.Free mover [row]
      · simpa [System.turn, shape, free, Proc.Follows] using follows
      · simpa [System.turn, shape, free, Proc.Follows] using follows
  | write stmt next =>
      by_cases free : system.Free mover (Store.rows σ stmt)
      · simpa [System.turn, shape, free, Proc.Follows] using follows
      · simpa [System.turn, shape, free, Proc.Follows] using follows
  | release count next =>
      simpa [System.turn, shape, Proc.Follows] using follows
  | commit next => simpa [System.turn, shape] using follows.2
  | rollback next => simpa [System.turn, shape, Proc.Follows] using follows

/-- An event keeps the promises of all clients. -/
theorem Following.step
    (following : system.Following journal promise ends notes)
    (event : Event ρ) :
    (system.step event).Following journal promise ends
      (system.note journal event notes) := by
  intro client running
  cases event with
  | kill mover result =>
      by_cases same : client = mover
      · subst same
        simp [System.step, Proc.ended] at running
      · simp only [System.step, setClient_other system same] at running ⊢
        simp only [note]
        split_ifs
        · exact following client running
        · simpa [same] using following client running
  | run mover =>
      by_cases same : client = mover
      · subst same
        have before : (system.clients client).proc.ended = false := by
          by_contra ended
          rcases shape : system.clients client with ⟨proc, writes⟩
          cases proc <;>
            simp_all [Proc.ended, System.step, System.turn]
        have runs : system.ending client = false := by
          have later : ((system.turn client).clients client).proc.ended =
            false := running
          simp [ending, later]
        simp only [note, Function.update_self, runs, Bool.false_eq_true,
          if_false]
        exact following.turn before
      · have other : (system.turn mover).clients client =
            system.clients client := turn_other same
        simp only [System.step, other] at running ⊢
        simpa [note, same] using following client running

omit [DecidableEq κ] in
/-- What a client commits meets its promise. -/
theorem Following.promised
    (following : system.Following journal promise ends notes) {client : Nat}
    {stmts : List ω}
    (commits : system.committing (.run client : Event ρ) = some stmts) :
    promise client (notes client) stmts := by
  rcases shape : system.clients client with ⟨proc, writes⟩
  cases proc with
  | commit next =>
      have follows := following client (by simp [shape, Proc.ended])
      obtain rfl : writes = stmts := by simpa [committing, shape] using commits
      rw [shape] at follows
      exact follows.1
  | _ => simp [committing, shape] at commits

/-- Safe requests meet their guarantees at every commit of a run. -/
theorem Noted.meets
    {protocol : Protocol σ κ ω} {guarantee : Nat → List ω → σ → Prop}
    (noted : Noted journal allow blank state requests notes system)
    (free : ∀ stmts state, protocol.Condition stmts state)
    (inv : protocol.Inv state)
    (safe : ∀ client, (requests client).Safe protocol (guarantee client)) :
    system.Sound protocol guarantee ∧
      Noted journal (fun notes client stmts state =>
        allow notes client stmts state ∧ guarantee client stmts state)
        blank state requests notes system := by
  induction noted with
  | start => exact ⟨sound_init inv safe, .start⟩
  | @step notes system event _ allowed inductionHypothesis =>
      obtain ⟨sound, stronger⟩ := inductionHypothesis
      refine ⟨sound.step event fun _ _ => free _ _,
        .step event stronger fun client stmts same commits => ?_⟩
      subst same
      exact ⟨allowed client stmts rfl commits,
        sound.guaranteed (fun _ _ => free _ _) commits⟩

/--
What the looks, the allowed commits and the ends of requests keep holds of the
store and of the notes of every run.
-/
theorem Noted.keeps
    {holds : (Nat → π) → σ → Prop}
    (noted : Noted journal allow blank state requests notes system)
    (follows : ∀ client, (requests client).Follows journal (promise client)
      blank [] fun result later _ => ends client result later)
    (initial : holds (fun _ => blank) state)
    (looks : ∀ notes client state, holds notes state →
      holds (Function.update notes client
        (journal.look (notes client) state)) state)
    (commits : ∀ notes client stmts state, allow notes client stmts state →
      promise client (notes client) stmts → holds notes state →
        holds (Function.update notes client
          (journal.commit (notes client) stmts)) (applyAll stmts state))
    (closes : ∀ notes client result state, ends client result (notes client) →
      holds notes state → holds (Function.update notes client
        (journal.close (notes client))) state)
    (aborts : ∀ notes client state, holds notes state →
      holds (Function.update notes client
        (journal.abort (notes client))) state) :
    system.Following journal promise ends notes ∧
      holds notes system.committed := by
  induction noted with
  | start => exact ⟨fun client _ => follows client, initial⟩
  | @step notes system event _ allowed inductionHypothesis =>
      obtain ⟨following, before⟩ := inductionHypothesis
      refine ⟨following.step event, ?_⟩
      cases event with
      | kill mover result =>
          simp only [note]
          split_ifs
          · exact before
          · exact aborts notes mover _ before
      | run mover =>
          have noted : holds (Function.update notes mover
              (system.noting journal mover (notes mover)))
              (system.turn mover).committed := by
            unfold noting
            cases shape : (system.clients mover).proc with
            | query next =>
                have quiet : system.committing (.run mover : Event ρ) =
                    none := by
                  simp [committing, shape]
                have same : (system.turn mover).committed = system.committed :=
                  step_committed_of_none quiet
                rw [same]
                exact looks notes mover _ before
            | commit next =>
                have commit : system.committing (.run mover : Event ρ) =
                    some (system.clients mover).writes := by
                  simp [committing, shape]
                have after : (system.turn mover).committed =
                    applyAll (system.clients mover).writes system.committed :=
                  step_committed_of_some commit
                have promised := following mover (by simp [shape, Proc.ended])
                rw [shape] at promised
                rw [after]
                exact commits notes mover _ _ (allowed mover _ rfl commit)
                  promised.1 before
            | _ =>
                have quiet : system.committing (.run mover : Event ρ) =
                    none := by
                  simp [committing, shape]
                have same : (system.turn mover).committed = system.committed :=
                  step_committed_of_none quiet
                rw [same, Function.update_eq_self]
                exact before
          simp only [note, System.step]
          split_ifs with last
          · -- the request ends where its goal holds
            rw [ending, Bool.and_eq_true, Bool.not_eq_true'] at last
            have reached := following.turn last.1
            cases shape : ((system.turn mover).clients mover).proc with
            | halt result =>
                rw [shape] at reached
                have closed := closes _ mover result _ (by
                  simpa [Proc.Follows] using reached) noted
                simpa using closed
            | _ => simp [Proc.ended, shape] at last
          · exact noted

end System

end Transaction
