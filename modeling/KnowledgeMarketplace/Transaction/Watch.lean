import KnowledgeMarketplace.Transaction.Looks

/-!
# Watched runs

A run together with what its unfinished requests have seen at their first look.
Whether a commit is allowed can then depend on who is still working on an older
state.
-/

namespace Transaction

/-- The event is a turn of this client. -/
def Event.runs {ρ : Type} (client : Nat) : Event ρ → Bool
  | .run mover => mover = client
  | .kill _ _ => false

/-- The request has ended. -/
def Proc.ended {σ κ ω ρ : Type} : Proc σ κ ω ρ → Bool
  | .halt _ => true
  | _ => false

namespace System

variable {σ κ ω ρ : Type} [Store σ κ ω] [DecidableEq κ]

/-- A turn may be a first look; who has ended is not watched any more. -/
def glance
    (system : System σ κ ω ρ) (event : Event ρ) (seen : Nat → Option σ)
    (client : Nat) : Option σ :=
  if ((system.step event).clients client).proc.ended then none
  else if (seen client).isNone && event.runs client then some system.committed
  else seen client

/-- The runs all of whose commits are allowed, with what was seen. -/
inductive Watched
    (allow : (Nat → Option σ) → List ω → σ → Prop) (state : σ)
    (requests : Nat → Proc σ κ ω ρ) :
    (Nat → Option σ) → System σ κ ω ρ → Prop where
  | start : Watched allow state requests
      (fun client => (requests client).firstLook state) (init state requests)
  | step {seen : Nat → Option σ} {system : System σ κ ω ρ} (event : Event ρ) :
      Watched allow state requests seen system →
      Admits (allow seen) system event →
      Watched allow state requests (system.glance event seen)
        (system.step event)

/-- None of the turns commits. -/
def quiet : System σ κ ω ρ → List (Event ρ) → Bool
  | _, [] => true
  | system, event :: rest =>
      (system.committing event).isNone && quiet (system.step event) rest

/-- Turns that commit nothing are allowed. -/
theorem Watched.quiet
    {allow : (Nat → Option σ) → List ω → σ → Prop} {state : σ}
    {requests : Nat → Proc σ κ ω ρ} {seen : Nat → Option σ}
    {system : System σ κ ω ρ} {schedule : List (Event ρ)}
    (watched : Watched allow state requests seen system)
    (checked : system.quiet schedule = true) :
    ∃ seen, Watched allow state requests seen (system.runAll schedule) := by
  induction schedule generalizing seen system with
  | nil => exact ⟨seen, watched⟩
  | cons event rest inductionHypothesis =>
      rw [System.quiet, Bool.and_eq_true] at checked
      have silent : system.committing event = none := by simpa using checked.1
      refine inductionHypothesis (.step event watched ?_) checked.2
      intro stmts commits
      simp [silent] at commits

section Informed

variable {protocol : Protocol σ κ ω} {later : σ → σ → Prop}
  {guarantee : Nat → σ → List ω → σ → Prop}
  {seen fewer : Nat → Option σ} {system : System σ κ ω ρ}

omit [DecidableEq κ] in
/-- What a request has seen does not matter once it has ended. -/
theorem Informed.forget
    (informed : system.Informed protocol later guarantee seen)
    (forgotten : ∀ client, fewer client = seen client ∨
      fewer client = none ∧ (system.clients client).proc.ended = true) :
    system.Informed protocol later guarantee fewer where
  sound := by
    refine ⟨informed.sound.inv, informed.sound.exclusive, fun client => ?_⟩
    obtain ⟨ctx, described, safe⟩ := informed.sound.safe client
    refine ⟨ctx, described, Proc.wp_guarantee (fun stmts state met => ?_) safe⟩
    intro look looked
    rcases forgotten client with same | ⟨none, _⟩
    · exact met look (same ▸ looked)
    · simp [none] at looked
  past client look looked := by
    rcases forgotten client with same | ⟨none, _⟩
    · exact informed.past client look (same ▸ looked)
    · simp [none] at looked
  waits client none := by
    rcases forgotten client with same | ⟨_, ended⟩
    · exact informed.waits client (same ▸ none)
    · cases shape : (system.clients client).proc with
      | halt result => exact .inr ⟨result, shape⟩
      | _ => simp [Proc.ended, shape] at ended

/-- The next system is informed by a glance. -/
theorem Informed.glance
    (informed : system.Informed protocol (fun _ _ => True) guarantee seen)
    (event : Event ρ) (admits : system.Admits protocol.Condition event) :
    (system.step event).Informed protocol (fun _ _ => True) guarantee
      (system.glance event seen) := by
  have trans : ∀ first second third : σ, True → True → True :=
    fun _ _ _ _ _ => trivial
  -- it is enough to be informed by what a glance would be without forgetting
  suffices base : ∃ looked, (system.step event).Informed protocol
      (fun _ _ => True) guarantee looked ∧ ∀ client,
        ((system.step event).clients client).proc.ended = false →
          system.glance event seen client = looked client by
    obtain ⟨looked, next, same⟩ := base
    refine next.forget fun client => ?_
    cases ended : ((system.step event).clients client).proc.ended with
    | true => exact .inr ⟨by simp [System.glance, ended], rfl⟩
    | false => exact .inl (same client ended)
  cases event with
  | kill mover result =>
      refine ⟨seen, informed.go trans _ admits trivial fun query none => ?_,
        fun client running => by simp [System.glance, running, Event.runs]⟩
      by_cases stopped : query = mover
      · exact .inr ⟨result, by simp [System.step, stopped]⟩
      · have same := setClient_other system stopped ⟨.halt result, []⟩
        simpa [System.step, same] using informed.waits query none
  | run mover =>
      cases looked : seen mover with
      | none =>
          rcases informed.waits mover looked with
            ⟨next, shape, idle, safe⟩ | ⟨result, shape⟩
          · refine ⟨_, informed.look (fun _ => trivial) shape idle safe,
              fun client running => ?_⟩
            by_cases same : client = mover
            · subst same
              simp [System.glance, running, looked, Event.runs]
            · simp [System.glance, running, Event.runs, Ne.symm same, same]
          · have same : system.step (.run mover) = system := by
              simp [System.step, turn, shape]
            rw [same]
            refine ⟨seen, informed, fun client running => ?_⟩
            by_cases ended : client = mover
            · subst ended
              simp [Proc.ended, shape] at running
            · simp [System.glance, same, running, Event.runs, Ne.symm ended]
      | some look =>
          refine ⟨seen, informed.go trans _ admits trivial fun query none => ?_,
            fun client running => ?_⟩
          · have other : query ≠ mover := by
              rintro rfl
              simp [looked] at none
            change Waits _ _ ((system.turn mover).clients query)
            rw [turn_other other]
            exact informed.waits query none
          · by_cases same : client = mover
            · subst same
              simp [System.glance, running, looked]
            · simp [System.glance, running, Event.runs, Ne.symm same]

omit [DecidableEq κ] in
/-- What a client commits meets the guarantee of what it has seen. -/
theorem Informed.looked {client : Nat} {stmts : List ω}
    {later : σ → σ → Prop}
    (informed : system.Informed protocol later guarantee seen)
    (admits : system.Admits protocol.Condition (.run client : Event ρ))
    (commits : system.committing (.run client : Event ρ) = some stmts) :
    ∃ look, seen client = some look ∧
      guarantee client look stmts system.committed := by
  have met := informed.sound.guaranteed admits commits
  cases looked : seen client with
  | some look => exact ⟨look, rfl, met look looked⟩
  | none =>
      simp only [committing] at commits
      rcases informed.waits client looked with
        ⟨next, shape, _⟩ | ⟨result, shape⟩ <;> simp [shape] at commits

end Informed

/-- Where every commit is allowed, each meets the guarantee of a look. -/
theorem Watched.looked
    {protocol : Protocol σ κ ω} {guarantee : Nat → σ → List ω → σ → Prop}
    {allow : (Nat → Option σ) → List ω → σ → Prop} {state : σ}
    {requests : Nat → Proc σ κ ω ρ} {seen : Nat → Option σ}
    {system : System σ κ ω ρ}
    (watched : Watched allow state requests seen system)
    (free : ∀ stmts state, protocol.Condition stmts state)
    (inv : protocol.Inv state)
    (looks : ∀ client, (requests client).Looks protocol (guarantee client))
    {client : Nat} {stmts : List ω}
    (commits : system.committing (.run client : Event ρ) = some stmts) :
    ∃ look, seen client = some look ∧
      guarantee client look stmts system.committed := by
  suffices informed : system.Informed protocol (fun _ _ => True) guarantee
      seen from informed.looked (fun _ _ => free _ _) commits
  clear commits
  induction watched with
  | start => exact informed_init (fun _ => trivial) inv looks
  | step event _ _ inductionHypothesis =>
      exact inductionHypothesis.glance event fun _ _ => free _ _

/--
In a watched run the clients are informed.  What allowed commits keep holds of
the store, and relates every look to it.
-/
theorem Watched.informed
    {protocol : Protocol σ κ ω} {guarantee : Nat → σ → List ω → σ → Prop}
    {allow : (Nat → Option σ) → List ω → σ → Prop} {state : σ}
    {requests : Nat → Proc σ κ ω ρ} {seen : Nat → Option σ}
    {system : System σ κ ω ρ} {base : σ → Prop}
    {related : Nat → σ → σ → Prop}
    (watched : Watched allow state requests seen system)
    (admitted : ∀ seen stmts state, allow seen stmts state →
      protocol.Condition stmts state)
    (inv : protocol.Inv state)
    (looks : ∀ client, (requests client).Looks protocol (guarantee client))
    (refl : ∀ client state, base state → related client state state)
    (kept : ∀ seen client look stmts state, allow seen stmts state →
      seen client = some look → guarantee client look stmts state →
      base state →
      (∀ other look, seen other = some look → related other look state) →
        base (applyAll stmts state) ∧ ∀ other look, seen other = some look →
          related other look (applyAll stmts state))
    (initial : base state) :
    system.Informed protocol (fun _ _ => True) guarantee seen ∧
      base system.committed ∧
      ∀ client look, seen client = some look →
        related client look system.committed := by
  induction watched with
  | start =>
      refine ⟨informed_init (fun _ => trivial) inv looks, initial,
        fun client look looked => ?_⟩
      cases shape : requests client <;>
        simp [Proc.firstLook, shape] at looked <;>
        exact looked ▸ refl client state initial
  | @step seen current event _ admits inductionHypothesis =>
      obtain ⟨informed, holds, relates⟩ := inductionHypothesis
      have allowed : current.Admits protocol.Condition event :=
        fun stmts commits => admitted seen stmts _ (admits stmts commits)
      have after : base (current.step event).committed ∧
          ∀ other look, seen other = some look →
            related other look (current.step event).committed := by
        rcases commits : current.committing event with _ | stmts
        · rw [step_committed_of_none commits]
          exact ⟨holds, relates⟩
        · rw [step_committed_of_some commits]
          cases event with
          | kill client result => simp [committing] at commits
          | run client =>
              obtain ⟨look, looked, met⟩ := informed.looked allowed commits
              exact kept seen client look stmts _ (admits stmts commits)
                looked met holds relates
      refine ⟨informed.glance event allowed, after.1,
        fun client look looked => ?_⟩
      unfold System.glance at looked
      split_ifs at looked with ended first
      · -- the first look is at the state before a turn that commits nothing
        obtain rfl := Option.some.inj looked
        have quiet : current.committing event = none := by
          rw [Bool.and_eq_true] at first
          cases event with
          | kill mover result => rfl
          | run mover =>
              have same : mover = client := by simpa [Event.runs] using first.2
              subst same
              have none : seen mover = none := by simpa using first.1
              rcases informed.waits mover none with
                ⟨next, shape, _⟩ | ⟨result, shape⟩ <;>
                simp [committing, shape]
        rw [step_committed_of_none quiet]
        exact refl client _ holds
      · exact after.2 client look looked

end System

end Transaction
