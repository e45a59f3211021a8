import KnowledgeMarketplace.Transaction.Rely

/-!
# What a request has seen

A request that begins by reading goes on with what it has read, without a lock,
while others commit.  What every commit keeps relates that first look to the
store of each later commit.
-/

namespace Transaction

section Guarantee

variable {σ κ ω ρ : Type} [Store σ κ ω]

/-- A stronger guarantee is enough. -/
theorem Proc.wp_guarantee
    {protocol : Protocol σ κ ω} {guarantee weaker : List ω → σ → Prop}
    {proc : Proc σ κ ω ρ} {ctx : Ctx σ κ ω} {goal : ρ → Ctx σ κ ω → Prop}
    (weaken : ∀ stmts state, guarantee stmts state → weaker stmts state)
    (holds : proc.wp protocol guarantee ctx goal) :
    proc.wp protocol weaker ctx goal := by
  induction proc generalizing ctx with
  | halt result => exact holds
  | query next inductionHypothesis =>
      exact fun state inv known =>
        inductionHypothesis _ (holds state inv known)
  | lock row next inductionHypothesis => exact inductionHypothesis holds
  | write stmt next inductionHypothesis => exact inductionHypothesis holds
  | release count next inductionHypothesis =>
      exact fun held => inductionHypothesis (holds held)
  | commit next inductionHypothesis =>
      refine ⟨fun state inv known condition rows => ?_,
        inductionHypothesis holds.2⟩
      obtain ⟨kept, met, frame⟩ := holds.1 state inv known condition rows
      exact ⟨kept, weaken _ _ met, frame⟩
  | rollback next inductionHypothesis => exact inductionHypothesis holds

/-- Safe whatever the first look shows; the guarantee may depend on it. -/
def Proc.Looks
    (protocol : Protocol σ κ ω) (guarantee : σ → List ω → σ → Prop) :
    Proc σ κ ω ρ → Prop
  | .query next => ∀ seen, (next seen).Safe protocol (guarantee seen)
  | proc => ∀ seen, proc.Safe protocol (guarantee seen)

/-- Without a look to depend on, the request is safe anyway. -/
theorem Proc.looks_of_safe
    {protocol : Protocol σ κ ω} {guarantee : σ → List ω → σ → Prop}
    {proc : Proc σ κ ω ρ}
    (safe : ∀ seen, proc.Safe protocol (guarantee seen))
    (locks : ∀ next, proc ≠ .query next) : proc.Looks protocol guarantee := by
  cases proc with
  | query next => exact absurd rfl (locks next)
  | _ => exact safe

/-- A request that is safe for every look, as long as every state is allowed. -/
theorem Proc.looks_of_inv
    {protocol : Protocol σ κ ω} {guarantee : σ → List ω → σ → Prop}
    {proc : Proc σ κ ω ρ} (inv : ∀ state, protocol.Inv state)
    (safe : ∀ seen, proc.Safe protocol (guarantee seen)) :
    proc.Looks protocol guarantee := by
  cases proc with
  | query next =>
      intro seen
      have rest := safe seen seen (inv seen) trivial
      rwa [Ctx.start_observe] at rest
  | _ => exact safe

/-- What a request has seen before its first step: nothing that it reads. -/
def Proc.firstLook (state : σ) : Proc σ κ ω ρ → Option σ
  | .query _ => none
  | _ => some state

/-- As long as nothing was seen, nothing is guaranteed. -/
theorem Proc.Looks.safe
    {protocol : Protocol σ κ ω} {guarantee : σ → List ω → σ → Prop}
    {proc : Proc σ κ ω ρ} (looks : proc.Looks protocol guarantee) (state : σ) :
    proc.Safe protocol fun stmts now =>
      ∀ look, proc.firstLook state = some look → guarantee look stmts now := by
  have informed : ∀ look, some state = some look → ∀ stmts now,
      guarantee state stmts now → guarantee look stmts now := by
    intro look same
    obtain rfl := Option.some.inj same
    exact fun _ _ met => met
  cases proc with
  | query next =>
      intro now _ _
      rw [Ctx.start_observe]
      exact Proc.wp_guarantee (fun _ _ _ _ none => nomatch none) (looks now)
  | _ =>
      exact Proc.wp_guarantee
        (fun stmts now met look same => informed look same stmts now met)
        (looks state)

end Guarantee

namespace System

variable {σ κ ω ρ : Type} [Store σ κ ω]
  {protocol : Protocol σ κ ω} {later : σ → σ → Prop}
  {guarantee : Nat → σ → List ω → σ → Prop}
  {seen : Nat → Option σ} {system : System σ κ ω ρ}

/-- A client that has not looked yet, or has been stopped before. -/
def Waits
    (protocol : Protocol σ κ ω) (guarantee : σ → List ω → σ → Prop)
    (client : Client σ κ ω ρ) : Prop :=
  (∃ next, client.proc = .query next ∧ client.writes = [] ∧
      ∀ seen, (next seen).Safe protocol (guarantee seen)) ∨
    ∃ result, client.proc = .halt result

/-- Each client keeps the guarantee of what it has seen, which is past. -/
structure Informed
    (protocol : Protocol σ κ ω) (later : σ → σ → Prop)
    (guarantee : Nat → σ → List ω → σ → Prop) (seen : Nat → Option σ)
    (system : System σ κ ω ρ) : Prop where
  sound : system.Sound protocol fun client stmts state =>
    ∀ look, seen client = some look → guarantee client look stmts state
  past : ∀ client look, seen client = some look → later look system.committed
  waits : ∀ client, seen client = none →
    Waits protocol (guarantee client) (system.clients client)

/-- At the start every client is informed or waits. -/
theorem informed_init
    {state : σ} {requests : Nat → Proc σ κ ω ρ}
    (refl : ∀ state, later state state) (inv : protocol.Inv state)
    (looks : ∀ client, (requests client).Looks protocol (guarantee client)) :
    (init state requests).Informed protocol later guarantee
      fun client => (requests client).firstLook state where
  sound := sound_init inv fun client => (looks client).safe state
  past client look same := by
    cases shape : requests client <;> simp_all [Proc.firstLook, init]
  waits client none := by
    have safe := looks client
    cases shape : requests client with
    | query next =>
        rw [shape] at safe
        exact .inl ⟨next, by simp [init, shape], rfl, safe⟩
    | _ => simp [Proc.firstLook, shape] at none

variable [DecidableEq κ]

/-- A turn changes its own client only. -/
theorem turn_other {client other : Nat} (different : other ≠ client) :
    (system.turn client).clients other = system.clients other := by
  cases shape : (system.clients client).proc <;> simp only [turn, shape] <;>
    (try split_ifs) <;> simp [setClient, different]

/-- A look does not commit, so the store is as the client has seen it. -/
theorem Informed.look
    (refl : ∀ state, later state state)
    (informed : system.Informed protocol later guarantee seen) {client : Nat}
    {next : σ → Proc σ κ ω ρ}
    (shape : (system.clients client).proc = .query next)
    (idle : (system.clients client).writes = [])
    (safe : ∀ look, (next look).Safe protocol (guarantee client look)) :
    (system.turn client).Informed protocol later guarantee
      (Function.update seen client (some system.committed)) := by
  have after : system.turn client =
      { system with
        clients := system.setClient client ⟨next system.committed, []⟩ } := by
    simp [turn, shape, idle]
  rw [after]
  refine ⟨⟨informed.sound.inv, informed.sound.exclusive, fun query => ?_⟩,
    fun query look same => ?_, fun query none => ?_⟩
  · by_cases mover : query = client
    · subst mover
      refine ⟨.start, .start query (by simp), ?_⟩
      simp only [setClient, if_true, Function.update_self]
      refine Proc.wp_guarantee (fun stmts now met look same => ?_)
        (safe system.committed)
      exact Option.some.inj same ▸ met
    · obtain ⟨ctx, described, holds⟩ := informed.sound.safe query
      have same := setClient_other system mover ⟨next system.committed, []⟩
      refine ⟨ctx, described.frame same (fun _ taken => taken) (rely_refl _ _),
        ?_⟩
      simpa [same, Function.update_of_ne mover] using holds
  · by_cases mover : query = client
    · subst mover
      simp only [Function.update_self] at same
      exact Option.some.inj same ▸ refl system.committed
    · rw [Function.update_of_ne mover] at same
      exact informed.past query look same
  · have mover : query ≠ client := by
      rintro rfl
      simp at none
    rw [Function.update_of_ne mover] at none
    have same := setClient_other system mover ⟨next system.committed, []⟩
    simpa [same] using informed.waits query none

omit [DecidableEq κ] in
/-- What an informed client commits meets its guarantee, and it has looked. -/
theorem Informed.guaranteed
    (informed : system.Informed protocol later guarantee seen) {client : Nat}
    (admits : system.Admits protocol.Condition (.run client : Event ρ))
    {stmts : List ω}
    (commits : system.committing (.run client : Event ρ) = some stmts) :
    ∃ look, later look system.committed ∧
      guarantee client look stmts system.committed := by
  have met := informed.sound.guaranteed admits commits
  cases looked : seen client with
  | some look => exact ⟨look, informed.past client look looked, met look looked⟩
  | none =>
      simp only [committing] at commits
      rcases informed.waits client looked with ⟨next, shape, _⟩ | ⟨result, shape⟩ <;>
        simp [shape] at commits

/-- A later store, and the clients that have looked go on. -/
theorem Informed.go
    (trans : ∀ first second third,
      later first second → later second third → later first third)
    (informed : system.Informed protocol later guarantee seen)
    (event : Event ρ) (admits : system.Admits protocol.Condition event)
    (grown : later system.committed (system.step event).committed)
    (waits : ∀ client, seen client = none →
      Waits protocol (guarantee client) ((system.step event).clients client)) :
    (system.step event).Informed protocol later guarantee seen where
  sound := informed.sound.step event admits
  past client look looked := trans _ _ _ (informed.past client look looked) grown
  waits := waits

/-- An event keeps the clients informed, and what every commit keeps. -/
theorem Informed.step
    {holds : σ → Prop}
    (refl : ∀ state, later state state)
    (trans : ∀ first second third,
      later first second → later second third → later first third)
    (informed : system.Informed protocol later guarantee seen)
    (event : Event ρ) (admits : system.Admits protocol.Condition event)
    (kept : ∀ client look stmts,
      system.committing (.run client : Event ρ) = some stmts →
      event = .run client → later look system.committed →
      guarantee client look stmts system.committed → holds system.committed →
        later system.committed (applyAll stmts system.committed) ∧
          holds (applyAll stmts system.committed))
    (before : holds system.committed) :
    (∃ seen, (system.step event).Informed protocol later guarantee seen) ∧
      holds (system.step event).committed := by
  cases event with
  | kill client result =>
      refine ⟨⟨seen, informed.go trans _ admits (refl _) fun query none => ?_⟩,
        before⟩
      by_cases mover : query = client
      · exact .inr ⟨result, by simp [System.step, mover]⟩
      · have same := setClient_other system mover ⟨.halt result, []⟩
        simpa [System.step, same] using informed.waits query none
  | run client =>
      cases looked : seen client with
      | none =>
          rcases informed.waits client looked with
            ⟨next, shape, idle, safe⟩ | ⟨result, shape⟩
          · refine ⟨⟨_, informed.look refl shape idle safe⟩, ?_⟩
            simpa [System.step, turn, shape] using before
          · have same : system.step (.run client) = system := by
              simp [System.step, turn, shape]
            rw [same]
            exact ⟨⟨seen, informed⟩, before⟩
      | some look =>
          have others : ∀ query, seen query = none → Waits protocol
              (guarantee query) ((system.turn client).clients query) := by
            intro query none
            have mover : query ≠ client := by
              rintro rfl
              simp [looked] at none
            rw [turn_other mover]
            exact informed.waits query none
          rcases commits : system.committing (.run client : Event ρ) with
            _ | stmts
          · have same := step_committed_of_none commits
            exact ⟨⟨seen, informed.go trans _ admits (same ▸ refl _) others⟩,
              same ▸ before⟩
          · obtain ⟨look, past, met⟩ := informed.guaranteed admits commits
            obtain ⟨grown, still⟩ :=
              kept client look stmts commits rfl past met before
            have after := step_committed_of_some commits
            exact ⟨⟨seen, informed.go trans _ admits (after ▸ grown) others⟩,
              after ▸ still⟩

/--
In every run under a condition, the clients stay informed and what every commit
keeps lasts.
-/
theorem Reach.informed
    {condition : List ω → σ → Prop} {holds : σ → Prop} {state : σ}
    {requests : Nat → Proc σ κ ω ρ}
    (reach : Reach condition (init state requests) system)
    (refl : ∀ state, later state state)
    (trans : ∀ first second third,
      later first second → later second third → later first third)
    (admitted : ∀ stmts state, condition stmts state →
      protocol.Condition stmts state)
    (inv : protocol.Inv state)
    (looks : ∀ client, (requests client).Looks protocol (guarantee client))
    (kept : ∀ client look stmts state, condition stmts state →
      later look state → guarantee client look stmts state → holds state →
        later state (applyAll stmts state) ∧ holds (applyAll stmts state))
    (initial : holds state) :
    (∃ seen, system.Informed protocol later guarantee seen) ∧
      holds system.committed := by
  induction reach with
  | refl => exact ⟨⟨_, informed_init refl inv looks⟩, initial⟩
  | @step current event _ admits inductionHypothesis =>
      obtain ⟨⟨seen, informed⟩, before⟩ := inductionHypothesis
      refine informed.step refl trans event
        (fun stmts commits => admitted stmts _ (admits stmts commits))
        (fun client look stmts commits same => ?_) before
      subst same
      exact kept client look stmts _ (admits stmts commits)

end System

end Transaction
