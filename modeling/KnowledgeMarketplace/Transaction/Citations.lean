import KnowledgeMarketplace.Transaction.Derived
import KnowledgeMarketplace.Transaction.Looks
import Mathlib.Data.Set.Basic

/-!
# Citations

States establish facts once and for all, and rows refer to them.  A request that
copies a fact from a row refers to what still holds when it commits, whatever
the others have established since.
-/

namespace Transaction

/-! ## Clients on their way -/

section Clients

variable {σ κ ω ρ : Type} [Store σ κ ω]
  {invariant : σ → Prop} {good : Effect ω → Prop}

/-- What is pending and what is left derives from good states. -/
def Client.Derives
    (invariant : σ → Prop) (good : Effect ω → Prop)
    (client : Client σ κ ω ρ) : Prop :=
  client.proc.Derives invariant good (fun _ => True) ∧
    ∀ stmt ∈ client.writes, good (.write stmt)

/-- A turn of a client in a good state is a step of its derivation. -/
theorem Client.Derives.turn [DecidableEq κ]
    {system : System σ κ ω ρ} {mover : Nat}
    (kept : ∀ stmt, good (.write stmt) → ∀ state : σ, invariant state →
      invariant (Store.apply stmt state))
    (derives : (system.clients mover).Derives invariant good)
    (holds : invariant system.committed) :
    ((system.turn mover).clients mover).Derives invariant good := by
  rcases shape : system.clients mover with ⟨proc, writes⟩
  rw [shape] at derives
  obtain ⟨rest, all⟩ := derives
  cases proc with
  | halt result =>
      have same : (system.turn mover).clients mover = ⟨.halt result, writes⟩ := by
        simp [System.turn, shape]
      rw [same]
      exact ⟨rest, all⟩
  | query next =>
      have after : (system.turn mover).clients mover =
          ⟨next (applyAll writes system.committed), writes⟩ := by
        simp [System.turn, shape]
      rw [after]
      have view : invariant (applyAll writes system.committed) :=
        applyAll_keeps invariant
          (fun stmt member => kept stmt (all stmt member)) holds
      exact ⟨rest _ view, all⟩
  | lock row next =>
      by_cases free : system.Free mover [row]
      · have after : (system.turn mover).clients mover = ⟨next, writes⟩ := by
          simp [System.turn, shape, free]
        rw [after]
        exact ⟨rest, all⟩
      · have after : (system.turn mover).clients mover =
            ⟨.lock row next, writes⟩ := by
          simp [System.turn, shape, free]
        rw [after]
        exact ⟨rest, all⟩
  | write stmt next =>
      by_cases free : system.Free mover (Store.rows σ stmt)
      · have after : (system.turn mover).clients mover =
            ⟨next, writes ++ [stmt]⟩ := by
          simp [System.turn, shape, free]
        rw [after]
        refine ⟨rest.2, fun other member => ?_⟩
        rcases List.mem_append.mp member with earlier | last
        · exact all other earlier
        · exact List.mem_singleton.mp last ▸ rest.1
      · have after : (system.turn mover).clients mover =
            ⟨.write stmt next, writes⟩ := by
          simp [System.turn, shape, free]
        rw [after]
        exact ⟨rest, all⟩
  | release count next =>
      have after : (system.turn mover).clients mover = ⟨next, writes⟩ := by
        simp [System.turn, shape]
      rw [after]
      exact ⟨rest.2, all⟩
  | commit next =>
      have after : (system.turn mover).clients mover = ⟨next, []⟩ := by
        simp [System.turn, shape]
      rw [after]
      exact ⟨rest, by simp⟩
  | rollback next =>
      have after : (system.turn mover).clients mover = ⟨next, []⟩ := by
        simp [System.turn, shape]
      rw [after]
      exact ⟨rest, by simp⟩

omit [Store σ κ ω] in
/-- What a client commits was pending. -/
theorem Client.Derives.committing
    {system : System σ κ ω ρ} {mover : Nat} {stmts : List ω}
    (derives : (system.clients mover).Derives invariant good)
    (commits : system.committing (.run mover : Event ρ) = some stmts) :
    ∀ stmt ∈ stmts, good (.write stmt) := by
  simp only [System.committing] at commits
  split at commits
  · obtain rfl := Option.some.inj commits
    exact derives.2
  · simp at commits

end Clients

/-! ## Facts and references -/

/--
Facts that last, and the statements that refer to facts.  Statements that
refer to nothing may establish new facts; the others do not.
-/
structure Registry (σ κ ω φ : Type) [Store σ κ ω] where
  facts : σ → Set φ
  refers : Set φ → σ → Prop
  cites : Set φ → Effect ω → Prop
  plain : Effect ω → Prop
  mono : ∀ {known more : Set φ} {state : σ},
    known ⊆ more → refers known state → refers more state
  cites_keeps : ∀ {known : Set φ} {stmt : ω} {state : σ},
    cites known (.write stmt) → refers known state →
      facts (Store.apply stmt state) = facts state ∧
        refers known (Store.apply stmt state)
  plain_keeps : ∀ {known : Set φ} {stmt : ω} {state : σ},
    plain (.write stmt) → refers known state →
      facts state ⊆ facts (Store.apply stmt state) ∧
        refers known (Store.apply stmt state)

namespace Registry

variable {σ κ ω ε α ρ φ : Type} [Store σ κ ω]
  {registry : Registry σ κ ω φ} {known : Set φ}

/-- The facts of a state are known, and it refers to known ones only. -/
def Seen (registry : Registry σ κ ω φ) (known : Set φ) (state : σ) : Prop :=
  registry.facts state ⊆ known ∧ registry.refers known state

/-- A statement that cites known facts keeps the state known. -/
theorem seen_keeps
    (stmt : ω) (cites : registry.cites known (.write stmt)) (state : σ)
    (seen : registry.Seen known state) :
    registry.Seen known (Store.apply stmt state) := by
  obtain ⟨same, refers⟩ := registry.cites_keeps cites seen.2
  exact ⟨same ▸ seen.1, refers⟩

theorem seen_applyAll
    {stmts : List ω} {state : σ}
    (cites : ∀ stmt ∈ stmts, registry.cites known (.write stmt))
    (seen : registry.Seen known state) :
    registry.Seen known (applyAll stmts state) :=
  applyAll_keeps (registry.Seen known)
    (fun stmt member => registry.seen_keeps stmt (cites stmt member)) seen

theorem facts_applyAll
    {stmts : List ω} {state : σ}
    (cites : ∀ stmt ∈ stmts, registry.cites known (.write stmt))
    (refers : registry.refers known state) :
    registry.facts (applyAll stmts state) = registry.facts state := by
  have kept : registry.facts (applyAll stmts state) = registry.facts state ∧
      registry.refers known (applyAll stmts state) :=
    applyAll_keeps (fun later =>
      registry.facts later = registry.facts state ∧ registry.refers known later)
      (fun stmt member later ⟨same, holds⟩ => by
        obtain ⟨next, still⟩ := registry.cites_keeps (cites stmt member) holds
        exact ⟨next.trans same, still⟩) ⟨rfl, refers⟩
  exact kept.1

theorem plain_applyAll
    {stmts : List ω} {state : σ}
    (plain : ∀ stmt ∈ stmts, registry.plain (.write stmt))
    (refers : registry.refers known state) :
    registry.facts state ⊆ registry.facts (applyAll stmts state) ∧
      registry.refers known (applyAll stmts state) :=
  applyAll_keeps (fun later =>
    registry.facts state ⊆ registry.facts later ∧ registry.refers known later)
    (fun stmt member later ⟨grown, holds⟩ => by
      obtain ⟨more, still⟩ := registry.plain_keeps (plain stmt member) holds
      exact ⟨grown.trans more, still⟩) ⟨subset_rfl, refers⟩

/-- The committed state refers to its own facts, and every client will. -/
structure Holds
    (registry : Registry σ κ ω φ) (system : System σ κ ω ρ) : Prop where
  refers : registry.refers (registry.facts system.committed) system.committed
  clients : ∀ client,
    (∀ known, registry.Seen known system.committed →
      (system.clients client).Derives (registry.Seen known)
        (registry.cites known)) ∨
      (system.clients client).Derives (fun _ => True) registry.plain

/-- The request cites facts of the states that it sees, or refers to nothing. -/
def Accepts
    (registry : Registry σ κ ω φ) (request : Request σ κ ω ε α) : Prop :=
  (∀ known, request.Derives (registry.Seen known) (registry.cites known)
    fun _ => True) ∨ request.Emits registry.plain fun _ => True

theorem holds_init
    {state : σ} {requests : Nat → Request σ κ ω ε α}
    (refers : registry.refers (registry.facts state) state)
    (accepts : ∀ client, registry.Accepts (requests client)) :
    registry.Holds (System.init state requests) where
  refers := refers
  clients client := by
    rcases accepts client with cites | plain
    · exact .inl fun known _ => ⟨cites known, by simp [System.init]⟩
    · exact .inr ⟨plain.derives, by simp [System.init]⟩

variable {system : System σ κ ω ρ}

/-- What a client commits adds facts, and refers to those that there are then. -/
theorem Holds.commit
    (holds : registry.Holds system) {mover : Nat} {stmts : List ω}
    (commits : system.committing (.run mover : Event ρ) = some stmts) :
    registry.facts system.committed ⊆
        registry.facts (applyAll stmts system.committed) ∧
      registry.refers (registry.facts (applyAll stmts system.committed))
        (applyAll stmts system.committed) := by
  rcases holds.clients mover with cites | plain
  · have all := (cites _ ⟨subset_rfl, holds.refers⟩).committing commits
    have same := registry.facts_applyAll all holds.refers
    have seen := registry.seen_applyAll all ⟨subset_rfl, holds.refers⟩
    rw [same]
    exact ⟨subset_rfl, seen.2⟩
  · have all := plain.committing commits
    have grown := registry.plain_applyAll all holds.refers
    exact ⟨grown.1, registry.mono grown.1 grown.2⟩

/-- A later state that is known was known before. -/
theorem Holds.seen_of_grown
    (holds : registry.Holds system) {later : σ}
    (grown : registry.facts system.committed ⊆ registry.facts later)
    (seen : registry.Seen known later) :
    registry.Seen known system.committed := by
  have facts := grown.trans seen.1
  exact ⟨facts, registry.mono facts holds.refers⟩

variable [DecidableEq κ]

theorem Holds.step
    (holds : registry.Holds system) (event : Event ρ) :
    registry.Holds (system.step event) := by
  have grown : registry.facts system.committed ⊆
        registry.facts (system.step event).committed ∧
      registry.refers (registry.facts (system.step event).committed)
        (system.step event).committed := by
    rcases commits : system.committing event with _ | stmts
    · rw [System.step_committed_of_none commits]
      exact ⟨subset_rfl, holds.refers⟩
    · cases event with
      | kill client result => simp [System.committing] at commits
      | run client =>
          rw [System.step_committed_of_some commits]
          exact holds.commit commits
  refine ⟨grown.2, fun client => ?_⟩
  have before : ∀ known, registry.Seen known (system.step event).committed →
      registry.Seen known system.committed :=
    fun known seen => holds.seen_of_grown grown.1 seen
  cases event with
  | kill mover result =>
      by_cases own : client = mover
      · refine .inr ⟨?_, ?_⟩ <;> simp [System.step, own, Proc.Derives]
      · have same := System.setClient_other system own ⟨.halt result, []⟩
        simpa [System.step, same] using holds.clients client
  | run mover =>
      by_cases own : client = mover
      · subst own
        refine (holds.clients client).imp (fun cites known seen => ?_)
          fun plain => plain.turn (fun _ _ _ _ => trivial) trivial
        have earlier := before known seen
        exact (cites known earlier).turn registry.seen_keeps earlier
      · have same : ((system.step (.run mover)).clients client) =
            system.clients client := System.turn_other own
        rw [same]
        exact (holds.clients client).imp_left
          fun cites known seen => cites known (before known seen)

/-- In every run of such requests the state refers to its own facts only. -/
theorem Holds.reach
    {condition : List ω → σ → Prop} {start : System σ κ ω ρ}
    (reach : System.Reach condition start system)
    (holds : registry.Holds start) : registry.Holds system := by
  induction reach with
  | refl => exact holds
  | step event _ _ inductionHypothesis => exact inductionHypothesis.step event

end Registry

end Transaction
