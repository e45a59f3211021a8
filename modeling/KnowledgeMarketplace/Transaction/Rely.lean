import KnowledgeMarketplace.Transaction.Schedule

/-!
# Invariants of interleaved transactions

A protocol says what a row lock protects and which invariant every commit
keeps.  While a client holds a lock, the commits of the others preserve what
the lock protects (`Rely`), so facts read under a lock still hold when the
client commits.  `wp` collects these facts along every path of a program, and
`Reach.sound` turns one proof for each program into an invariant of every
interleaving.
-/

namespace Transaction

/--
What a group of programs agrees on: an invariant of the committed state, the
part of the state that each row lock protects, and the condition under which
commits are considered.
-/
structure Protocol (σ κ ω : Type) where
  Inv : σ → Prop
  Same : κ → σ → σ → Prop
  Condition : List ω → σ → Prop
  same_refl : ∀ row state, Same row state state
  same_trans : ∀ row first second third,
    Same row first second → Same row second third → Same row first third

namespace Protocol

variable {σ κ ω : Type}

/-- The other clients keep everything protected by the locks held. -/
def Rely
    (protocol : Protocol σ κ ω) (held : κ → Prop) (first second : σ) : Prop :=
  ∀ row, held row → protocol.Same row first second

/-- What every statement leaves alone, all of them leave alone. -/
theorem same_applyAll [Store σ κ ω]
    {protocol : Protocol σ κ ω} {row : κ} {stmts : List ω}
    (frame : ∀ stmt ∈ stmts, ∀ state, row ∉ Store.rows σ stmt →
      protocol.Same row state (Store.apply stmt state))
    (free : row ∉ rowsOf σ stmts) (state : σ) :
    protocol.Same row state (applyAll stmts state) := by
  induction stmts generalizing state with
  | nil => exact protocol.same_refl row state
  | cons stmt rest inductionHypothesis =>
      rw [rowsOf, List.flatMap_cons, List.mem_append, not_or] at free
      exact protocol.same_trans row _ _ _
        (frame stmt List.mem_cons_self state free.1)
        (inductionHypothesis
          (fun later member => frame later (List.mem_cons_of_mem _ member))
          free.2 _)

end Protocol

/-- What is known at one point of an open transaction. -/
@[ext] structure Ctx (σ κ ω : Type) where
  held : κ → Prop
  writes : List ω
  known : σ → Prop

namespace Ctx

variable {σ κ ω : Type}

/-- Outside a transaction nothing is held, written or known. -/
def start : Ctx σ κ ω :=
  ⟨fun _ => False, [], fun _ => True⟩

/-- A query adds the fact that the state is later than the one it saw. -/
def observe
    (protocol : Protocol σ κ ω) (ctx : Ctx σ κ ω) (seen : σ) : Ctx σ κ ω where
  held := ctx.held
  writes := ctx.writes
  known := fun later => ctx.known later ∧ protocol.Rely ctx.held seen later

/-- A row lock is added. -/
def take (ctx : Ctx σ κ ω) (row : κ) : Ctx σ κ ω where
  held := fun other => other = row ∨ ctx.held other
  writes := ctx.writes
  known := ctx.known

/-- A statement is added to the pending ones; its rows are locked. -/
def push [Store σ κ ω] (ctx : Ctx σ κ ω) (stmt : ω) : Ctx σ κ ω where
  held := fun row => row ∈ Store.rows σ stmt ∨ ctx.held row
  writes := ctx.writes ++ [stmt]
  known := ctx.known

/-- After a rollback to a savepoint nothing is known any more. -/
def forget (ctx : Ctx σ κ ω) (held : κ → Prop) : Ctx σ κ ω where
  held := held
  writes := ctx.writes
  known := fun _ => True

@[simp] theorem start_writes : (start : Ctx σ κ ω).writes = [] := rfl

@[simp] theorem start_held (row : κ) :
    (start : Ctx σ κ ω).held row = False := rfl

@[simp] theorem start_known (state : σ) :
    (start : Ctx σ κ ω).known state = True := rfl

@[simp] theorem observe_held
    (protocol : Protocol σ κ ω) (ctx : Ctx σ κ ω) (seen : σ) :
    (ctx.observe protocol seen).held = ctx.held := rfl

@[simp] theorem observe_writes
    (protocol : Protocol σ κ ω) (ctx : Ctx σ κ ω) (seen : σ) :
    (ctx.observe protocol seen).writes = ctx.writes := rfl

@[simp] theorem observe_known
    (protocol : Protocol σ κ ω) (ctx : Ctx σ κ ω) (seen later : σ) :
    (ctx.observe protocol seen).known later =
      (ctx.known later ∧ protocol.Rely ctx.held seen later) := rfl

@[simp] theorem take_held (ctx : Ctx σ κ ω) (row other : κ) :
    (ctx.take row).held other = (other = row ∨ ctx.held other) := rfl

@[simp] theorem take_writes (ctx : Ctx σ κ ω) (row : κ) :
    (ctx.take row).writes = ctx.writes := rfl

@[simp] theorem take_known (ctx : Ctx σ κ ω) (row : κ) :
    (ctx.take row).known = ctx.known := rfl

@[simp] theorem push_held [Store σ κ ω]
    (ctx : Ctx σ κ ω) (stmt : ω) (row : κ) :
    (ctx.push stmt).held row =
      (row ∈ Store.rows σ stmt ∨ ctx.held row) := rfl

@[simp] theorem push_writes [Store σ κ ω] (ctx : Ctx σ κ ω) (stmt : ω) :
    (ctx.push stmt).writes = ctx.writes ++ [stmt] := rfl

@[simp] theorem push_known [Store σ κ ω] (ctx : Ctx σ κ ω) (stmt : ω) :
    (ctx.push stmt).known = ctx.known := rfl

@[simp] theorem forget_held
    (ctx : Ctx σ κ ω) (held : κ → Prop) :
    (ctx.forget held).held = held := rfl

@[simp] theorem forget_writes (ctx : Ctx σ κ ω) (held : κ → Prop) :
    (ctx.forget held).writes = ctx.writes := rfl

@[simp] theorem forget_known
    (ctx : Ctx σ κ ω) (held : κ → Prop) (state : σ) :
    (ctx.forget held).known state = True := rfl

/-- Without locks a query says nothing about later states. -/
@[simp] theorem start_observe (protocol : Protocol σ κ ω) (seen : σ) :
    (start : Ctx σ κ ω).observe protocol seen = start := by
  simp [start, observe, Protocol.Rely]

/--
Committing the pending statements is allowed: from every state compatible
with what is known, the invariant is kept, the statements meet the client's
guarantee in that state and nothing protected by a lock the client does not
hold is touched.
-/
def CommitOk [Store σ κ ω]
    (protocol : Protocol σ κ ω) (guarantee : List ω → σ → Prop)
    (ctx : Ctx σ κ ω) : Prop :=
  ∀ state,
    protocol.Inv state →
    ctx.known state →
    protocol.Condition ctx.writes state →
    (∀ row ∈ rowsOf σ ctx.writes, ctx.held row) →
    protocol.Inv (applyAll ctx.writes state) ∧
      guarantee ctx.writes state ∧
      ∀ row, ¬ctx.held row →
        protocol.Same row state (applyAll ctx.writes state)

/-- What may be committed may be committed under a weaker guarantee. -/
theorem CommitOk.mono [Store σ κ ω]
    {protocol : Protocol σ κ ω} {guarantee weaker : List ω → σ → Prop}
    {ctx : Ctx σ κ ω} (commits : ctx.CommitOk protocol guarantee)
    (weaken : ∀ stmts state, guarantee stmts state → weaker stmts state) :
    ctx.CommitOk protocol weaker := by
  intro state inv known condition rows
  obtain ⟨kept, allowed, frame⟩ := commits state inv known condition rows
  exact ⟨kept, weaken _ _ allowed, frame⟩

end Ctx

section Wp

variable {σ κ ω ε α β ρ τ : Type} [Store σ κ ω]

/-- The weakest precondition of a block over all interleavings. -/
def Prog.wp (protocol : Protocol σ κ ω) :
    Prog σ κ ω ε α → Ctx σ κ ω → (Except ε α → Ctx σ κ ω → Prop) → Prop
  | .done value, ctx, goal => goal (.ok value) ctx
  | .fail error, ctx, goal => goal (.error error) ctx
  | .query next, ctx, goal =>
      ∀ state, protocol.Inv state → ctx.known state →
        (next (applyAll ctx.writes state)).wp protocol
          (ctx.observe protocol state) goal
  | .lock row next, ctx, goal => next.wp protocol (ctx.take row) goal
  | .write stmt next, ctx, goal => next.wp protocol (ctx.push stmt) goal
  | .release _ next, ctx, goal =>
      ∀ held, next.wp protocol (ctx.forget held) goal

/-- The weakest precondition of a request; every commit must be allowed. -/
def Proc.wp (protocol : Protocol σ κ ω) (guarantee : List ω → σ → Prop) :
    Proc σ κ ω ρ → Ctx σ κ ω → (ρ → Ctx σ κ ω → Prop) → Prop
  | .halt result, ctx, goal => goal result ctx
  | .query next, ctx, goal =>
      ∀ state, protocol.Inv state → ctx.known state →
        (next (applyAll ctx.writes state)).wp protocol guarantee
          (ctx.observe protocol state) goal
  | .lock row next, ctx, goal =>
      next.wp protocol guarantee (ctx.take row) goal
  | .write stmt next, ctx, goal =>
      next.wp protocol guarantee (ctx.push stmt) goal
  | .release _ next, ctx, goal =>
      ∀ held, next.wp protocol guarantee (ctx.forget held) goal
  | .commit next, ctx, goal =>
      ctx.CommitOk protocol guarantee ∧
        next.wp protocol guarantee .start goal
  | .rollback next, _, goal => next.wp protocol guarantee .start goal

/-- The request keeps the protocol and its guarantee on every path. -/
def Proc.Safe
    (protocol : Protocol σ κ ω) (guarantee : List ω → σ → Prop)
    (proc : Proc σ κ ω ρ) : Prop :=
  proc.wp protocol guarantee .start fun _ _ => True

variable {protocol : Protocol σ κ ω} {guarantee : List ω → σ → Prop}

example (row : κ) (value : α) (ctx : Ctx σ κ ω)
    (goal : Except ε α → Ctx σ κ ω → Prop) :
    (Prog.lock row (.done value) : Prog σ κ ω ε α).wp protocol ctx goal ↔
      goal (.ok value) (ctx.take row) := by
  simp only [Prog.wp]

example (result : ρ) (ctx : Ctx σ κ ω) (goal : ρ → Ctx σ κ ω → Prop) :
    (Proc.rollback (.halt result) : Proc σ κ ω ρ).wp protocol guarantee ctx
      goal ↔ goal result .start := by
  simp only [Proc.wp]

/-- A weaker goal follows. -/
theorem Prog.wp_mono
    {program : Prog σ κ ω ε α} {ctx : Ctx σ κ ω}
    {goal weaker : Except ε α → Ctx σ κ ω → Prop}
    (holds : program.wp protocol ctx goal)
    (weaken : ∀ result later, goal result later → weaker result later) :
    program.wp protocol ctx weaker := by
  induction program generalizing ctx with
  | done value => exact weaken _ _ holds
  | fail error => exact weaken _ _ holds
  | query next inductionHypothesis =>
      intro state inv known
      exact inductionHypothesis _ (holds state inv known)
  | lock row next inductionHypothesis => exact inductionHypothesis holds
  | write stmt next inductionHypothesis => exact inductionHypothesis holds
  | release count next inductionHypothesis =>
      intro held
      exact inductionHypothesis (holds held)

/-- The same place in a program, where more is known. -/
structure Ctx.Refines (ctx weaker : Ctx σ κ ω) : Prop where
  held : ctx.held = weaker.held
  writes : ctx.writes = weaker.writes
  known : ∀ state, ctx.known state → weaker.known state

/-- What holds under weaker locks holds under stronger ones. -/
theorem Prog.wp_refine
    {weak : Protocol σ κ ω} (inv : ∀ state, protocol.Inv state → weak.Inv state)
    (same : ∀ row first second, protocol.Same row first second →
      weak.Same row first second)
    {program : Prog σ κ ω ε α} {ctx weaker : Ctx σ κ ω}
    {goal : Except ε α → Ctx σ κ ω → Prop}
    (holds : program.wp weak weaker goal) (refines : ctx.Refines weaker) :
    program.wp protocol ctx fun result later =>
      ∃ base, goal result base ∧ later.Refines base := by
  induction program generalizing ctx weaker with
  | done value => exact ⟨weaker, holds, refines⟩
  | fail error => exact ⟨weaker, holds, refines⟩
  | query next inductionHypothesis =>
      intro state kept known
      rw [refines.writes]
      refine inductionHypothesis _
        (holds state (inv state kept) (refines.known state known))
        ⟨refines.held, refines.writes, fun later grown => ?_⟩
      exact ⟨refines.known later grown.1, fun row held =>
        same row _ _ (grown.2 row (refines.held ▸ held))⟩
  | lock row next inductionHypothesis =>
      refine inductionHypothesis holds ⟨?_, refines.writes, refines.known⟩
      rw [Ctx.take, refines.held]
      rfl
  | write stmt next inductionHypothesis =>
      refine inductionHypothesis holds ⟨?_, ?_, refines.known⟩
      · rw [Ctx.push, refines.held]
        rfl
      · rw [Ctx.push, refines.writes]
        rfl
  | release count next inductionHypothesis =>
      exact fun held => inductionHypothesis (holds held)
        ⟨rfl, refines.writes, fun _ _ => trivial⟩

/-- A weaker goal follows. -/
theorem Proc.wp_mono
    {proc : Proc σ κ ω ρ} {ctx : Ctx σ κ ω}
    {goal weaker : ρ → Ctx σ κ ω → Prop}
    (holds : proc.wp protocol guarantee ctx goal)
    (weaken : ∀ result later, goal result later → weaker result later) :
    proc.wp protocol guarantee ctx weaker := by
  induction proc generalizing ctx with
  | halt result => exact weaken _ _ holds
  | query next inductionHypothesis =>
      intro state inv known
      exact inductionHypothesis _ (holds state inv known)
  | lock row next inductionHypothesis => exact inductionHypothesis holds
  | write stmt next inductionHypothesis => exact inductionHypothesis holds
  | release count next inductionHypothesis =>
      intro held
      exact inductionHypothesis (holds held)
  | commit next inductionHypothesis =>
      exact ⟨holds.1, inductionHypothesis holds.2⟩
  | rollback next inductionHypothesis => exact inductionHypothesis holds

end Wp

namespace System

variable {σ κ ω ρ : Type} [Store σ κ ω]

/-- A client's context describes its place in the system. -/
structure Describes
    (protocol : Protocol σ κ ω) (system : System σ κ ω ρ)
    (client : Nat) (ctx : Ctx σ κ ω) : Prop where
  writes : ctx.writes = (system.clients client).writes
  held : ∀ row, ctx.held row → (client, row) ∈ system.locks
  rows : ∀ row ∈ rowsOf σ ctx.writes, ctx.held row
  known : ctx.known system.committed
  stable : ∀ first second, ctx.known first →
    protocol.Rely ctx.held first second → ctx.known second

/-- The invariant of a system whose clients all keep a protocol. -/
structure Sound
    (protocol : Protocol σ κ ω) (guarantee : Nat → List ω → σ → Prop)
    (system : System σ κ ω ρ) : Prop where
  inv : protocol.Inv system.committed
  exclusive : ∀ first second row,
    (first, row) ∈ system.locks → (second, row) ∈ system.locks →
      first = second
  safe : ∀ client, ∃ ctx, system.Describes protocol client ctx ∧
    (system.clients client).proc.wp protocol (guarantee client) ctx
      fun _ _ => True

variable {protocol : Protocol σ κ ω} {guarantee : Nat → List ω → σ → Prop}
  {system : System σ κ ω ρ}

/-- Before the first step every client is outside a transaction. -/
theorem Describes.start
    (client : Nat)
    (idle : (system.clients client).writes = []) :
    system.Describes protocol client .start where
  writes := idle.symm
  held := by simp
  rows := by simp
  known := trivial
  stable := fun _ _ _ _ => trivial

/-- A pool of safe requests starts in a sound system. -/
theorem sound_init
    {state : σ} {requests : Nat → Proc σ κ ω ρ}
    (inv : protocol.Inv state)
    (safe : ∀ client, (requests client).Safe protocol (guarantee client)) :
    (init state requests).Sound protocol guarantee where
  inv := inv
  exclusive := by simp [init]
  safe := fun client => ⟨.start, .start client rfl, safe client⟩

/-- A step that keeps what a client relies on leaves it described. -/
theorem Describes.frame
    {other : Nat} {ctx : Ctx σ κ ω} {next : System σ κ ω ρ}
    (describes : system.Describes protocol other ctx)
    (same : next.clients other = system.clients other)
    (locks : ∀ row, (other, row) ∈ system.locks → (other, row) ∈ next.locks)
    (relies : protocol.Rely ctx.held system.committed next.committed) :
    next.Describes protocol other ctx where
  writes := by rw [same]; exact describes.writes
  held := fun row member => locks row (describes.held row member)
  rows := describes.rows
  known := describes.stable _ _ describes.known relies
  stable := describes.stable

omit [Store σ κ ω] in
/-- Nothing changed is nothing to rely on. -/
theorem rely_refl (held : κ → Prop) (state : σ) :
    protocol.Rely held state state :=
  fun row _ => protocol.same_refl row state

omit [Store σ κ ω] in
/-- A lock that is free can be added without breaking exclusiveness. -/
theorem exclusive_append
    {client : Nat} (rows : List κ)
    (exclusive : ∀ first second row,
      (first, row) ∈ system.locks → (second, row) ∈ system.locks →
        first = second)
    (free : system.Free client rows) :
    ∀ first second row,
      (first, row) ∈ rows.map (client, ·) ++ system.locks →
      (second, row) ∈ rows.map (client, ·) ++ system.locks →
        first = second := by
  have owner : ∀ other row, row ∈ rows → (other, row) ∈ system.locks →
      other = client := by
    intro other row wanted taken
    by_contra different
    exact free (other, row) taken different wanted
  intro first second row firstTaken secondTaken
  simp only [List.mem_append, List.mem_map, Prod.mk.injEq]
    at firstTaken secondTaken
  rcases firstTaken with ⟨_, wanted, rfl, rfl⟩ | firstTaken <;>
    rcases secondTaken with ⟨_, alsoWanted, same, rfl⟩ | secondTaken
  · exact same
  · exact (owner _ _ wanted secondTaken).symm
  · exact same ▸ owner _ _ alsoWanted firstTaken
  · exact exclusive _ _ _ firstTaken secondTaken

/-- A step of one client keeps a system sound if it keeps its own context. -/
theorem Sound.update
    (sound : system.Sound protocol guarantee)
    (client : Nat) (moved : Client σ κ ω ρ) (ctx : Ctx σ κ ω)
    {next : System σ κ ω ρ}
    (clients : next.clients = system.setClient client moved)
    (inv : protocol.Inv next.committed)
    (exclusive : ∀ first second row,
      (first, row) ∈ next.locks → (second, row) ∈ next.locks →
        first = second)
    (locks : ∀ other row, other ≠ client →
      (other, row) ∈ system.locks → (other, row) ∈ next.locks)
    (relies : ∀ other held, other ≠ client →
      (∀ row, held row → (other, row) ∈ system.locks) →
      protocol.Rely held system.committed next.committed)
    (describes : next.Describes protocol client ctx)
    (safe : moved.proc.wp protocol (guarantee client) ctx fun _ _ => True) :
    next.Sound protocol guarantee where
  inv := inv
  exclusive := exclusive
  safe := by
    intro query
    by_cases mover : query = client
    · subst mover
      exact ⟨ctx, describes, by simpa [clients] using safe⟩
    · obtain ⟨other, described, otherSafe⟩ := sound.safe query
      have same : next.clients query = system.clients query := by
        rw [clients, setClient_other system mover]
      refine ⟨other, described.frame same ?_ ?_, by rw [same]; exact otherSafe⟩
      · exact fun row taken => locks query row mover taken
      · exact relies query other.held mover described.held

omit [Store σ κ ω] in
/-- Locks of the others survive the end of a client's transaction. -/
theorem mem_othersLocks
    {client other : Nat} {row : κ}
    (different : other ≠ client)
    (taken : (other, row) ∈ system.locks) :
    (other, row) ∈ system.othersLocks client := by
  simp [othersLocks, taken, different]

/-- Ending a transaction without effect keeps a system sound. -/
theorem Sound.abandon
    (sound : system.Sound protocol guarantee)
    (client : Nat) (proc : Proc σ κ ω ρ)
    (safe : proc.wp protocol (guarantee client) .start fun _ _ => True) :
    System.Sound protocol guarantee
      { system with
        clients := system.setClient client ⟨proc, []⟩
        locks := system.othersLocks client } := by
  refine sound.update client ⟨proc, []⟩ .start rfl sound.inv ?_ ?_ ?_
    (.start client (by simp)) safe
  · intro first second row firstTaken secondTaken
    exact sound.exclusive first second row
      (List.mem_of_mem_filter firstTaken) (List.mem_of_mem_filter secondTaken)
  · exact fun other row different taken => mem_othersLocks different taken
  · exact fun other held _ _ => rely_refl held _

variable [DecidableEq κ]

/-- One turn of a client keeps a system sound. -/
theorem Sound.turn
    (sound : system.Sound protocol guarantee) (client : Nat)
    (admits : system.Admits protocol.Condition (.run client : Event ρ)) :
    (system.turn client).Sound protocol guarantee := by
  obtain ⟨ctx, described, safe⟩ := sound.safe client
  rcases shape : system.clients client with ⟨proc, writes⟩
  have pending : ctx.writes = writes := by simpa [shape] using described.writes
  simp only [shape] at safe
  simp only [System.turn, shape]
  cases proc with
  | halt result => exact sound
  | query next =>
      refine sound.update client _ (ctx.observe protocol system.committed) rfl
        sound.inv sound.exclusive (fun _ _ _ taken => taken)
        (fun _ held _ _ => rely_refl held _) ?_ ?_
      · refine ⟨by simp [pending], described.held, described.rows,
          ⟨described.known, rely_refl _ _⟩, ?_⟩
        rintro first second ⟨known, seen⟩ relies
        exact ⟨described.stable _ _ known relies, fun row member =>
          protocol.same_trans row _ _ _ (seen row member) (relies row member)⟩
      · rw [← pending]
        exact safe _ sound.inv described.known
  | lock row next =>
      by_cases free : system.Free client [row]
      · simp only [free, ↓reduceIte]
        refine sound.update client _ (ctx.take row) rfl sound.inv
          (exclusive_append [row] sound.exclusive free)
          (fun _ _ _ taken => List.mem_cons_of_mem _ taken)
          (fun _ held _ _ => rely_refl held _) ?_ safe
        refine ⟨by simp [pending], ?_, ?_, described.known, ?_⟩
        · rintro wanted (rfl | earlier)
          · exact List.mem_cons_self
          · exact List.mem_cons_of_mem _ (described.held wanted earlier)
        · exact fun wanted member => .inr (described.rows wanted member)
        · exact fun first second known relies =>
            described.stable _ _ known fun wanted member =>
              relies wanted (.inr member)
      · simpa only [free, ↓reduceIte] using sound
  | write stmt next =>
      by_cases free : system.Free client (Store.rows σ stmt)
      · simp only [free, ↓reduceIte]
        refine sound.update client _ (ctx.push stmt) rfl sound.inv
          (exclusive_append (Store.rows σ stmt) sound.exclusive free)
          (fun _ _ _ taken => List.mem_append_right _ taken)
          (fun _ held _ _ => rely_refl held _) ?_ safe
        refine ⟨by simp [pending], ?_, ?_, described.known, ?_⟩
        · rintro wanted (fresh | earlier)
          · exact List.mem_append_left _
              (List.mem_map.mpr ⟨wanted, fresh, rfl⟩)
          · exact List.mem_append_right _ (described.held wanted earlier)
        · intro wanted member
          simp only [Ctx.push_writes, rowsOf, List.flatMap_append,
            List.mem_append, List.flatMap_singleton] at member
          rcases member with earlier | fresh
          · exact .inr (described.rows wanted earlier)
          · exact .inl fresh
        · exact fun first second known relies =>
            described.stable _ _ known fun wanted member =>
              relies wanted (.inr member)
      · simpa only [free, ↓reduceIte] using sound
  | release count next =>
      have kept : ∀ entry ∈ (rowsOf σ writes).map (client, ·) ++
          dropLocks client count system.locks, entry ∈ system.locks := by
        intro entry member
        rcases List.mem_append.mp member with written | other
        · obtain ⟨row, inside, rfl⟩ := List.mem_map.mp written
          exact described.held row
            (described.rows row (by rw [pending]; exact inside))
        · exact mem_of_mem_dropLocks other
      refine sound.update client _ (ctx.forget (· ∈ rowsOf σ writes)) rfl
        sound.inv
        (fun first second row firstTaken secondTaken =>
          sound.exclusive first second row
            (kept _ firstTaken) (kept _ secondTaken))
        (fun other row different taken => List.mem_append_right _
          (mem_dropLocks_of_ne taken different))
        (fun _ held _ _ => rely_refl held _) ?_
        (safe (· ∈ rowsOf σ writes))
      refine ⟨by simp [pending], ?_, ?_, trivial, fun _ _ _ _ => trivial⟩
      · exact fun row member => List.mem_append_left _
          (List.mem_map.mpr ⟨row, member, rfl⟩)
      · exact fun row member => by simpa [Ctx.forget, pending] using member
  | commit next =>
      obtain ⟨allowed, rest⟩ := safe
      have holds : protocol.Condition ctx.writes system.committed :=
        admits ctx.writes (by simp [committing, shape, pending])
      obtain ⟨inv, -, frame⟩ :=
        allowed system.committed sound.inv described.known holds described.rows
      rw [pending] at inv frame
      refine sound.update client _ .start rfl inv ?_ ?_ ?_
        (.start client (by simp)) rest
      · intro first second row firstTaken secondTaken
        exact sound.exclusive first second row
          (List.mem_of_mem_filter firstTaken)
          (List.mem_of_mem_filter secondTaken)
      · exact fun other row different taken => mem_othersLocks different taken
      · intro other held different taken row member
        refine frame row fun mine => different ?_
        exact sound.exclusive other client row (taken row member)
          (described.held row mine)
  | rollback next => exact sound.abandon client next safe

/-- Every step of the scheduler keeps a system sound. -/
theorem Sound.step
    (sound : system.Sound protocol guarantee) (event : Event ρ)
    (admits : system.Admits protocol.Condition event) :
    (system.step event).Sound protocol guarantee := by
  cases event with
  | run client => exact sound.turn client admits
  | kill client result => exact sound.abandon client (.halt result) trivial

/-- Every interleaving of safe requests keeps the protocol. -/
theorem Reach.sound
    {start : System σ κ ω ρ}
    (reach : Reach protocol.Condition start system)
    (sound : start.Sound protocol guarantee) :
    system.Sound protocol guarantee := by
  induction reach with
  | refl => exact sound
  | step event _ admits inductionHypothesis =>
      exact inductionHypothesis.step event admits

omit [DecidableEq κ] in
/-- Whatever a client commits meets its guarantee. -/
theorem Sound.guaranteed
    (sound : system.Sound protocol guarantee) {client : Nat}
    (admits : system.Admits protocol.Condition (.run client : Event ρ))
    {stmts : List ω}
    (commits : system.committing (.run client : Event ρ) = some stmts) :
    guarantee client stmts system.committed := by
  obtain ⟨ctx, described, safe⟩ := sound.safe client
  have holds := admits stmts commits
  simp only [committing] at commits
  split at commits
  · rename_i next shape
    simp only [Option.some.injEq] at commits
    rw [shape] at safe
    have pending : ctx.writes = stmts := described.writes.trans commits
    rw [← pending] at holds ⊢
    exact (safe.1 system.committed sound.inv described.known
      holds described.rows).2.1
  · simp at commits

/--
What every commit that meets a condition keeps, by its guarantee, all of them
keep together.
-/
theorem Reach.lasts
    {condition : List ω → σ → Prop} {start : System σ κ ω ρ}
    (reach : Reach condition start system)
    (sound : start.Sound protocol guarantee)
    (admitted : ∀ stmts state, condition stmts state →
      protocol.Condition stmts state)
    {holds : σ → Prop}
    (kept : ∀ client stmts state, condition stmts state →
      guarantee client stmts state → holds state →
        holds (applyAll stmts state))
    (initial : holds start.committed) :
    system.Sound protocol guarantee ∧ holds system.committed := by
  induction reach with
  | refl => exact ⟨sound, initial⟩
  | @step current event _ admits inductionHypothesis =>
      obtain ⟨before, still⟩ := inductionHypothesis
      have allowed : current.Admits protocol.Condition event :=
        fun stmts commits => admitted stmts _ (admits stmts commits)
      refine ⟨before.step event allowed, ?_⟩
      rcases commits : current.committing event with _ | stmts
      · rw [step_committed_of_none commits]
        exact still
      · cases event with
        | kill client result => simp [committing] at commits
        | run client =>
            rw [step_committed_of_some commits]
            exact kept client stmts _ (admits stmts commits)
              (before.guaranteed allowed commits) still

/--
While no event of a schedule is excluded, what the other commits keep by their
guarantee holds wherever an event finds the system.
-/
theorem Sound.traced
    (excluded : System σ κ ω ρ → Event ρ → Prop) {holds : σ → Prop}
    {schedule : List (Event ρ)}
    (sound : system.Sound protocol guarantee)
    (always : ∀ stmts state, protocol.Condition stmts state)
    (kept : ∀ current client stmts,
      current.committing (.run client : Event ρ) = some stmts →
      ¬excluded current (.run client) →
      guarantee client stmts current.committed → holds current.committed →
        holds (applyAll stmts current.committed))
    (initial : holds system.committed)
    (none : ∀ step ∈ system.trace schedule, ¬excluded step.1 step.2) :
    ∀ step ∈ system.trace schedule,
      step.1.Sound protocol guarantee ∧ holds step.1.committed := by
  induction schedule generalizing system with
  | nil => simp [trace]
  | cons event rest inductionHypothesis =>
      simp only [trace, List.mem_cons, forall_eq_or_imp] at none ⊢
      refine ⟨⟨sound, initial⟩, inductionHypothesis
        (sound.step event fun stmts _ => always stmts _) ?_ none.2⟩
      rcases commits : system.committing event with _ | stmts
      · rw [step_committed_of_none commits]
        exact initial
      · cases event with
        | kill client result => simp [committing] at commits
        | run client =>
            rw [step_committed_of_some commits]
            exact kept system client stmts commits none.1
              (sound.guaranteed (fun stmts _ => always stmts _) commits) initial

end System

end Transaction
