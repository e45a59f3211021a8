import KnowledgeMarketplace.Transaction.Continues

/-!
# Debts between commits

A commit may leave work that the same request does in a later commit.  A client
owes that work while every path of it ends with such a commit; what the work
establishes then holds whenever no client owes it.
-/

namespace Transaction

section Client

variable {σ κ ω ρ τ : Type} [Store σ κ ω]

/--
On every path that reads states which meet `assumed`, the client commits a
statement that pays.
-/
def Proc.Owes (pays : ω → Prop) (assumed : σ → Prop) :
    Proc σ κ ω ρ → List ω → Prop
  | .halt _, _ => False
  | .query next, writes =>
      ∀ state, assumed state →
        (next (applyAll writes state)).Owes pays assumed writes
  | .lock _ next, writes => next.Owes pays assumed writes
  | .write stmt next, writes => next.Owes pays assumed (writes ++ [stmt])
  | .release _ next, writes => next.Owes pays assumed writes
  | .commit next, writes =>
      (∃ stmt ∈ writes, pays stmt) ∨ next.Owes pays assumed []
  | .rollback next, _ => next.Owes pays assumed []

/-- The client owes whatever one of its commits incurs. -/
def Proc.Honours (incurs pays : ω → Prop) (assumed : σ → Prop) :
    Proc σ κ ω ρ → List ω → Prop
  | .halt _, _ => True
  | .query next, writes =>
      ∀ state, (next state).Honours incurs pays assumed writes
  | .lock _ next, writes => next.Honours incurs pays assumed writes
  | .write stmt next, writes =>
      next.Honours incurs pays assumed (writes ++ [stmt])
  | .release _ next, writes => next.Honours incurs pays assumed writes
  | .commit next, writes =>
      ((∃ stmt ∈ writes, incurs stmt) → next.Owes pays assumed []) ∧
        next.Honours incurs pays assumed []
  | .rollback next, _ => next.Honours incurs pays assumed []

variable {incurs pays : ω → Prop} {assumed : σ → Prop} {writes : List ω}

/-- A client honours its debts if it goes on to owe what it incurs. -/
theorem Proc.honours_iff {proc : Proc σ κ ω ρ} :
    proc.Honours incurs pays assumed writes ↔
      proc.Continues (fun stmts next =>
        (∃ stmt ∈ stmts, incurs stmt) → next.Owes pays assumed []) writes := by
  induction proc generalizing writes with
  | halt result => exact Iff.rfl
  | query next inductionHypothesis =>
      exact forall_congr' fun state => inductionHypothesis state
  | lock row next inductionHypothesis => exact inductionHypothesis
  | write stmt next inductionHypothesis => exact inductionHypothesis
  | release count next inductionHypothesis => exact inductionHypothesis
  | commit next inductionHypothesis =>
      exact and_congr_right fun _ => inductionHypothesis
  | rollback next inductionHypothesis => exact inductionHypothesis

/-- What the first part pays is paid. -/
theorem Proc.Owes.bind
    {first : Proc σ κ ω ρ} (owes : first.Owes pays assumed writes)
    (rest : ρ → Proc σ κ ω τ) :
    (first.bind rest).Owes pays assumed writes := by
  induction first generalizing writes with
  | halt result => exact owes.elim
  | query next inductionHypothesis =>
      exact fun state holds => inductionHypothesis _ (owes state holds)
  | lock row next inductionHypothesis => exact inductionHypothesis owes
  | write stmt next inductionHypothesis => exact inductionHypothesis owes
  | release count next inductionHypothesis => exact inductionHypothesis owes
  | commit next inductionHypothesis => exact owes.imp_right inductionHypothesis
  | rollback next inductionHypothesis => exact inductionHypothesis owes

omit [Store σ κ ω] in
/-- No statement of a commit incurs anything. -/
theorem incurs_none
    {stmts : List ω} {goal : Prop}
    (all : ∀ stmt ∈ stmts, ∀ other, Effect.write stmt = .write other →
      ¬incurs other) : (∃ stmt ∈ stmts, incurs stmt) → goal := by
  rintro ⟨stmt, member, incurred⟩
  exact absurd incurred (all stmt member stmt rfl)

end Client

namespace Request

variable {σ κ ω ε α β : Type} [Store σ κ ω]
  {incurs pays : ω → Prop} {assumed : σ → Prop}

/-- On every path the request commits a statement that pays. -/
def Owes (pays : ω → Prop) (assumed : σ → Prop)
    (request : Request σ κ ω ε α) : Prop :=
  Proc.Owes pays assumed request []

/-- The request owes whatever one of its commits incurs. -/
def Honours (incurs pays : ω → Prop) (assumed : σ → Prop)
    (request : Request σ κ ω ε α) : Prop :=
  ∀ writes, (∀ stmt ∈ writes, ¬incurs stmt) →
    Proc.Honours incurs pays assumed request writes

/-- What the first part pays is paid. -/
theorem Owes.seq
    {first : Request σ κ ω ε α} (owes : first.Owes pays assumed)
    (rest : α → Request σ κ ω ε β) :
    (first >>= rest).Owes pays assumed :=
  Proc.Owes.bind owes _

/-- A request whose statements incur nothing. -/
theorem honours_of_emits
    {request : Request σ κ ω ε α}
    (quiet : request.Emits (fun effect => ∀ stmt, effect = .write stmt →
      ¬incurs stmt) fun _ => True) :
    request.Honours incurs pays assumed := by
  intro writes pending
  exact Proc.honours_iff.mpr (Proc.continues_of_emits quiet
    (fun _ _ => incurs_none) fun stmt member _ same =>
      Effect.write.inj same ▸ pending stmt member)

/-- Statements that incur nothing, then the rest. -/
theorem Honours.seq
    {first : Request σ κ ω ε α} {rest : α → Request σ κ ω ε β}
    (quiet : first.Emits (fun effect => ∀ stmt, effect = .write stmt →
      ¬incurs stmt) fun _ => True)
    (next : ∀ value, (rest value).Honours incurs pays assumed) :
    (first >>= rest).Honours incurs pays assumed := by
  intro writes pending
  refine Proc.honours_iff.mpr (Proc.Continues.bind quiet
    (fun _ _ => incurs_none) (fun stmt member _ same =>
      Effect.write.inj same ▸ pending stmt member) ?_)
  rintro (error | value) later _ still
  · trivial
  · exact Proc.honours_iff.mp
      (next value later fun stmt member => still stmt member stmt rfl)

/-- A block whose statements the rest pays for. -/
theorem Honours.commit
    {body : Prog σ κ ω ε α} {rest : α → Request σ κ ω ε β}
    (pay : ∀ value, (rest value).Owes pays assumed)
    (next : ∀ value, (rest value).Honours incurs pays assumed) :
    (atomic body >>= rest).Honours incurs pays assumed := by
  intro writes pending
  clear pending
  induction body generalizing writes with
  | done value => exact ⟨fun _ => pay value, next value [] (by simp)⟩
  | fail error => exact trivial
  | query step inductionHypothesis =>
      exact fun state => inductionHypothesis state writes
  | lock row step inductionHypothesis => exact inductionHypothesis writes
  | write stmt step inductionHypothesis =>
      exact inductionHypothesis (writes ++ [stmt])
  | release count step inductionHypothesis => exact inductionHypothesis writes

end Request

namespace System

variable {σ κ ω ρ : Type} [Store σ κ ω] [DecidableEq κ]

/-- One of the clients owes, apart from those that are left out. -/
def Owed
    (pays : ω → Prop) (assumed : σ → Prop) (system : System σ κ ω ρ)
    (among : Nat → Prop) : Prop :=
  ∃ client, among client ∧
    (system.clients client).proc.Owes pays assumed (system.clients client).writes

/-- Every client honours its debts, and what no client owes is settled. -/
structure Solvent
    (incurs pays : ω → Prop) (assumed settled : σ → Prop)
    (system : System σ κ ω ρ) : Prop where
  assumes : assumed system.committed
  honours : ∀ client, (system.clients client).proc.Honours incurs pays assumed
    (system.clients client).writes
  settles : settled system.committed ∨
    system.Owed pays assumed fun _ => True

variable {incurs pays : ω → Prop} {assumed settled : σ → Prop}
  {system : System σ κ ω ρ}

omit [DecidableEq κ] in
/-- When every client is done, everything is settled. -/
theorem Solvent.settled_of_halted
    (solvent : system.Solvent incurs pays assumed settled)
    (halted : ∀ client, ∃ result, (system.clients client).proc = .halt result) :
    settled system.committed := by
  rcases solvent.settles with done | ⟨client, _, owes⟩
  · exact done
  · obtain ⟨result, shape⟩ := halted client
    rw [shape] at owes
    exact owes.elim

/-- A turn that does not pay leaves its client with its debt. -/
theorem owes_turn
    (assumes : assumed system.committed) (client : Nat)
    (owes : (system.clients client).proc.Owes pays assumed
      (system.clients client).writes)
    (unpaid : ∀ stmts, system.committing (.run client : Event ρ) = some stmts →
      ∀ stmt ∈ stmts, ¬pays stmt) :
    ((system.turn client).clients client).proc.Owes pays assumed
      ((system.turn client).clients client).writes := by
  rcases shape : system.clients client with ⟨proc, writes⟩
  simp only [shape] at owes
  simp only [committing, shape] at unpaid
  simp only [turn, shape]
  cases proc with
  | halt result => exact owes.elim
  | query next => simpa using owes _ assumes
  | lock row next =>
      rw [Proc.Owes] at owes
      by_cases free : system.Free client [row]
      · simpa [free] using owes
      · simpa [free, shape, Proc.Owes] using owes
  | write stmt next =>
      rw [Proc.Owes] at owes
      by_cases free : system.Free client (Store.rows σ stmt)
      · simpa [free] using owes
      · simpa [free, shape, Proc.Owes] using owes
  | release count next => simpa [Proc.Owes] using owes
  | commit next =>
      rcases owes with ⟨stmt, member, paid⟩ | later
      · exact absurd paid (unpaid writes rfl stmt member)
      · simpa using later
  | rollback next => simpa [Proc.Owes] using owes

/-- A turn leaves its client honouring its debts. -/
theorem honours_turn
    (client : Nat)
    (honours : (system.clients client).proc.Honours incurs pays assumed
      (system.clients client).writes) :
    ((system.turn client).clients client).proc.Honours incurs pays assumed
      ((system.turn client).clients client).writes :=
  Proc.honours_iff.mpr (continues_turn client (Proc.honours_iff.mp honours))

/-- A commit that incurs a debt leaves its client with it. -/
theorem owes_of_incurs
    {client : Nat} {stmts : List ω}
    (honours : (system.clients client).proc.Honours incurs pays assumed
      (system.clients client).writes)
    (commits : system.committing (.run client : Event ρ) = some stmts)
    (incurred : ∃ stmt ∈ stmts, incurs stmt) :
    ((system.turn client).clients client).proc.Owes pays assumed
      ((system.turn client).clients client).writes := by
  obtain ⟨next, after, owes⟩ :=
    continues_commits (Proc.honours_iff.mp honours) commits
  rw [after]
  exact owes incurred

/--
A turn keeps the system solvent: a commit that incurs or pays nothing keeps what
is settled, and one that pays settles, or leaves the debt to another client.
-/
theorem Solvent.turn
    (solvent : system.Solvent incurs pays assumed settled) (client : Nat)
    (keeps : ∀ stmts, system.committing (.run client : Event ρ) = some stmts →
      assumed (applyAll stmts system.committed) ∧
        ((∃ stmt ∈ stmts, pays stmt) →
          settled (applyAll stmts system.committed) ∨
            system.Owed pays assumed (· ≠ client)) ∧
        ((∀ stmt ∈ stmts, ¬incurs stmt ∧ ¬pays stmt) →
          settled system.committed →
            settled (applyAll stmts system.committed))) :
    (system.turn client).Solvent incurs pays assumed settled := by
  have honours : ∀ other, ((system.turn client).clients other).proc.Honours
      incurs pays assumed ((system.turn client).clients other).writes := by
    intro other
    by_cases mover : other = client
    · exact mover ▸ honours_turn client (solvent.honours client)
    · rw [turn_other mover]
      exact solvent.honours other
  have others : system.Owed pays assumed (· ≠ client) →
      (system.turn client).Owed pays assumed fun _ => True := by
    rintro ⟨other, mover, owes⟩
    exact ⟨other, trivial, by rw [turn_other mover]; exact owes⟩
  have same : system.turn client = system.step (.run client : Event ρ) := rfl
  rcases commits : system.committing (.run client : Event ρ) with _ | stmts
  · have still := step_committed_of_none commits
    refine ⟨?_, honours, ?_⟩
    · rw [same, still]
      exact solvent.assumes
    · rcases solvent.settles with done | ⟨other, _, owes⟩
      · rw [same, still]
        exact .inl done
      · by_cases mover : other = client
        · subst mover
          exact .inr ⟨other, trivial, owes_turn solvent.assumes other owes
            (by simp [commits])⟩
        · exact .inr (others ⟨other, mover, owes⟩)
  · obtain ⟨assumes, paying, quiet⟩ := keeps stmts commits
    have after := step_committed_of_some commits
    refine ⟨?_, honours, ?_⟩
    · rw [same, after]
      exact assumes
    · rw [same, after, ← same]
      by_cases paid : ∃ stmt ∈ stmts, pays stmt
      · exact (paying paid).imp_right others
      by_cases incurred : ∃ stmt ∈ stmts, incurs stmt
      · exact .inr ⟨client, trivial,
          owes_of_incurs (solvent.honours client) commits incurred⟩
      have unpaid : ∀ stmt ∈ stmts, ¬pays stmt :=
        fun stmt member pay => paid ⟨stmt, member, pay⟩
      have clean : ∀ stmt ∈ stmts, ¬incurs stmt :=
        fun stmt member debt => incurred ⟨stmt, member, debt⟩
      rcases solvent.settles with done | ⟨other, _, owes⟩
      · exact .inl (quiet (fun stmt member =>
          ⟨clean stmt member, unpaid stmt member⟩) done)
      · by_cases mover : other = client
        · subst mover
          refine .inr ⟨other, trivial, owes_turn solvent.assumes other owes ?_⟩
          intro found same
          rw [commits] at same
          exact Option.some.inj same ▸ unpaid
        · exact .inr (others ⟨other, mover, owes⟩)

end System

end Transaction
