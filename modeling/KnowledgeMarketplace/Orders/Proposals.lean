import KnowledgeMarketplace.Operations.Runs
import KnowledgeMarketplace.Transaction.Alone

/-!
# Rounds of a negotiation

A party proposes a deadline and the other one answers; a proposal that waits
blocks the next one.  The guard asks for waiting proposals only, while the table
holds one proposal for each order, whatever became of it.
-/

namespace KnowledgeMarketplace

open Transaction

namespace Orders

/-- The operation proposes a deadline or answers a proposal. -/
def Negotiates : Operation → Prop
  | .order (.proposeDeadline _ _ _ _ _)
  | .order (.respondDeadlineProposal _ _ _) => True
  | _ => False

/-- The guards of a proposal hold. -/
structure Proposable
    (env : Env) (id : OrderId) (actor : Actor) (proposedDueAt : Time) (db : Db) :
    Prop where
  working : ∃ order, db.orders.row id = some order ∧
    party actor order = true ∧ inProgress order = true
  free : pendingProposal id db = none
  future : env.now < proposedDueAt

/-- The operation proposes a deadline for the order, and the guards hold. -/
def Proposes (id : OrderId) : Operation → Db → Prop
  | .order (.proposeDeadline env other actor proposedDueAt _), db =>
      other = id ∧ Proposable env id actor proposedDueAt db
  | _, _ => False

variable {env : Env} {id : OrderId} {actor : Actor} {proposedDueAt : Time}
  {note : String} {db : Db}

/-- A proposal that is stored passed the guards. -/
theorem proposeDeadline_ends
    (env : Env) (id : OrderId) (actor : Actor) (proposedDueAt : Time)
    (note : String) (db : Db) :
    Call.Ends (OrderCall.proposeDeadline env id actor proposedDueAt note).call db
      fun next => Proposable env id actor proposedDueAt db ∧
        ∃ proposal, next.deadlineProposals =
          db.deadlineProposals.insert id proposal := by
  refine Call.perform_ends ?_
  simp only [proposeDeadline, recordEvent, getForUpdate, Tx.getForUpdate, Tx.get,
    Tx.create, Prog.post_bind, Prog.post_lockRow, Prog.post_read,
    Prog.post_orFail, Prog.post_require, Prog.post_exec, reduceCtorEq,
    false_implies, implies_true, and_true]
  intro order stored participant working free future fresh _ _
  exact ⟨⟨⟨order, stored, participant, working⟩, free, future⟩, _, rfl⟩

/-- Past its guards a proposal is stored if and only if it is the first one. -/
theorem proposed_iff
    (proposable : Proposable env id actor proposedDueAt db) :
    ((OrderCall.proposeDeadline env id actor proposedDueAt note).call.run db).1 =
        .ok () ↔
      db.deadlineProposals.row id = none := by
  obtain ⟨⟨order, stored, participant, working⟩, free, future⟩ := proposable
  constructor
  · intro accepted
    by_contra used
    have present : (db.deadlineProposals.row id).isSome = true :=
      Option.isSome_iff_ne_none.mpr used
    have refused : Call.Ends
        (OrderCall.proposeDeadline env id actor proposedDueAt note).call db
          fun _ => False := by
      refine Call.perform_ends ?_
      simp [proposeDeadline, recordEvent, getForUpdate, Tx.getForUpdate, Tx.get,
        Tx.create, present]
    cases refused with
    | succeeded _ absurd => exact absurd
    | failed fails _ => exact fails accepted
  · intro fresh
    have yields : (proposeDeadline env id actor proposedDueAt note).Yields db () _ :=
      .bind (.bind .lockRow (.bind .read (.orFail stored))) <|
        .bind (.require participant) <| .bind (.require working) <|
        .bind .read <| .bind (.require free) <| .bind (.require future) <|
        .bind (.bind .lockRow (.bind .read
          (.bind (.require (by simp [fresh])) .exec))) .exec
    exact congrArg Prod.fst (Call.run_perform yields)

/-- An operation leaves the order without proposals if it adds none. -/
theorem unproposed_after
    {operation : Operation} (negotiates : Negotiates operation) (id : OrderId)
    (db : Db) :
    (operation.after db).deadlineProposals.row id = none ↔
      db.deadlineProposals.row id = none ∧ ¬Proposes id operation db := by
  rcases operation with _ | _ | _ | call | _ | _ <;> try exact negotiates.elim
  cases call with
  | proposeDeadline env other actor proposedDueAt note =>
      cases proposeDeadline_ends env other actor proposedDueAt note db with
      | succeeded _ left =>
          obtain ⟨proposable, proposal, added⟩ := left
          have table : (Operation.after (.order (.proposeDeadline env other actor
              proposedDueAt note)) db).deadlineProposals =
                db.deadlineProposals.insert other proposal := added
          rw [table, Table.row_insert]
          by_cases same : id = other
          · subst same
            by_cases fresh : db.deadlineProposals.row id = none
            · simp [fresh, Proposes, proposable]
            · simp [fresh]
          · have elsewhere : ¬other = id := fun about => same about.symm
            simp [same, Proposes, elsewhere]
      | failed fails same =>
          have kept : Operation.after (.order (.proposeDeadline env other actor
              proposedDueAt note)) db = db := same
          rw [kept]
          refine ⟨fun fresh => ⟨fresh, ?_⟩, And.left⟩
          rintro ⟨rfl, proposable⟩
          exact fails ((proposed_iff proposable).mpr fresh)
  | respondDeadlineProposal other actor accept =>
      have answered : Call.Ends
          (OrderCall.respondDeadlineProposal other actor accept).call db
            fun next => next.deadlineProposals.row id = none ↔
              db.deadlineProposals.row id = none := by
        refine Call.perform_ends ?_
        simp only [respondDeadlineProposal, recordEvent, getForUpdate,
          Tx.getForUpdate, Tx.get, Prog.post_bind, Prog.post_lockRow,
          Prog.post_read, Prog.post_orFail, Prog.post_require, Prog.post_exec,
          Prog.post_ite, Prog.post_pure, reduceCtorEq, false_implies,
          implies_true, and_true]
        have kept : ∀ set, (db.deadlineProposals.modify other set).row id = none ↔
            db.deadlineProposals.row id = none := by
          intro set
          rw [Table.row_modify]
          split_ifs <;> simp
        intro order stored _ proposal _
        exact ⟨fun _ _ _ => kept _, fun _ => ⟨fun _ _ _ => kept _,
          fun _ _ _ => kept _⟩⟩
      have unproposed : ¬Proposes id
          (.order (.respondDeadlineProposal other actor accept)) db := by
        simp [Proposes]
      rw [and_iff_left unproposed]
      cases answered with
      | succeeded _ left => exact left
      | failed _ same =>
          have kept : Operation.after (.order (.respondDeadlineProposal other actor
              accept)) db = db := same
          rw [kept]
  | _ => exact negotiates.elim

/-- A history leaves the order without proposals if it adds none. -/
theorem unproposed_afterAll
    {history : List Operation}
    (negotiation : ∀ operation ∈ history, Negotiates operation) (id : OrderId)
    (db : Db) :
    (Operation.afterAll history db).deadlineProposals.row id = none ↔
      db.deadlineProposals.row id = none ∧
        ¬Operation.SomeMeets (Proposes id) history db := by
  induction history generalizing db with
  | nil => simp [Operation.afterAll, Operation.SomeMeets]
  | cons operation rest inductionHypothesis =>
      have whole : Operation.afterAll (operation :: rest) db =
          Operation.afterAll rest (operation.after db) := rfl
      rw [whole, inductionHypothesis
        (fun other member => negotiation other (.tail _ member)),
        unproposed_after (negotiation operation (.head _)) id db]
      simp [Operation.SomeMeets, and_assoc]

/--
After a negotiation a further proposal that passes its guards is stored if and
only if the order had no proposal before and no call of the negotiation made one.
-/
theorem further_proposal_iff
    {history : List Operation}
    (negotiation : ∀ operation ∈ history, Negotiates operation)
    (proposable : Proposable env id actor proposedDueAt
      (Operation.afterAll history db)) :
    ((OrderCall.proposeDeadline env id actor proposedDueAt note).call.run
        (Operation.afterAll history db)).1 = .ok () ↔
      db.deadlineProposals.row id = none ∧
        ¬Operation.SomeMeets (Proposes id) history db :=
  (proposed_iff proposable).trans (unproposed_afterAll negotiation id db)

/-- An active order. -/
def negotiated : Db :=
  { orders := .insert .empty 40
      { request := 10
        student := 1
        expert := 2
        source := .openBid
        status := .active
        amount := 5000
        createdAt := 0 } }

/-- The expert proposes a deadline, and the student declines it. -/
def declinedRound : List Operation :=
  [.order (.proposeDeadline { now := 1 } 40 ⟨2, false⟩ (days 9) "Two days more."),
    .order (.respondDeadlineProposal 40 ⟨1, false⟩ false)]

/-- The second round of a negotiation fails on the unique order. -/
theorem second_proposal_raises :
    (∀ operation ∈ declinedRound, Negotiates operation) ∧
      Proposable { now := 2 } 40 ⟨2, false⟩ (days 8)
        (Operation.afterAll declinedRound negotiated) ∧
      ((OrderCall.proposeDeadline { now := 2 } 40 ⟨2, false⟩ (days 8)
          "One day more.").call.run
        (Operation.afterAll declinedRound negotiated)).1 =
          .error (.integrity "DeadlineProposal") := by
  refine ⟨by simp [declinedRound, Negotiates], ⟨?_, ?_, by decide⟩,
    by decide +kernel⟩
  · exact (Option.any_eq_true
      (fun order => party ⟨2, false⟩ order && inProgress order) _).mp
        (by decide +kernel) |>.imp fun order holds =>
          ⟨holds.1, (Bool.and_eq_true _ _).mp holds.2⟩
  · decide +kernel

/-- The first proposal of a negotiation is stored. -/
theorem first_proposal_stored :
    ((OrderCall.proposeDeadline { now := 1 } 40 ⟨2, false⟩ (days 9)
        "Two days more.").call.run
      (Operation.afterAll [] negotiated)).1 = .ok () ↔
      negotiated.deadlineProposals.row 40 = none ∧
        ¬Operation.SomeMeets (Proposes 40) [] negotiated :=
  further_proposal_iff (by simp)
    ⟨⟨_, rfl, by decide, by decide⟩, by decide +kernel, by decide⟩

end Orders

end KnowledgeMarketplace
