import KnowledgeMarketplace.Experts.Completeness
import KnowledgeMarketplace.Transaction.Batches
import KnowledgeMarketplace.Transaction.Watch

/-!
# Decisions on applications

Staff move an application under its lock.  The applicant's requests go by a copy
that they have read without a lock; an edit then saves every column of it.
-/

namespace KnowledgeMarketplace

open Transaction

namespace Experts

/-- A turn of a client of the experts application. -/
abbrev Turn := Event (Except ApplicationError ExpertApplication)

/-! ## Locks -/

/-- Two states agree on what a lock protects. -/
def SameRow : Row → Db → Db → Prop
  | .application user, first, second =>
      first.applications.row user = second.applications.row user
  | .credentials _, _, _ | .slug _, _, _ => True
  | .profile user, first, second =>
      first.profiles.row user = second.profiles.row user

/-- A statement leaves the rows alone that it does not lock. -/
theorem sameRow_apply
    {stmt : Stmt} (db : Db) (row : Row) (free : row ∉ stmt.rows) :
    SameRow row db (stmt.apply db) := by
  cases row with
  | application user | profile user =>
      cases stmt <;> simp [Stmt.rows] at free <;>
        simp [SameRow, Stmt.apply, free]
  | _ => trivial

/-- The locks protect their rows; nothing else is agreed on. -/
def rowLocks : Protocol Db Row Stmt where
  Inv _ := True
  Same := SameRow
  Condition _ _ := True
  same_refl row _ := by cases row <;> trivial
  same_trans row _ _ _ early late := by
    cases row with
    | application user | profile user => exact Eq.trans early late
    | _ => trivial

/-- Under row locks, a commit has to meet its guarantee only. -/
theorem rowLocks_commit
    {guarantee : List Stmt → Db → Prop} {ctx : Ctx Db Row Stmt}
    (met : ∀ state, ctx.known state → guarantee ctx.writes state) :
    ctx.CommitOk rowLocks guarantee :=
  fun state _ known _ rows => ⟨trivial, met state known, fun row free =>
    rowLocks.same_applyAll (fun _ _ db free => sameRow_apply db row free)
      (fun inside => free (rows row inside)) state⟩

/-! ## The claim -/

/-- What the staff has decided on an application. -/
structure Decision where
  status : ApplicationStatus
  reviewedBy : Option UserId
  reviewNote : String
  rejectionReason : String
  deriving DecidableEq

def ExpertApplication.decision (application : ExpertApplication) : Decision where
  status := application.status
  reviewedBy := application.reviewedBy
  reviewNote := application.reviewNote
  rejectionReason := application.rejectionReason

/-- Submitting an application closes its rejection. -/
def Decision.submitted (decision : Decision) : Decision :=
  { decision with status := .submitted, rejectionReason := "" }

/-- The moves of the documented state machine. -/
def documentedTransitions : List (ApplicationStatus × ApplicationStatus) :=
  (.draft, .submitted) :: (.rejected, .submitted) :: staffTransitions

namespace ExpertCall

/-- The call is one of the staff. -/
def byStaff : ExpertCall → Bool
  | .apply .. | .updateApplication .. | .submitApplication .. => false
  | _ => true

/-- The call submits an application. -/
def submits : ExpertCall → Bool
  | .submitApplication .. => true
  | _ => false

end ExpertCall

/--
The commit of a call moves applications along documented edges, and a request of
the applicant leaves every decision as it is, unless it submits a draft or a
rejected application.
-/
structure Orderly (call : ExpertCall) (stmts : List Stmt) (db : Db) : Prop where
  edges : ∀ user before after, db.applications.row user = some before →
    (applyAll stmts db).applications.row user = some after →
      after.status = before.status ∨
        (before.status, after.status) ∈ documentedTransitions
  kept : call.byStaff = false →
    ∀ user before after, db.applications.row user = some before →
      (applyAll stmts db).applications.row user = some after →
        after.decision = before.decision ∨
          call.submits = true ∧ before.status ∈ submittableFrom ∧
            after.decision = before.decision.submitted

/--
What is stored when the applicant's request commits is as the request has read
it; a submission finds the application not yet under review.
-/
def Current : ExpertCall → Db → Db → Prop
  | .apply user _ _, _, db =>
      ∀ stored, db.applications.row user = some stored →
        stored.decision = ExpertApplication.decision { content := {} }
  | .updateApplication user _ _, look, db =>
      ∀ found stored, look.applications.row user = some found →
        db.applications.row user = some stored →
          stored.decision = found.decision
  | .submitApplication _ user, _, db =>
      ∀ stored, db.applications.row user = some stored →
        stored.status ∈ submittableFrom ∨
          stored.status = .submitted ∧ stored.rejectionReason = ""
  | _, _, _ => True

/-! ## Commits -/

/-- The statement is about credentials or profiles. -/
def beside : Stmt → Prop
  | .storeApplication _ _ | .saveApplication _ _ => False
  | _ => True

theorem applications_beside
    {stmts : List Stmt} (all : ∀ stmt ∈ stmts, beside stmt) (db : Db) :
    (applyAll stmts db).applications = db.applications := by
  refine applyAll_frame (fun now : Db => now.applications)
    (fun stmt member now => ?_)
  have other := all stmt member
  cases stmt <;> first | exact other.elim | rfl

/-- A commit that stores a whole row, with a decision of its own. -/
def Stores (user : UserId) (decision : Decision) (stmts : List Stmt) : Prop :=
  ∃ application documents, application.decision = decision ∧
    (∀ stmt ∈ documents, beside stmt) ∧
    stmts = .storeApplication user application :: documents

/-- A commit that submits the stored row. -/
def Submits (user : UserId) (stmts : List Stmt) : Prop :=
  ∃ set, stmts = [.saveApplication user set] ∧
    ∀ stored : ExpertApplication,
      (set stored).decision = stored.decision.submitted

/-- The effects after a move, which leave the status alone. -/
def following : Effect Stmt → Prop
  | .write (.saveApplication _ change) =>
      ∀ stored, (change stored).status = stored.status
  | .write (.storeApplication _ _) | .savepoint => False
  | _ => True

/-- A commit that moves the stored row along an edge for the staff. -/
def Reviews (stmts : List Stmt) (db : Db) : Prop :=
  ∃ id found set rest, db.applications.row id = some found ∧
    stmts = .saveApplication id set :: rest ∧
    (∀ stored, (found.status, (set stored).status) ∈ staffTransitions) ∧
    ∀ stmt ∈ rest, following (.write stmt)

/-- What a call commits, from its look or from the row that it has locked. -/
def Commits : ExpertCall → Db → List Stmt → Db → Prop
  | .apply user _ _, _, stmts, _ =>
      Stores user (ExpertApplication.decision { content := {} }) stmts
  | .updateApplication user _ _, look, stmts, _ =>
      ∃ found, look.applications.row user = some found ∧
        Stores user found.decision stmts
  | .submitApplication _ user, _, stmts, _ => Submits user stmts
  | _, _, stmts, db => Reviews stmts db

/-- A block on the caller's own application goes on from the copy it has read. -/
theorem looks_requireOwnApplication
    {user : UserId} {rest : ExpertApplication → Block ExpertApplication}
    {informed : Db → List Stmt → Db → Prop}
    (finishes : ∀ look found, look.applications.row user = some found →
      (rest found).wp rowLocks .start
        (Ctx.Finishes rowLocks (informed look))) :
    Proc.Looks rowLocks informed
      (Request.atomic (requireOwnApplication user >>= rest)) := by
  intro look
  refine Request.safe_atomic (Prog.wp_bind.mpr (Prog.wp_orFail.mpr ⟨?_, ?_⟩))
  · exact finishes look
  · exact fun _ => trivial

theorem apply_looks
    (user : UserId) (data : Fields)
    (credentialAttachments : List AttachmentId) :
    Proc.Looks rowLocks (Commits (.apply user data credentialAttachments))
      (ExpertCall.call (.apply user data credentialAttachments)) := by
  refine Request.looks_atomic_read fun look => ?_
  simp only [fullClean, Prog.wp_bind, Prog.wp_require, Prog.wp_exec,
    Prog.wp_ite, Prog.wp_pure, Ctx.finishes_error, implies_true, and_true]
  intro _ _
  refine ⟨fun _ => ?_, fun _ => ?_⟩
  · exact rowLocks_commit fun _ _ => ⟨{ content := data.setOn {} },
      [.setCredentials user credentialAttachments], rfl, by simp [beside], rfl⟩
  · exact rowLocks_commit fun _ _ =>
      ⟨{ content := data.setOn {} }, [], rfl, by simp, rfl⟩

theorem updateApplication_looks
    (user : UserId) (fields : Fields)
    (credentialAttachments : List AttachmentId) :
    Proc.Looks rowLocks
      (Commits (.updateApplication user fields credentialAttachments))
      (ExpertCall.call
        (.updateApplication user fields credentialAttachments)) := by
  refine looks_requireOwnApplication fun look found there => ?_
  simp only [fullClean, Prog.wp_bind, Prog.wp_require, Prog.wp_exec,
    Prog.wp_ite, Prog.wp_pure, Ctx.finishes_error, implies_true, and_true]
  intro _ _
  refine ⟨fun _ => ?_, fun _ => ?_⟩
  · exact rowLocks_commit fun _ _ => ⟨found, there, edited fields found,
      [.addCredentials user credentialAttachments], rfl, by simp [beside], rfl⟩
  · exact rowLocks_commit fun _ _ =>
      ⟨found, there, edited fields found, [], rfl, by simp, rfl⟩

theorem submitApplication_looks (env : Env) (user : UserId) :
    Proc.Looks rowLocks (Commits (.submitApplication env user))
      (ExpertCall.call (.submitApplication env user)) := by
  refine looks_requireOwnApplication fun look found there => ?_
  simp only [validateApplicationContent, Prog.wp_bind, Prog.wp_read,
    Prog.wp_require, Prog.wp_exec, Prog.wp_pure, Ctx.finishes_error,
    implies_true, and_true]
  intro _ _ _ _ _ _ _ _ _ _ _ _ _
  exact rowLocks_commit fun _ _ => ⟨_, rfl, fun _ => rfl⟩

/-- What the staff has moved under the lock, as long as the block goes on. -/
def Moving (ctx : Ctx Db Row Stmt) : Prop :=
  ∀ db, ctx.known db → Reviews ctx.writes db

theorem staffTransition_moving
    (env : Env) (id : UserId) (toStatus : ApplicationStatus) (reviewer : Actor)
    (note : String) :
    (staffTransition env id toStatus reviewer note).wp rowLocks .start
      fun result later => ∀ application, result = .ok application →
        Moving later := by
  simp only [staffTransition, Prog.wp_bind, Prog.wp_lockRow, Prog.wp_read,
    Prog.wp_orFail, Prog.wp_require, Prog.wp_exec, Prog.wp_pure,
    Ctx.start_writes, Ctx.take_writes, applyAll_nil, reduceCtorEq,
    false_implies, implies_true, and_true]
  intro _ state _ _ found there edge _ _ _ db known
  have held : state.applications.row id = db.applications.row id :=
    known.2 (.application id) (by simp)
  exact ⟨id, found, _, [], held.symm.trans there, rfl, fun _ => edge, by simp⟩

/-- A review may commit after what leaves the status alone. -/
theorem Moving.finishes
    {ctx later : Ctx Db Row Stmt} (moving : Moving ctx)
    (grown : ctx.Extends (fun stmt => following (.write stmt)) later) :
    later.CommitOk rowLocks Reviews := by
  refine rowLocks_commit fun db known => ?_
  obtain ⟨id, found, set, rest, there, writes, edge, all⟩ :=
    moving db (grown.known db known)
  obtain ⟨extra, appended, fine⟩ := grown.writes
  refine ⟨id, found, set, rest ++ extra, there, ?_, edge, ?_⟩
  · rw [appended, writes, List.cons_append]
  · intro stmt member
    rcases List.mem_append.mp member with early | late
    · exact all stmt early
    · exact fine stmt late

theorem staffTransition_finishes
    (env : Env) (id : UserId) (toStatus : ApplicationStatus) (reviewer : Actor)
    (note : String) :
    (staffTransition env id toStatus reviewer note).wp rowLocks .start
      (Ctx.Finishes rowLocks Reviews) := by
  refine Prog.wp_mono (staffTransition_moving env id toStatus reviewer note) ?_
  rintro (error | application) later moving
  · trivial
  · exact (moving application rfl).finishes .refl

/-- The same with what a service does after the move. -/
theorem staffTransition_then_finishes
    {rest : ExpertApplication → Block ExpertApplication}
    (emits : ∀ application,
      (rest application).Emits following fun _ => True)
    (env : Env) (id : UserId) (toStatus : ApplicationStatus) (reviewer : Actor)
    (note : String) :
    (staffTransition env id toStatus reviewer note >>= rest).wp rowLocks .start
      (Ctx.Finishes rowLocks Reviews) := by
  refine Prog.wp_bind.mpr (Prog.wp_mono
    (staffTransition_moving env id toStatus reviewer note) ?_)
  rintro (error | application) ctx moving
  · trivial
  refine Prog.wp_of_emits (emits application) (by simp [following]) ?_
  rintro (error | value) later _ grown
  · trivial
  · exact (moving application rfl).finishes grown

theorem upsertProfileFromApplication_following
    (slugify : String → String) (id : UserId)
    (application : ExpertApplication) :
    (upsertProfileFromApplication slugify id application).Emits following
      fun _ => True := by
  simp [upsertProfileFromApplication, following]

/-- What every call guarantees of its commit. -/
theorem call_looks (call : ExpertCall) :
    Proc.Looks rowLocks (Commits call) call.call := by
  have reviews : ∀ {body : Block ExpertApplication}
      {informed : Db → List Stmt → Db → Prop},
      body.wp rowLocks .start (Ctx.Finishes rowLocks Reviews) →
      (∀ look stmts db, Reviews stmts db → informed look stmts db) →
        Proc.Looks rowLocks informed (Request.atomic body) :=
    fun finishes stronger => (Request.safe_atomic finishes).looks
      (fun _ => trivial) stronger
  cases call with
  | apply user data credentialAttachments =>
      exact apply_looks user data credentialAttachments
  | updateApplication user fields credentialAttachments =>
      exact updateApplication_looks user fields credentialAttachments
  | submitApplication env user => exact submitApplication_looks env user
  | startReview env id reviewer =>
      exact reviews (staffTransition_finishes env id .underReview reviewer "")
        fun _ _ _ met => met
  | approve env slugify id reviewer note =>
      refine reviews (staffTransition_then_finishes (fun application => ?_) env
        id .approved reviewer note) fun _ _ _ met => met
      exact (upsertProfileFromApplication_following slugify id application).seq
        (by simp)
  | reject env id reviewer reason note =>
      refine reviews ?_ fun _ _ _ met => met
      refine Prog.wp_bind.mpr (Prog.wp_require.mpr ⟨fun _ => ?_, fun _ => trivial⟩)
      exact staffTransition_then_finishes (by simp [following]) env id .rejected
        reviewer note
  | suspend env id reviewer reason =>
      exact reviews (staffTransition_finishes env id .suspended reviewer reason)
        fun _ _ _ met => met
  | reinstate env slugify id reviewer =>
      refine reviews (staffTransition_then_finishes (fun application => ?_) env
        id .approved reviewer "") fun _ _ _ met => met
      exact (upsertProfileFromApplication_following slugify id application).seq
        (by simp)

/-! ## What a commit does -/

theorem Stores.row
    {user : UserId} {decision : Decision} {stmts : List Stmt}
    (stores : Stores user decision stmts) (db : Db) :
    ∃ application, application.decision = decision ∧
      ∀ other, (applyAll stmts db).applications.row other =
        if other = user then some application
        else db.applications.row other := by
  obtain ⟨application, documents, decided, all, rfl⟩ := stores
  refine ⟨application, decided, fun other => ?_⟩
  rw [applyAll_cons, applications_beside all]
  exact Table.row_store ..

/-- Storing a row is orderly if it leaves the stored decision as it is. -/
theorem Stores.orderly_iff
    {call : ExpertCall} {user : UserId} {decision : Decision}
    {stmts : List Stmt} {db : Db} (stores : Stores user decision stmts)
    (applicant : call.byStaff = false) (edits : call.submits = false) :
    Orderly call stmts db ↔ ∀ stored,
      db.applications.row user = some stored → stored.decision = decision := by
  obtain ⟨application, rfl, row⟩ := stores.row db
  constructor
  · intro orderly stored there
    have after : (applyAll stmts db).applications.row user = some application :=
      (row user).trans (if_pos rfl)
    rcases orderly.kept applicant user stored application there after with
      same | ⟨submits, _⟩
    · exact same.symm
    · exact absurd (edits.symm.trans submits) Bool.false_ne_true
  · intro current
    have same : ∀ other before after,
        db.applications.row other = some before →
        (applyAll stmts db).applications.row other = some after →
          after.decision = before.decision := by
      intro other before after there left
      rw [row] at left
      split_ifs at left with target
      · subst target
        obtain rfl := Option.some.inj left
        exact (current before there).symm
      · rw [Option.some.inj (left.symm.trans there)]
    exact ⟨fun other before after there left =>
        .inl (congrArg Decision.status (same other before after there left)),
      fun _ other before after there left =>
        .inl (same other before after there left)⟩

/-- A submission is orderly if the review has not begun. -/
theorem Submits.orderly_iff
    {call : ExpertCall} {user : UserId} {stmts : List Stmt} {db : Db}
    (commits : Submits user stmts)
    (applicant : call.byStaff = false) (submits : call.submits = true) :
    Orderly call stmts db ↔ ∀ stored,
      db.applications.row user = some stored →
        stored.status ∈ submittableFrom ∨
          stored.status = .submitted ∧ stored.rejectionReason = "" := by
  obtain ⟨set, rfl, decided⟩ := commits
  constructor
  · intro orderly stored there
    have after : (applyAll [.saveApplication user set] db).applications.row
        user = some (set stored) :=
      (Table.row_modify_self ..).trans (congrArg (Option.map set) there)
    rcases orderly.kept applicant user stored _ there after with
      same | ⟨_, submittable, _⟩
    · have same := (decided stored).symm.trans same
      have status := congrArg Decision.status same
      have reason := congrArg Decision.rejectionReason same
      exact .inr ⟨status.symm, reason.symm⟩
    · exact .inl submittable
  · intro current
    have moved : ∀ other before after,
        db.applications.row other = some before →
        (applyAll [.saveApplication user set] db).applications.row other =
          some after →
          after.decision = before.decision ∨
            before.status ∈ submittableFrom ∧
              after.decision = before.decision.submitted := by
      intro other before after there left
      rcases Table.row_modify_cases left with
        ⟨_, same⟩ | ⟨rfl, stored, same, rfl⟩
      · exact .inl (by rw [Option.some.inj (same.symm.trans there)])
      · obtain rfl := Option.some.inj (there.symm.trans same)
        rw [decided]
        rcases current before there with submittable | ⟨status, reason⟩
        · exact .inr ⟨submittable, rfl⟩
        · left
          simp [Decision.submitted, ExpertApplication.decision, status, reason]
    refine ⟨fun other before after there left => ?_,
      fun _ other before after there left =>
        (moved other before after there left).imp_right fun ⟨early, same⟩ =>
          ⟨submits, early, same⟩⟩
    rcases moved other before after there left with same | ⟨submittable, same⟩
    · exact .inl (congrArg Decision.status same)
    · have status : after.status = .submitted :=
        congrArg Decision.status same
      have first : before.status = .draft ∨ before.status = .rejected := by
        simpa [submittableFrom] using submittable
      rcases first with draft | rejected
      · simp [status, draft, documentedTransitions]
      · simp [status, rejected, documentedTransitions]

/-- A commit of the staff is orderly. -/
theorem Reviews.orderly
    {call : ExpertCall} {stmts : List Stmt} {db : Db}
    (reviews : Reviews stmts db) (staff : call.byStaff = true) :
    Orderly call stmts db := by
  obtain ⟨id, found, set, rest, there, rfl, edge, all⟩ := reviews
  refine ⟨fun other before after stored left => ?_, by simp [staff]⟩
  have kept : ((applyAll rest ((Stmt.saveApplication id set).apply
      db)).applications.row other).map ExpertApplication.status =
      ((Stmt.saveApplication id set).apply db |>.applications.row other).map
        ExpertApplication.status := by
    refine applyAll_frame (fun now : Db =>
      (now.applications.row other).map ExpertApplication.status)
      fun stmt member now => ?_
    have fine := all stmt member
    cases stmt with
    | saveApplication key change => exact Table.map_row_modify fine ..
    | storeApplication key application => exact fine.elim
    | _ => rfl
  have last : (applyAll (.saveApplication id set :: rest) db).applications.row
      other = some after := left
  rw [applyAll_cons, store_apply] at last
  rw [last] at kept
  by_cases target : other = id
  · subst target
    obtain rfl := Option.some.inj (there.symm.trans stored)
    have status : after.status = (set found).status := by
      simpa [Stmt.apply, there] using kept
    rw [status]
    exact .inr (List.mem_cons_of_mem _ (List.mem_cons_of_mem _ (edge found)))
  · have status : after.status = before.status := by
      simpa [Stmt.apply, target, stored] using kept
    exact .inl status

/-- A commit is orderly exactly if it is current. -/
theorem Commits.orderly_iff
    {call : ExpertCall} {look db : Db} {stmts : List Stmt}
    (commits : Commits call look stmts db) :
    Orderly call stmts db ↔ Current call look db := by
  cases call with
  | apply user data credentialAttachments =>
      exact Stores.orderly_iff commits rfl rfl
  | updateApplication user fields credentialAttachments =>
      obtain ⟨found, there, stores⟩ := commits
      refine (stores.orderly_iff rfl rfl).trans
        ⟨fun same other stored seen => ?_, fun same stored =>
          same found stored there⟩
      obtain rfl := Option.some.inj (there.symm.trans seen)
      exact same stored
  | submitApplication env user => exact Submits.orderly_iff commits rfl rfl
  | _ => exact iff_of_true (Reviews.orderly commits rfl) trivial

/--
In any interleaving of all calls: a commit moves applications along documented
edges and leaves what the staff has decided exactly if the applicant's request
finds the application as it has read it, or not yet under review when it
submits.
-/
theorem decisions_respected
    {db : Db} {calls : Nat → ExpertCall} {seen : Nat → Option Db}
    {system : Onboarding}
    (watched : System.Watched (fun _ _ _ => True) db
      (fun client => (calls client).call) seen system)
    {client : Nat} {stmts : List Stmt}
    (commits : system.committing (.run client : Turn) = some stmts) :
    ∃ look, seen client = some look ∧
      (Orderly (calls client) stmts system.committed ↔
        Current (calls client) look system.committed) := by
  have looks : ∀ client,
      Proc.Looks rowLocks (Commits (calls client)) (calls client).call :=
    fun client => call_looks (calls client)
  obtain ⟨look, looked, met⟩ :=
    watched.looked (fun _ _ => trivial) trivial looks commits
  exact ⟨look, looked, met.orderly_iff⟩

/-- An application that was submitted. -/
def presented : Db :=
  { applications := .insert .empty 1
      { content := tutorData.setOn {}
        status := .submitted
        submittedAt := some (hours 1) }
    credentials := [(1, 9)]
    verified := [1] }

/-- The applicant edits a headline; the staff review the application. -/
def reviewers : Nat → ExpertCall
  | 0 => .updateApplication 1 { headline := some "Python and R tutor" } []
  | 1 => .startReview { now := hours 2 } 1 ⟨7, true⟩
  | _ => .approve { now := hours 3 } id 1 ⟨7, true⟩ ""

def onboarding : Onboarding :=
  .init presented fun client => (reviewers client).call

/-- A client runs this many statements in a row. -/
def rounds (client count : Nat) : List Turn :=
  List.replicate count (.run client)

/-- The applicant has read the application; then it is approved. -/
def approvedMeanwhile : List Turn :=
  rounds 0 1 ++ rounds 1 20 ++ rounds 2 20 ++ rounds 0 1

/-- The edit makes a submitted application of the approved one. -/
theorem update_reverts_approval :
    let system := onboarding.runAll approvedMeanwhile
    ∃ stmts before after,
      system.committing (.run 0 : Turn) = some stmts ∧
        system.committed.applications.row 1 = some before ∧
        before.decision = ⟨.approved, some 7, "", ""⟩ ∧
        (applyAll stmts system.committed).applications.row 1 = some after ∧
        after.decision = ⟨.submitted, none, "", ""⟩ ∧
        ¬Orderly (reviewers 0) stmts system.committed := by
  intro system
  have reverted : (system.committing (.run 0 : Turn)).any (fun stmts =>
      (system.committed.applications.row 1).map (·.decision) =
          some ⟨.approved, some 7, "", ""⟩ ∧
        ((applyAll stmts system.committed).applications.row 1).map
            (·.decision) =
          some ⟨.submitted, none, "", ""⟩) = true := by
    decide +kernel
  obtain ⟨stmts, commits, decisions⟩ := (Option.any_eq_true _ _).mp reverted
  rw [decide_eq_true_iff] at decisions
  obtain ⟨before, stored, approved⟩ := Option.map_eq_some_iff.mp decisions.1
  obtain ⟨after, left, submitted⟩ := Option.map_eq_some_iff.mp decisions.2
  refine ⟨stmts, before, after, commits, stored, approved, left, submitted,
    fun orderly => ?_⟩
  have first : before.status = .approved := congrArg Decision.status approved
  have last : after.status = .submitted := congrArg Decision.status submitted
  have edge := orderly.edges 1 before after stored left
  rw [first, last] at edge
  revert edge
  decide

/-- Alone, the edit commits what the result is about. -/
theorem decisions_respected_alone :
    let system := onboarding.runAll (rounds 0 2)
    ∃ stmts look, system.committing (.run 0 : Turn) = some stmts ∧
      (Orderly (reviewers 0) stmts system.committed ↔
        Current (reviewers 0) look system.committed) := by
  intro system
  have begun : System.Watched (fun _ _ _ => True) presented
      (fun client => (reviewers client).call) _ onboarding := .start
  have silent : onboarding.quiet (rounds 0 2) = true := by decide +kernel
  obtain ⟨seen, watched⟩ := begun.quiet silent
  have commits : (system.committing (.run 0 : Turn)).isSome = true := by
    decide +kernel
  obtain ⟨stmts, commits⟩ := Option.isSome_iff_exists.mp commits
  obtain ⟨look, _, current⟩ := decisions_respected watched commits
  exact ⟨stmts, look, commits, current⟩

end Experts

end KnowledgeMarketplace
