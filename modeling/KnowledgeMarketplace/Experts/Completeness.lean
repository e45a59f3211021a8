import KnowledgeMarketplace.Experts.Services
import KnowledgeMarketplace.Transaction.Sequence

/-!
# Complete applications

The content of an application is validated when it is submitted.  Until the
review starts it can still be edited, and no later step validates it again.
-/

namespace KnowledgeMarketplace

open Transaction

namespace Experts

/-- What a submission demands of the application itself. -/
structure Complete
    (user : UserId) (application : ExpertApplication) (db : Db) : Prop where
  filled : missingFields application.content = []
  certified : application.content.certified18Plus = true
  acknowledged : application.content.integrityAcknowledged = true
  documented : hasCredential user db = true

/-- The validation demands a complete application and a verified user. -/
theorem validateApplicationContent_post
    {user : UserId} {application : ExpertApplication} {db : Db}
    {goal : Except ApplicationError Unit → Db → Prop}
    (passes : Complete user application db → user ∈ db.verified →
      goal (.ok ()) db)
    (fails : ∀ error, goal (.error error) db) :
    (validateApplicationContent user application).Post db goal := by
  simp only [validateApplicationContent, Prog.post_bind, Prog.post_require,
    Prog.post_read, fails, implies_true, and_true]
  intro filled certified acknowledged documented verified
  exact passes ⟨filled, certified, acknowledged, documented⟩
    (List.contains_iff_mem.mp verified)

theorem validateApplicationContent_yields
    {user : UserId} {application : ExpertApplication} {db : Db}
    (complete : Complete user application db) (verified : user ∈ db.verified) :
    (validateApplicationContent user application).Yields db () db := by
  have contained : db.verified.contains user = true :=
    List.contains_iff_mem.mpr verified
  exact .bind (.require complete.filled) <|
    .bind (.require complete.certified) <|
    .bind (.require complete.acknowledged) <|
    .bind .read <| .bind (.require complete.documented) <|
    .bind .read <| .require contained

/-- Every application in one of the statuses is complete. -/
def CompleteIn (statuses : List ApplicationStatus) (db : Db) : Prop :=
  ∀ user application, db.applications.row user = some application →
    application.status ∈ statuses → Complete user application db

/-- The applications that wait for the staff or were decided on by approval. -/
def vettedStatuses : List ApplicationStatus :=
  [.underReview, .approved, .suspended]

/-- The same with those that were submitted. -/
def presentedStatuses : List ApplicationStatus :=
  .submitted :: vettedStatuses

/-- A statement that presents only complete applications. -/
def Presents (db : Db) : Stmt → Prop
  | .storeApplication user application =>
      application.status ∈ presentedStatuses → Complete user application db
  | .saveApplication user set =>
      ∀ stored, db.applications.row user = some stored →
        (set stored).status ∈ presentedStatuses →
          Complete user (set stored) db
  | .setCredentials user _ =>
      ∀ stored, db.applications.row user = some stored →
        stored.status ∉ presentedStatuses
  | _ => True

theorem hasCredential_iff {user : UserId} {db : Db} :
    hasCredential user db = true ↔
      ∃ attachment, (user, attachment) ∈ db.credentials := by
  simp [hasCredential]

/-- Completeness is about the content only. -/
theorem Complete.of_content
    {user : UserId} {application other : ExpertApplication} {db : Db}
    (complete : Complete user application db)
    (same : other.content = application.content) : Complete user other db := by
  obtain ⟨filled, certified, acknowledged, documented⟩ := complete
  exact ⟨same ▸ filled, same ▸ certified, same ▸ acknowledged, documented⟩

/-- Credentials are only taken away by setting those of the user. -/
theorem hasCredential_apply
    {user : UserId} {stmt : Stmt} {db : Db}
    (kept : ∀ attachments, stmt ≠ .setCredentials user attachments)
    (documented : hasCredential user db = true) :
    hasCredential user (stmt.apply db) = true := by
  rw [hasCredential_iff] at documented ⊢
  obtain ⟨attachment, linked⟩ := documented
  refine ⟨attachment, ?_⟩
  cases stmt with
  | setCredentials other attachments =>
      have different : user ≠ other := by
        rintro rfl
        exact kept attachments rfl
      exact List.mem_append_left _ (by simpa [different] using linked)
  | addCredentials other attachments => exact List.mem_append_left _ linked
  | _ => exact linked

/-- What is complete stays so under every other statement. -/
theorem Complete.apply
    {user : UserId} {application : ExpertApplication} {stmt : Stmt} {db : Db}
    (complete : Complete user application db)
    (kept : ∀ attachments, stmt ≠ .setCredentials user attachments) :
    Complete user application (stmt.apply db) :=
  { complete with documented := hasCredential_apply kept complete.documented }

theorem CompleteIn.apply
    {stmt : Stmt} {db : Db} (complete : CompleteIn presentedStatuses db)
    (presents : Presents db stmt) :
    CompleteIn presentedStatuses (stmt.apply db) := by
  intro user application stored presented
  cases stmt with
  | storeApplication key value =>
      have before : Complete user application db := by
        by_cases same : user = key
        · subst same
          rw [Stmt.apply, Table.row_store_self] at stored
          obtain rfl := Option.some.inj stored
          exact presents presented
        · rw [Stmt.apply, Table.row_store_other _ _ same] at stored
          exact complete user application stored presented
      exact before.apply nofun
  | saveApplication key set =>
      have before : Complete user application db := by
        rcases Table.row_modify_cases stored with
          ⟨_, there⟩ | ⟨rfl, old, there, rfl⟩
        · exact complete user application there presented
        · exact presents old there presented
      exact before.apply nofun
  | setCredentials key attachments =>
      refine (complete user application stored presented).apply ?_
      rintro other same
      obtain ⟨rfl, -⟩ := Stmt.setCredentials.inj same
      exact presents application stored presented
  | addCredentials key attachments =>
      exact (complete user application stored presented).apply nofun
  | storeProfile key profile =>
      exact (complete user application stored presented).apply nofun

/-! ## Services -/

/-- The whole-row save of an edit. -/
def edited (fields : Fields) (application : ExpertApplication) :
    ExpertApplication :=
  { application with content := fields.setOn application.content }

/-- An edit that the validation of the model lets through loses nothing. -/
def StaysComplete : ExpertCall → Db → Prop
  | .updateApplication user fields _, db =>
      ∀ application, db.applications.row user = some application →
        application.status = .submitted →
        invalidFields (edited fields application) = [] →
          missingFields (fields.setOn application.content) = [] ∧
            (fields.setOn application.content).certified18Plus = true ∧
            (fields.setOn application.content).integrityAcknowledged = true
  | _, _ => True

section Services

variable {db : Db} (complete : CompleteIn presentedStatuses db)
include complete

theorem apply_complete
    (user : UserId) (data : Fields)
    (credentialAttachments : List AttachmentId) :
    (apply user data credentialAttachments).Post db fun result next =>
      ∀ value, result = .ok value → CompleteIn presentedStatuses next := by
  simp only [apply, fullClean, Prog.post_bind, Prog.post_read,
    Prog.post_require, Prog.post_exec, Prog.post_ite, Prog.post_pure,
    reduceCtorEq, false_implies, implies_true, and_true]
  intro fresh valid
  have drafted : CompleteIn presentedStatuses
      ((Stmt.storeApplication user { content := data.setOn {} }).apply db) :=
    complete.apply fun presented => by
      simp [presentedStatuses, vettedStatuses] at presented
  refine ⟨fun _ _ _ => drafted.apply fun stored there => ?_, fun _ _ _ => drafted⟩
  simp only [Stmt.apply, Table.row_store_self, Option.some.injEq] at there
  subst there
  simp [presentedStatuses, vettedStatuses]

theorem updateApplication_complete
    (user : UserId) (fields : Fields)
    (credentialAttachments : List AttachmentId)
    (stays : StaysComplete
      (.updateApplication user fields credentialAttachments) db) :
    (updateApplication user fields credentialAttachments).Post db
      fun result next =>
        ∀ value, result = .ok value → CompleteIn presentedStatuses next := by
  simp only [updateApplication, requireOwnApplication, fullClean,
    Prog.post_bind, Prog.post_read, Prog.post_orFail, Prog.post_require,
    Prog.post_exec, Prog.post_ite, Prog.post_pure, reduceCtorEq, false_implies,
    implies_true, and_true]
  intro found stored editable valid
  have saved : CompleteIn presentedStatuses
      ((Stmt.storeApplication user (edited fields found)).apply db) := by
    refine complete.apply fun presented => ?_
    -- of the editable statuses only the submitted one is presented
    have submitted : found.status = .submitted := by
      cases status : found.status <;>
        simp_all [edited, presentedStatuses, vettedStatuses,
          userEditableStatuses]
    obtain ⟨filled, certified, acknowledged⟩ :=
      stays found stored submitted valid
    have before := complete user found stored presented
    exact ⟨filled, certified, acknowledged, before.documented⟩
  exact ⟨fun _ _ _ => saved.apply trivial, fun _ _ _ => saved⟩

theorem submitApplication_complete (env : Env) (user : UserId) :
    (submitApplication env user).Post db fun result next =>
      ∀ value, result = .ok value → CompleteIn presentedStatuses next := by
  simp only [submitApplication, requireOwnApplication, Prog.post_bind,
    Prog.post_read, Prog.post_orFail, Prog.post_require, Prog.post_exec,
    Prog.post_pure, reduceCtorEq, false_implies, implies_true, and_true]
  intro found stored submittable
  refine validateApplicationContent_post (fun valid _ _ _ _ => ?_)
    fun _ => by simp
  refine complete.apply fun other there _ => ?_
  obtain rfl := Option.some.inj (stored.symm.trans there)
  exact valid.of_content rfl

theorem staffTransition_complete
    (env : Env) (id : UserId) (toStatus : ApplicationStatus) (reviewer : Actor)
    (note : String) :
    (staffTransition env id toStatus reviewer note).Post db fun result next =>
      ∀ value, result = .ok value → CompleteIn presentedStatuses next := by
  simp only [staffTransition, Prog.post_bind, Prog.post_lockRow,
    Prog.post_read, Prog.post_orFail, Prog.post_require, Prog.post_exec,
    Prog.post_pure, reduceCtorEq, false_implies, implies_true, and_true]
  intro _ found stored edge _ _ _
  refine complete.apply fun other there _ => ?_
  obtain rfl := Option.some.inj (stored.symm.trans there)
  have presented : found.status ∈ presentedStatuses := by
    simp only [staffTransitions, List.mem_cons, Prod.mk.injEq,
      List.not_mem_nil, or_false] at edge
    simp only [presentedStatuses, vettedStatuses, List.mem_cons]
    tauto
  exact (complete id found stored presented).of_content rfl

theorem upsertProfileFromApplication_complete
    (slugify : String → String) (id : UserId)
    (application : ExpertApplication) :
    (upsertProfileFromApplication slugify id application).Post db
      fun result next =>
        ∀ value, result = .ok value → CompleteIn presentedStatuses next := by
  simp only [upsertProfileFromApplication, Prog.post_bind, Prog.post_read,
    Prog.post_lockRow, Prog.post_require, Prog.post_exec, Prog.post_pure,
    reduceCtorEq, false_implies, implies_true, and_true]
  exact fun _ _ _ => complete.apply trivial

/-- What a call leaves that runs alone. -/
theorem call_complete (call : ExpertCall) (stays : StaysComplete call db) :
    CompleteIn presentedStatuses (call.call.run db).2 := by
  refine Request.run_atomic_of_post ?_ complete
  cases call with
  | apply user data credentialAttachments =>
      exact apply_complete complete user data credentialAttachments
  | updateApplication user fields credentialAttachments =>
      exact updateApplication_complete complete user fields
        credentialAttachments stays
  | submitApplication env user => exact submitApplication_complete complete env user
  | startReview env id reviewer =>
      exact staffTransition_complete complete env id .underReview reviewer ""
  | approve env slugify id reviewer note =>
      refine Prog.post_bind_keeps
        (staffTransition_complete complete env id .approved reviewer note)
        fun application next moved => ?_
      exact Prog.post_bind_keeps
        (upsertProfileFromApplication_complete moved slugify id application)
        fun _ _ kept _ _ => kept
  | reject env id reviewer reason note =>
      refine Prog.post_bind_keeps (by simpa using fun _ => complete)
        fun _ next same => ?_
      refine Prog.post_bind_keeps
        (staffTransition_complete same env id .rejected reviewer note)
        fun application next moved => ?_
      refine Prog.post_bind_keeps ?_ fun _ _ kept _ _ => kept
      refine fun _ _ => moved.apply fun stored there presented => ?_
      have before := moved id stored there presented
      exact before.of_content rfl
  | suspend env id reviewer reason =>
      exact staffTransition_complete complete env id .suspended reviewer reason
  | reinstate env slugify id reviewer =>
      refine Prog.post_bind_keeps
        (staffTransition_complete complete env id .approved reviewer "")
        fun application next moved => ?_
      exact Prog.post_bind_keeps
        (upsertProfileFromApplication_complete moved slugify id application)
        fun _ _ kept _ _ => kept

end Services

/-! ## Runs -/

/-- An edit that is let through is stored. -/
theorem updateApplication_stored
    {user : UserId} {fields : Fields} {db : Db} {found : ExpertApplication}
    (credentialAttachments : List AttachmentId)
    (stored : db.applications.row user = some found)
    (editable : found.status ∈ userEditableStatuses)
    (valid : invalidFields (edited fields found) = []) :
    ∃ next, (updateApplication user fields credentialAttachments).Yields db
        (edited fields found) next ∧
      next.applications.row user = some (edited fields found) := by
  have saved : ((Stmt.storeApplication user (edited fields found)).apply
      db).applications.row user = some (edited fields found) :=
    Table.row_store_self ..
  by_cases documents : credentialAttachments ≠ []
  · refine ⟨_, .bind (.bind .read (.orFail stored)) <|
      .bind (.require editable) <| .bind (.require valid) <| .bind .exec <|
      .ite_true documents (.bind .exec .pure), ?_⟩
    exact saved
  · refine ⟨_, .bind (.bind .read (.orFail stored)) <|
      .bind (.require editable) <| .bind (.require valid) <| .bind .exec <|
      .ite_false documents .pure, ?_⟩
    exact saved

/-- The note of an application that is valid can be stored. -/
theorem reviewNote_fits
    {application : ExpertApplication} (valid : invalidFields application = []) :
    application.reviewNote.length ≤ 500 := by
  have checked := List.filter_eq_nil_iff.mp (List.map_eq_nil_iff.mp valid)
    ("review_note", textFits true (some 500) application.reviewNote) (by simp)
  simpa [textFits] using checked

/-- A submitted application is taken under review as it is. -/
theorem startReview_stored
    {id : UserId} {db : Db} {found : ExpertApplication} {reviewer : Actor}
    (env : Env) (stored : db.applications.row id = some found)
    (submitted : found.status = .submitted)
    (fits : found.reviewNote.length ≤ 500) (staff : reviewer.isStaff = true) :
    ∃ application, application.status = .underReview ∧
      application.content = found.content ∧
      ((ExpertCall.startReview env id reviewer).call.run
        db).2.applications.row id = some application := by
  have edge : (found.status, ApplicationStatus.underReview) ∈
      staffTransitions := by
    simp [submitted, staffTransitions]
  have moves : (startReview env id reviewer).Yields db _ _ :=
    .bind (.require staff) <| .bind .lockRow <| .bind .read <|
      .bind (.orFail stored) <| .bind (.require edge) <|
      .bind (.require fits) <| .bind .exec .pure
  have left : ((ExpertCall.startReview env id reviewer).call.run db).2 = _ :=
    congrArg Prod.snd (Request.run_of_yields moves)
  rw [left]
  refine ⟨_, ?_, ?_, (Table.row_modify_self ..).trans
    (congrArg (Option.map _) stored)⟩ <;> rfl

/-- After an edit that loses it, staff review an incomplete application. -/
theorem review_incomplete
    {call : ExpertCall} {db : Db} (loses : ¬StaysComplete call db)
    {reviewer : Actor} (staff : reviewer.isStaff = true) (env : Env) :
    ∃ id, ¬CompleteIn vettedStatuses (Request.afterAll ExpertCall.call
      [call, .startReview env id reviewer] db) := by
  cases call with
  | updateApplication user fields credentialAttachments =>
      simp only [StaysComplete, not_forall] at loses
      obtain ⟨found, stored, submitted, valid, incomplete⟩ := loses
      have editable : found.status ∈ userEditableStatuses := by
        simp [submitted, userEditableStatuses]
      obtain ⟨next, yields, saved⟩ := updateApplication_stored
        credentialAttachments stored editable valid
      have left : ((ExpertCall.updateApplication user fields
          credentialAttachments).call.run db).2 = next :=
        congrArg Prod.snd (Request.run_of_yields yields)
      obtain ⟨application, reviewed, same, there⟩ := startReview_stored env
        saved submitted (reviewNote_fits valid) staff
      refine ⟨user, fun complete => incomplete ?_⟩
      rw [Request.afterAll_cons, left] at complete
      have whole := complete user application there
        (by simp [reviewed, vettedStatuses])
      obtain ⟨filled, certified, acknowledged, _⟩ := whole.of_content same.symm
      exact ⟨filled, certified, acknowledged⟩
  | _ => exact absurd trivial loses

/--
In every run where no edit takes from a submitted application what was
validated, the applications that are vetted are complete.  After any other edit
the staff can take an incomplete application under review.
-/
theorem vetted_complete
    (calls : List ExpertCall) (db : Db)
    (none : ∀ user, db.applications.row user = none) :
    (Request.AllMeet ExpertCall.call StaysComplete calls db →
      CompleteIn vettedStatuses (Request.afterAll ExpertCall.call calls db)) ∧
    ∀ call, ¬StaysComplete call (Request.afterAll ExpertCall.call calls db) →
      ∀ (env : Env) (reviewer : Actor), reviewer.isStaff = true →
        ∃ id, ¬CompleteIn vettedStatuses (Request.afterAll ExpertCall.call
          (calls ++ [call, .startReview env id reviewer]) db) := by
  refine ⟨fun met user application stored vetted => ?_,
    fun call loses env reviewer staff => ?_⟩
  · have complete : CompleteIn presentedStatuses
        (Request.afterAll ExpertCall.call calls db) := by
      refine met.keeps (CompleteIn presentedStatuses)
        (fun call current stays before => call_complete before call stays) ?_
      intro user application stored
      simp [none] at stored
    exact complete user application stored (List.mem_cons_of_mem _ vetted)
  · obtain ⟨id, incomplete⟩ := review_incomplete loses staff env
    have joined : Request.afterAll ExpertCall.call
        (calls ++ [call, .startReview env id reviewer]) db =
          Request.afterAll ExpertCall.call [call, .startReview env id reviewer]
            (Request.afterAll ExpertCall.call calls db) :=
      List.foldl_append ..
    exact ⟨id, joined ▸ incomplete⟩

/-- What a tutor fills in. -/
def tutorData : Fields :=
  { displayName := some "Ayra K."
    headline := some "Python tutor"
    bio := some "You do the work, I coach it."
    expertiseSummary := some "Python, statistics"
    certified18Plus := some true
    integrityAcknowledged := some true }

/-- The tutor applies and submits. -/
def submission : List ExpertCall :=
  [.apply 1 tutorData [9], .submitApplication { now := hours 1 } 1]

/-- The staff review and approve the application. -/
def approval : List ExpertCall :=
  [.startReview { now := hours 2 } 1 ⟨7, true⟩,
    .approve { now := hours 3 } id 1 ⟨7, true⟩ ""]

/-- The attestation of age is withdrawn after the submission. -/
def withdrawal : ExpertCall :=
  .updateApplication 1 { certified18Plus := some false } []

/-- An expert is approved who does not certify to be of age. -/
theorem approved_incomplete :
    let db : Db := { verified := [1] }
    (∀ user, db.applications.row user = none) ∧
      ¬CompleteIn vettedStatuses (Request.afterAll ExpertCall.call
        (submission ++ withdrawal :: approval) db) := by
  intro db
  refine ⟨fun _ => rfl, fun complete => ?_⟩
  have stored : ((Request.afterAll ExpertCall.call
      (submission ++ withdrawal :: approval) db).applications.row 1).map
        (fun application =>
          (application.status, application.content.certified18Plus)) =
      some (.approved, false) := by
    decide +kernel
  obtain ⟨application, there, same⟩ := Option.map_eq_some_iff.mp stored
  obtain ⟨status, certified⟩ := Prod.mk.inj same
  have whole := complete 1 application there (by simp [status, vettedStatuses])
  exact Bool.false_ne_true (certified.symm.trans whole.certified)

/-- Without edits the approved expert is complete. -/
theorem approved_complete :
    CompleteIn vettedStatuses (Request.afterAll ExpertCall.call
      (submission ++ approval) { verified := [1] }) :=
  (vetted_complete (submission ++ approval) { verified := [1] } fun _ => rfl).1
    (by simp [submission, approval, Request.AllMeet, StaysComplete])

end Experts

end KnowledgeMarketplace
