import KnowledgeMarketplace.Experts.Completeness
import KnowledgeMarketplace.Experts.Taxonomy
import Mathlib.Data.List.Dedup

/-!
# Edits of an application

One parser reads the request that creates an application and the one that edits
it.  The service writes the columns and the credentials; the view writes the
subjects and the skills after it.
-/

namespace KnowledgeMarketplace

open Transaction

namespace Experts

/-! ## The form -/

/-- How the fields of a serializer read a raw value, if they accept its type. -/
structure Readers (ρ : Type) where
  text : ρ → Option String
  integer : ρ → Option Int
  boolean : ρ → Option Bool
  integers : ρ → Option (List Int)

/-- What a field makes of a request. -/
inductive Verdict (α : Type) where
  | absent
  | refused
  | read (value : α)
  deriving DecidableEq

namespace Verdict

def value {α : Type} : Verdict α → Option α
  | .read value => some value
  | .absent | .refused => none

def isRefused {α : Type} : Verdict α → Bool
  | .refused => true
  | .absent | .read _ => false

end Verdict

/-- What a field is without a value: required, optional, or its default. -/
inductive Missing (α : Type) where
  | required
  | optional
  | default (value : α)

/-- Run a field; a partial serializer leaves an absent one out. -/
def runField {ρ α : Type}
    (isPartial : Bool) (missing : Missing α) (read : ρ → Option α)
    (fits : α → Bool) (raw : Option ρ) : Verdict α :=
  match raw with
  | some raw =>
      match read raw with
      | some value => if fits value then .read value else .refused
      | none => .refused
  | none =>
      if isPartial then .absent
      else
        match missing with
        | .required => .refused
        | .optional => .absent
        | .default value => .read value

/-- The fields of a request for an application. -/
structure Input where
  displayName : Verdict String
  headline : Verdict String
  bio : Verdict String
  expertiseSummary : Verdict String
  experienceYears : Verdict Int
  qualifications : Verdict String
  languages : Verdict String
  timezone : Verdict String
  availabilityNote : Verdict String
  subjectIds : Verdict (List Int)
  skillIds : Verdict (List Int)
  certified18Plus : Verdict Bool
  integrityAcknowledged : Verdict Bool

/-- `ExpertApplicationInputSerializer`. -/
def inputSerializer {ρ : Type}
    (readers : Readers ρ) (isPartial : Bool) (data : String → Option ρ) :
    Input :=
  let char := fun missing blank maxLength name =>
    runField isPartial missing readers.text (textFits blank (some maxLength))
      (data name)
  let list := fun maxLength name =>
    runField isPartial (.default []) readers.integers
      (fun ids => ids.length ≤ maxLength) (data name)
  let boolean := fun name =>
    runField isPartial .required readers.boolean (fun _ => true) (data name)
  { displayName := char .required false 150 "display_name"
    headline := char .required false 120 "headline"
    bio := char .required false 2000 "bio"
    expertiseSummary := char .required false 500 "expertise_summary"
    experienceYears :=
      runField isPartial (.default 0) readers.integer
        (fun years => 0 ≤ years && years ≤ 60) (data "experience_years")
    qualifications := char .optional true 1000 "qualifications"
    languages := char .optional true 200 "languages"
    timezone := char (.default "UTC") false 63 "timezone"
    availabilityNote := char .optional true 300 "availability_note"
    subjectIds := list 20 "subject_ids"
    skillIds := list 30 "skill_ids"
    certified18Plus := boolean "certified_18_plus"
    integrityAcknowledged := boolean "integrity_acknowledged" }

namespace Input

/-- The fields that the serializer refuses. -/
def refused (input : Input) : List String :=
  let fields : List (String × Bool) :=
    [("display_name", input.displayName.isRefused),
      ("headline", input.headline.isRefused),
      ("bio", input.bio.isRefused),
      ("expertise_summary", input.expertiseSummary.isRefused),
      ("experience_years", input.experienceYears.isRefused),
      ("qualifications", input.qualifications.isRefused),
      ("languages", input.languages.isRefused),
      ("timezone", input.timezone.isRefused),
      ("availability_note", input.availabilityNote.isRefused),
      ("subject_ids", input.subjectIds.isRefused),
      ("skill_ids", input.skillIds.isRefused),
      ("certified_18_plus", input.certified18Plus.isRefused),
      ("integrity_acknowledged", input.integrityAcknowledged.isRefused)]
  (fields.filter Prod.snd).map Prod.fst

/-- The validated data without the lists of terms. -/
def fields (input : Input) : Fields where
  displayName := input.displayName.value
  headline := input.headline.value
  bio := input.bio.value
  expertiseSummary := input.expertiseSummary.value
  experienceYears := input.experienceYears.value
  qualifications := input.qualifications.value
  languages := input.languages.value
  timezone := input.timezone.value
  availabilityNote := input.availabilityNote.value
  certified18Plus := input.certified18Plus.value
  integrityAcknowledged := input.integrityAcknowledged.value

end Input

/-! ## The request -/

/-- The credentials of a request: none, one id, or a list. -/
inductive CredentialInput where
  | absent
  | single (id : String)
  | several (ids : List String)

/-- The ids that are not empty. -/
def CredentialInput.ids : CredentialInput → List String
  | .absent => []
  | .single id => [id].filter (· ≠ "")
  | .several ids => ids.filter (· ≠ "")

/-- The data of a request. -/
structure Body (ρ : Type) where
  data : String → Option ρ
  credentialIds : CredentialInput := .absent

/-- Applications with their relations, and what a request refers to. -/
structure Applications where
  db : Db := {}
  subjects : List (UserId × TermId) := []
  skills : List (UserId × TermId) := []
  taxonomy : Taxonomy
  uploads : Table AttachmentId UserId := .empty

/-- The error of a view. -/
inductive ViewError where
  | invalid (fields : List String)
  | domain (error : DomainError) (ids : List TermId := [])
  | service (error : ApplicationError)
  deriving DecidableEq

/-- The active terms with these ids and one of these kinds. -/
def knownTerms (taxonomy : Taxonomy) (ids : List Int) (kinds : List TermKind) :
    List TermId :=
  taxonomy.terms.select fun id term =>
    id ∈ ids && term.isActive && kinds.contains term.kind

def resolveTerms
    (taxonomy : Taxonomy) (ids : List Int) (kinds : List TermKind) :
    Except ViewError (List TermId) :=
  let found := knownTerms taxonomy ids kinds
  let unknown := ids.filter (· ∉ found)
  if unknown = [] then
    .ok found
  else
    .error (.domain
      { message := "Unknown taxonomy terms."
        code := "validation_error" }
      unknown)

def invalidCredential : ViewError :=
  .domain
    { message :=
        "Invalid credential reference (files must be your own uploads)."
      code := "validation_error" }

/-- The user's uploads with these ids, all of them; `uuid` reads an id. -/
def resolveCredentials
    (uuid : String → Option AttachmentId) (uploads : Table AttachmentId UserId)
    (user : UserId) (ids : List String) :
    Except ViewError (List AttachmentId) :=
  if ids = [] then
    .ok []
  else
    let keys := ids.filterMap uuid
    let matched := uploads.select fun id uploader =>
      id ∈ keys && uploader = user
    if keys.length < ids.length then
      .error invalidCredential
    else if matched.length ≠ ids.dedup.length then
      .error invalidCredential
    else
      .ok matched

/-- The relations that a request sets. -/
structure Payload where
  subjects : List TermId
  skills : List TermId
  credentialAttachments : List AttachmentId

/-- `_application_data_from_request`: a list that is left out is empty. -/
def applicationDataFromRequest {ρ : Type}
    (readers : Readers ρ) (uuid : String → Option AttachmentId)
    (isPartial : Bool) (user : UserId) (body : Body ρ) (stored : Applications) :
    Except ViewError (Fields × Payload) := do
  let input := inputSerializer readers isPartial body.data
  if input.refused ≠ [] then
    throw (.invalid input.refused)
  let subjectIds := input.subjectIds.value.getD []
  let skillIds := input.skillIds.value.getD []
  let subjects ←
    resolveTerms stored.taxonomy subjectIds [.subject, .category]
  let skills ← resolveTerms stored.taxonomy skillIds [.skill]
  let credentialAttachments ←
    resolveCredentials uuid stored.uploads user body.credentialIds.ids
  return (input.fields, { subjects, skills, credentialAttachments })

/-- `relation.set(terms)`. -/
def setRelation (user : UserId) (terms : List TermId)
    (relation : List (UserId × TermId)) : List (UserId × TermId) :=
  (relation.filter fun link => link.1 ≠ user || link.2 ∈ terms) ++
    (terms.filter fun term => (user, term) ∉ relation).map (user, ·)

/-- `_set_terms`. -/
def setTerms (user : UserId) (payload : Payload) (stored : Applications) :
    Applications :=
  { stored with
    subjects := setRelation user payload.subjects stored.subjects
    skills := setRelation user payload.skills stored.skills }

/-- A view: the request is parsed, the service runs, the terms are set. -/
def view {ρ : Type}
    (readers : Readers ρ) (uuid : String → Option AttachmentId)
    (isPartial : Bool)
    (service : Fields → List AttachmentId → ExpertCall)
    (user : UserId) (body : Body ρ) (stored : Applications) :
    Except ViewError ExpertApplication × Applications :=
  match applicationDataFromRequest readers uuid isPartial user body stored with
  | .error error => (.error error, stored)
  | .ok (data, payload) =>
      match Request.run (service data payload.credentialAttachments).call
          stored.db with
      | (.error error, db) => (.error (.service error), { stored with db })
      | (.ok application, db) =>
          (.ok application, setTerms user payload { stored with db })

/-- `POST` of the caller's own application. -/
def post {ρ : Type} (readers : Readers ρ) (uuid : String → Option AttachmentId)
    (user : UserId) (body : Body ρ) (stored : Applications) :
    Except ViewError ExpertApplication × Applications :=
  view readers uuid false (.apply user) user body stored

/-- `PATCH` of the caller's own application. -/
def patch {ρ : Type} (readers : Readers ρ) (uuid : String → Option AttachmentId)
    (user : UserId) (body : Body ρ) (stored : Applications) :
    Except ViewError ExpertApplication × Applications :=
  view readers uuid true (.updateApplication user) user body stored

/-! ## The frame of an edit -/

/-- A column that the applicant fills in. -/
inductive Column where
  | displayName
  | headline
  | bio
  | expertiseSummary
  | experienceYears
  | qualifications
  | languages
  | timezone
  | availabilityNote
  | certified18Plus
  | integrityAcknowledged
  deriving DecidableEq

/-- The value of a column. -/
inductive Value where
  | text (value : String)
  | number (value : Int)
  | flag (value : Bool)
  deriving DecidableEq

namespace Column

/-- The field of the request. -/
def name : Column → String
  | .displayName => "display_name"
  | .headline => "headline"
  | .bio => "bio"
  | .expertiseSummary => "expertise_summary"
  | .experienceYears => "experience_years"
  | .qualifications => "qualifications"
  | .languages => "languages"
  | .timezone => "timezone"
  | .availabilityNote => "availability_note"
  | .certified18Plus => "certified_18_plus"
  | .integrityAcknowledged => "integrity_acknowledged"

/-- What an application has in the column. -/
def of (content : Content) : Column → Value
  | .displayName => .text content.displayName
  | .headline => .text content.headline
  | .bio => .text content.bio
  | .expertiseSummary => .text content.expertiseSummary
  | .experienceYears => .number content.experienceYears
  | .qualifications => .text content.qualifications
  | .languages => .text content.languages
  | .timezone => .text content.timezone
  | .availabilityNote => .text content.availabilityNote
  | .certified18Plus => .flag content.certified18Plus
  | .integrityAcknowledged => .flag content.integrityAcknowledged

/-- What a raw value says for the column. -/
def parse {ρ : Type} (readers : Readers ρ) (column : Column) (raw : ρ) :
    Option Value :=
  match column with
  | .displayName | .headline | .bio | .expertiseSummary | .qualifications
  | .languages | .timezone | .availabilityNote =>
      (readers.text raw).map .text
  | .experienceYears => (readers.integer raw).map .number
  | .certified18Plus | .integrityAcknowledged =>
      (readers.boolean raw).map .flag

end Column

variable {ρ : Type}

/-- The new value is what was sent, or the old one if nothing was. -/
def Sent (raw : Option ρ) (parse : ρ → Option Value) (old new : Value) : Prop :=
  match raw with
  | none => new = old
  | some value => parse value = some new

/-- Terms after an edit: those of the field, or the same if it is absent. -/
def TermsEdited
    (user : UserId) (field : Option (List Int))
    (before after : List (UserId × TermId)) : Prop :=
  ∀ link, link ∈ after ↔
    match field with
    | some ids => if link.1 = user then link.2 ∈ ids else link ∈ before
    | none => link ∈ before

/-- Exactly the fields of the request have changed. -/
structure PartialEdit
    (readers : Readers ρ) (uuid : String → Option AttachmentId) (user : UserId)
    (body : Body ρ) (found : ExpertApplication) (before after : Applications) :
    Prop where
  columns : ∃ content, after.db.applications.row user =
      some { found with content } ∧
    ∀ column : Column, Sent (body.data column.name) (column.parse readers)
      (column.of found.content) (column.of content)
  subjects : TermsEdited user ((body.data "subject_ids").bind readers.integers)
    before.subjects after.subjects
  skills : TermsEdited user ((body.data "skill_ids").bind readers.integers)
    before.skills after.skills
  credentials : ∀ link, link ∈ after.db.credentials ↔
    link ∈ before.db.credentials ∨
      link.1 = user ∧ link.2 ∈ body.credentialIds.ids.filterMap uuid
  others : ∀ other, other ≠ user →
    after.db.applications.row other = before.db.applications.row other
  elsewhere : after.db.profiles = before.db.profiles ∧
    after.db.verified = before.db.verified ∧
      after.taxonomy = before.taxonomy ∧ after.uploads = before.uploads

/-- An accepted edit changes what the request names, a refused one nothing. -/
def Framed
    (readers : Readers ρ) (uuid : String → Option AttachmentId) (user : UserId)
    (body : Body ρ) (found : ExpertApplication) (before : Applications)
    (reached : Except ViewError ExpertApplication × Applications) : Prop :=
  match reached.1 with
  | .ok _ => PartialEdit readers uuid user body found before reached.2
  | .error _ => reached.2 = before

/-- The parser accepts the request, and the edited application is clean. -/
def Acceptable
    (readers : Readers ρ) (uuid : String → Option AttachmentId) (user : UserId)
    (body : Body ρ) (found : ExpertApplication) (before : Applications) :
    Prop :=
  ∃ data payload,
    applicationDataFromRequest readers uuid true user body before =
      .ok (data, payload) ∧
    invalidFields (edited data found) = []

/-- A list that the request leaves out is empty already. -/
def Bare
    (user : UserId) (field : Option ρ) (relation : List (UserId × TermId)) :
    Prop :=
  field = none → ∀ term, (user, term) ∉ relation

/-! ## What the parser reads -/

/-- A field of a partial serializer that is not refused has what was sent. -/
theorem runField_value
    {α : Type} {read : ρ → Option α} {fits : α → Bool} {raw : Option ρ}
    (missing : Missing α)
    (accepted : (runField true missing read fits raw).isRefused = false) :
    (runField true missing read fits raw).value = raw.bind read ∧
      (raw.bind read = none ↔ raw = none) := by
  cases raw with
  | none => exact ⟨rfl, fun _ => rfl, fun _ => rfl⟩
  | some raw =>
      cases parsed : read raw with
      | none => simp [runField, parsed, Verdict.isRefused] at accepted
      | some value =>
          by_cases fine : fits value = true
          · simp [runField, parsed, fine, Verdict.value]
          · simp [runField, parsed, fine, Verdict.isRefused] at accepted

/-- What is stored is what was sent, or what was there. -/
theorem runField_column
    {α : Type} {read : ρ → Option α} {fits : α → Bool} {raw : Option ρ}
    (missing : Missing α) (wrap : α → Value) (old : α)
    (accepted : (runField true missing read fits raw).isRefused = false) :
    Sent raw (fun sent => (read sent).map wrap) (wrap old)
      (wrap ((runField true missing read fits raw).value.getD old)) := by
  obtain ⟨value, parsed⟩ := runField_value missing accepted
  rw [value]
  cases raw with
  | none => rfl
  | some sent =>
      cases result : read sent with
      | none => exact nomatch parsed.mp result
      | some value => simp [Sent, result]

/-- The columns of an accepted request are what was sent, or what was there. -/
theorem columns_accepted
    {readers : Readers ρ} {data : String → Option ρ}
    (accepted : (inputSerializer readers true data).refused = [])
    (content : Content) (column : Column) :
    Sent (data column.name) (column.parse readers) (column.of content)
      (column.of
        ((inputSerializer readers true data).fields.setOn content)) := by
  simp only [Input.refused, List.map_eq_nil_iff, List.filter_eq_nil_iff,
    List.mem_cons, List.not_mem_nil, or_false, forall_eq_or_imp, forall_eq,
    Bool.not_eq_true] at accepted
  obtain ⟨name, headline, bio, summary, years, qualifications, languages,
    timezone, note, _, _, certified, acknowledged⟩ := accepted
  cases column with
  | displayName =>
      exact runField_column .required .text content.displayName name
  | headline => exact runField_column .required .text content.headline headline
  | bio => exact runField_column .required .text content.bio bio
  | expertiseSummary =>
      exact runField_column .required .text content.expertiseSummary summary
  | experienceYears =>
      exact runField_column (.default 0) .number content.experienceYears years
  | qualifications =>
      exact runField_column .optional .text content.qualifications
        qualifications
  | languages =>
      exact runField_column .optional .text content.languages languages
  | timezone =>
      exact runField_column (.default "UTC") .text content.timezone timezone
  | availabilityNote =>
      exact runField_column .optional .text content.availabilityNote note
  | certified18Plus =>
      exact runField_column .required .flag content.certified18Plus certified
  | integrityAcknowledged =>
      exact runField_column .required .flag content.integrityAcknowledged
        acknowledged

/-- The terms of an accepted list are those with its ids. -/
theorem resolveTerms_mem
    {taxonomy : Taxonomy} {ids : List Int} {kinds : List TermKind}
    {terms : List TermId}
    (resolved : resolveTerms taxonomy ids kinds = .ok terms) (term : TermId) :
    term ∈ terms ↔ term ∈ ids := by
  simp only [resolveTerms] at resolved
  split_ifs at resolved with known
  obtain rfl := Except.ok.inj resolved
  constructor
  · intro member
    obtain ⟨_, _, fits⟩ := Table.mem_select.mp member
    simp only [Bool.and_eq_true, decide_eq_true_eq] at fits
    exact fits.1.1
  · intro member
    have found := List.filter_eq_nil_iff.mp known term member
    simpa using found

/-- The credentials of an accepted request are the uploads with its ids. -/
theorem resolveCredentials_mem
    {uuid : String → Option AttachmentId} {uploads : Table AttachmentId UserId}
    {user : UserId} {ids : List String} {attachments : List AttachmentId}
    (resolved : resolveCredentials uuid uploads user ids = .ok attachments)
    (attachment : AttachmentId) :
    attachment ∈ attachments ↔ attachment ∈ ids.filterMap uuid := by
  simp only [resolveCredentials] at resolved
  split_ifs at resolved with empty short count
  · obtain rfl := Except.ok.inj resolved
    simp [empty]
  · obtain rfl := Except.ok.inj resolved
    -- as many uploads as distinct ids are found, so none is missing
    have owned : ∀ found ∈ uploads.select fun id uploader =>
        id ∈ ids.filterMap uuid && uploader = user,
        found ∈ ids.filterMap uuid := by
      intro found member
      obtain ⟨_, _, fits⟩ := Table.mem_select.mp member
      simp only [Bool.and_eq_true, decide_eq_true_eq] at fits
      exact fits.1
    have distinct : (uploads.select fun id uploader =>
        id ∈ ids.filterMap uuid && uploader = user).Nodup :=
      uploads.nodup.filter _
    have bounded : (ids.filterMap uuid).dedup.length ≤ ids.dedup.length := by
      have inside : (ids.filterMap uuid).dedup ⊆ ids.dedup.filterMap uuid := by
        intro key member
        obtain ⟨id, sent, same⟩ :=
          List.mem_filterMap.mp (List.mem_dedup.mp member)
        exact List.mem_filterMap.mpr ⟨id, List.mem_dedup.mpr sent, same⟩
      exact (List.subperm_of_subset (List.nodup_dedup _) inside).length_le.trans
        (List.length_filterMap_le _ _)
    have whole : (uploads.select fun id uploader =>
        id ∈ ids.filterMap uuid && uploader = user).Perm
        (ids.filterMap uuid).dedup :=
      (List.subperm_of_subset distinct fun found member =>
        List.mem_dedup.mpr (owned found member)).perm_of_length_le
        (by rw [not_not.mp count]; exact bounded)
    rw [whole.mem_iff, List.mem_dedup]

/-! ## What the writers do -/

/-- The user has the new terms, everybody else what they had. -/
theorem mem_setRelation
    {user : UserId} {terms : List TermId} {relation : List (UserId × TermId)}
    {link : UserId × TermId} :
    link ∈ setRelation user terms relation ↔
      if link.1 = user then link.2 ∈ terms else link ∈ relation := by
  obtain ⟨owner, term⟩ := link
  by_cases own : owner = user
  · subst own
    by_cases there : (owner, term) ∈ relation <;>
      simp [setRelation, there]
  · simp [setRelation, own, Ne.symm own]

/-- Setting the terms edits them as asked, unless absent ones are taken away. -/
theorem termsEdited_iff
    {field : Option (List Int)} {terms : List TermId} (user : UserId)
    (relation : List (UserId × TermId))
    (resolved : ∀ term, term ∈ terms ↔ term ∈ field.getD []) :
    TermsEdited user field relation (setRelation user terms relation) ↔
      (field = none → ∀ term, (user, term) ∉ relation) := by
  simp only [TermsEdited, mem_setRelation, resolved]
  cases field with
  | some ids => simp
  | none =>
      simp only [Option.getD_none, List.not_mem_nil, forall_const]
      constructor
      · intro same term member
        have gone := (same (user, term)).mpr member
        simp at gone
      · intro bare link
        split_ifs with own
        · subst own
          simpa using bare link.2
        · exact Iff.rfl

/-- The columns and the credentials after an edit. -/
def afterEdit
    (user : UserId) (application : ExpertApplication)
    (credentialAttachments : List AttachmentId) (db : Db) : Db :=
  let saved := (Stmt.storeApplication user application).apply db
  if credentialAttachments ≠ [] then
    (Stmt.addCredentials user credentialAttachments).apply saved
  else
    saved

/-- The service alone: it saves what the model's validation lets through. -/
theorem updateApplication_run
    {user : UserId} {found : ExpertApplication} {db : Db}
    (stored : db.applications.row user = some found)
    (editable : found.status ∈ userEditableStatuses)
    (fields : Fields) (credentialAttachments : List AttachmentId) :
    Request.run (ExpertCall.updateApplication user fields
      credentialAttachments).call db =
      if invalidFields (edited fields found) = [] then
        (.ok (edited fields found),
          afterEdit user (edited fields found) credentialAttachments db)
      else
        (.error (.validation (invalidFields (edited fields found))), db) := by
  suffices whole : (ExpertCall.updateApplication user fields
      credentialAttachments).call.Leaves db [] fun result next _ =>
        (result, next) = if invalidFields (edited fields found) = [] then
          (.ok (edited fields found),
            afterEdit user (edited fields found) credentialAttachments db)
        else
          (.error (.validation (invalidFields (edited fields found))), db) from
    Request.leaves_iff_run.mp whole
  refine Request.leaves_atomic.mpr ?_
  simp only [ExpertCall.service, updateApplication, requireOwnApplication,
    fullClean, Prog.post_bind, Prog.post_read, Prog.post_orFail,
    Prog.post_require, Prog.post_exec, Prog.post_ite, Prog.post_pure,
    applyAll_nil, stored, Option.some.injEq, forall_eq', reduceCtorEq,
    false_implies, and_true, editable, not_true, true_implies]
  refine ⟨fun (valid : invalidFields (edited fields found) = []) => ?_,
    fun invalid => ?_⟩
  · refine ⟨fun documents => ?_, fun none => ?_⟩
    · rw [if_pos valid, afterEdit, if_pos documents]
      rfl
    · rw [if_pos valid, afterEdit, if_neg none]
      rfl
  · exact (if_neg invalid).symm

/-- An edit leaves everything else alone. -/
theorem afterEdit_frame
    (user : UserId) (application : ExpertApplication)
    (credentialAttachments : List AttachmentId) (db : Db) :
    let next := afterEdit user application credentialAttachments db
    next.applications.row user = some application ∧
      (∀ other, other ≠ user →
        next.applications.row other = db.applications.row other) ∧
      next.profiles = db.profiles ∧ next.verified = db.verified := by
  intro next
  have same : next.applications = db.applications.store user application ∧
      next.profiles = db.profiles ∧ next.verified = db.verified := by
    simp only [next, afterEdit]
    split_ifs <;> exact ⟨rfl, rfl, rfl⟩
  refine ⟨by rw [same.1, Table.row_store_self], fun other different => ?_,
    same.2⟩
  rw [same.1, Table.row_store_other _ _ different]

/-- The credentials of a request are added. -/
theorem afterEdit_credentials
    (user : UserId) (application : ExpertApplication)
    (credentialAttachments : List AttachmentId) (db : Db)
    (link : UserId × AttachmentId) :
    link ∈ (afterEdit user application credentialAttachments db).credentials ↔
      link ∈ db.credentials ∨
        link.1 = user ∧ link.2 ∈ credentialAttachments := by
  obtain ⟨owner, attachment⟩ := link
  by_cases documents : credentialAttachments = []
  · simp [afterEdit, documents, Stmt.apply]
  · simp only [afterEdit, ne_eq, documents, not_false_eq_true, if_true,
      Stmt.apply, Stmt.links, List.mem_append, List.mem_filter, List.mem_map]
    by_cases there : (owner, attachment) ∈ db.credentials
    · simp [there]
    · constructor
      · rintro (before | ⟨⟨_, member, same⟩, _⟩)
        · exact .inl before
        · obtain ⟨rfl, rfl⟩ := Prod.mk.inj same
          exact .inr ⟨rfl, member⟩
      · rintro (before | ⟨rfl, member⟩)
        · exact .inl before
        · exact .inr ⟨⟨attachment, member, rfl⟩, decide_eq_true there⟩

/-- A computation that succeeds has passed its first step. -/
theorem ok_of_bind {ε α β : Type}
    {first : Except ε α} {rest : α → Except ε β} {value : β}
    (done : (first >>= rest) = .ok value) :
    ∃ found, first = .ok found ∧ rest found = .ok value := by
  cases first with
  | error error => exact nomatch done
  | ok found => exact ⟨found, rfl, done⟩

/-- What the parser makes of an accepted request. -/
structure Parsed
    (readers : Readers ρ) (uuid : String → Option AttachmentId) (body : Body ρ)
    (data : Fields) (payload : Payload) : Prop where
  accepted : (inputSerializer readers true body.data).refused = []
  fields : data = (inputSerializer readers true body.data).fields
  subjects : ∀ term, term ∈ payload.subjects ↔
    term ∈ ((body.data "subject_ids").bind readers.integers).getD []
  skills : ∀ term, term ∈ payload.skills ↔
    term ∈ ((body.data "skill_ids").bind readers.integers).getD []
  credentials : ∀ attachment, attachment ∈ payload.credentialAttachments ↔
    attachment ∈ body.credentialIds.ids.filterMap uuid

/-- The lists of an accepted request are read where they are sent. -/
theorem lists_accepted
    {readers : Readers ρ} {data : String → Option ρ}
    (accepted : (inputSerializer readers true data).refused = []) :
    ((inputSerializer readers true data).subjectIds.value =
        (data "subject_ids").bind readers.integers ∧
      ((data "subject_ids").bind readers.integers = none ↔
        data "subject_ids" = none)) ∧
    ((inputSerializer readers true data).skillIds.value =
        (data "skill_ids").bind readers.integers ∧
      ((data "skill_ids").bind readers.integers = none ↔
        data "skill_ids" = none)) := by
  simp only [Input.refused, List.map_eq_nil_iff, List.filter_eq_nil_iff,
    List.mem_cons, List.not_mem_nil, or_false, forall_eq_or_imp, forall_eq,
    Bool.not_eq_true] at accepted
  obtain ⟨_, _, _, _, _, _, _, _, _, subjects, skills, _⟩ := accepted
  exact ⟨runField_value (.default []) subjects,
    runField_value (.default []) skills⟩

theorem parsed_of_ok
    {readers : Readers ρ} {uuid : String → Option AttachmentId} {user : UserId}
    {body : Body ρ} {before : Applications} {data : Fields} {payload : Payload}
    (parsed : applicationDataFromRequest readers uuid true user body before =
      .ok (data, payload)) :
    Parsed readers uuid body data payload := by
  unfold applicationDataFromRequest at parsed
  by_cases accepted :
      (inputSerializer readers true body.data).refused = []
  · simp only [accepted, ne_eq, not_true, if_false] at parsed
    obtain ⟨subjects, known, parsed⟩ := ok_of_bind parsed
    obtain ⟨skills, skilled, parsed⟩ := ok_of_bind parsed
    obtain ⟨attachments, owned, parsed⟩ := ok_of_bind parsed
    obtain ⟨rfl, rfl⟩ := Prod.mk.inj (Except.ok.inj parsed)
    obtain ⟨⟨subjectList, _⟩, skillList, _⟩ := lists_accepted accepted
    rw [subjectList] at known
    rw [skillList] at skilled
    exact ⟨accepted, rfl, resolveTerms_mem known, resolveTerms_mem skilled,
      resolveCredentials_mem owned⟩
  · simp only [ne_eq, accepted, not_false_eq_true, if_true] at parsed
    exact nomatch parsed

/-! ## The frame holds if nothing is left out -/

/-- An accepted edit: the service and the terms that are set after it. -/
theorem patch_accepted
    {readers : Readers ρ} {uuid : String → Option AttachmentId} {user : UserId}
    {body : Body ρ} {found : ExpertApplication} {before : Applications}
    {data : Fields} {payload : Payload}
    (stored : before.db.applications.row user = some found)
    (editable : found.status ∈ userEditableStatuses)
    (parsed : applicationDataFromRequest readers uuid true user body before =
      .ok (data, payload))
    (valid : invalidFields (edited data found) = []) :
    patch readers uuid user body before =
      (.ok (edited data found), setTerms user payload
        { before with
          db := afterEdit user (edited data found)
            payload.credentialAttachments before.db }) := by
  simp only [patch, view, parsed,
    updateApplication_run stored editable data payload.credentialAttachments,
    valid, if_true]

/-- Another edit changes nothing. -/
theorem patch_refused
    {readers : Readers ρ} {uuid : String → Option AttachmentId} {user : UserId}
    {body : Body ρ} {found : ExpertApplication} {before : Applications}
    (stored : before.db.applications.row user = some found)
    (editable : found.status ∈ userEditableStatuses)
    (unacceptable : ¬Acceptable readers uuid user body found before) :
    ∃ error, patch readers uuid user body before = (.error error, before) := by
  rcases parsed : applicationDataFromRequest readers uuid true user body before
    with error | ⟨data, payload⟩
  · exact ⟨error, by simp only [patch, view, parsed]⟩
  · have invalid : invalidFields (edited data found) ≠ [] :=
      fun valid => unacceptable ⟨data, payload, parsed, valid⟩
    refine ⟨.service (.validation (invalidFields (edited data found))), ?_⟩
    simp only [patch, view, parsed,
      updateApplication_run stored editable data payload.credentialAttachments,
      invalid, if_false]

/--
An edit changes exactly the fields of the request, or nothing if it is refused,
unless an accepted request leaves out subjects or skills that the application
has: these are taken away.
-/
theorem patch_framed_iff
    (readers : Readers ρ) (uuid : String → Option AttachmentId) (user : UserId)
    (body : Body ρ) (found : ExpertApplication) (before : Applications)
    (stored : before.db.applications.row user = some found)
    (editable : found.status ∈ userEditableStatuses) :
    Framed readers uuid user body found before
        (patch readers uuid user body before) ↔
      (Acceptable readers uuid user body found before →
        Bare user (body.data "subject_ids") before.subjects ∧
          Bare user (body.data "skill_ids") before.skills) := by
  by_cases acceptable : Acceptable readers uuid user body found before
  · obtain ⟨data, payload, parsed, valid⟩ := acceptable
    obtain ⟨accepted, rfl, subjects, skills, credentials⟩ :=
      parsed_of_ok parsed
    obtain ⟨⟨_, subjectsSent⟩, _, skillsSent⟩ := lists_accepted accepted
    obtain ⟨saved, others, profiles, verified⟩ := afterEdit_frame user
      (edited (inputSerializer readers true body.data).fields found)
      payload.credentialAttachments before.db
    have subjectsEdited := termsEdited_iff user before.subjects subjects
    have skillsEdited := termsEdited_iff user before.skills skills
    rw [subjectsSent] at subjectsEdited
    rw [skillsSent] at skillsEdited
    rw [patch_accepted stored editable parsed valid]
    constructor
    · intro edit _
      exact ⟨subjectsEdited.mp edit.subjects, skillsEdited.mp edit.skills⟩
    · intro bare
      obtain ⟨noSubjects, noSkills⟩ := bare ⟨_, payload, parsed, valid⟩
      exact
        { columns := ⟨_, saved, columns_accepted accepted found.content⟩
          subjects := subjectsEdited.mpr noSubjects
          skills := skillsEdited.mpr noSkills
          credentials := fun link => by
            have added := afterEdit_credentials user
              (edited (inputSerializer readers true body.data).fields found)
              payload.credentialAttachments before.db link
            rwa [credentials] at added
          others
          elsewhere := ⟨profiles, verified, rfl, rfl⟩ }
  · obtain ⟨error, refused⟩ := patch_refused stored editable acceptable
    rw [refused]
    exact ⟨fun _ may => absurd may acceptable, fun _ => rfl⟩

/-- The values of a JSON body. -/
inductive Json where
  | text (value : String)
  | number (value : Int)
  | flag (value : Bool)
  | numbers (values : List Int)

def jsonReaders : Readers Json where
  text
    | .text value => some value
    | _ => none
  integer
    | .number value => some value
    | _ => none
  boolean
    | .flag value => some value
    | _ => none
  integers
    | .numbers values => some values
    | _ => none

/-- One subject. -/
def statistics : Taxonomy where
  terms := .insert .empty 7
    { kind := .subject, name := "Statistics", slug := "statistics" }
  named := by
    intro id term stored
    rcases Table.row_insert_cases stored with old | ⟨_, rfl, _⟩
    · exact nomatch old
    · decide
  distinct := by
    intro first second term other one two _ _
    rcases Table.row_insert_cases one with old | ⟨rfl, _, _⟩
    · exact nomatch old
    · rcases Table.row_insert_cases two with old | ⟨rfl, _, _⟩
      · exact nomatch old
      · rfl

/-- The draft of the user 1, who teaches statistics. -/
def statistician : ExpertApplication where
  content :=
    { displayName := "A. Iqbal"
      headline := "Statistics tutor"
      bio := "I have taught statistics for ten years."
      expertiseSummary := "Regression and experiments" }

def drafted : Applications where
  db := { applications := .insert .empty 1 statistician }
  subjects := [(1, 7)]
  taxonomy := statistics

/-- A body with a new headline, and perhaps with the subject. -/
def newHeadline (subjects : Option (List Int)) : Body Json where
  data
    | "headline" => some (.text "Statistics and econometrics")
    | "subject_ids" => subjects.map .numbers
    | _ => none

/-- The frame holds of an edit that repeats the subject. -/
theorem patch_framed_repeated :
    Framed jsonReaders (fun _ => none) 1 (newHeadline (some [7])) statistician
      drafted (patch jsonReaders (fun _ => none) 1 (newHeadline (some [7]))
        drafted) :=
  (patch_framed_iff jsonReaders (fun _ => none) 1 (newHeadline (some [7]))
    statistician drafted rfl (by decide)).mpr
    fun _ => ⟨nofun, fun _ _ => List.not_mem_nil⟩

/-- An edit of the headline takes the subject away. -/
theorem headline_clearsSubjects :
    let reached :=
      patch jsonReaders (fun _ => none) 1 (newHeadline none) drafted
    reached.1.isOk = true ∧ drafted.subjects = [(1, 7)] ∧
      reached.2.subjects = [] ∧
      ¬Framed jsonReaders (fun _ => none) 1 (newHeadline none) statistician
        drafted reached := by
  intro reached
  have accepted : reached.1.isOk = true := by decide +kernel
  have cleared : reached.2.subjects = [] := by decide +kernel
  refine ⟨accepted, rfl, cleared, fun framed => ?_⟩
  unfold Framed at framed
  split at framed
  · have kept := (framed.subjects (1, 7)).mpr (List.mem_singleton.mpr rfl)
    rw [cleared] at kept
    exact nomatch kept
  · rename_i error shape
    rw [shape] at accepted
    exact nomatch accepted

end Experts

end KnowledgeMarketplace
