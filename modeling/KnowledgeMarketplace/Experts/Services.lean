import KnowledgeMarketplace.Core.Text
import KnowledgeMarketplace.Experts.Database
import KnowledgeMarketplace.Transaction.Schedule
import Mathlib.Data.List.Nodup

/-!
# Expert onboarding

An applicant drafts, edits and submits an application.  Staff review it, and
suspend and reinstate approved experts.
-/

namespace KnowledgeMarketplace

open Transaction

namespace Experts

/--
What a service ends with: a domain error with the fields in its details, the
fields that a validation refuses, or an error of the database.
-/
inductive ApplicationError where
  | domain (error : DomainError) (fields : List String := [])
  | validation (fields : List String)
  | dataError (column : String)
  | integrity (table : String)
  deriving DecidableEq

def domainError (message code : String) : ApplicationError :=
  .domain { message, code }

/-- The body of one transaction of the experts application. -/
abbrev Block (α : Type) := Prog Db Row Stmt ApplicationError α

/-! ## Edits -/

/-- The fields of a request that an applicant can set. -/
structure Fields where
  displayName : Option String := none
  headline : Option String := none
  bio : Option String := none
  expertiseSummary : Option String := none
  experienceYears : Option Int := none
  qualifications : Option String := none
  languages : Option String := none
  timezone : Option String := none
  availabilityNote : Option String := none
  certified18Plus : Option Bool := none
  integrityAcknowledged : Option Bool := none
  deriving DecidableEq

/-- Set the fields that the request has. -/
def Fields.setOn (fields : Fields) (content : Content) : Content where
  displayName := fields.displayName.getD content.displayName
  headline := fields.headline.getD content.headline
  bio := fields.bio.getD content.bio
  expertiseSummary :=
    fields.expertiseSummary.getD content.expertiseSummary
  experienceYears := fields.experienceYears.getD content.experienceYears
  qualifications := fields.qualifications.getD content.qualifications
  languages := fields.languages.getD content.languages
  timezone := fields.timezone.getD content.timezone
  availabilityNote :=
    fields.availabilityNote.getD content.availabilityNote
  certified18Plus := fields.certified18Plus.getD content.certified18Plus
  integrityAcknowledged :=
    fields.integrityAcknowledged.getD content.integrityAcknowledged

/-- The greatest value of a small integer column. -/
def smallIntegerMax : Nat := 32767

/-- A text field: whether it may be empty, and its greatest length. -/
def textFits (blank : Bool) (maxLength : Option Nat) (text : String) : Bool :=
  (blank || text ≠ "") && maxLength.all (text.length ≤ ·)

/-- The fields that `full_clean` refuses; the text area has no greatest length. -/
def invalidFields (application : ExpertApplication) : List String :=
  let content := application.content
  let checks : List (String × Bool) :=
    [("display_name", textFits false (some 150) content.displayName),
      ("headline", textFits false (some 120) content.headline),
      ("bio", textFits false none content.bio),
      ("expertise_summary", textFits false (some 500) content.expertiseSummary),
      ("experience_years",
        0 ≤ content.experienceYears ∧
          content.experienceYears ≤ smallIntegerMax),
      ("qualifications", textFits true (some 1000) content.qualifications),
      ("languages", textFits true (some 200) content.languages),
      ("timezone", textFits false (some 63) content.timezone),
      ("availability_note", textFits true (some 300) content.availabilityNote),
      ("rejection_reason",
        textFits true (some 500) application.rejectionReason),
      ("review_note", textFits true (some 500) application.reviewNote),
      ("resubmission_count",
        application.resubmissionCount ≤ smallIntegerMax)]
  (checks.filter fun check => !check.2).map Prod.fst

/-- `application.full_clean()`. -/
def fullClean (application : ExpertApplication) : Block Unit :=
  Prog.require (invalidFields application = [])
    (.validation (invalidFields application))

/-! ## The applicant -/

def userEditableStatuses : List ApplicationStatus :=
  [.draft, .submitted, .rejected]

def submittableFrom : List ApplicationStatus := [.draft, .rejected]

/-- The caller's own application, as it is stored. -/
def requireOwnApplication (user : UserId) : Block ExpertApplication := do
  let found ← Prog.read fun db => db.applications.row user
  Prog.orFail found
    (.domain
      { message := "You have not started an expert application."
        code := "no_application"
        statusCode := 404 })

/-- The required fields that are blank. -/
def missingFields (content : Content) : List String :=
  let required : List (String × String) :=
    [("display_name", content.displayName),
      ("headline", content.headline),
      ("bio", content.bio),
      ("expertise_summary", content.expertiseSummary)]
  (required.filter fun field => stripped field.2 = []).map Prod.fst

/-- Submit-time validation. -/
def validateApplicationContent
    (user : UserId) (application : ExpertApplication) : Block Unit := do
  let missing := missingFields application.content
  Prog.require (missing = [])
    (.domain
      { message := "Missing required application fields."
        code := "application_incomplete" }
      missing)
  Prog.require (application.content.certified18Plus = true)
    (domainError "You must confirm you are 18 or older."
      "attestation_required")
  Prog.require (application.content.integrityAcknowledged = true)
    (domainError
      "You must acknowledge the tutor guidelines (academic-integrity policy)."
      "attestation_required")
  let documented ← Prog.read (hasCredential user)
  Prog.require (documented = true)
    (domainError "At least one supporting credential document is required."
      "credential_required")
  let verified ← Prog.read fun db => db.verified.contains user
  Prog.require (verified = true)
    (domainError "Verify your email address before submitting."
      "verification_required")

/-- Start an application in draft. -/
def apply (user : UserId) (data : Fields)
    (credentialAttachments : List AttachmentId) : Block ExpertApplication := do
  let found ← Prog.read fun db => db.applications.row user
  Prog.require (found = none)
    (.domain
      { message := "You already have an expert application."
        code := "application_exists"
        statusCode := 409 })
  let application : ExpertApplication := { content := data.setOn {} }
  fullClean application
  Prog.exec (.storeApplication user application)
  if credentialAttachments ≠ [] then
    Prog.exec (.setCredentials user credentialAttachments)
  return application

/-- Applicant edit, only in draft, submitted and rejected. -/
def updateApplication (user : UserId) (fields : Fields)
    (credentialAttachments : List AttachmentId) : Block ExpertApplication := do
  let found ← requireOwnApplication user
  Prog.require (found.status ∈ userEditableStatuses)
    (domainError "This application is locked while under review or approved."
      "application_locked")
  let application := { found with content := fields.setOn found.content }
  fullClean application
  Prog.exec (.storeApplication user application)
  if credentialAttachments ≠ [] then
    Prog.exec (.addCredentials user credentialAttachments)
  return application

/-- From draft or rejected to submitted, after full validation. -/
def submitApplication (env : Env) (user : UserId) : Block ExpertApplication := do
  let found ← requireOwnApplication user
  Prog.require (found.status ∈ submittableFrom)
    (domainError "This application cannot be submitted right now."
      "invalid_transition")
  validateApplicationContent user found
  let resubmission := found.status = .rejected
  let application :=
    { found with
      status := .submitted
      submittedAt := some env.now
      rejectionReason := ""
      resubmissionCount :=
        if resubmission then found.resubmissionCount + 1
        else found.resubmissionCount }
  Prog.require (application.resubmissionCount ≤ smallIntegerMax)
    (.dataError "resubmission_count")
  Prog.exec <| .saveApplication user fun stored =>
    { stored with
      status := application.status
      submittedAt := application.submittedAt
      rejectionReason := application.rejectionReason
      resubmissionCount := application.resubmissionCount }
  return application

/-! ## The staff -/

def staffTransitions : List (ApplicationStatus × ApplicationStatus) :=
  [(.submitted, .underReview), (.underReview, .approved),
    (.underReview, .rejected), (.approved, .suspended),
    (.suspended, .approved)]

/-- `note or application.review_note`. -/
def noteOr (note old : String) : String :=
  if note = "" then old else note

/-- Move the locked, re-read application along an edge of the table. -/
def staffTransition
    (env : Env) (id : UserId) (toStatus : ApplicationStatus) (reviewer : Actor)
    (note : String := "") : Block ExpertApplication := do
  Prog.require (reviewer.isStaff = true)
    (.domain
      { message := "Only authorized staff can review expert applications."
        code := "permission_denied"
        statusCode := 403 })
  Prog.lockRow (.application id)
  let locked ← Prog.read fun db => db.applications.row id
  let found ← Prog.orFail locked
    (.domain
      { message := "Expert application not found."
        code := "not_found"
        statusCode := 404 })
  Prog.require ((found.status, toStatus) ∈ staffTransitions)
    (domainError
      ("Cannot move an application from '" ++ found.status.value ++
        "' to '" ++ toStatus.value ++ "'.")
      "invalid_transition")
  let application :=
    { found with
      status := toStatus
      reviewedBy := some reviewer.id
      reviewNote := noteOr note found.reviewNote
      reviewedAt := some env.now }
  Prog.require (application.reviewNote.length ≤ 500) (.dataError "review_note")
  Prog.exec <| .saveApplication id fun stored =>
    { stored with
      status := application.status
      reviewedBy := application.reviewedBy
      reviewNote := application.reviewNote
      reviewedAt := application.reviewedAt }
  return application

/-- The first numbered candidate that is not taken. -/
def nextFreeSlug (taken : List String) (base : String) (number : Nat) :
    Nat → String
  | 0 => base ++ "-" ++ number.repr
  | fuel + 1 =>
      let candidate := base ++ "-" ++ number.repr
      if candidate ∈ taken then nextFreeSlug taken base (number + 1) fuel
      else candidate

/-- A slug that no other profile has. -/
def uniqueExpertSlug
    (slugify : String → String) (taken : List String) (displayName : String) :
    String :=
  let clipped := clip 160 (slugify displayName)
  let base := if clipped = "" then "expert" else clipped
  if base ∈ taken then nextFreeSlug taken base 2 taken.length else base

/-- If even the last candidate is taken, so are all before it. -/
theorem candidates_taken
    {taken : List String} {base : String} {number fuel : Nat}
    (last : nextFreeSlug taken base number fuel ∈ taken) :
    ∀ step ≤ fuel, base ++ "-" ++ (number + step).repr ∈ taken := by
  induction fuel generalizing number with
  | zero =>
      intro step bound
      obtain rfl := Nat.le_zero.mp bound
      exact last
  | succ fuel inductionHypothesis =>
      rw [nextFreeSlug] at last
      split_ifs at last with first
      · intro step bound
        rcases step with _ | step
        · exact first
        · have later := inductionHypothesis last step
            (Nat.le_of_succ_le_succ bound)
          rwa [Nat.add_assoc, Nat.add_comm 1 step] at later
      · exact absurd last first

/-- Candidates with different numbers are different. -/
theorem candidate_injective (base : String) :
    Function.Injective fun number : Nat => base ++ "-" ++ number.repr := by
  intro first second same
  have digits : first.repr.toList = second.repr.toList := by
    have whole := congrArg String.toList same
    simpa using whole
  rw [Nat.toList_repr, Nat.toList_repr] at digits
  have value := congrArg (Nat.ofDigitChars 10 · 0) digits
  simpa using value

/-- The slug is not taken: there are more candidates than slugs. -/
theorem uniqueExpertSlug_fresh
    (slugify : String → String) (taken : List String) (displayName : String) :
    uniqueExpertSlug slugify taken displayName ∉ taken := by
  intro last
  simp only [uniqueExpertSlug] at last
  generalize (if clip 160 (slugify displayName) = "" then "expert"
    else clip 160 (slugify displayName)) = base at last
  split_ifs at last with first
  · have candidates : ((List.range (taken.length + 1)).map fun step =>
        base ++ "-" ++ (2 + step).repr) ⊆ taken := by
      intro candidate member
      obtain ⟨step, bound, rfl⟩ := List.mem_map.mp member
      exact candidates_taken last step
        (Nat.lt_succ_iff.mp (List.mem_range.mp bound))
    have different : ((List.range (taken.length + 1)).map fun step =>
        base ++ "-" ++ (2 + step).repr).Nodup :=
      List.nodup_range.map fun first second same =>
        Nat.add_left_cancel (candidate_injective base same)
    have fewer := List.Nodup.length_le_of_subset different candidates
    simp at fewer
  · exact first last

/-- Make the profile on the first approval, and refresh it on every later one. -/
def upsertProfileFromApplication
    (slugify : String → String) (id : UserId)
    (application : ExpertApplication) : Block ExpertProfile := do
  let found ← Prog.read fun db => db.profiles.row id
  let profile := found.getD {}
  let content := application.content
  let taken ← Prog.read (otherSlugs id)
  let refreshed : ExpertProfile :=
    { slug :=
        if profile.slug = "" then
          uniqueExpertSlug slugify taken content.displayName
        else profile.slug
      displayName := content.displayName
      headline := content.headline
      bio := content.bio
      expertiseSummary := content.expertiseSummary
      experienceYears := content.experienceYears
      qualifications := content.qualifications
      languages := content.languages
      timezone := content.timezone
      approvedAt := profile.approvedAt.or application.reviewedAt }
  -- the unique index waits for an unfinished insert of the same slug
  Prog.lockRow (.slug refreshed.slug)
  let stored ← Prog.read (otherSlugs id)
  Prog.require (refreshed.slug ∉ stored) (.integrity "experts_expertprofile")
  Prog.exec (.storeProfile id refreshed)
  return refreshed

def startReview (env : Env) (id : UserId) (reviewer : Actor) :
    Block ExpertApplication :=
  staffTransition env id .underReview reviewer

/-- From under review to approved, with the public profile. -/
def approve (env : Env) (slugify : String → String) (id : UserId)
    (reviewer : Actor) (note : String) : Block ExpertApplication := do
  let application ← staffTransition env id .approved reviewer note
  let _ ← upsertProfileFromApplication slugify id application
  return application

def reject (env : Env) (id : UserId) (reviewer : Actor) (reason note : String) :
    Block ExpertApplication := do
  Prog.require (stripped reason ≠ [])
    (domainError "A rejection reason is required."
      "rejection_reason_required")
  let application ← staffTransition env id .rejected reviewer note
  let rejectionReason := clip 500 (strip reason)
  Prog.exec <| .saveApplication id fun stored => { stored with rejectionReason }
  return { application with rejectionReason }

/-- From approved to suspended; the reason is the review note. -/
def suspend (env : Env) (id : UserId) (reviewer : Actor) (reason : String) :
    Block ExpertApplication :=
  staffTransition env id .suspended reviewer reason

def reinstate (env : Env) (slugify : String → String) (id : UserId)
    (reviewer : Actor) : Block ExpertApplication := do
  let application ← staffTransition env id .approved reviewer
  let _ ← upsertProfileFromApplication slugify id application
  return application

/-! ## Calls -/

/-- What applicants and staff ask for. -/
inductive ExpertCall where
  | apply (user : UserId) (data : Fields)
      (credentialAttachments : List AttachmentId)
  | updateApplication (user : UserId) (fields : Fields)
      (credentialAttachments : List AttachmentId)
  | submitApplication (env : Env) (user : UserId)
  | startReview (env : Env) (id : UserId) (reviewer : Actor)
  | approve (env : Env) (slugify : String → String) (id : UserId)
      (reviewer : Actor) (note : String)
  | reject (env : Env) (id : UserId) (reviewer : Actor) (reason note : String)
  | suspend (env : Env) (id : UserId) (reviewer : Actor) (reason : String)
  | reinstate (env : Env) (slugify : String → String) (id : UserId)
      (reviewer : Actor)

namespace ExpertCall

/-- The service of a call. -/
def service : ExpertCall → Block ExpertApplication
  | apply user data credentialAttachments =>
      Experts.apply user data credentialAttachments
  | updateApplication user fields credentialAttachments =>
      Experts.updateApplication user fields credentialAttachments
  | submitApplication env user => Experts.submitApplication env user
  | startReview env id reviewer => Experts.startReview env id reviewer
  | approve env slugify id reviewer note =>
      Experts.approve env slugify id reviewer note
  | reject env id reviewer reason note =>
      Experts.reject env id reviewer reason note
  | suspend env id reviewer reason => Experts.suspend env id reviewer reason
  | reinstate env slugify id reviewer =>
      Experts.reinstate env slugify id reviewer

/-- The request of the client: the service in a transaction of its own. -/
def call (call : ExpertCall) :
    Request Db Row Stmt ApplicationError ExpertApplication :=
  Request.atomic call.service

end ExpertCall

/-- Applicants and staff, each request as a client. -/
abbrev Onboarding :=
  System Db Row Stmt (Except ApplicationError ExpertApplication)

end Experts

end KnowledgeMarketplace
