import KnowledgeMarketplace.Core.Errors
import KnowledgeMarketplace.Database.Conversations
import KnowledgeMarketplace.Transaction.Program

/-!
# Applications and profiles of experts

An application carries what is reviewed and the state of the review.  The
profile is made from it on approval.  A whole-row save writes every column of
the copy that it saves; the credentials are a many-to-many relation, which no
save of the row writes.
-/

namespace KnowledgeMarketplace

open Transaction

namespace Experts

inductive ApplicationStatus where
  | draft
  | submitted
  | underReview
  | approved
  | rejected
  | suspended
  deriving DecidableEq

/-- The stored value of a status. -/
def ApplicationStatus.value : ApplicationStatus → String
  | .draft => "draft"
  | .submitted => "submitted"
  | .underReview => "under_review"
  | .approved => "approved"
  | .rejected => "rejected"
  | .suspended => "suspended"

/-- What the applicant fills in. -/
structure Content where
  displayName : String := ""
  headline : String := ""
  bio : String := ""
  expertiseSummary : String := ""
  experienceYears : Int := 0
  qualifications : String := ""
  languages : String := ""
  timezone : String := "UTC"
  availabilityNote : String := ""
  certified18Plus : Bool := false
  integrityAcknowledged : Bool := false
  deriving DecidableEq

/-- The application of a user, who has at most one. -/
structure ExpertApplication where
  content : Content
  status : ApplicationStatus := .draft
  rejectionReason : String := ""
  reviewedBy : Option UserId := none
  reviewNote : String := ""
  submittedAt : Option Time := none
  reviewedAt : Option Time := none
  resubmissionCount : Nat := 0
  deriving DecidableEq

/-- The live profile of a user whose application was approved once. -/
structure ExpertProfile where
  slug : String := ""
  displayName : String := ""
  headline : String := ""
  bio : String := ""
  expertiseSummary : String := ""
  experienceYears : Int := 0
  qualifications : String := ""
  languages : String := ""
  timezone : String := "UTC"
  approvedAt : Option Time := none
  deriving DecidableEq

/-- The tables, and the users whose email address is verified. -/
structure Db where
  applications : Table UserId ExpertApplication := .empty
  credentials : List (UserId × AttachmentId) := []
  profiles : Table UserId ExpertProfile := .empty
  verified : List UserId := []

inductive Row where
  | application (user : UserId)
  | credentials (user : UserId)
  | profile (user : UserId)
  | slug (value : String)
  deriving DecidableEq

/-- Saves of whole rows, of some columns, and of the credentials. -/
inductive Stmt where
  | storeApplication (user : UserId) (application : ExpertApplication)
  | saveApplication (user : UserId)
      (set : ExpertApplication → ExpertApplication)
  | setCredentials (user : UserId) (attachments : List AttachmentId)
  | addCredentials (user : UserId) (attachments : List AttachmentId)
  | storeProfile (user : UserId) (profile : ExpertProfile)

namespace Stmt

/-- The credentials of one user as rows of the relation. -/
def links (user : UserId) (attachments : List AttachmentId) :
    List (UserId × AttachmentId) :=
  attachments.map fun attachment => (user, attachment)

def apply (db : Db) : Stmt → Db
  | storeApplication user application =>
      { db with applications := db.applications.store user application }
  | saveApplication user set =>
      { db with applications := db.applications.modify user set }
  | setCredentials user attachments =>
      { db with
        credentials :=
          db.credentials.filter (·.1 ≠ user) ++ links user attachments }
  | addCredentials user attachments =>
      { db with
        credentials :=
          db.credentials ++
            (links user attachments).filter (· ∉ db.credentials) }
  | storeProfile user profile =>
      { db with profiles := db.profiles.store user profile }

def rows : Stmt → List Row
  | storeApplication user _ | saveApplication user _ => [.application user]
  | setCredentials user _ | addCredentials user _ => [.credentials user]
  | storeProfile user _ => [.profile user]

end Stmt

instance : Store Db Row Stmt where
  apply stmt db := stmt.apply db
  rows := Stmt.rows

@[simp] theorem store_apply (stmt : Stmt) (db : Db) :
    Store.apply stmt db = stmt.apply db :=
  rfl

/-- The user has a credential. -/
def hasCredential (user : UserId) (db : Db) : Bool :=
  db.credentials.any (·.1 = user)

/-- The slugs of the profiles of all other users. -/
def otherSlugs (user : UserId) (db : Db) : List String :=
  (db.profiles.keys.filter (· ≠ user)).filterMap fun key =>
    (db.profiles.row key).map (·.slug)

end Experts

end KnowledgeMarketplace
