import KnowledgeMarketplace.Messaging.Services

/-!
# Access to files

`grant_download` decides who may fetch a file.  The models that refer to a file
hold the relations; the decision goes through them to the people concerned.
-/

namespace KnowledgeMarketplace

open Transaction

namespace Files

open Messaging (AttachmentPurpose)

/-- The user of a request. -/
structure Viewer where
  id : UserId
  isStaff : Bool := false
  deriving DecidableEq

/-- What the decision reads of a file. -/
structure StoredFile where
  uploader : UserId
  purpose : AttachmentPurpose
  isPublic : Bool := false
  deriving DecidableEq

/-- The relations of requests, disputes, deliveries and orders to files. -/
structure FileLinks where
  briefs : List (RequestId × AttachmentId) := []
  evidence : List (OrderId × AttachmentId) := []
  deliveries : List (DeliveryId × AttachmentId) := []
  scopes : List (OrderId × AttachmentId) := []

/-- The user is a party of the order. -/
def isParty (user : UserId) (order : OrderId) (db : Db) : Bool :=
  (db.orders.row order).any fun order =>
    order.student = user || order.expert = user

/-- The user holds the accepted offer on a request. -/
def isSelected (user : UserId) (request : RequestId) (db : Db) : Bool :=
  db.offers.any fun _ offer =>
    offer.request = request && offer.expert = user && offer.status = .accepted

/-- The user is listed with a thread in which the file was posted. -/
def sharesThread (user : UserId) (file : AttachmentId) (db : Db) : Bool :=
  db.conversations.messages.any fun _ message =>
    message.attachment = some file &&
      (db.conversations.threads.row message.thread).any (user ∈ ·.participants)

/-- `grant_download`. -/
def grantDownload
    (links : FileLinks) (viewer : Option Viewer) (id : AttachmentId)
    (file : StoredFile) (db : Db) : Bool :=
  if file.isPublic then
    true
  else
    match viewer with
    | none => false
    | some user =>
        if user.id = file.uploader || user.isStaff then
          true
        else
          match file.purpose with
          | .message => sharesThread user.id id db
          | .disputeEvidence =>
              links.evidence.any fun link =>
                link.2 = id && isParty user.id link.1 db
          | .requestBrief =>
              links.briefs.any fun link =>
                link.2 = id && isSelected user.id link.1 db
          | .delivery | .orderAttachment =>
              (links.deliveries.any fun link =>
                link.2 = id && (db.deliveries.row link.1).any fun delivery =>
                  isParty user.id delivery.order db) ||
                links.scopes.any fun link =>
                  link.2 = id && isParty user.id link.1 db
          | .credential | .avatar => false

/-- `_clean_attachments`: the student's own briefs, all of them. -/
def cleanAttachments
    (uuid : String → Option AttachmentId)
    (files : Table AttachmentId StoredFile) (student : UserId)
    (attachmentIds : List String) : Except Error (List AttachmentId) :=
  let ids := attachmentIds.filterMap uuid
  let found := files.select fun id file =>
    id ∈ ids && file.uploader = student && file.purpose = .requestBrief
  if ids.length < attachmentIds.length then
    .error (.domainError "attachment_ids must be upload ids."
      "validation_error")
  else if found.length ≠ ids.dedup.length then
    .error (.domainError "Attachments must be your own request_brief uploads."
      "validation_error")
  else
    .ok found

/-- The briefs of requests are as `_clean_attachments` leaves them. -/
def Cleaned
    (links : FileLinks) (files : Table AttachmentId StoredFile) (db : Db) :
    Prop :=
  ∀ request id row, (request, id) ∈ links.briefs →
    db.requests.row request = some row →
    ∃ file, files.row id = some file ∧ file.uploader = row.student ∧
      file.purpose = .requestBrief

/-- What is attached to a request is a brief that its student has uploaded. -/
theorem cleanAttachments_own
    {uuid : String → Option AttachmentId}
    {files : Table AttachmentId StoredFile} {student : UserId}
    {attachmentIds : List String} {found : List AttachmentId}
    (cleaned : cleanAttachments uuid files student attachmentIds = .ok found)
    (id : AttachmentId) (member : id ∈ found) :
    ∃ file, files.row id = some file ∧ file.uploader = student ∧
      file.purpose = .requestBrief := by
  simp only [cleanAttachments] at cleaned
  split_ifs at cleaned
  obtain rfl := Except.ok.inj cleaned
  obtain ⟨file, stored, fits⟩ := Table.mem_select.mp member
  simp only [Bool.and_eq_true, decide_eq_true_eq] at fits
  exact ⟨file, stored, fits.1.2, fits.2⟩

theorem isSelected_eq_true {user : UserId} {request : RequestId} {db : Db} :
    isSelected user request db = true ↔
      ∃ id offer, db.offers.row id = some offer ∧ offer.request = request ∧
        offer.expert = user ∧ offer.status = .accepted := by
  rw [isSelected, Table.any_eq_true]
  simp only [Bool.and_eq_true, decide_eq_true_eq, and_assoc]

/-- Students may fetch the briefs of their requests. -/
theorem grantDownload_own
    {links : FileLinks} {user : Viewer} {id : AttachmentId} {file : StoredFile}
    {db : Db} (own : user.id = file.uploader) :
    grantDownload links (some user) id file db = true := by
  simp [grantDownload, own]

/-- A selected expert may fetch the briefs of the request. -/
theorem grantDownload_selected
    {links : FileLinks} {user : Viewer} {request : RequestId}
    {id : AttachmentId} {file : StoredFile} {db : Db}
    (purpose : file.purpose = .requestBrief)
    (attached : (request, id) ∈ links.briefs)
    (selected : isSelected user.id request db = true) :
    grantDownload links (some user) id file db = true := by
  simp only [grantDownload, purpose]
  split_ifs
  · rfl
  · rfl
  · exact List.any_eq_true.mpr ⟨_, attached, by simp [selected]⟩

end Files

end KnowledgeMarketplace
