import KnowledgeMarketplace.Files.Access
import Mathlib.Data.List.MinMax
import Mathlib.Data.List.Sort

/-!
# Uploads

An upload is checked against the rule of its purpose and stored with its
digest.  The same bytes from the same user for the same purpose reuse the row
that has them already.
-/

namespace KnowledgeMarketplace

open Transaction

namespace Files

open Messaging (AttachmentPurpose)

abbrev Bytes := List UInt8

/--
A row of the files table.  Its file has a name of its own in the storage, so
the bytes are kept with the row until they are purged.
-/
structure Attachment where
  uploader : UserId
  purpose : AttachmentPurpose
  isPublic : Bool := false
  originalName : String
  contentType : String
  size : Nat
  sha256 : String
  legalHold : Bool := false
  file : Option Bytes := none
  createdAt : Time
  updatedAt : Time
  deriving DecidableEq

/-- What the access decision reads of a row. -/
def Attachment.stored (attachment : Attachment) : StoredFile where
  uploader := attachment.uploader
  purpose := attachment.purpose
  isPublic := attachment.isPublic

/-! ## The rules of the purposes -/

def megabyte : Nat := 1024 * 1024

structure PurposeRule where
  maxBytes : Nat
  extensions : List String
  magic : List (Bytes × String)
  isPublic : Bool := false

def pdfMagic : Bytes × String := ([0x25, 0x50, 0x44, 0x46], "application/pdf")

def pngMagic : Bytes × String :=
  ([0x89, 0x50, 0x4e, 0x47, 0x0d, 0x0a, 0x1a, 0x0a], "image/png")

def jpegMagic : Bytes × String := ([0xff, 0xd8, 0xff], "image/jpeg")

/-- `RIFF` at the start; `WEBP` follows at offset 8. -/
def webpMagic : Bytes × String := ([0x52, 0x49, 0x46, 0x46], "image/webp")

/-- Private documents and images up to a number of megabytes. -/
def documentRule (megabytes : Nat) : PurposeRule where
  maxBytes := megabytes * megabyte
  extensions := ["pdf", "png", "jpg", "jpeg"]
  magic := [pdfMagic, pngMagic, jpegMagic]

/-- `PURPOSE_RULES`. -/
def purposeRule : AttachmentPurpose → PurposeRule
  | .credential => documentRule 10
  | .requestBrief => documentRule 10
  | .message =>
      { maxBytes := 5 * megabyte
        extensions := ["pdf", "png", "jpg", "jpeg", "txt"]
        magic := [pdfMagic, pngMagic, jpegMagic, ([], "text/plain")] }
  | .disputeEvidence => documentRule 10
  | .delivery => documentRule 25
  | .orderAttachment => documentRule 25
  | .avatar =>
      { maxBytes := 2 * megabyte
        extensions := ["png", "jpg", "jpeg", "webp"]
        magic := [pngMagic, jpegMagic, webpMagic]
        isPublic := true }

/-- The stored text of a purpose. -/
def purposeValue : AttachmentPurpose → String
  | .credential => "credential"
  | .avatar => "avatar"
  | .requestBrief => "request_brief"
  | .delivery => "delivery"
  | .orderAttachment => "order_attachment"
  | .message => "message"
  | .disputeEvidence => "dispute_evidence"

/-- The purpose that a text names, if it has a rule. -/
def purposeOf (text : String) : Option AttachmentPurpose :=
  [.credential, .requestBrief, .message, .disputeEvidence, .delivery,
    .orderAttachment, .avatar].find? fun purpose => purposeValue purpose = text

/-! ## Checks of an upload -/

/-- An uploaded file, in the chunks in which it is read. -/
structure UploadedFile where
  name : String
  chunks : List Bytes

def UploadedFile.content (uploaded : UploadedFile) : Bytes :=
  uploaded.chunks.flatten

/-- `_sanitize_filename`; `isAlnum` is `str.isalnum` of one character. -/
def sanitizeFilename (isAlnum : Char → Bool) (name : String) : String :=
  let keep := name.toList.map fun char =>
    if isAlnum char || char ∈ ['.', '-', '_'] then char else '_'
  let outer : Char → Bool := fun char => char ∈ ['.', '_']
  let inner := ((keep.dropWhile outer).reverse.dropWhile outer).reverse
  let clipped := String.ofList (inner.take 200)
  if clipped = "" then "file" else clipped

/-- The text after the last point, in lower case. -/
def extensionOf (name : String) : String :=
  if '.' ∈ name.toList then
    String.ofList
      ((name.toList.reverse.takeWhile (· ≠ '.')).reverse.map Char.toLower)
  else ""

def tooLarge (rule : PurposeRule) : Error :=
  .domainError
    (s!"File exceeds the {rule.maxBytes / megabyte} MB limit " ++
      "for this purpose.")
    "file_too_large"

/-- The size of the chunks, unless they exceed the limit of the rule. -/
def readChunks (rule : PurposeRule) : Nat → List Bytes → Except Error Nat
  | size, [] => .ok size
  | size, chunk :: rest =>
      if rule.maxBytes < size + chunk.length then .error (tooLarge rule)
      else readChunks rule (size + chunk.length) rest

/-- `_sniff`: the content type of the first signature that fits. -/
def sniff (head : Bytes) (rule : PurposeRule) : Except Error String :=
  let fits : Bytes × String → Bool := fun entry =>
    entry.1.isPrefixOf head &&
      (entry.2 ≠ "image/webp" ||
        (head.drop 8).take 4 = [0x57, 0x45, 0x42, 0x50])
  match rule.magic.find? fits with
  | some entry => .ok entry.2
  | none =>
      .error (.domainError "File content does not match an allowed type."
        "file_type_rejected")

/-- A request of a user to store a file. -/
structure UploadCall where
  uploader : UserId
  purpose : Option String
  uploadedFile : Option UploadedFile
  now : Time
  key : AttachmentId

/-- What the checks find out about an upload. -/
structure Checked where
  purpose : AttachmentPurpose
  originalName : String
  contentType : String
  size : Nat
  content : Bytes

/-- `_sanitize_filename(uploaded_file.name or "file")`. -/
def uploadName (isAlnum : Char → Bool) (uploaded : UploadedFile) : String :=
  sanitizeFilename isAlnum
    (if uploaded.name = "" then "file" else uploaded.name)

/-- The checks of `store_upload`, before it looks at any row. -/
def checkUpload (isAlnum : Char → Bool) (call : UploadCall) :
    Except Error Checked :=
  match call.purpose.bind purposeOf, call.uploadedFile with
  | none, _ =>
      .error (.domainError "Unsupported upload purpose." "purpose_not_allowed")
  | some _, none => .error (.domainError "No file provided." "file_missing")
  | some purpose, some uploaded =>
      let rule := purposeRule purpose
      let name := uploadName isAlnum uploaded
      if extensionOf name ∉ rule.extensions then
        .error (.domainError
          ("Allowed file types for this purpose: " ++
            ", ".intercalate (rule.extensions.insertionSort (· ≤ ·)) ++ ".")
          "file_type_rejected")
      else do
        let size ← readChunks rule 0 uploaded.chunks
        if size = 0 then
          .error (.domainError "Empty files are not allowed." "file_empty")
        else
          let contentType ← sniff ((uploaded.chunks.headD []).take 16) rule
          .ok
            { purpose
              originalName := name
              contentType
              size
              content := uploaded.content }

section Digest

variable (isAlnum : Char → Bool) (sha256 : Bytes → String)

/-- The rows that an upload is a duplicate of. -/
def duplicates
    (uploader : UserId) (checked : Checked)
    (attachments : Table AttachmentId Attachment) : List AttachmentId :=
  attachments.select fun _ row =>
    row.uploader = uploader && row.purpose = checked.purpose &&
      row.sha256 = sha256 checked.content && row.size = checked.size

/-- `.first()`: the latest of the rows, which are ordered by creation. -/
def latest
    (attachments : Table AttachmentId Attachment) (ids : List AttachmentId) :
    Option AttachmentId :=
  ids.argmax fun id => ((attachments.row id).map (·.createdAt)).getD 0

/-- The row of a new upload. -/
def UploadCall.row (call : UploadCall) (checked : Checked) : Attachment where
  uploader := call.uploader
  purpose := checked.purpose
  isPublic := (purposeRule checked.purpose).isPublic
  originalName := checked.originalName
  contentType := checked.contentType
  size := checked.size
  sha256 := sha256 checked.content
  file := some checked.content
  createdAt := call.now
  updatedAt := call.now

/-- What a stored upload leaves, with the pair that the service returns. -/
structure Stored where
  attachments : Table AttachmentId Attachment
  attachment : AttachmentId
  created : Bool

/-- `store_upload`. -/
def storeUpload
    (call : UploadCall) (attachments : Table AttachmentId Attachment) :
    Except Error Stored := do
  let checked ← checkUpload isAlnum call
  match latest attachments
      (duplicates sha256 call.uploader checked attachments) with
  | some existing =>
      .ok { attachments, attachment := existing, created := false }
  | none =>
      .ok
        { attachments := attachments.insert call.key (call.row sha256 checked)
          attachment := call.key
          created := true }

/-- The body of the upload endpoint's response. -/
structure UploadResponse where
  attachment : AttachmentId
  deduplicated : Bool
  deriving DecidableEq

/-- `FileUploadView.post`, with what it leaves in the table. -/
def uploadView
    (call : UploadCall) (attachments : Table AttachmentId Attachment) :
    Except Error (Table AttachmentId Attachment × UploadResponse) := do
  let stored ← storeUpload isAlnum sha256 call attachments
  -- the view unpacks the service's `created` as `deduplicated`
  let (attachment, deduplicated) := (stored.attachment, stored.created)
  .ok (stored.attachments, { attachment, deduplicated })

end Digest

/-! ## What the checks guarantee -/

/-- The size is that of the bytes read. -/
theorem readChunks_size
    {rule : PurposeRule} {start size : Nat} {chunks : List Bytes}
    (read : readChunks rule start chunks = .ok size) :
    size = start + chunks.flatten.length := by
  induction chunks generalizing start with
  | nil => simpa [readChunks] using (Except.ok.inj read).symm
  | cons chunk rest inductionHypothesis =>
      simp only [readChunks] at read
      split at read
      · simp at read
      · rw [inductionHypothesis read]
        simp only [List.flatten_cons, List.length_append]
        omega

/-- What is checked is what the call names and sends. -/
theorem of_checkUpload
    {isAlnum : Char → Bool} {call : UploadCall} {checked : Checked}
    (accepted : checkUpload isAlnum call = .ok checked) :
    call.purpose.bind purposeOf = some checked.purpose ∧
      ∃ uploaded, call.uploadedFile = some uploaded ∧
        checked.content = uploaded.content ∧
        checked.size = uploaded.content.length := by
  simp only [checkUpload] at accepted
  split at accepted
  · simp at accepted
  · simp at accepted
  · rename_i purpose uploaded named sent
    split at accepted
    · simp at accepted
    cases read : readChunks (purposeRule purpose) 0 uploaded.chunks with
    | error error => simp [read, bind, Except.bind] at accepted
    | ok size =>
        simp only [read, bind, Except.bind] at accepted
        split at accepted
        · simp at accepted
        split at accepted
        · simp at accepted
        · obtain rfl := Except.ok.inj accepted
          have whole := readChunks_size read
          rw [Nat.zero_add] at whole
          exact ⟨named, uploaded, sent, rfl, whole⟩

end Files

end KnowledgeMarketplace
