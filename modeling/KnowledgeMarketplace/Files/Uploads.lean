import KnowledgeMarketplace.Files.Retention

/-!
# Uploads after purges

A duplicate reuses the row of an earlier upload, purged or not, and the
endpoint reports the flag of the service under the opposite name.
-/

namespace KnowledgeMarketplace

open Transaction

namespace Files

open Messaging (AttachmentPurpose)

section Runs

variable (isAlnum : Char → Bool) (sha256 : Bytes → String)

/-- An upload, or a pass of the cleanup with the tables as they are then. -/
inductive FileStep where
  | upload (call : UploadCall)
  | cleanup (now : Time) (clock : AttachmentId → Time) (db : Db)
      (links : FileLinks)

namespace FileStep

/-- What a step leaves; a refused upload leaves everything. -/
def apply (attachments : Table AttachmentId Attachment) :
    FileStep → Table AttachmentId Attachment
  | upload call =>
      match storeUpload isAlnum sha256 call attachments with
      | .ok stored => stored.attachments
      | .error _ => attachments
  | cleanup now clock db links =>
      (retentionCleanup now clock { db, links, attachments }).1.attachments

/-- A fresh identifier is not in use. -/
def KeyFree (attachments : Table AttachmentId Attachment) : FileStep → Prop
  | upload call => attachments.row call.key = none
  | cleanup _ _ _ _ => True

/-- What a run of steps leaves. -/
def run (attachments : Table AttachmentId Attachment)
    (steps : List FileStep) : Table AttachmentId Attachment :=
  steps.foldl (apply isAlnum sha256) attachments

/-- The identifiers of all uploads of a run are fresh. -/
def KeysFree : Table AttachmentId Attachment → List FileStep → Prop
  | _, [] => True
  | attachments, step :: rest =>
      step.KeyFree attachments ∧
        KeysFree (step.apply isAlnum sha256 attachments) rest

variable {isAlnum sha256}

theorem KeysFree.at
    {attachments : Table AttachmentId Attachment}
    {earlier later : List FileStep} {step : FileStep}
    (free : KeysFree isAlnum sha256 attachments (earlier ++ step :: later)) :
    step.KeyFree (run isAlnum sha256 attachments earlier) := by
  induction earlier generalizing attachments with
  | nil => exact free.1
  | cons first rest inductionHypothesis => exact inductionHypothesis free.2

end FileStep

/-- The digest of a row is that of its bytes, while it has them. -/
def Digested (attachments : Table AttachmentId Attachment) : Prop :=
  ∀ id row bytes, attachments.row id = some row → row.file = some bytes →
    row.sha256 = sha256 bytes

variable {isAlnum sha256}

theorem Digested.insert
    {attachments : Table AttachmentId Attachment} {id : AttachmentId}
    {row : Attachment} (digested : Digested sha256 attachments)
    (own : ∀ bytes, row.file = some bytes → row.sha256 = sha256 bytes) :
    Digested sha256 (attachments.insert id row) := by
  intro query found bytes stored filled
  rcases Table.row_insert_cases stored with old | ⟨_, new, _⟩
  · exact digested query found bytes old filled
  · rw [new] at filled ⊢
    exact own bytes filled

/-- No step breaks the digests. -/
theorem Digested.apply
    {attachments : Table AttachmentId Attachment} (step : FileStep)
    (digested : Digested sha256 attachments) :
    Digested sha256 (step.apply isAlnum sha256 attachments) := by
  cases step with
  | upload call =>
      simp only [FileStep.apply, storeUpload]
      cases checkUpload isAlnum call with
      | error error => exact digested
      | ok checked =>
          simp only [bind, Except.bind]
          cases latest attachments
              (duplicates sha256 call.uploader checked attachments) with
          | some existing => exact digested
          | none =>
              apply digested.insert
              intro bytes filled
              obtain rfl := Option.some.inj filled
              rfl
  | cleanup now clock db links =>
      intro id row bytes stored filled
      obtain ⟨⟨before, held, same⟩, unselected⟩ :=
        (file_retentionCleanup now clock { db, links, attachments }).mp
          ⟨row, stored, filled⟩
      have kept := row_retentionCleanup now clock { db, links, attachments } id
      rw [if_neg unselected] at kept
      exact digested id row bytes (kept.symm.trans stored) filled

/-- No run breaks the digests. -/
theorem Digested.run
    {attachments : Table AttachmentId Attachment} (steps : List FileStep)
    (digested : Digested sha256 attachments) :
    Digested sha256 (FileStep.run isAlnum sha256 attachments steps) := by
  induction steps generalizing attachments with
  | nil => exact digested
  | cons step rest inductionHypothesis =>
      exact inductionHypothesis (digested.apply step)

/-! ## What an upload returns -/

/-- A duplicate has the uploader, the purpose and the digest of the upload. -/
theorem of_latest
    {uploader : UserId} {checked : Checked}
    {attachments : Table AttachmentId Attachment} {id : AttachmentId}
    (found : latest attachments
      (duplicates sha256 uploader checked attachments) = some id) :
    ∃ row, attachments.row id = some row ∧ row.uploader = uploader ∧
      row.purpose = checked.purpose ∧
      row.sha256 = sha256 checked.content := by
  have member := List.argmax_mem (Option.mem_def.mpr found)
  obtain ⟨row, stored, fits⟩ := Table.mem_select.mp member
  simp only [Bool.and_eq_true, decide_eq_true_eq] at fits
  exact ⟨row, stored, fits.1.1.1, fits.1.1.2, fits.1.2⟩

/-- The text of a purpose is that of the purpose it names. -/
theorem of_purposeOf {text : String} {purpose : AttachmentPurpose}
    (named : purposeOf text = some purpose) : text = purposeValue purpose := by
  simpa [eq_comm] using List.find?_some named

variable (isAlnum sha256)

/--
Whatever the endpoint returns has the uploader and the purpose of the call and
holds the bytes just uploaded.
-/
def ReturnsUpload
    (call : UploadCall) (attachments : Table AttachmentId Attachment) : Prop :=
  ∀ after response,
    uploadView isAlnum sha256 call attachments = .ok (after, response) →
      ∃ row uploaded, after.row response.attachment = some row ∧
        row.uploader = call.uploader ∧
        call.purpose = some (purposeValue row.purpose) ∧
        call.uploadedFile = some uploaded ∧
        row.file = some uploaded.content

/-- The endpoint reports a duplicate exactly when it has made no new row. -/
def ReportsDuplicate
    (call : UploadCall) (attachments : Table AttachmentId Attachment) : Prop :=
  ∀ after response,
    uploadView isAlnum sha256 call attachments = .ok (after, response) →
      (response.deduplicated = true ↔
        (attachments.row response.attachment).isSome = true)

/-- The checks refuse the upload. -/
def Refused (call : UploadCall) : Prop :=
  ∃ error, checkUpload isAlnum call = .error error

/-- The row that the upload is a duplicate of, if any, was not purged. -/
def DuplicateKept
    (call : UploadCall) (attachments : Table AttachmentId Attachment) : Prop :=
  ∀ checked id row, checkUpload isAlnum call = .ok checked →
    latest attachments (duplicates sha256 call.uploader checked attachments) =
      some id →
    attachments.row id = some row → row.file ≠ none

variable {isAlnum sha256}

/-- The bytes are there exactly when no purged row is reused. -/
theorem returnsUpload_iff
    (injective : Function.Injective sha256) {call : UploadCall}
    {attachments : Table AttachmentId Attachment}
    (digested : Digested sha256 attachments)
    (free : attachments.row call.key = none) :
    ReturnsUpload isAlnum sha256 call attachments ↔
      DuplicateKept isAlnum sha256 call attachments := by
  constructor
  · intro returns checked id row accepted found stored purged
    have answer : uploadView isAlnum sha256 call attachments =
        .ok (attachments, { attachment := id, deduplicated := false }) := by
      simp only [uploadView, storeUpload, accepted, bind, Except.bind, found]
    obtain ⟨again, uploaded, same, _, _, _, filled⟩ := returns _ _ answer
    obtain rfl := Option.some.inj (stored.symm.trans same)
    simp [purged] at filled
  · intro kept after response answer
    cases accepted : checkUpload isAlnum call with
    | error error =>
        simp [uploadView, storeUpload, accepted, bind, Except.bind] at answer
    | ok checked =>
        obtain ⟨named, uploaded, sent, content, _⟩ := of_checkUpload accepted
        obtain ⟨text, given, known⟩ := Option.bind_eq_some_iff.mp named
        have purpose := of_purposeOf known
        simp only [uploadView, storeUpload, accepted, bind, Except.bind]
          at answer
        cases found : latest attachments
            (duplicates sha256 call.uploader checked attachments) with
        | some id =>
            simp only [found, Except.ok.injEq, Prod.mk.injEq] at answer
            obtain ⟨rfl, rfl⟩ := answer
            obtain ⟨row, stored, uploader, same, digest⟩ := of_latest found
            obtain ⟨bytes, filled⟩ := Option.ne_none_iff_exists'.mp
              (kept checked id row accepted found stored)
            have equal : bytes = uploaded.content := by
              rw [← content]
              apply injective
              rw [← digested id row bytes stored filled, digest]
            refine ⟨row, uploaded, stored, uploader, ?_, sent, ?_⟩
            · rw [given, purpose, same]
            · rw [filled, equal]
        | none =>
            simp only [found, Except.ok.injEq, Prod.mk.injEq] at answer
            obtain ⟨rfl, rfl⟩ := answer
            refine ⟨call.row sha256 checked, uploaded, ?_, rfl, ?_, sent, ?_⟩
            · exact Table.row_insert_self _ free
            · rw [given, purpose]
              rfl
            · rw [← content]
              rfl

/-- The report is wrong after every upload that the checks accept. -/
theorem reportsDuplicate_iff
    {call : UploadCall} {attachments : Table AttachmentId Attachment}
    (free : attachments.row call.key = none) :
    ReportsDuplicate isAlnum sha256 call attachments ↔
      Refused isAlnum call := by
  constructor
  · intro reports
    cases accepted : checkUpload isAlnum call with
    | error error => exact ⟨error, accepted⟩
    | ok checked =>
        exfalso
        cases found : latest attachments
            (duplicates sha256 call.uploader checked attachments) with
        | some id =>
            have answer : uploadView isAlnum sha256 call attachments =
                .ok (attachments,
                  { attachment := id, deduplicated := false }) := by
              simp only [uploadView, storeUpload, accepted, bind, Except.bind,
                found]
            obtain ⟨row, stored, _⟩ := of_latest found
            have reported := reports _ _ answer
            simp [stored] at reported
        | none =>
            have answer : uploadView isAlnum sha256 call attachments =
                .ok (attachments.insert call.key (call.row sha256 checked),
                  { attachment := call.key, deduplicated := true }) := by
              simp only [uploadView, storeUpload, accepted, bind, Except.bind,
                found]
            have reported := reports _ _ answer
            simp [free] at reported
  · intro ⟨error, refused⟩ after response answer
    simp [uploadView, storeUpload, refused, bind, Except.bind] at answer

/--
In every run of uploads and passes of the cleanup, what the uploads return is
right exactly as long as none reuses a purged row, and the whole answer is
right exactly when the checks refuse every upload.
-/
theorem uploads_right_iff
    (injective : Function.Injective sha256) (steps : List FileStep)
    (free : FileStep.KeysFree isAlnum sha256 .empty steps) :
    ((∀ earlier call later, steps = earlier ++ .upload call :: later →
        ReturnsUpload isAlnum sha256 call
            (FileStep.run isAlnum sha256 .empty earlier) ∧
          ReportsDuplicate isAlnum sha256 call
            (FileStep.run isAlnum sha256 .empty earlier)) ↔
      ∀ call, .upload call ∈ steps → Refused isAlnum call) ∧
    ((∀ earlier call later, steps = earlier ++ .upload call :: later →
        ReturnsUpload isAlnum sha256 call
          (FileStep.run isAlnum sha256 .empty earlier)) ↔
      ∀ earlier call later, steps = earlier ++ .upload call :: later →
        DuplicateKept isAlnum sha256 call
          (FileStep.run isAlnum sha256 .empty earlier)) := by
  have digested : ∀ earlier,
      Digested sha256 (FileStep.run isAlnum sha256 .empty earlier) := by
    intro earlier
    apply Digested.run
    intro id row bytes stored
    simp at stored
  have keyFree : ∀ earlier call later,
      steps = earlier ++ .upload call :: later →
        (FileStep.run isAlnum sha256 .empty earlier).row call.key = none := by
    intro earlier call later split
    rw [split] at free
    exact free.at
  constructor
  · constructor
    · intro right call member
      obtain ⟨earlier, later, split⟩ := List.append_of_mem member
      exact (reportsDuplicate_iff (keyFree earlier call later split)).mp
        (right earlier call later split).2
    · intro refused earlier call later split
      obtain ⟨error, reason⟩ := refused call (by simp [split])
      have unanswered : ∀ answer,
          uploadView isAlnum sha256 call
            (FileStep.run isAlnum sha256 .empty earlier) ≠ .ok answer := by
        intro answer
        simp [uploadView, storeUpload, reason, bind, Except.bind]
      exact ⟨fun _ _ answer => absurd answer (unanswered _),
        fun _ _ answer => absurd answer (unanswered _)⟩
  · constructor
    · intro right earlier call later split
      exact (returnsUpload_iff injective (digested earlier)
        (keyFree earlier call later split)).mp
        (right earlier call later split)
    · intro kept earlier call later split
      exact (returnsUpload_iff injective (digested earlier)
        (keyFree earlier call later split)).mpr
        (kept earlier call later split)

end Runs

/-! ## A purged brief, uploaded again -/

/-- The digest of the sample and texts of their own for all other bytes. -/
def sampleDigest (bytes : Bytes) : String :=
  if bytes = [0x25, 0x50, 0x44, 0x46] then
    "315d429b7714cedb6ad04ac31240145257692630457f3c88253c5beceac76027"
  else String.ofList ('-' :: bytes.map Char.ofUInt8)

/-- A student uploads a brief. -/
def sampleUpload (key : AttachmentId) : UploadCall where
  uploader := 1
  purpose := some "request_brief"
  uploadedFile :=
    some { name := "brief.pdf", chunks := [[0x25, 0x50, 0x44, 0x46]] }
  now := 0
  key

/-- The brief is posted on a request that is cancelled, and purged. -/
def samplePurge : List FileStep :=
  [.upload (sampleUpload 5),
    .cleanup (days 31) (fun _ => days 31)
      { requests := Table.empty.insert 1 longCancelled }
      { briefs := [(1, 5)] }]

/-- The row that the purge leaves. -/
def purgedBrief : Attachment where
  uploader := 1
  purpose := .requestBrief
  originalName := "brief.pdf"
  contentType := "application/pdf"
  size := 4
  sha256 := sampleDigest [0x25, 0x50, 0x44, 0x46]
  createdAt := 0
  updatedAt := days 31

theorem samplePurge_row :
    (FileStep.run Char.isAlphanum sampleDigest .empty samplePurge).row 5 =
      some purgedBrief := by
  rfl

/--
The same brief uploaded again is answered with the purged row, and the first
upload was reported as a duplicate.
-/
theorem samplePurge_reused :
    FileStep.KeysFree Char.isAlphanum sampleDigest .empty
        (samplePurge ++ [.upload (sampleUpload 6)]) ∧
      ¬ReturnsUpload Char.isAlphanum sampleDigest (sampleUpload 6)
        (FileStep.run Char.isAlphanum sampleDigest .empty samplePurge) ∧
      ¬ReportsDuplicate Char.isAlphanum sampleDigest (sampleUpload 5)
        .empty := by
  refine ⟨⟨rfl, trivial, rfl, trivial⟩, ?_, ?_⟩
  · intro returns
    obtain ⟨row, _, stored, _, _, _, filled⟩ := returns
      (FileStep.run Char.isAlphanum sampleDigest .empty samplePurge)
      { attachment := 5, deduplicated := false } rfl
    rw [samplePurge_row] at stored
    obtain rfl := Option.some.inj stored
    simp [purgedBrief] at filled
  · intro reports
    have reported := reports _ { attachment := 5, deduplicated := true } rfl
    simp at reported

/-- Different bytes have different sample digests. -/
theorem sampleDigest_injective : Function.Injective sampleDigest := by
  intro first second same
  simp only [sampleDigest] at same
  split at same <;> split at same
  · rename_i one other
    rw [one, other]
  · have texts := congrArg String.toList same
    simp at texts
  · have texts := congrArg String.toList same
    simp at texts
  · have texts := congrArg String.toList same
    simp only [String.toList_ofList, List.cons.injEq, true_and] at texts
    have each : Function.Injective Char.ofUInt8 := by
      intro one other equal
      have values := congrArg Char.val equal
      exact UInt8.toUInt32_inj.mp values
    exact List.map_injective_iff.mpr each texts

/-- The upload before the purge returns what it should. -/
theorem uploads_right_iff_samplePurge :
    ReturnsUpload Char.isAlphanum sampleDigest (sampleUpload 5) .empty := by
  have free : FileStep.KeysFree Char.isAlphanum sampleDigest .empty
      [.upload (sampleUpload 5)] := ⟨rfl, trivial⟩
  have right := (uploads_right_iff sampleDigest_injective _ free).2.mpr
  refine right ?_ [] (sampleUpload 5) [] rfl
  intro earlier call later split checked id row _ found
  have first : earlier = [] := by
    cases earlier with
    | nil => rfl
    | cons step rest => simp at split
  subst first
  simp [FileStep.run, latest, duplicates, Table.select, Table.empty] at found

end Files

end KnowledgeMarketplace
