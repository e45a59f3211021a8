import KnowledgeMarketplace.Accounts.Credentials
import KnowledgeMarketplace.Core.Signing
import KnowledgeMarketplace.Transaction.Embedding
import KnowledgeMarketplace.Transaction.History

/-!
# Verified addresses

A task mails a signed link to the address of an account that is not verified;
whoever presents the link within a day verifies the account.  Nothing of this
opens a transaction: an account is read, and its stamp is saved later.
-/

namespace KnowledgeMarketplace

open Transaction

namespace Accounts

/-! ## Accounts and links -/

/-- What a verification token carries. -/
structure VerificationClaim where
  uid : UserId
  verified : Bool
  deriving DecidableEq

variable {τ : Type}

abbrev LinkSigner (τ : Type) := Signing.Signer String VerificationClaim τ

def verificationSalt : String := "accounts.email_verification"

def verificationTtlSeconds : Nat := 60 * 60 * 24

/-- A link that was mailed. -/
structure Link (τ : Type) where
  user : UserId
  address : String
  signedAt : Time
  token : τ
  deriving DecidableEq

/--
The accounts, when they were verified, the tasks that were enqueued and the
links that were mailed.
-/
structure Mailroom (τ : Type) where
  accounts : Db
  verifiedAt : Table UserId Time := .empty
  tasks : List UserId := []
  links : List (Link τ) := []

inductive MailroomStmt (τ : Type) where
  | account (stmt : Stmt)
  | verify (id : UserId) (now : Time)
  | enqueue (id : UserId)
  | post (link : Link τ)

namespace MailroomStmt

def apply (mailroom : Mailroom τ) : MailroomStmt τ → Mailroom τ
  | .account stmt => { mailroom with accounts := stmt.apply mailroom.accounts }
  | .verify id now =>
      { mailroom with verifiedAt := mailroom.verifiedAt.store id now }
  | .enqueue id => { mailroom with tasks := mailroom.tasks ++ [id] }
  | .post link => { mailroom with links := mailroom.links ++ [link] }

def rows : MailroomStmt τ → List Row
  | .account stmt => stmt.rows
  | .verify id _ => [.user id]
  | .enqueue _ | .post _ => []

end MailroomStmt

instance : Store (Mailroom τ) Row (MailroomStmt τ) where
  apply stmt mailroom := stmt.apply mailroom
  rows := MailroomStmt.rows

@[simp] theorem mailroomStore_apply
    (stmt : MailroomStmt τ) (mailroom : Mailroom τ) :
    Store.apply stmt mailroom = stmt.apply mailroom :=
  rfl

/-- The accounts are inside the mailroom. -/
def registry : Embedding Db (Mailroom τ) where
  get := Mailroom.accounts
  row := id
  stmt := .account
  get_apply _ _ := rfl
  rows_stmt stmt := (List.map_id stmt.rows).symm

abbrev MailroomCall (τ α : Type) :=
  Request (Mailroom τ) Row (MailroomStmt τ) Error α

namespace Mailroom

/-- A statement in autocommit mode. -/
def exec (stmt : MailroomStmt τ) : MailroomCall τ Unit :=
  Request.atomic (Prog.exec stmt)

/-- A copy of an account: its columns, and when it was verified. -/
def user (id : UserId) (mailroom : Mailroom τ) :
    Option (User × Option Time) :=
  (mailroom.accounts.users.row id).map fun row =>
    (row, mailroom.verifiedAt.row id)

/-- `user.is_verified`. -/
def isVerified (id : UserId) (mailroom : Mailroom τ) : Bool :=
  (mailroom.verifiedAt.row id).isSome

end Mailroom

/-! ## Services -/

/-- The token is bound to the state of the account. -/
def issueVerificationToken
    (signer : LinkSigner τ) (now : Time) (id : UserId)
    (emailVerifiedAt : Option Time) : τ :=
  signer.sign verificationSalt now
    { uid := id, verified := emailVerifiedAt.isSome }

/-- `verify_email_with_token`: whether it succeeds, and the message. -/
def verifyEmailWithToken
    (signer : LinkSigner τ) (now stampedAt : Time) (token : τ) :
    MailroomCall τ (Bool × String) :=
  match signer.loads verificationSalt now verificationTtlSeconds token with
  | .error .signatureExpired =>
      return (false,
        "This verification link has expired. Request a new one.")
  | .error .badSignature =>
      return (false, "This verification link is invalid.")
  | .ok data => do
      let found ← Request.load (Mailroom.user data.uid)
      match found with
      | none => return (false, "This verification link is invalid.")
      | some copy =>
          if copy.2.isSome = true then
            return (true, "Email is already verified.")
          else if data.verified ≠ copy.2.isSome then
            return (false, "This verification link is no longer valid.")
          else do
            Mailroom.exec (.verify data.uid stampedAt)
            return (true, "Email verified. Welcome aboard!")

/-- The task: nothing is mailed to an account that is verified. -/
def sendVerificationEmail
    (signer : LinkSigner τ) (now : Time) (id : UserId) (sends : Bool) :
    MailroomCall τ Unit := do
  let copy ← Request.orFail (← Request.load (Mailroom.user id))
    (.doesNotExist "User")
  if copy.2.isSome = true then
    return ()
  else do
    Request.require (sends = true) (.gateway "send_mail")
    Mailroom.exec <| .post
      { user := id
        address := copy.1.email
        signedAt := now
        token := issueVerificationToken signer now id copy.2 }

/-! ## Views -/

/-- A registration enqueues the mail before it signs the browser in. -/
def registerAccount
    (security : Security) (forms : Forms) (env : Env) (form : Registration) :
    MailroomCall τ Response := do
  let email ← Request.ofExcept (forms.emailField form.email)
  let _ ← Request.ofExcept (forms.nameField form.name)
  Request.ofExcept (newPassword security form.password)
  let user ← (saveRegistration security forms env (forms.lower (strip email))
    form.password).inside registry
  Mailroom.exec (.enqueue user)
  let token ← (forUser security env user).inside registry
  return {
    detail :=
      "Account created. Check your inbox to verify your email address."
    session := some token }

def verifyEmail
    (signer : LinkSigner τ) (now stampedAt : Time) (token : τ) :
    MailroomCall τ Response := do
  let outcome ← verifyEmailWithToken signer now stampedAt token
  Request.require (outcome.1 = true)
    (.domainError outcome.2 "verification_failed")
  return { detail := outcome.2 }

/-- The view has the account of its caller. -/
def resendVerification (caller : UserId) : MailroomCall τ Response := do
  let verified ← Request.load (Mailroom.isVerified caller)
  if verified = true then
    return {
      detail := "Verification email sent if your account is unverified." }
  else do
    Mailroom.exec (.enqueue caller)
    return {
      detail := "Verification email sent if your account is unverified." }

/-- The selected accounts that are active and not verified. -/
def resendVerifications (selected : List UserId) : MailroomCall τ Unit := do
  let waiting ← Request.load fun mailroom : Mailroom τ =>
    selected.filter fun id =>
      (mailroom.user id).any fun copy => copy.1.isActive && copy.2.isNone
  Request.forEach waiting fun id => Mailroom.exec (.enqueue id)

/-! ## Who is at work -/

inductive Visitor (τ : Type) where
  | register (env : Env) (form : Registration)
  | account (call : AuthCall)
  | resend (caller : UserId)
  | resendSelected (selected : List UserId)
  | task (now : Time) (id : UserId) (sends : Bool)
  | verify (now stampedAt : Time) (token : τ)

def Visitor.call
    (security : Security) (forms : Forms) (signer : LinkSigner τ) :
    Visitor τ → MailroomCall τ Unit
  | .register env form => do
      let _ ← registerAccount security forms env form
      return ()
  | .account call => do
      let _ ← (call.call security forms).inside registry
      return ()
  | .resend caller => do
      let _ ← resendVerification caller
      return ()
  | .resendSelected selected => resendVerifications selected
  | .task now id sends => sendVerificationEmail signer now id sends
  | .verify now stampedAt token => do
      let _ ← verifyEmail signer now stampedAt token
      return ()

/-- The token opens for this account, and is not too old. -/
def Opens (signer : LinkSigner τ) (now : Time) (token : τ) (id : UserId) :
    Prop :=
  ∃ signed, signer.unsign verificationSalt token =
    some (signed, { uid := id, verified := false }) ∧
      now ≤ signed + verificationTtlSeconds

/-- The account was found unverified. -/
def FoundUnverified (looks : List (Mailroom τ)) (id : UserId) : Prop :=
  ∃ look ∈ looks, ∃ user, look.user id = some (user, none)

/-- The address was that of the account, which was found unverified. -/
def Addressed (looks : List (Mailroom τ)) (link : Link τ) : Prop :=
  ∃ look ∈ looks, ∃ user, look.user link.user = some (user, none) ∧
    user.email = link.address

/-- What a visitor commits, as far as it remembers. -/
def Visitor.good (signer : LinkSigner τ) (visitor : Visitor τ)
    (memory : Memory (Mailroom τ) (MailroomStmt τ)) : MailroomStmt τ → Prop
  | .account _ | .enqueue _ => True
  | .post link =>
      link.token = issueVerificationToken signer link.signedAt link.user none ∧
        Addressed memory.looks link
  | .verify id stampedAt =>
      (∃ now token, visitor = .verify now stampedAt token ∧
        Opens signer now token id) ∧ FoundUnverified memory.looks id

def Visitor.promise (signer : LinkSigner τ) (visitor : Visitor τ)
    (memory : Memory (Mailroom τ) (MailroomStmt τ))
    (stmts : List (MailroomStmt τ)) : Prop :=
  ∀ stmt ∈ stmts, visitor.good signer memory stmt

/-- Nothing is posted, and nobody is verified. -/
def ordinary : Effect (MailroomStmt τ) → Prop
  | .write (.account _) | .write (.enqueue _) | .savepoint => True
  | .write _ => False

variable {signer : LinkSigner τ} {security : Security} {forms : Forms}

theorem follows_of_ordinary {α : Type}
    (visitor : Visitor τ) {work : MailroomCall τ α}
    (emits : work.Emits ordinary fun _ => True) :
    work.Follows .memory (visitor.promise signer) {} [] fun _ _ _ => True := by
  refine Request.follows_of_emits emits fun memory stmts all stmt member => ?_
  have allowed := all stmt member
  cases stmt with
  | account | enqueue => trivial
  | verify | post => exact allowed.elim

/-- What is done inside is ordinary. -/
theorem emits_inside {α : Type} (work : Handler α) :
    (work.inside registry : MailroomCall τ α).Emits ordinary fun _ => True :=
  Request.emits_inside work registry (fun _ => trivial) trivial

theorem registerAccount_emits (env : Env) (form : Registration) :
    (registerAccount security forms env form : MailroomCall τ Response).Emits
      ordinary fun _ => True := by
  unfold registerAccount
  refine .seq (by simp) fun email => .seq (by simp) fun _ => .seq (by simp)
    fun _ => .seq (emits_inside _) fun user => .seq ?_ fun _ =>
      .seq (emits_inside _) fun token => by simp
  simp [Mailroom.exec, ordinary]

theorem resendVerification_emits (caller : UserId) :
    (resendVerification caller : MailroomCall τ Response).Emits ordinary
      fun _ => True := by
  simp [resendVerification, Mailroom.exec, ordinary]

theorem resendVerifications_emits (selected : List UserId) :
    (resendVerifications selected : MailroomCall τ Unit).Emits ordinary
      fun _ => True :=
  .seq (by simp) fun waiting => Request.emits_forEach fun id _ => by
    simp [Mailroom.exec, ordinary]

theorem sendVerificationEmail_follows
    (now : Time) (id : UserId) (sends : Bool) :
    (sendVerificationEmail signer now id sends).Follows .memory
      ((Visitor.task now id sends : Visitor τ).promise signer) {} []
      fun _ _ _ => True := by
  unfold sendVerificationEmail
  simp only [Request.follows_bind, Request.follows_load, applyAll_nil,
    Request.follows_orFail, Request.follows_ite, Request.follows_pure,
    Request.follows_require, implies_true, and_true, true_and]
  intro look copy found unverified _
  obtain ⟨user, stamp⟩ := copy
  obtain rfl : stamp = none := by simpa using unverified
  refine Request.follows_exec.mpr ⟨?_, trivial⟩
  intro stmt member
  obtain rfl := List.mem_singleton.mp member
  exact ⟨rfl, look, by simp [Journal.memory], user, found, rfl⟩

theorem verifyEmail_follows (now stampedAt : Time) (token : τ) :
    (verifyEmail signer now stampedAt token).Follows .memory
      ((Visitor.verify now stampedAt token).promise signer) {} []
      fun _ _ _ => True := by
  unfold verifyEmail verifyEmailWithToken
  cases loaded : signer.loads verificationSalt now verificationTtlSeconds
    token with
  | error refusal => cases refusal <;> simp
  | ok data =>
      obtain ⟨signed, opens, young⟩ := Signing.Signer.loads_eq_ok.mp loaded
      simp only [Request.follows_bind, Request.follows_load, applyAll_nil]
      intro look
      cases found : look.user data.uid with
      | none => simp
      | some copy =>
          obtain ⟨user, stamp⟩ := copy
          simp only [Request.follows_ite, Request.follows_bind,
            Request.follows_pure, Request.follows_require, implies_true,
            and_true, true_and]
          intro unverified bound
          obtain rfl : stamp = none := by simpa using unverified
          have claims : data = { uid := data.uid, verified := false } := by
            simp only [Option.isSome_none, ne_eq, Bool.not_eq_false,
              Bool.not_eq_true] at bound
            rw [← bound]
          refine Request.follows_exec.mpr ⟨?_, by simp⟩
          intro stmt member
          obtain rfl := List.mem_singleton.mp member
          exact ⟨⟨now, token, rfl, signed, claims ▸ opens, young⟩, look,
            by simp [Journal.memory], user, found⟩

/-- What visitors commit, they may. -/
theorem Visitor.follows (visitor : Visitor τ) :
    (visitor.call security forms signer).Follows .memory
      (visitor.promise signer) {} [] fun _ _ _ => True := by
  cases visitor with
  | register env form =>
      exact Request.follows_discard
        (follows_of_ordinary _ (registerAccount_emits env form))
  | account call =>
      exact Request.follows_discard (follows_of_ordinary _ (emits_inside _))
  | resend caller =>
      exact Request.follows_discard
        (follows_of_ordinary _ (resendVerification_emits caller))
  | resendSelected selected =>
      exact follows_of_ordinary _ (resendVerifications_emits selected)
  | task now id sends => exact sendVerificationEmail_follows now id sends
  | verify now stampedAt token =>
      exact Request.follows_discard (verifyEmail_follows now stampedAt token)

/-! ## Links and stamps -/

/-- No stamp and no link is taken back. -/
structure Keeps (look now : Mailroom τ) : Prop where
  verified : ∀ id, look.isVerified id = true → now.isVerified id = true
  links : look.links ⊆ now.links

theorem Keeps.refl (mailroom : Mailroom τ) : Keeps mailroom mailroom :=
  ⟨fun _ => id, List.Subset.refl _⟩

theorem Keeps.trans
    {look middle now : Mailroom τ} (first : Keeps look middle)
    (second : Keeps middle now) : Keeps look now :=
  ⟨fun id verified => second.verified id (first.verified id verified),
    List.Subset.trans first.links second.links⟩

theorem isVerified_verify
    {mailroom : Mailroom τ} {id other : UserId} {now : Time} :
    ((MailroomStmt.verify id now).apply mailroom).isVerified other = true ↔
      other = id ∨ mailroom.isVerified other = true := by
  by_cases same : other = id
  · simp [Mailroom.isVerified, MailroomStmt.apply, same]
  · simp [Mailroom.isVerified, MailroomStmt.apply, same]

theorem Keeps.apply (mailroom : Mailroom τ) (stmt : MailroomStmt τ) :
    Keeps mailroom (stmt.apply mailroom) := by
  have same := Keeps.refl mailroom
  cases stmt with
  | account stmt => exact ⟨same.verified, same.links⟩
  | verify id now =>
      exact ⟨fun other before => isVerified_verify.mpr (.inr before),
        same.links⟩
  | enqueue id => exact ⟨same.verified, same.links⟩
  | post link => exact ⟨same.verified, List.subset_append_left _ _⟩

theorem keeps_applyAll (mailroom : Mailroom τ) (stmts : List (MailroomStmt τ)) :
    Keeps mailroom (applyAll stmts mailroom) :=
  applyAll_keeps (Keeps mailroom ·)
    (fun stmt _ current keeps => keeps.trans (.apply current stmt))
    (.refl mailroom)

/-- The links carry tokens for their accounts. -/
def LinksSigned (signer : LinkSigner τ) (mailroom : Mailroom τ) : Prop :=
  ∀ link ∈ mailroom.links,
    link.token = issueVerificationToken signer link.signedAt link.user none

/-- Whoever is verified now was so at the start, or was mailed a link. -/
def Backed (start mailroom : Mailroom τ) : Prop :=
  ∀ id, mailroom.isVerified id = true →
    start.isVerified id = true ∨ ∃ link ∈ mailroom.links, link.user = id

/-- A visitor has a link that was mailed to the account, and is not too old. -/
def Presents (visitor : Visitor τ) (stampedAt : Time) (id : UserId)
    (mailroom : Mailroom τ) : Prop :=
  ∃ link ∈ mailroom.links, link.user = id ∧
    ∃ now, visitor = .verify now stampedAt link.token ∧
      now ≤ link.signedAt + verificationTtlSeconds

/-- Nobody makes up a token: one that opens was mailed before. -/
def Unforged (signer : LinkSigner τ) (visitor : Visitor τ)
    (mailroom : Mailroom τ) : Prop :=
  ∀ now stampedAt token, visitor = .verify now stampedAt token →
    ∀ found, signer.unsign verificationSalt token = some found →
      ∃ link ∈ mailroom.links, link.token = token

/-- A token that opens for an account is that of a link for it. -/
theorem Opens.presents
    (lawful : signer.Lawful) {mailroom : Mailroom τ}
    (signed : LinksSigned signer mailroom) {now stampedAt : Time} {token : τ}
    {id : UserId} (opens : Opens signer now token id)
    (unforged : Unforged signer (.verify now stampedAt token) mailroom) :
    Presents (.verify now stampedAt token) stampedAt id mailroom := by
  obtain ⟨time, unsigned, young⟩ := opens
  obtain ⟨link, mailed, rfl⟩ := unforged now stampedAt token rfl _ unsigned
  rw [signed link mailed, issueVerificationToken, lawful.unsign_sign]
    at unsigned
  simp only [Option.some.injEq, Prod.mk.injEq, VerificationClaim.mk.injEq]
    at unsigned
  obtain ⟨rfl, same, _⟩ := unsigned
  exact ⟨link, mailed, same, now, rfl, young⟩

section Commits

variable {visitor : Visitor τ} {mailroom : Mailroom τ}
  {memory : Memory (Mailroom τ) (MailroomStmt τ)}
  {stmts : List (MailroomStmt τ)}

theorem LinksSigned.applyAll
    (signed : LinksSigned signer mailroom)
    (promised : visitor.promise signer memory stmts) :
    LinksSigned signer (applyAll stmts mailroom) := by
  refine applyAll_keeps (LinksSigned signer) ?_ signed
  intro stmt member current holds
  cases stmt with
  | post link =>
      intro other mailed
      rcases List.mem_append.mp mailed with before | last
      · exact holds other before
      · obtain rfl := List.mem_singleton.mp last
        exact (promised _ member).1
  | _ => exact holds

/-- Only a stamp verifies. -/
theorem isVerified_applyAll
    {id : UserId} (verified : (applyAll stmts mailroom).isVerified id = true) :
    mailroom.isVerified id = true ∨ ∃ now, .verify id now ∈ stmts := by
  induction stmts generalizing mailroom with
  | nil => exact .inl verified
  | cons stmt rest inductionHypothesis =>
      rcases inductionHypothesis verified with before | later
      · cases stmt with
        | verify other now =>
            rcases isVerified_verify.mp before with rfl | earlier
            · exact .inr ⟨now, List.mem_cons_self⟩
            · exact .inl earlier
        | _ => exact .inl before
      · exact .inr (later.imp fun now member => List.mem_cons_of_mem _ member)

end Commits

/-! ## Runs -/

/-- Visitors at work and the mailroom. -/
abbrev Desks (τ : Type) :=
  System (Mailroom τ) Row (MailroomStmt τ) (Except Error Unit)

variable {visitors : Nat → Visitor τ} {system : Desks τ} {start : Mailroom τ}
  {memories : Nat → Memory (Mailroom τ) (MailroomStmt τ)}

/-- The link of the account 1. -/
def welcomeLink : Link (String × Time × VerificationClaim) where
  user := 1
  address := "ada@example.org"
  signedAt := 100
  token := issueVerificationToken Signing.Signer.plain 100 1 none

/-- The account was opened, and the link was mailed. -/
def welcomed : Mailroom (String × Time × VerificationClaim) where
  accounts :=
    { users :=
        .insert .empty 1 { email := "ada@example.org", password := "h" } }
  tasks := [1]
  links := [welcomeLink]

/-- The owner presents the link, and asks for another one. -/
def owner : Nat → Visitor (String × Time × VerificationClaim)
  | 0 => .verify 200 201 welcomeLink.token
  | _ => .resend 1

theorem owner_unforged
    (client : Nat) (mailroom : Mailroom (String × Time × VerificationClaim))
    (mailed : welcomeLink ∈ mailroom.links) :
    Unforged Signing.Signer.plain (owner client) mailroom := by
  intro now stampedAt token same found _
  cases client with
  | zero =>
      obtain ⟨_, _, rfl⟩ := Visitor.verify.inj same
      exact ⟨welcomeLink, mailed, rfl⟩
  | succ client => simp [owner] at same

/-- The stamps among statements. -/
def stamps (stmts : List (MailroomStmt τ)) : List (UserId × Time) :=
  stmts.filterMap fun stmt => match stmt with
    | .verify id now => some (id, now)
    | _ => none

theorem mem_stamps {stmts : List (MailroomStmt τ)} {id : UserId} {now : Time} :
    (id, now) ∈ stamps stmts ↔ .verify id now ∈ stmts := by
  simp only [stamps, List.mem_filterMap]
  constructor
  · intro found
    obtain ⟨stmt, member, same⟩ := found
    split at same
    · simp only [Option.some.injEq, Prod.mk.injEq] at same
      obtain ⟨rfl, rfl⟩ := same
      exact member
    · simp at same
  · exact fun member => ⟨_, member, rfl⟩

end Accounts

end KnowledgeMarketplace
