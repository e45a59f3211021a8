import KnowledgeMarketplace.Accounts.Database

/-!
# Sessions

A session is a refresh token.  It is exchanged for a new one, revoked by a
logout, and revoked with all others of its user by a password change, a reset
and a deactivation.  No view opens a transaction.
-/

namespace KnowledgeMarketplace

open Transaction

namespace Accounts

/-- The claims of a refresh token. -/
structure RefreshToken where
  jti : Jti
  user : UserId
  expires : Time
  deriving DecidableEq

/--
The libraries under the views: decoding a signed token that has not expired,
hashing passwords, the configured password validators, and the links of
password resets.
-/
structure Security where
  deployEnv : String := "production"
  refreshTokenLifetime : Time := days 7
  decode : Time → String → Option RefreshToken
  makePassword : Nat → String → String
  verifyPassword : String → String → Bool
  validatePassword : String → Except Error Unit
  decodeUid : String → Option UserId
  checkResetToken : Time → UserId → User → String → Bool

/-- What a view answers; the tokens travel in cookies. -/
structure Response where
  detail : String
  session : Option RefreshToken := none
  clearsCookies : Bool := false
  deriving DecidableEq

/-- An answer that signs the browser out. -/
def clearAuthCookies (detail : String) : Response :=
  { detail, clearsCookies := true }

/-- A request to a view. -/
abbrev Handler (α : Type) := Request Db Row Stmt Error α

/-- A statement in autocommit mode. -/
def Handler.exec (stmt : Stmt) : Handler Unit :=
  Request.atomic (Prog.exec stmt)

/-! ## Passwords -/

def demoEmails : List String :=
  ["student@demo.local", "expert@demo.local", "admin@demo.local",
    "student@example.com", "expert@example.com", "admin@example.com",
    "expert.applicant@demo.local", "expert.review@demo.local",
    "expert.rejected@demo.local", "expert.suspended@demo.local"]

def demoPasswords : List String :=
  ["demo-password-1234", "password123", "admin-demo-1234"]

/-- The stored password, or outside production a demo password. -/
def checkPassword (security : Security) (user : User) (raw : String) : Bool :=
  security.verifyPassword user.password raw ||
    (security.deployEnv ≠ "production" &&
      demoEmails.contains user.email.toLower && demoPasswords.contains raw)

def passwordMinLength : Nat := 10

/-- A new password, as the serializers accept it. -/
def newPassword (security : Security) (password : String) :
    Except Error Unit :=
  if password.length < passwordMinLength then
    .error (.domainError "Password must be at least 10 characters."
      "validation_error")
  else
    security.validatePassword password

/-! ## Refresh tokens -/

/-- The cookie first, then the body; an empty text is no token. -/
def rawRefreshToken (cookie body : Option String) : Option String :=
  ((cookie.filter (· ≠ "")).or body).filter (· ≠ "")

def tokenInvalid : Error :=
  .domain
    { message := "Session expired or invalid. Please sign in again."
      code := "token_invalid"
      statusCode := 401 }

/-- `RefreshToken(raw)`; nothing if it raises a token error. -/
def verifyRefreshToken (security : Security) (env : Env) (raw : String) :
    Handler (Option RefreshToken) :=
  match security.decode env.now raw with
  | none => return none
  | some token => do
      let revoked ← Request.load (isBlacklisted token.jti)
      return if revoked then none else some token

/-- `RefreshToken.for_user(user)`. -/
def forUser (security : Security) (env : Env) (user : UserId) :
    Handler RefreshToken := do
  let token : RefreshToken :=
    ⟨env.key, user, env.now + security.refreshTokenLifetime⟩
  Handler.exec (.issue token.jti ⟨user, token.expires⟩)
  return token

/-- `BlacklistedToken.objects.get_or_create(token=...)`. -/
def getOrCreateBlacklisted (jti : Jti) : Handler Unit := do
  let present ← Request.load (isBlacklisted jti)
  if present then return () else Handler.exec (.blacklist jti)

/-- `token.blacklist()`. -/
def blacklist (token : RefreshToken) : Handler Unit := do
  let recorded ← Request.load fun db =>
    (db.outstanding.row token.jti).isSome
  if recorded then
    getOrCreateBlacklisted token.jti
  else
    Handler.exec (.issue token.jti ⟨token.user, token.expires⟩)
    getOrCreateBlacklisted token.jti

/-- Blacklist every refresh token that was issued to the user. -/
def revokeSessions (user : UserId) : Handler Unit := do
  let tokens ← Request.load (outstandingTokens user)
  Request.forEach tokens getOrCreateBlacklisted

/-! ## Views -/

/-- Exchange a refresh token for a new one, then blacklist it. -/
def refresh
    (security : Security) (env : Env) (cookie body : Option String) :
    Handler Response := do
  let raw ← Request.orFail (rawRefreshToken cookie body)
    (.domain
      { message := "Refresh token missing."
        code := "refresh_missing"
        statusCode := 401 })
  let old ← Request.orFail (← verifyRefreshToken security env raw) tokenInvalid
  let user ← Request.orFail (← Request.load fun db => db.users.row old.user)
    (.doesNotExist "User")
  Request.require (user.isActive = true) tokenInvalid
  let new ← forUser security env old.user
  blacklist old
  return { detail := "Token refreshed.", session := some new }

/-- Blacklist the presented token, if it is valid. -/
def logout
    (security : Security) (env : Env) (cookie body : Option String) :
    Handler Response := do
  let presented ← (rawRefreshToken cookie body).elim (pure none)
    (verifyRefreshToken security env)
  presented.elim (pure ()) blacklist
  return clearAuthCookies "Signed out."

/-- The user of a valid access token, who must be active. -/
def authenticate (caller : UserId) : Handler User := do
  let user ← Request.orFail (← Request.load fun db => db.users.row caller)
    (.domain
      { message := "User not found"
        code := "user_not_found"
        statusCode := 401 })
  Request.require (user.isActive = true)
    (.domain
      { message := "User account is disabled."
        code := "user_inactive"
        statusCode := 401 })
  return user

def passwordChange
    (security : Security) (env : Env) (caller : UserId)
    (currentPassword password : String) : Handler Response := do
  let user ← authenticate caller
  Request.ofExcept (newPassword security password)
  Request.require (checkPassword security user currentPassword = true)
    (.domainError "Current password is incorrect." "invalid_credentials")
  Handler.exec <| .saveUser caller fun stored =>
    { stored with password := security.makePassword env.key password }
  revokeSessions caller
  return clearAuthCookies "Password changed. Please sign in again."

def passwordResetConfirm
    (security : Security) (env : Env) (uid token password : String) :
    Handler Response := do
  Request.ofExcept (newPassword security password)
  let id ← Request.orFail (security.decodeUid uid)
    (.notFound "This reset link is invalid.")
  let user ← Request.orFail (← Request.load fun db => db.users.row id)
    (.notFound "This reset link is invalid.")
  Request.require (security.checkResetToken env.now id user token = true)
    (.domainError "This reset link is invalid or has expired."
      "reset_link_invalid")
  Handler.exec <| .saveUser id fun stored =>
    { stored with password := security.makePassword env.key password }
  revokeSessions id
  return { detail := "Password updated. Sign in with your new password." }

def deactivate (caller : UserId) : Handler Response := do
  let _ ← authenticate caller
  Handler.exec <| .saveUser caller fun stored =>
    { stored with isActive := false }
  revokeSessions caller
  return clearAuthCookies "Account deactivated."

/-- A request to one of the views of sessions. -/
inductive SessionCall where
  | refresh (env : Env) (cookie body : Option String)
  | logout (env : Env) (cookie body : Option String)
  | passwordChange (env : Env) (caller : UserId)
      (currentPassword password : String)
  | passwordResetConfirm (env : Env) (uid token password : String)
  | deactivate (caller : UserId)

/-- The request of the client. -/
def SessionCall.call (security : Security) : SessionCall → Handler Response
  | refresh env cookie body => Accounts.refresh security env cookie body
  | logout env cookie body => Accounts.logout security env cookie body
  | passwordChange env caller currentPassword password =>
      Accounts.passwordChange security env caller currentPassword password
  | passwordResetConfirm env uid token password =>
      Accounts.passwordResetConfirm security env uid token password
  | deactivate caller => Accounts.deactivate caller

/-- The users of the platform, each request as a client. -/
abbrev Sessions := System Db Row Stmt (Except Error Response)

end Accounts

end KnowledgeMarketplace
