import KnowledgeMarketplace.Accounts.Sessions
import KnowledgeMarketplace.Core.Text

/-!
# Registration and sign-in

A registration opens an account and signs the browser in; for an email that is
taken it answers the same.  A login checks the email and the password.
-/

namespace KnowledgeMarketplace

open Transaction

namespace Accounts

/-- The form fields of the library, and its mapping of texts to lower case. -/
structure Forms where
  emailField : String → Except Error String
  nameField : String → Except Error String
  lower : String → String
  normalizeEmail : String → String

/-- What a visitor sends to open an account. -/
structure Registration where
  email : String
  name : String
  password : String

/-- The account of an email address, which is unique. -/
def userByEmail (email : String) (db : Db) : Option (UserId × User) :=
  (db.users.select fun _ user => user.email = email).head?.bind fun id =>
    (db.users.row id).map fun user => (id, user)

/-- The next number of the primary key; accounts are never deleted. -/
def nextUser (db : Db) : UserId :=
  db.users.keys.foldl max 0 + 1

/-- `User.objects.create_user(...)`. -/
def createUser
    (security : Security) (forms : Forms) (env : Env) (email password : String) :
    Handler UserId := do
  Request.require (email ≠ "") (.valueError "Email is required")
  let user : User :=
    { email := forms.lower (forms.normalizeEmail email)
      password := security.makePassword env.key password }
  Request.atomic do
    Prog.require (¬(← Prog.read (userByEmail user.email)).isSome)
      (.integrity "User")
    let id ← Prog.read nextUser
    Prog.exec (.insertUser id user)
    return id

/-- The account of the email, or a new one. -/
def saveRegistration
    (security : Security) (forms : Forms) (env : Env) (email password : String) :
    Handler UserId := do
  let existing ← Request.load (userByEmail email)
  existing.elim (createUser security forms env email password) fun found =>
    return found.1

def register
    (security : Security) (forms : Forms) (env : Env) (form : Registration) :
    Handler Response := do
  let email ← Request.ofExcept (forms.emailField form.email)
  let _ ← Request.ofExcept (forms.nameField form.name)
  Request.ofExcept (newPassword security form.password)
  let user ← saveRegistration security forms env (forms.lower (strip email))
    form.password
  let token ← forUser security env user
  return {
    detail :=
      "Account created. Check your inbox to verify your email address."
    session := some token }

/-- The active user of an email and a password. -/
def authenticatePassword
    (security : Security) (email password : String) :
    Handler (Option (UserId × User)) := do
  let found ← Request.load (userByEmail email)
  return found.filter fun (_, user) =>
    checkPassword security user password && user.isActive

def login
    (security : Security) (forms : Forms) (env : Env)
    (email password : String) : Handler Response := do
  let email ← Request.ofExcept (forms.emailField email)
  let (id, user) ← Request.orFail
    (← authenticatePassword security (forms.lower (strip email)) password)
    (.domain
      { message := "Invalid email or password."
        code := "invalid_credentials"
        statusCode := 401 })
  Handler.exec <| .saveUser id fun stored =>
    { stored with lastLogin := user.lastLogin }
  let token ← forUser security env id
  return { detail := "", session := some token }

/-- The link goes to the owner of the address; the answer is always the same. -/
def passwordResetRequest (forms : Forms) (email : String) : Handler Response := do
  let _ ← Request.ofExcept (forms.emailField email)
  return {
    detail := "If that address has an account, a reset link is on its way." }

/-- A request to one of the views of authentication. -/
inductive AuthCall where
  | register (env : Env) (form : Registration)
  | login (env : Env) (email password : String)
  | passwordResetRequest (email : String)
  | session (call : SessionCall)

/-- The request of the client. -/
def AuthCall.call (security : Security) (forms : Forms) :
    AuthCall → Handler Response
  | register env form => Accounts.register security forms env form
  | login env email password => Accounts.login security forms env email password
  | passwordResetRequest email => Accounts.passwordResetRequest forms email
  | session call => call.call security

end Accounts

end KnowledgeMarketplace
