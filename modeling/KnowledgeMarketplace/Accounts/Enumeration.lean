import KnowledgeMarketplace.Accounts.Credentials

/-!
# Enumeration by the answers

A registration answers with the account it found or made, all columns of the
summary included.  Only the answer to a request for a password reset says
nothing about the account.
-/

namespace KnowledgeMarketplace

open Transaction

namespace Accounts

/-! ## The summary of a user -/

/-- The columns of a user that a summary shows, and what the experts answer. -/
structure Profile where
  name : String
  timezone : String := "UTC"
  locale : String := "en"
  emailVerifiedAt : Option Time := none
  isStaff : Bool := false
  isSuperuser : Bool := false
  groups : List String := []
  isExpert : Bool := false

/-- The accounts, and a profile for each of them. -/
structure Members where
  accounts : Db := {}
  profiles : UserId → Profile := fun _ => { name := "" }

def Profile.isVerified (profile : Profile) : Bool :=
  profile.emailVerifiedAt.isSome

/-- The roles in the view of the API. -/
structure Roles where
  student : Bool
  verified : Bool
  staff : Bool
  support : Bool
  admin : Bool
  expert : Bool
  deriving DecidableEq

/-- `get_roles`; the experts register the only provider. -/
def getRoles (profile : Profile) : Roles where
  student := true
  verified := profile.isVerified
  staff := profile.isStaff
  support := profile.isStaff && profile.groups.contains "support"
  admin :=
    profile.isStaff &&
      (profile.isSuperuser || profile.groups.contains "admin")
  expert := profile.isExpert

structure UserSummary where
  id : UserId
  email : String
  name : String
  timezone : String
  locale : String
  emailVerified : Bool
  roles : Roles
  deriving DecidableEq

/-- An account with the columns of its summary. -/
structure Account where
  id : UserId
  user : User
  profile : Profile

/-- `UserSummarySerializer(user).data`. -/
def Account.summary (account : Account) : UserSummary where
  id := account.id
  email := account.user.email
  name := account.profile.name
  timezone := account.profile.timezone
  locale := account.profile.locale
  emailVerified := account.profile.isVerified
  roles := getRoles account.profile

/-! ## The views -/

/-- The answer to a registration; the session travels in two cookies. -/
structure RegisterAnswer where
  status : Nat := 201
  user : UserSummary
  verificationRequired : Bool
  detail : String
  session : RefreshToken
  deriving DecidableEq

/-- What the model of the sessions keeps of an answer. -/
def RegisterAnswer.response (answer : RegisterAnswer) : Response where
  detail := answer.detail
  session := some answer.session

section Views

variable (security : Security) (forms : Forms)

/-- `User.objects.create_user(...)` with the columns of the summary. -/
def newAccount
    (env : Env) (email password name : String) (members : Members) :
    Except Error Account :=
  if email = "" then .error (.valueError "Email is required")
  else
    let user : User :=
      { email := forms.lower (forms.normalizeEmail email)
        password := security.makePassword env.key password }
    if (userByEmail user.email members.accounts).isSome then
      .error (.integrity "User")
    else
      .ok { id := nextUser members.accounts, user, profile := { name } }

/-- `RegisterSerializer.save`: the account of the email, or a new one. -/
def saveAccount
    (env : Env) (email password name : String) (members : Members) :
    Except Error Account :=
  match userByEmail email members.accounts with
  | some (id, user) => .ok { id, user, profile := members.profiles id }
  | none => newAccount security forms env email password name members

/-- `RegisterView.post`, alone. -/
def registerView (env : Env) (form : Registration) (members : Members) :
    Except Error RegisterAnswer := do
  let email ← forms.emailField form.email
  let name ← forms.nameField form.name
  newPassword security form.password
  let account ← saveAccount security forms env (forms.lower (strip email))
    form.password name members
  .ok
    { user := account.summary
      verificationRequired := !account.profile.isVerified
      detail :=
        "Account created. Check your inbox to verify your email address."
      session :=
        ⟨env.key, account.id, env.now + security.refreshTokenLifetime⟩ }

/-- `PasswordResetRequestView.post`: the answer, and who gets the link. -/
def passwordResetRequestView (email : String) (members : Members) :
    Except Error (Response × Option UserId) := do
  let email ← forms.emailField email
  let found := userByEmail (forms.lower (strip email)) members.accounts
  .ok
    ({ detail :=
        "If that address has an account, a reset link is on its way." },
      (found.filter (·.2.isActive)).map Prod.fst)

end Views

/-! ## The views are those of the sessions -/

section Connection

variable {security : Security} {forms : Forms}

/-- The token that `forUser` issues. -/
theorem forUser_leaves
    {env : Env} {user : UserId} {db : Db}
    {goal : Except Error RefreshToken → Db → List Stmt → Prop}
    (issued : ∀ next, goal
      (.ok ⟨env.key, user, env.now + security.refreshTokenLifetime⟩) next []) :
    (forUser security env user).Leaves db [] goal :=
  Request.leaves_bind.mpr (Request.leaves_atomic.mpr (issued _))

/-- Registering saves the account of `saveAccount`. -/
theorem saveRegistration_leaves
    {env : Env} {email password : String} (name : String) (members : Members)
    {goal : Except Error UserId → Db → List Stmt → Prop}
    (saved : ∀ next, goal
      ((saveAccount security forms env email password name members).map
        Account.id) next []) :
    (saveRegistration security forms env email password).Leaves
      members.accounts [] goal := by
  refine Request.leaves_bind.mpr (Request.leaves_load.mpr ?_)
  simp only [applyAll_nil]
  simp only [saveAccount] at saved
  cases found : userByEmail email members.accounts with
  | some existing =>
      rw [found] at saved
      exact saved _
  | none =>
      rw [found] at saved
      simp only [newAccount] at saved
      refine Request.leaves_bind.mpr (Request.leaves_require.mpr
        ⟨fun filled => ?_, fun blank => ?_⟩)
      · rw [if_neg filled] at saved
        refine Request.leaves_atomic.mpr (Prog.post_bind.mpr
          (Prog.post_read.mpr (Prog.post_bind.mpr (Prog.post_require.mpr
            ⟨fun free => ?_, fun taken => ?_⟩))))
        · have unused : ¬(userByEmail (forms.lower (forms.normalizeEmail
              email)) members.accounts).isSome = true := free
          rw [if_neg unused] at saved
          exact saved _
        · have used : (userByEmail (forms.lower (forms.normalizeEmail
              email)) members.accounts).isSome = true := not_not.mp taken
          rw [if_pos used] at saved
          exact saved _
      · rw [if_pos (not_not.mp blank)] at saved
        exact saved _

/-- The summary aside, the answer is that of the request run alone. -/
theorem register_run (env : Env) (form : Registration) (members : Members) :
    ((register security forms env form).run members.accounts).1 =
      (registerView security forms env form members).map
        RegisterAnswer.response := by
  suffices leaves : (register security forms env form).Leaves members.accounts
      [] fun result _ _ => result =
        (registerView security forms env form members).map
          RegisterAnswer.response from
    Request.leaves_iff_run.mp leaves
  simp only [registerView, bind, Except.bind]
  refine Request.leaves_bind.mpr (Request.leaves_ofExcept.mpr
    ⟨fun parsed valid => ?_, fun error invalid => ?_⟩)
  · refine Request.leaves_bind.mpr (Request.leaves_ofExcept.mpr
      ⟨fun name named => ?_, fun error unnamed => ?_⟩)
    · refine Request.leaves_bind.mpr (Request.leaves_ofExcept.mpr
        ⟨fun _ strong => ?_, fun error weak => ?_⟩)
      · simp only [valid, named, strong]
        refine Request.leaves_bind.mpr (saveRegistration_leaves name members
          fun next => ?_)
        cases saveAccount security forms env (forms.lower (strip parsed))
            form.password name members with
        | error error => rfl
        | ok account =>
            exact Request.leaves_bind.mpr (forUser_leaves fun _ =>
              Request.leaves_pure.mpr rfl)
      · simp only [valid, named, weak]
        rfl
    · simp only [valid, unnamed]
      rfl
  · simp only [invalid]
    rfl

/-- The answer to a request for a reset is that of the request run alone. -/
theorem passwordResetRequest_run (email : String) (members : Members) :
    ((passwordResetRequest forms email).run members.accounts).1 =
      (passwordResetRequestView forms email members).map Prod.fst := by
  suffices leaves : (passwordResetRequest forms email).Leaves members.accounts
      [] fun result _ _ => result =
        (passwordResetRequestView forms email members).map Prod.fst from
    Request.leaves_iff_run.mp leaves
  simp only [passwordResetRequestView, bind, Except.bind]
  refine Request.leaves_bind.mpr (Request.leaves_ofExcept.mpr
    ⟨fun parsed valid => ?_, fun error invalid => ?_⟩)
  · simp only [valid]
    rfl
  · simp only [invalid]
    rfl

end Connection

/-! ## What the answers tell -/

/-- The answer without identifiers and tokens. -/
def RegisterAnswer.seen (answer : RegisterAnswer) : RegisterAnswer :=
  { answer with
    user := { answer.user with id := 0 }
    session := ⟨0, 0, 0⟩ }

/-- The profile shows what that of a new account under the name shows. -/
structure LooksNew (name : String) (profile : Profile) : Prop where
  named : profile.name = name
  timezone : profile.timezone = "UTC"
  locale : profile.locale = "en"
  unverified : profile.emailVerifiedAt = none
  noStaff : profile.isStaff = false
  noExpert : profile.isExpert = false

/-- The fields of the library leave a stripped text in lower case as it is. -/
structure Forms.Regular (forms : Forms) : Prop where
  filled : ∀ text parsed, forms.emailField text = .ok parsed →
    forms.lower (strip parsed) ≠ ""
  normal : ∀ text,
    forms.lower (forms.normalizeEmail (forms.lower (strip text))) =
      forms.lower (strip text)

section Answers

variable (security : Security) (forms : Forms)

/-- What a visitor sees of the answer to a registration. -/
def registerSeen (env : Env) (form : Registration) (members : Members) :
    Except Error RegisterAnswer :=
  (registerView security forms env form members).map RegisterAnswer.seen

/-- An account with the email of an accepted registration looks new. -/
def Blends (form : Registration) (members : Members) : Prop :=
  ∀ parsed name id user, forms.emailField form.email = .ok parsed →
    forms.nameField form.name = .ok name →
    newPassword security form.password = .ok () →
    userByEmail (forms.lower (strip parsed)) members.accounts =
      some (id, user) →
    LooksNew name (members.profiles id)

/-- What a visitor sees of an account under an email. -/
def seenAccount (email : String) (profile : Profile) : RegisterAnswer where
  user := Account.summary ⟨0, { email, password := "" }, profile⟩
  verificationRequired := !profile.isVerified
  detail := "Account created. Check your inbox to verify your email address."
  session := ⟨0, 0, 0⟩

/-- The profile that an answer shows: that of the account, or a new one. -/
def shownProfile (email name : String) (members : Members) : Profile :=
  match userByEmail email members.accounts with
  | some (id, _) => members.profiles id
  | none => { name }

/-- What is seen tells whether the profile looks new. -/
theorem seenAccount_new_iff {email name : String} {profile : Profile} :
    seenAccount email profile = seenAccount email { name } ↔
      LooksNew name profile := by
  constructor
  · intro same
    simp only [seenAccount, Account.summary, getRoles, Profile.isVerified,
      RegisterAnswer.mk.injEq, UserSummary.mk.injEq, Roles.mk.injEq,
      Option.isSome_none, Option.isSome_eq_false_iff,
      Option.isNone_iff_eq_none] at same
    obtain ⟨_, ⟨_, _, named, timezone, locale, unverified, _, _, noStaff, _, _,
      noExpert⟩, _⟩ := same
    exact ⟨named, timezone, locale, unverified, noStaff, noExpert⟩
  · intro looks
    simp [seenAccount, Account.summary, getRoles, Profile.isVerified,
      looks.named, looks.timezone, looks.locale, looks.unverified,
      looks.noStaff, looks.noExpert]

/-- The account of an email has that email. -/
theorem email_of_userByEmail {email : String} {db : Db} {id : UserId}
    {user : User} (found : userByEmail email db = some (id, user)) :
    user.email = email := by
  simp only [userByEmail, Option.bind_eq_some_iff, Option.map_eq_some_iff,
    Prod.mk.injEq] at found
  obtain ⟨key, first, row, stored, rfl, rfl⟩ := found
  obtain ⟨listed, there, fits⟩ :=
    Table.mem_select.mp (List.mem_of_mem_head? first)
  obtain rfl := Option.some.inj (there.symm.trans stored)
  simpa using fits

variable {security forms}

/-- The answer to an accepted registration shows one profile. -/
theorem registerSeen_accepted (regular : forms.Regular)
    {env : Env} {form : Registration} {members : Members}
    {parsed name : String}
    (valid : forms.emailField form.email = .ok parsed)
    (named : forms.nameField form.name = .ok name)
    (strong : newPassword security form.password = .ok ()) :
    registerSeen security forms env form members =
      .ok (seenAccount (forms.lower (strip parsed))
        (shownProfile (forms.lower (strip parsed)) name members)) := by
  have filled := regular.filled form.email parsed valid
  have normal := regular.normal parsed
  simp only [registerSeen, registerView, valid, named, strong, bind,
    Except.bind, saveAccount, shownProfile]
  cases found : userByEmail (forms.lower (strip parsed)) members.accounts with
  | some account =>
      have email := email_of_userByEmail found
      simp only [Except.map, RegisterAnswer.seen, seenAccount, Account.summary,
        email]
  | none =>
      simp only [newAccount, if_neg filled, normal, found, Option.isSome_none,
        Bool.false_eq_true, if_false]
      rfl

/-- A refused registration is answered alike in every state. -/
theorem registerSeen_refused
    {env : Env} {form : Registration} {first second : Members}
    (refused : ¬∃ parsed name, forms.emailField form.email = .ok parsed ∧
      forms.nameField form.name = .ok name ∧
      newPassword security form.password = .ok ()) :
    registerSeen security forms env form first =
      registerSeen security forms env form second := by
  simp only [registerSeen, registerView, bind, Except.bind]
  cases valid : forms.emailField form.email with
  | error error => rfl
  | ok parsed =>
      cases named : forms.nameField form.name with
      | error error => rfl
      | ok name =>
          cases strong : newPassword security form.password with
          | error error => rfl
          | ok _ => exact absurd ⟨parsed, name, valid, named, strong⟩ refused

/--
An answer to a registration depends on the input alone exactly when the
account that has the email, if any, looks like a new one under the given name.
An answer to a request for a reset always does.
-/
theorem answers_from_input_iff (security : Security) (regular : forms.Regular) :
    (∀ env form members,
      registerSeen security forms env form members =
          registerSeen security forms env form {} ↔
        Blends security forms form members) ∧
    ∀ email members,
      (passwordResetRequestView forms email members).map Prod.fst =
        (passwordResetRequestView forms email {}).map Prod.fst := by
  constructor
  · intro env form members
    by_cases accepted : ∃ parsed name,
        forms.emailField form.email = .ok parsed ∧
          forms.nameField form.name = .ok name ∧
          newPassword security form.password = .ok ()
    · obtain ⟨parsed, name, valid, named, strong⟩ := accepted
      have empty : shownProfile (forms.lower (strip parsed)) name {} =
          { name } := rfl
      rw [registerSeen_accepted regular valid named strong,
        registerSeen_accepted regular valid named strong, empty,
        Except.ok.injEq, seenAccount_new_iff]
      constructor
      · intro looks other otherName id user same sameName _ found
        obtain rfl := Except.ok.inj (valid.symm.trans same)
        obtain rfl := Except.ok.inj (named.symm.trans sameName)
        rw [shownProfile, found] at looks
        exact looks
      · intro blends
        cases found : userByEmail (forms.lower (strip parsed))
            members.accounts with
        | some account =>
            rw [shownProfile, found]
            exact blends parsed name account.1 account.2 valid named strong
              found
        | none =>
            rw [shownProfile, found]
            exact ⟨rfl, rfl, rfl, rfl, rfl, rfl⟩
    · constructor
      · intro _ parsed name id user valid named strong
        exact absurd ⟨parsed, name, valid, named, strong⟩ accepted
      · intro _
        exact registerSeen_refused accepted
  · intro email members
    simp only [passwordResetRequestView, bind, Except.bind]
    cases forms.emailField email <;> rfl

end Answers

/-! ## A registration under an email that is taken -/

/-- Fields that refuse a blank text and keep every other. -/
def fieldForms : Forms where
  emailField text :=
    if strip text = "" then .error (.valueError "This field may not be blank.")
    else .ok text
  nameField := .ok
  lower := id
  normalizeEmail := id

theorem fieldForms_regular : fieldForms.Regular := by
  constructor
  · intro text parsed accepted
    simp only [fieldForms] at accepted ⊢
    split at accepted
    · simp at accepted
    · rename_i filled
      obtain rfl := Except.ok.inj accepted
      exact filled
  · intro text
    rfl

/-- Somebody has an account, and their email is verified. -/
def takenMembers : Members where
  accounts := oneAccount
  profiles := fun _ => { name := "Taken", emailVerifiedAt := some 0 }

/-- A stranger asks for an account under the email. -/
def takenForm : Registration where
  email := "taken@example.com"
  name := "Impostor"
  password := "strong-pass-123"

/-- The stranger reads off the answer that the email is taken. -/
theorem takenForm_told :
    fieldForms.Regular ∧
      registerSeen plainSecurity fieldForms { now := 0 } takenForm
          takenMembers ≠
        registerSeen plainSecurity fieldForms { now := 0 } takenForm {} :=
  ⟨fieldForms_regular, by decide +kernel⟩

/-- Nothing is told of an email that is free. -/
theorem answers_from_input_iff_free :
    registerSeen plainSecurity fieldForms { now := 0 }
        { takenForm with email := "free@example.com" } takenMembers =
      registerSeen plainSecurity fieldForms { now := 0 }
        { takenForm with email := "free@example.com" } {} := by
  have tells := (answers_from_input_iff plainSecurity fieldForms_regular).1
    { now := 0 } { takenForm with email := "free@example.com" } takenMembers
  apply tells.mpr
  intro parsed name id user valid _ _ found
  have same : parsed = "free@example.com" := by
    have accepted : fieldForms.emailField "free@example.com" =
        .ok "free@example.com" := by decide +kernel
    exact (Except.ok.inj (accepted.symm.trans valid)).symm
  subst same
  have free : userByEmail (fieldForms.lower (strip "free@example.com"))
      takenMembers.accounts = none := by decide +kernel
  simp [free] at found

end Accounts

end KnowledgeMarketplace
