import KnowledgeMarketplace.Accounts.Registration
import KnowledgeMarketplace.Transaction.Alone
import KnowledgeMarketplace.Transaction.Sequence


/-!
# Who gets a token

A refresh wants a token of the user and a login wants the password; a
registration wants nothing, also when its email is taken.
-/

namespace KnowledgeMarketplace

open Transaction

namespace Accounts

/-- The text is the current password of the user. -/
def IsPassword (security : Security) (raw : String) (user : UserId) (db : Db) :
    Prop :=
  ∃ stored, db.users.row user = some stored ∧
    security.verifyPassword stored.password raw = true

/-- The text is a valid refresh token of the user that is not revoked. -/
def IsSession
    (security : Security) (now : Time) (raw : Option String) (user : UserId)
    (db : Db) : Prop :=
  ∃ text token, raw = some text ∧ security.decode now text = some token ∧
    token.user = user ∧ isBlacklisted token.jti db = false

variable {security : Security} {forms : Forms} {user : UserId} {db : Db}

/-- The request presents a secret of the user. -/
def AuthCall.Presents
    (security : Security) (user : UserId) (db : Db) : AuthCall → Prop
  | register _ form => IsPassword security form.password user db
  | login _ _ password => IsPassword security password user db
  | session (.refresh env cookie body) | session (.logout env cookie body) =>
      IsSession security env.now (rawRefreshToken cookie body) user db
  | session (.passwordChange _ _ currentPassword _) =>
      IsPassword security currentPassword user db
  | _ => False

/-- What a request answers and leaves when it runs alone. -/
def AuthCall.answer
    (security : Security) (forms : Forms) (call : AuthCall) (db : Db) :
    Except Error Response × Db :=
  Request.run (call.call security forms) db

/-- The answer carries tokens of the user. -/
def AuthCall.Grants
    (security : Security) (forms : Forms) (user : UserId) (call : AuthCall)
    (db : Db) : Prop :=
  ∃ response token, (call.answer security forms db).1 = .ok response ∧
    response.session = some token ∧ token.user = user

/-- The request opens the account of the user. -/
def AuthCall.Opens
    (security : Security) (forms : Forms) (user : UserId) (call : AuthCall)
    (db : Db) : Prop :=
  db.users.row user = none ∧
    ((call.answer security forms db).2.users.row user).isSome = true

/-- Tokens are for the owner of the account. -/
def AuthCall.Proven
    (security : Security) (forms : Forms) (call : AuthCall) (db : Db) : Prop :=
  ∀ user, call.Grants security forms user db →
    call.Presents security user db ∨ call.Opens security forms user db

/-- The registration is accepted. -/
structure Accepted
    (security : Security) (forms : Forms) (form : Registration)
    (email : String) : Prop where
  email : ∃ parsed, forms.emailField form.email = .ok parsed ∧
    forms.lower (strip parsed) = email
  name : ∃ parsed, forms.nameField form.name = .ok parsed
  password : newPassword security form.password = .ok ()

/--
No registration names the email of an account without its password.
-/
def AuthCall.Untaken
    (security : Security) (forms : Forms) (call : AuthCall) (db : Db) : Prop :=
  match call with
  | register _ form => ∀ email, Accepted security forms form email →
      ∀ id stored, userByEmail email db = some (id, stored) →
        security.verifyPassword stored.password form.password = true
  | _ => True

/-! ## One request -/

theorem row_of_userByEmail
    {email : String} {stored : User}
    (found : userByEmail email db = some (user, stored)) :
    db.users.row user = some stored := by
  simp only [userByEmail, Option.bind_eq_some_iff, Option.map_eq_some_iff,
    Prod.mk.injEq] at found
  obtain ⟨id, _, row, there, rfl, rfl⟩ := found
  exact there

/-- The number of a new account is not in use. -/
theorem nextUser_fresh (db : Db) : db.users.row (nextUser db) = none := by
  have above : ∀ (keys : List UserId) (start : UserId),
      start ≤ keys.foldl max start ∧
        ∀ key ∈ keys, key ≤ keys.foldl max start := by
    intro keys
    induction keys with
    | nil => simp
    | cons key rest inductionHypothesis =>
        intro start
        obtain ⟨first, later⟩ := inductionHypothesis (max start key)
        refine ⟨(le_max_left _ _).trans first, ?_⟩
        intro other member
        rcases List.mem_cons.mp member with rfl | member
        · exact (le_max_right _ _).trans first
        · exact later other member
  cases used : db.users.row (nextUser db) with
  | none => rfl
  | some stored =>
      have member : nextUser db ∈ db.users.keys :=
        (db.users.mem_keys _).mpr (by simp [used])
      have below := (above db.users.keys 0).2 _ member
      simp only [nextUser] at below
      exact absurd below (Nat.not_succ_le_self _)

/-- `forUser` always answers. -/
theorem leaves_forUser
    {env : Env} {goal : Except Error RefreshToken → Db → List Stmt → Prop}
    (issued : ∀ token next, token.user = user →
      (∃ jti record, next = (Stmt.issue jti record).apply db) →
      goal (.ok token) next []) :
    (forUser security env user).Leaves db [] goal := by
  refine Request.leaves_bind.mpr (Request.leaves_atomic.mpr ?_)
  exact issued ⟨env.key, user, _⟩ _ rfl ⟨_, _, rfl⟩

/-- A new account has a new number. -/
theorem createUser_leaves
    {env : Env} {email password : String} {goal : Except Error UserId → Db →
      List Stmt → Prop}
    (failed : ∀ error, goal (.error error) db [])
    (created : ∀ id next, db.users.row id = none →
      (next.users.row id).isSome = true → goal (.ok id) next []) :
    (createUser security forms env email password).Leaves db [] goal := by
  refine Request.leaves_bind.mpr (Request.leaves_require.mpr
    ⟨fun _ => Request.leaves_atomic.mpr ?_, fun _ => failed _⟩)
  refine Prog.post_bind.mpr (Prog.post_read.mpr (Prog.post_bind.mpr
    (Prog.post_require.mpr ⟨fun _ => ?_, fun _ => failed _⟩)))
  refine Prog.post_bind.mpr (Prog.post_read.mpr (Prog.post_bind.mpr
    (Prog.post_exec.mpr (Prog.post_pure.mpr ?_))))
  refine created _ _ (nextUser_fresh db) ?_
  change ((db.users.insert (nextUser db) _).row (nextUser db)).isSome = true
  rw [Table.row_insert_self _ (nextUser_fresh db)]
  rfl

/-- The accounts whose tokens a registration answers with. -/
theorem register_leaves (env : Env) (form : Registration) :
    (register security forms env form).Leaves db [] fun result next _ =>
      ∀ response token, result = .ok response → response.session = some token →
        (∃ email stored, Accepted security forms form email ∧
          userByEmail email db = some (token.user, stored)) ∨
        db.users.row token.user = none ∧
          (next.users.row token.user).isSome = true := by
  refine Request.leaves_bind.mpr (Request.leaves_ofExcept.mpr
    ⟨fun parsed valid => ?_, fun _ _ => nofun⟩)
  refine Request.leaves_bind.mpr (Request.leaves_ofExcept.mpr
    ⟨fun name named => ?_, fun _ _ => nofun⟩)
  refine Request.leaves_bind.mpr (Request.leaves_ofExcept.mpr
    ⟨fun _ strong => ?_, fun _ _ => nofun⟩)
  have accepted : Accepted security forms form (forms.lower (strip parsed)) :=
    ⟨⟨parsed, valid, rfl⟩, ⟨name, named⟩, strong⟩
  refine Request.leaves_bind.mpr (Request.leaves_bind.mpr
    (Request.leaves_load.mpr ?_))
  simp only [applyAll_nil]
  cases found : userByEmail (forms.lower (strip parsed)) db with
  | some existing =>
      refine Request.leaves_pure.mpr (Request.leaves_bind.mpr
        (leaves_forUser fun token next owned _ => Request.leaves_pure.mpr ?_))
      intro response other answered same
      obtain rfl := Except.ok.inj answered
      obtain rfl := Option.some.inj same
      refine .inl ⟨_, existing.2, accepted, ?_⟩
      rw [owned, found]
  | none =>
      refine createUser_leaves (fun error => nofun) fun id next fresh opened => ?_
      refine Request.leaves_bind.mpr
        (leaves_forUser fun token last owned issued => Request.leaves_pure.mpr ?_)
      obtain ⟨jti, record, rfl⟩ := issued
      intro response other answered same
      obtain rfl := Except.ok.inj answered
      obtain rfl := Option.some.inj same
      rw [owned]
      exact .inr ⟨fresh, opened⟩

/-- A registration under the email of an account answers with its tokens. -/
theorem register_taken
    {form : Registration} {email : String} {stored : User}
    (accepted : Accepted security forms form email)
    (found : userByEmail email db = some (user, stored)) (env : Env) :
    (AuthCall.register env form).Grants security forms user db := by
  obtain ⟨⟨parsed, valid, rfl⟩, ⟨name, named⟩, strong⟩ := accepted
  suffices granted : (register security forms env form).Leaves db []
      fun result _ _ => ∃ response token, result = .ok response ∧
        response.session = some token ∧ token.user = user from
    Request.leaves_iff_run.mp granted
  refine Request.leaves_bind.mpr (Request.leaves_ofExcept.mpr
    ⟨fun other same => ?_, fun _ fails => nomatch valid.symm.trans fails⟩)
  obtain rfl := Except.ok.inj (valid.symm.trans same)
  refine Request.leaves_bind.mpr (Request.leaves_ofExcept.mpr
    ⟨fun _ _ => ?_, fun _ fails => nomatch named.symm.trans fails⟩)
  refine Request.leaves_bind.mpr (Request.leaves_ofExcept.mpr
    ⟨fun _ _ => ?_, fun _ fails => nomatch strong.symm.trans fails⟩)
  refine Request.leaves_bind.mpr (Request.leaves_bind.mpr
    (Request.leaves_load.mpr ?_))
  simp only [applyAll_nil, found]
  refine Request.leaves_pure.mpr (Request.leaves_bind.mpr
    (leaves_forUser fun token next owned _ => Request.leaves_pure.mpr ?_))
  exact ⟨_, token, rfl, rfl, owned⟩

/-- A login answers with tokens for its password. -/
theorem login_leaves
    (production : security.deployEnv = "production")
    (env : Env) (email password : String) :
    (login security forms env email password).Leaves db [] fun result _ _ =>
      ∀ response token, result = .ok response → response.session = some token →
        IsPassword security password token.user db := by
  refine Request.leaves_bind.mpr (Request.leaves_ofExcept.mpr
    ⟨fun parsed valid => ?_, fun _ _ => nofun⟩)
  refine Request.leaves_bind.mpr (Request.leaves_bind.mpr
    (Request.leaves_load.mpr (Request.leaves_pure.mpr ?_)))
  refine Request.leaves_bind.mpr (Request.leaves_orFail.mpr
    ⟨fun pair matched => ?_, fun _ => nofun⟩)
  obtain ⟨id, stored⟩ := pair
  obtain ⟨found, checked⟩ := Option.filter_eq_some_iff.mp matched
  have verified : security.verifyPassword stored.password password = true := by
    have both := (Bool.and_eq_true_iff.mp checked).1
    simpa [checkPassword, production] using both
  refine Request.leaves_bind.mpr (Request.leaves_atomic.mpr
    (Prog.post_exec.mpr (Request.leaves_bind.mpr
      (leaves_forUser fun token next owned _ => Request.leaves_pure.mpr ?_))))
  intro response other answered same
  obtain rfl := Except.ok.inj answered
  obtain rfl := Option.some.inj same
  rw [owned]
  exact ⟨stored, row_of_userByEmail found, verified⟩

/-- What holds of every end holds of the end of a request. -/
theorem leaves_always
    {α : Type} {request : Handler α} {pending : List Stmt}
    {goal : Except Error α → Db → List Stmt → Prop}
    (always : ∀ result next later, goal result next later) :
    request.Leaves db pending goal :=
  always _ _ _

/-- A token that is verified is valid and not revoked. -/
theorem verifyRefreshToken_leaves
    {env : Env} {text : String}
    {goal : Except Error (Option RefreshToken) → Db → List Stmt → Prop}
    (verified : ∀ found, (∀ token, found = some token →
      security.decode env.now text = some token ∧
        isBlacklisted token.jti db = false) → goal (.ok found) db []) :
    (verifyRefreshToken security env text).Leaves db [] goal := by
  unfold verifyRefreshToken
  cases decoded : security.decode env.now text with
  | none => exact verified none nofun
  | some token =>
      refine Request.leaves_bind.mpr (Request.leaves_load.mpr
        (Request.leaves_pure.mpr (verified _ fun other valid => ?_)))
      simp only [applyAll_nil] at valid
      cases revoked : isBlacklisted token.jti db with
      | true => simp [revoked] at valid
      | false =>
          obtain rfl : token = other := by simpa [revoked] using valid
          exact ⟨decoded, revoked⟩

/-- A refresh answers with tokens for a token that is not revoked. -/
theorem refresh_leaves (env : Env) (cookie body : Option String) :
    (refresh security env cookie body).Leaves db [] fun result _ _ =>
      ∀ response token, result = .ok response → response.session = some token →
        IsSession security env.now (rawRefreshToken cookie body) token.user
          db := by
  refine Request.leaves_bind.mpr (Request.leaves_orFail.mpr
    ⟨fun text sent => ?_, fun _ => nofun⟩)
  refine Request.leaves_bind.mpr
    (verifyRefreshToken_leaves fun verified same => ?_)
  refine Request.leaves_bind.mpr (Request.leaves_orFail.mpr
    ⟨fun old valid => ?_, fun _ => nofun⟩)
  obtain ⟨decoded, unrevoked⟩ := same old valid
  refine Request.leaves_bind.mpr (Request.leaves_load.mpr (Request.leaves_bind.mpr
    (Request.leaves_orFail.mpr ⟨fun found there => ?_, fun _ => nofun⟩)))
  refine Request.leaves_bind.mpr (Request.leaves_require.mpr
    ⟨fun active => ?_, fun _ => nofun⟩)
  refine Request.leaves_bind.mpr (leaves_forUser fun token next owned _ => ?_)
  refine Request.leaves_bind.mpr (leaves_always fun result last later => ?_)
  cases result with
  | error error => nofun
  | ok value =>
      intro response other answered same
      obtain rfl := Except.ok.inj answered
      obtain rfl := Option.some.inj same
      exact ⟨text, old, sent, decoded, owned.symm, unrevoked⟩

/-- The handler answers without tokens, wherever it runs. -/
def Bare (request : Handler Response) : Prop :=
  ∀ db pending, request.Leaves db pending fun result _ _ =>
    ∀ response, result = .ok response → response.session = none

theorem Bare.pure {answer : Response} (none : answer.session = none) :
    Bare (Pure.pure answer) := by
  intro db pending response answered
  obtain rfl := Except.ok.inj answered
  exact none

theorem Bare.bind
    {α : Type} {first : Handler α} {rest : α → Handler Response}
    (late : ∀ value, Bare (rest value)) : Bare (first >>= rest) := by
  intro db pending
  refine Request.leaves_bind.mpr (leaves_always fun result next later => ?_)
  cases result with
  | error error => nofun
  | ok value => exact late value next later

/-- The other views answer without tokens. -/
theorem session_bare
    {call : SessionCall}
    (other : ∀ env cookie body, call ≠ .refresh env cookie body) :
    Bare ((AuthCall.session call).call security forms) := by
  cases call with
  | refresh env cookie body => exact absurd rfl (other env cookie body)
  | logout => exact .bind fun _ => .bind fun _ => .pure rfl
  | passwordChange =>
      exact .bind fun _ => .bind fun _ => .bind fun _ => .bind fun _ =>
        .bind fun _ => .pure rfl
  | passwordResetConfirm =>
      exact .bind fun _ => .bind fun _ => .bind fun _ => .bind fun _ =>
        .bind fun _ => .bind fun _ => .bind fun _ => .pure rfl
  | deactivate => exact .bind fun _ => .bind fun _ => .bind fun _ => .pure rfl

/-- What every token of an answer meets. -/
theorem granted_of_leaves
    {call : AuthCall} (goal : UserId → Db → Prop)
    (grants : call.Grants security forms user db)
    (leaves : (call.call security forms).Leaves db [] fun result next _ =>
      ∀ response token, result = .ok response → response.session = some token →
        goal token.user next) :
    goal user (call.answer security forms db).2 := by
  obtain ⟨response, token, answered, session, rfl⟩ := grants
  exact leaves response token answered session

theorem not_granted_of_bare
    {call : AuthCall} (bare : Bare (call.call security forms)) :
    ¬call.Grants security forms user db := by
  rintro ⟨response, token, answered, session, _⟩
  exact nomatch (bare db [] response answered).symm.trans session

/-- A request is for the owner exactly if it registers no taken email. -/
theorem proven_iff_untaken
    (production : security.deployEnv = "production") (call : AuthCall)
    (db : Db) :
    call.Proven security forms db ↔ call.Untaken security forms db := by
  cases call with
  | register env form =>
      constructor
      · intro proven email accepted id stored found
        have row := row_of_userByEmail found
        rcases proven id (register_taken accepted found env) with
          ⟨same, present, verified⟩ | ⟨fresh, _⟩
        · obtain rfl := Option.some.inj (row.symm.trans present)
          exact verified
        · exact nomatch fresh.symm.trans row
      · intro untaken user grants
        have granted := granted_of_leaves (fun owner next =>
          (∃ email stored, Accepted security forms form email ∧
            userByEmail email db = some (owner, stored)) ∨
          db.users.row owner = none ∧ (next.users.row owner).isSome = true)
          grants (register_leaves env form)
        rcases granted with ⟨email, stored, accepted, found⟩ | opened
        · exact .inl ⟨stored, row_of_userByEmail found,
            untaken email accepted _ stored found⟩
        · exact .inr opened
  | login env email password =>
      refine iff_of_true (fun user grants => .inl ?_) trivial
      exact granted_of_leaves (fun owner _ =>
        IsPassword security password owner db) grants
        (login_leaves production env email password)
  | passwordResetRequest email =>
      refine iff_of_true (fun user grants => absurd grants ?_) trivial
      exact not_granted_of_bare (.bind fun _ => .pure rfl)
  | session call =>
      refine iff_of_true (fun user grants => ?_) trivial
      cases call with
      | refresh env cookie body =>
          exact .inl (granted_of_leaves (fun owner _ =>
            IsSession security env.now (rawRefreshToken cookie body) owner db)
            grants (refresh_leaves env cookie body))
      | _ =>
          exact absurd grants (not_granted_of_bare (session_bare (by simp)))

/-! ## Runs -/

/-- Accounts are never deleted. -/
theorem account_stays
    {sent : Nat × AuthCall} (present : (db.users.row user).isSome = true) :
    ((Request.run (sent.2.call security forms) db).2.users.row user).isSome =
      true := by
  refine Request.keeps_of_statements (sent.2.call security forms)
    (fun db : Db => (db.users.row user).isSome = true) ?_ present
  intro stmt current there
  obtain ⟨stored, row⟩ := Option.isSome_iff_exists.mp there
  cases stmt with
  | insertUser id value =>
      exact Option.isSome_iff_exists.mpr
        ⟨stored, Table.row_insert_of_some id value row⟩
  | saveUser id set =>
      change ((current.users.modify id set).row user).isSome = true
      rw [Table.row_modify]
      split_ifs <;> simp [row]
  | _ => exact there

/-- What the clients of a run send, one after the other. -/
def perform (security : Security) (forms : Forms) (sent : Nat × AuthCall) :
    Handler Response :=
  sent.2.call security forms

/-- The client presents no secret of the user. -/
def Ignorant
    (security : Security) (client : Nat) (user : UserId)
    (sent : Nat × AuthCall) (db : Db) : Prop :=
  sent.1 = client → ¬sent.2.Presents security user db

/--
In production, every answer of a run is for the proven owner of its tokens if
and only if no registration names the email of an account without its password.
Then nobody gets tokens of an account without a secret of it.
-/
theorem tokens_proven_iff
    (security : Security) (forms : Forms) (calls : List (Nat × AuthCall))
    (db : Db) (production : security.deployEnv = "production") :
    (Request.AllMeet (perform security forms)
        (fun sent => sent.2.Proven security forms) calls db ↔
      Request.AllMeet (perform security forms)
        (fun sent => sent.2.Untaken security forms) calls db) ∧
    (Request.AllMeet (perform security forms)
        (fun sent => sent.2.Untaken security forms) calls db →
      ∀ client user, (db.users.row user).isSome = true →
        Request.AllMeet (perform security forms) (Ignorant security client user)
          calls db →
        Request.AllMeet (perform security forms)
          (fun sent current => sent.1 = client →
            ¬sent.2.Grants security forms user current) calls db) := by
  have exactly : ∀ (sent : Nat × AuthCall) current,
      sent.2.Proven security forms current ↔
        sent.2.Untaken security forms current :=
    fun sent current => proven_iff_untaken production sent.2 current
  refine ⟨⟨fun met => ?_, fun met => ?_⟩,
    fun met client user present ignorant => ?_⟩
  · exact met.along (fun _ => True) (fun _ _ _ _ => trivial) trivial
      fun sent current proven _ => (exactly sent current).mp proven
  · exact met.along (fun _ => True) (fun _ _ _ _ => trivial) trivial
      fun sent current untaken _ => (exactly sent current).mpr untaken
  · refine (met.both ignorant).along
      (fun current : Db => (current.users.row user).isSome = true)
      (fun sent current _ there => account_stays there) present ?_
    rintro sent current ⟨untaken, unaware⟩ there same grants
    rcases (exactly sent current).mpr untaken user grants with presents | opens
    · exact unaware same presents
    · simp [opens.1] at there

/-- The libraries with passwords in plain text and tokens by number. -/
def plainSecurity : Security where
  decode _ _ := none
  makePassword _ password := password
  verifyPassword stored raw := stored = raw
  validatePassword _ := .ok ()
  decodeUid _ := none
  checkResetToken _ _ _ _ := false

/-- Fields that accept every text as it is. -/
def plainForms : Forms where
  emailField := .ok
  nameField := .ok
  lower := id
  normalizeEmail := id

/-- The marketplace has one account. -/
def oneAccount : Db where
  users := .insert .empty 1
    { email := "taken@example.com", password := "existing-pass-123" }

/-- A stranger registers the email of the account. -/
def impostor : AuthCall :=
  .register { now := 0 }
    { email := "taken@example.com"
      name := "Impostor"
      password := "strong-pass-123" }

/-- The stranger gets tokens of the account. -/
theorem impostor_granted :
    ¬∀ (security : Security) (forms : Forms) (calls : List (Nat × AuthCall))
      (db : Db), security.deployEnv = "production" →
      Request.AllMeet (perform security forms)
        (fun sent => sent.2.Proven security forms) calls db := by
  intro proven
  have found : userByEmail "taken@example.com" oneAccount =
      some (1, ⟨"taken@example.com", "existing-pass-123", true, none⟩) := by
    decide +kernel
  have accepted : Accepted plainSecurity plainForms
      ⟨"taken@example.com", "Impostor", "strong-pass-123"⟩
      "taken@example.com" :=
    ⟨⟨_, rfl, by decide +kernel⟩, ⟨_, rfl⟩, by decide +kernel⟩
  have granted : impostor.Grants plainSecurity plainForms 1 oneAccount :=
    register_taken accepted found { now := 0 }
  have first := proven plainSecurity plainForms [(0, impostor)] oneAccount rfl
  rcases first.1 1 granted with ⟨stored, row, verified⟩ | ⟨fresh, _⟩
  · obtain rfl := Option.some.inj ((row_of_userByEmail found).symm.trans row)
    exact absurd verified (by decide)
  · exact nomatch (row_of_userByEmail found).symm.trans fresh

/-- The owner signs in, and a visitor registers. -/
def visitors : List (Nat × AuthCall) :=
  [(0, .login { now := 1 } "taken@example.com" "existing-pass-123"),
    (1, .register { now := 2, key := 1 }
      { email := "new@example.com"
        name := "Visitor"
        password := "strong-pass-123" })]

/-- The visitor gets no tokens of the owner's account. -/
theorem visitors_proven :
    Request.AllMeet (perform plainSecurity plainForms)
      (fun sent => sent.2.Proven plainSecurity plainForms) visitors oneAccount ∧
    Request.AllMeet (perform plainSecurity plainForms)
      (fun sent current => sent.1 = 1 →
        ¬sent.2.Grants plainSecurity plainForms 1 current)
      visitors oneAccount := by
  obtain ⟨proven, unknown⟩ :=
    tokens_proven_iff plainSecurity plainForms visitors oneAccount rfl
  have untaken : Request.AllMeet (perform plainSecurity plainForms)
      (fun sent => sent.2.Untaken plainSecurity plainForms) visitors
        oneAccount := by
    refine ⟨trivial, fun email accepted id stored found => ?_, trivial⟩
    obtain ⟨parsed, valid, rfl⟩ := accepted.email
    obtain rfl := Except.ok.inj valid
    revert found
    have free : userByEmail (plainForms.lower (strip "new@example.com"))
        (Request.run (perform plainSecurity plainForms
          (0, .login { now := 1 } "taken@example.com" "existing-pass-123"))
          oneAccount).2 = none := by
      decide +kernel
    simp [free]
  refine ⟨proven.mpr untaken, unknown untaken 1 1 (by decide +kernel)
    ⟨nofun, fun _ => ?_, trivial⟩⟩
  rintro ⟨stored, row, verified⟩
  have same : ((Request.run (perform plainSecurity plainForms
      (0, .login { now := 1 } "taken@example.com" "existing-pass-123"))
      oneAccount).2.users.row 1).map User.password =
        some "existing-pass-123" := by
    decide +kernel
  rw [row] at same
  have password := Option.some.inj same
  simp [plainSecurity, password] at verified

end Accounts

end KnowledgeMarketplace
