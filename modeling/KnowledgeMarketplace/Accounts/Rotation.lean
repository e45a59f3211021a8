import KnowledgeMarketplace.Accounts.Sessions
import KnowledgeMarketplace.Transaction.Journal

/-!
# What the views of sessions commit

A refresh checks the blacklist, issues the new token and only then blacklists
the old one; a revocation lists the tokens of its user once and blacklists them
one after the other.
-/

namespace KnowledgeMarketplace

open Transaction

namespace Accounts

/-! ## What is noted of a request -/

/-- How far a request has come. -/
inductive Stage where
  | running
  | finished
  | stopped
  deriving DecidableEq

/--
What a request has seen first, what it has seen first after its first commit,
and which tokens it has seen or made blacklisted.
-/
structure Page where
  before : Option Db := none
  listed : Option Db := none
  commits : Nat := 0
  revoked : Jti → Prop := fun _ => False
  stage : Stage := .running

/-- The journal of the views. -/
def pages : Journal Db Stmt Page where
  look page db :=
    { page with
      before := page.before.or (some db)
      listed :=
        if 0 < page.commits then page.listed.or (some db) else page.listed
      revoked := fun jti => page.revoked jti ∨ isBlacklisted jti db = true }
  commit page stmts :=
    { page with
      commits := page.commits + 1
      revoked := fun jti => page.revoked jti ∨ .blacklist jti ∈ stmts }
  close page :=
    if page.stage = .stopped then page else { page with stage := .finished }
  abort page := { page with stage := .stopped }

/-- What later pages of the same request keep. -/
structure Page.Continues (page later : Page) : Prop where
  before : ∀ db, page.before = some db → later.before = some db
  listed : ∀ db, page.listed = some db → later.listed = some db
  commits : page.commits ≤ later.commits
  revoked : ∀ jti, page.revoked jti → later.revoked jti
  stage : later.stage = page.stage

theorem Page.Continues.refl (page : Page) : page.Continues page :=
  ⟨fun _ same => same, fun _ same => same, le_refl _, fun _ known => known, rfl⟩

theorem Page.Continues.trans
    {first second third : Page} (early : first.Continues second)
    (late : second.Continues third) : first.Continues third where
  before db same := late.before db (early.before db same)
  listed db same := late.listed db (early.listed db same)
  commits := early.commits.trans late.commits
  revoked jti known := late.revoked jti (early.revoked jti known)
  stage := late.stage.trans early.stage

theorem pages_look (page : Page) (db : Db) :
    page.Continues (pages.look page db) where
  before _ same := by simp [pages, same]
  listed _ same := by simp [pages, same]
  commits := le_refl _
  revoked _ known := .inl known
  stage := rfl

theorem pages_commit (page : Page) (stmts : List Stmt) :
    page.Continues (pages.commit page stmts) where
  before _ same := same
  listed _ same := same
  commits := Nat.le_succ _
  revoked _ known := .inl known
  stage := rfl

/-! ## What the requests are about -/

/-- The token that a refresh presents. -/
def presented (security : Security) : SessionCall → Option RefreshToken
  | .refresh env cookie body =>
      (rawRefreshToken cookie body).bind (security.decode env.now)
  | _ => none

/-- The identifier of the token that a refresh issues. -/
def issued : SessionCall → Option Jti
  | .refresh env _ _ => some env.key
  | _ => none

/-- The user whose sessions a request revokes. -/
def revokes (security : Security) : SessionCall → Option UserId
  | .passwordChange _ caller _ _ | .deactivate caller => some caller
  | .passwordResetConfirm _ uid _ _ => security.decodeUid uid
  | _ => none

/--
A token identifier belongs to one user.  Tokens that decode were signed with
it, the recorded tokens carry it, and a refresh draws the identifier of the new
token for the user of the old one.
-/
structure Signed
    (security : Security) (owner : Jti → UserId) (db : Db)
    (calls : Nat → SessionCall) : Prop where
  decoded : ∀ now raw token, security.decode now raw = some token →
    token.user = owner token.jti
  recorded : ∀ jti token, db.outstanding.row jti = some token →
    token.user = owner jti
  drawn : ∀ client old fresh, presented security (calls client) = some old →
    issued (calls client) = some fresh → owner fresh = old.user

theorem Signed.of_presented
    {security : Security} {owner : Jti → UserId} {db : Db}
    {calls : Nat → SessionCall} {call : SessionCall} {old : RefreshToken}
    (signed : Signed security owner db calls)
    (presents : presented security call = some old) :
    old.user = owner old.jti := by
  cases call with
  | refresh env cookie body =>
      obtain ⟨raw, -, decoded⟩ := Option.bind_eq_some_iff.mp presents
      exact signed.decoded env.now raw old decoded
  | _ => simp [presented] at presents

/-- What a request promises of its commits; a refresh begins with the issue. -/
structure Promises
    (security : Security) (owner : Jti → UserId) (call : SessionCall)
    (page : Page) (stmts : List Stmt) : Prop where
  running : page.stage = .running
  looked : page.before ≠ none
  owned : ∀ jti token, .issue jti token ∈ stmts → token.user = owner jti
  rotates : ∀ old fresh, presented security call = some old →
    issued call = some fresh → page.commits = 0 →
      ∃ token, .issue fresh token ∈ stmts

/-- What a request that has committed leaves blacklisted at its end. -/
structure Revoked
    (security : Security) (call : SessionCall) (page : Page) : Prop where
  old : ∀ old, presented security call = some old → page.revoked old.jti
  listed : ∀ user, revokes security call = some user →
    ∃ db, page.listed = some db ∧
      ∀ jti token, db.outstanding.row jti = some token → token.user = user →
        page.revoked jti

/-- A request that has not committed anything has nothing to revoke. -/
def Ended (security : Security) (call : SessionCall) (page : Page) : Prop :=
  0 < page.commits → Revoked security call page

theorem Revoked.continues
    {security : Security} {call : SessionCall} {page later : Page}
    (revoked : Revoked security call page) (continues : page.Continues later) :
    Revoked security call later where
  old old same := continues.revoked _ (revoked.old old same)
  listed user same := by
    obtain ⟨db, listed, all⟩ := revoked.listed user same
    exact ⟨db, continues.listed db listed, fun jti token present owned =>
      continues.revoked jti (all jti token present owned)⟩

section Views

variable {security : Security} {owner : Jti → UserId} {call : SessionCall}
  {page : Page}

/-- A request that has looked, and has issued its token if it issues one. -/
structure Underway (call : SessionCall) (page : Page) : Prop where
  running : page.stage = .running
  looked : page.before ≠ none
  committed : issued call = none ∨ 0 < page.commits

theorem Underway.continues
    {later : Page} (underway : Underway call page)
    (continues : page.Continues later) : Underway call later where
  running := continues.stage.trans underway.running
  looked := by
    obtain ⟨db, same⟩ := Option.ne_none_iff_exists'.mp underway.looked
    simp [continues.before db same]
  committed := underway.committed.imp_right
    fun before => before.trans_le continues.commits

/-- Later commits promise nothing but what they issue. -/
theorem Underway.promises
    {stmts : List Stmt} (underway : Underway call page)
    (owned : ∀ jti token, .issue jti token ∈ stmts → token.user = owner jti) :
    Promises security owner call page stmts := by
  refine ⟨underway.running, underway.looked, owned, fun _ _ _ issues first => ?_⟩
  rcases underway.committed with none | committed
  · simp [none] at issues
  · exact absurd first committed.ne'

/-- The token is known to be on the blacklist at the end. -/
def Listed (page : Page) (jti : Jti) (result : Except Error Unit)
    (later : Page) (stmts : List Stmt) : Prop :=
  result = .ok () ∧ stmts = [] ∧ page.Continues later ∧ later.revoked jti

/-- A token is seen on the blacklist, or put there. -/
theorem getOrCreateBlacklisted_follows
    (jti : Jti) (underway : Underway call page) :
    (getOrCreateBlacklisted jti).Follows pages (Promises security owner call)
      page [] (Listed page jti) := by
  simp only [getOrCreateBlacklisted, Handler.exec, Request.follows_bind,
    Request.follows_load, Request.follows_ite, Request.follows_pure,
    Request.follows_exec, applyAll_nil]
  intro db
  have seen := pages_look page db
  refine ⟨fun present => ⟨rfl, rfl, seen, .inr present⟩, fun _ => ⟨?_, ?_⟩⟩
  · exact (underway.continues seen).promises (by simp)
  · exact ⟨rfl, rfl, seen.trans (pages_commit _ _), .inr (by simp)⟩

/-- A valid token of its owner is put on the blacklist. -/
theorem blacklist_follows
    {token : RefreshToken} (owned : token.user = owner token.jti)
    (underway : Underway call page) :
    (blacklist token).Follows pages (Promises security owner call) page []
      (Listed page token.jti) := by
  have lists : ∀ {later : Page}, page.Continues later →
      (getOrCreateBlacklisted token.jti).Follows pages
        (Promises security owner call) later [] (Listed page token.jti) := by
    intro later continues
    have still := underway.continues continues
    refine (getOrCreateBlacklisted_follows token.jti still).mono ?_
    rintro result last stmts ⟨ok, none, grown, revoked⟩
    exact ⟨ok, none, continues.trans grown, revoked⟩
  simp only [blacklist, Handler.exec, Request.follows_bind,
    Request.follows_load, Request.follows_ite, Request.follows_exec,
    applyAll_nil]
  intro db
  have seen := pages_look page db
  refine ⟨fun _ => lists seen, fun _ => ⟨?_, ?_⟩⟩
  · exact (underway.continues seen).promises (by simp [owned])
  · exact lists (seen.trans (pages_commit _ _))

/-- All listed tokens of the user are blacklisted at the end. -/
theorem revokeSessions_follows
    {user : UserId} (underway : Underway call page)
    (committed : 0 < page.commits) (unlisted : page.listed = none) :
    (revokeSessions user).Follows pages (Promises security owner call) page []
      fun result later stmts => result = .ok () ∧ stmts = [] ∧
        ∃ db, later.listed = some db ∧
          ∀ jti token, db.outstanding.row jti = some token →
            token.user = user → later.revoked jti := by
  simp only [revokeSessions, Request.follows_bind, Request.follows_load,
    applyAll_nil]
  intro db
  have seen := pages_look page db
  have lists : (pages.look page db).listed = some db := by
    simp [pages, unlisted, committed]
  have rounds : (Request.forEach (outstandingTokens user db)
      getOrCreateBlacklisted).Follows pages (Promises security owner call)
      (pages.look page db) [] fun result later stmts =>
        result = .ok () ∧ stmts = [] ∧ (pages.look page db).Continues later ∧
          ∀ jti ∈ outstandingTokens user db, jti ∉ [] → later.revoked jti := by
    refine Request.follows_forEach
      (fun rest later => (pages.look page db).Continues later ∧
        ∀ jti ∈ outstandingTokens user db, jti ∉ rest → later.revoked jti)
      ?_ ⟨.refl _, fun jti member absent => absurd member absent⟩
    rintro jti rest later ⟨continues, done⟩
    have still := (underway.continues seen).continues continues
    refine (getOrCreateBlacklisted_follows jti still).mono ?_
    rintro result after stmts ⟨ok, none, grown, revoked⟩
    refine ⟨ok, none, continues.trans grown, fun other member absent => ?_⟩
    by_cases same : other = jti
    · exact same ▸ revoked
    · have missing : other ∉ jti :: rest := by simp [same, absent]
      exact grown.revoked other (done other member missing)
  refine rounds.mono ?_
  rintro result later stmts ⟨ok, none, continues, done⟩
  refine ⟨ok, none, db, continues.listed db lists,
    fun jti token present owned => ?_⟩
  have member := mem_outstandingTokens.mpr ⟨token, present, owned⟩
  exact done jti member (by simp)

/-- A token that decodes and is not on the blacklist passes. -/
theorem verifyRefreshToken_follows
    {promise : Page → List Stmt → Prop} {env : Env} {raw : String}
    {goal : Except Error (Option RefreshToken) → Page → List Stmt → Prop}
    (fails : ∀ later, later.commits = page.commits →
      goal (.ok none) later [])
    (passes : ∀ token db, security.decode env.now raw = some token →
      goal (.ok (some token)) (pages.look page db) []) :
    (verifyRefreshToken security env raw).Follows pages promise page []
      goal := by
  unfold verifyRefreshToken
  split
  · exact fails page rfl
  · rename_i token decoded
    simp only [Request.follows_bind, Request.follows_load, Request.follows_pure]
    intro db
    change goal (.ok (if isBlacklisted token.jti db = true then none
      else some token)) (pages.look page db) []
    split
    · exact fails _ rfl
    · exact passes token db decoded

/-- A refresh issues the new token, then blacklists the old one. -/
theorem refresh_follows
    {env : Env} {cookie body : Option String}
    (decoded : ∀ now raw token, security.decode now raw = some token →
      token.user = owner token.jti)
    (drawn : ∀ old,
      presented security (.refresh env cookie body) = some old →
      owner env.key = old.user) :
    (refresh security env cookie body).Follows pages
      (Promises security owner (.refresh env cookie body)) {} []
      fun _ later _ => Ended security (.refresh env cookie body) later := by
  have idle : ∀ {later : Page}, later.commits = 0 →
      Ended security (.refresh env cookie body) later :=
    fun none committed => absurd none committed.ne'
  simp only [refresh, forUser, Handler.exec, Request.follows_bind,
    Request.follows_orFail, Request.follows_pure]
  refine ⟨fun raw found => ?_, fun _ => idle rfl⟩
  refine verifyRefreshToken_follows ?_ ?_
  · intro later none
    exact ⟨by simp, fun _ => idle none⟩
  intro old db same
  have presents : presented security (.refresh env cookie body) = some old :=
    Option.bind_eq_some_iff.mpr ⟨raw, found, same⟩
  refine ⟨?_, by simp⟩
  rintro _ ⟨⟩ second
  refine ⟨fun user _ => ?_, fun _ => idle rfl⟩
  simp only [Request.follows_require, Request.follows_exec]
  refine ⟨fun _ => ⟨⟨rfl, by simp [pages], by simp [drawn old presents], ?_⟩, ?_⟩,
    fun _ => idle rfl⟩
  · rintro other fresh _ ⟨⟩ _
    exact ⟨_, List.mem_singleton_self _⟩
  · have underway : Underway (.refresh env cookie body) (pages.commit
        (pages.look (pages.look {} db) second) [.issue env.key
          ⟨old.user, env.now + security.refreshTokenLifetime⟩]) :=
      ⟨rfl, by simp [pages], .inr (by simp [pages])⟩
    refine (blacklist_follows (decoded env.now raw old same) underway).mono ?_
    rintro result later stmts ⟨rfl, rfl, _, revoked⟩ _
    refine ⟨fun other same => ?_, by simp [revokes]⟩
    obtain rfl := Option.some.inj (presents.symm.trans same)
    exact revoked

/-- A logout blacklists what it presents. -/
theorem logout_follows
    {env : Env} {cookie body : Option String}
    (decoded : ∀ now raw token, security.decode now raw = some token →
      token.user = owner token.jti) :
    (logout security env cookie body).Follows pages
      (Promises security owner (.logout env cookie body)) {} []
      fun _ later _ => Ended security (.logout env cookie body) later := by
  have ended : ∀ later : Page, Ended security (.logout env cookie body) later :=
    fun _ _ => ⟨by simp [presented], by simp [revokes]⟩
  simp only [logout, Request.follows_bind, Request.follows_pure]
  cases rawRefreshToken cookie body with
  | none => exact ended _
  | some raw =>
      refine verifyRefreshToken_follows (fun later _ => ended later) ?_
      intro token db same
      have underway : Underway (.logout env cookie body) (pages.look {} db) :=
        ⟨rfl, by simp [pages], .inl rfl⟩
      have lists : (blacklist token).Follows pages
          (Promises security owner (.logout env cookie body)) _ [] _ :=
        blacklist_follows (decoded env.now raw token same) underway
      refine lists.mono ?_
      rintro (error | value) later stmts _ <;> exact ended later

/-- Nothing was committed yet, so nothing has to be revoked. -/
theorem ended_of_idle (idle : page.commits = 0) : Ended security call page :=
  fun committed => absurd idle committed.ne'

/-- A request that saves its user, then revokes the sessions. -/
theorem saveUser_follows
    {user : UserId} {set : User → User} {response : Response}
    (concerns : revokes security call = some user) (quiet : issued call = none)
    (about : presented security call = none)
    (running : page.stage = .running) (looked : page.before ≠ none)
    (unlisted : page.listed = none) :
    (do
      Handler.exec (.saveUser user set)
      revokeSessions user
      return response : Handler Response).Follows pages
      (Promises security owner call) page [] fun _ later _ =>
        Ended security call later := by
  simp only [Handler.exec, Request.follows_bind, Request.follows_exec,
    Request.follows_pure]
  have underway : Underway call (pages.commit page [.saveUser user set]) :=
    ⟨running, looked, .inl quiet⟩
  refine ⟨⟨running, looked, by simp, by simp [about]⟩, ?_⟩
  refine (revokeSessions_follows underway (by simp [pages]) unlisted).mono ?_
  rintro result later stmts ⟨rfl, rfl, revoked⟩ _
  refine ⟨by simp [about], fun other same => ?_⟩
  obtain rfl := Option.some.inj (concerns.symm.trans same)
  exact revoked

/-- Whoever is not an active user gets an error, before any commit. -/
theorem authenticate_follows
    {promise : Page → List Stmt → Prop} {caller : UserId}
    {goal : Except Error User → Page → List Stmt → Prop}
    (fails : ∀ error db, goal (.error error) (pages.look page db) [])
    (passes : ∀ user db, goal (.ok user) (pages.look page db) []) :
    (authenticate caller).Follows pages promise page [] goal := by
  simp only [authenticate, Request.follows_bind, Request.follows_load,
    Request.follows_orFail, Request.follows_require, Request.follows_pure]
  exact fun db => ⟨fun user _ => ⟨fun _ => passes user db,
    fun _ => fails _ db⟩, fun _ => fails _ db⟩

theorem passwordChange_follows
    (env : Env) (caller : UserId) (currentPassword password : String) :
    let call := SessionCall.passwordChange env caller currentPassword password
    (call.call security).Follows pages (Promises security owner call) {} []
      fun _ later _ => Ended security call later := by
  refine Request.follows_bind.mpr (authenticate_follows
    (fun _ _ => ended_of_idle rfl) fun user db => ?_)
  refine Request.follows_bind.mpr (Request.follows_ofExcept.mpr
    ⟨fun _ _ => ?_, fun _ _ => ended_of_idle rfl⟩)
  refine Request.follows_bind.mpr (Request.follows_require.mpr
    ⟨fun _ => ?_, fun _ => ended_of_idle rfl⟩)
  exact saveUser_follows rfl rfl rfl rfl (by simp [pages]) rfl

theorem passwordResetConfirm_follows
    (env : Env) (uid token password : String) :
    let call := SessionCall.passwordResetConfirm env uid token password
    (call.call security).Follows pages (Promises security owner call) {} []
      fun _ later _ => Ended security call later := by
  refine Request.follows_bind.mpr (Request.follows_ofExcept.mpr
    ⟨fun _ _ => ?_, fun _ _ => ended_of_idle rfl⟩)
  refine Request.follows_bind.mpr (Request.follows_orFail.mpr
    ⟨fun id concerns => ?_, fun _ => ended_of_idle rfl⟩)
  refine Request.follows_bind.mpr (Request.follows_load.mpr fun db => ?_)
  refine Request.follows_bind.mpr (Request.follows_orFail.mpr
    ⟨fun user _ => ?_, fun _ => ended_of_idle rfl⟩)
  refine Request.follows_bind.mpr (Request.follows_require.mpr
    ⟨fun _ => ?_, fun _ => ended_of_idle rfl⟩)
  exact saveUser_follows concerns rfl rfl rfl (by simp [pages]) rfl

theorem deactivate_follows (caller : UserId) :
    let call := SessionCall.deactivate caller
    (call.call security).Follows pages (Promises security owner call) {} []
      fun _ later _ => Ended security call later := by
  refine Request.follows_bind.mpr (authenticate_follows
    (fun _ _ => ended_of_idle rfl) fun user db => ?_)
  exact saveUser_follows rfl rfl rfl rfl (by simp [pages]) rfl

end Views

/-- Every request keeps its promises and ends as it should. -/
theorem call_follows
    {security : Security} {owner : Jti → UserId} {db : Db}
    {calls : Nat → SessionCall} (signed : Signed security owner db calls)
    (client : Nat) :
    ((calls client).call security).Follows pages
      (Promises security owner (calls client)) {} []
      fun _ later _ => Ended security (calls client) later := by
  cases same : calls client with
  | refresh env cookie body =>
      refine refresh_follows signed.decoded fun old presents => ?_
      exact signed.drawn client old env.key (same ▸ presents)
        (by simp [same, issued])
  | logout env cookie body => exact logout_follows signed.decoded
  | passwordChange env caller currentPassword password =>
      exact passwordChange_follows env caller currentPassword password
  | passwordResetConfirm env uid token password =>
      exact passwordResetConfirm_follows env uid token password
  | deactivate caller => exact deactivate_follows caller

end Accounts

end KnowledgeMarketplace
