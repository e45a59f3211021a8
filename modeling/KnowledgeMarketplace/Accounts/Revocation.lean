import KnowledgeMarketplace.Accounts.Rotation

/-!
# Rotation and revocation

Where no refresh issues its token in a race, a token is exchanged once, and a
revocation that has finished leaves no descendant of what it has found.
-/

namespace KnowledgeMarketplace

open Transaction

namespace Accounts

/-! ## Races -/

/-- A refresh has issued its new token. -/
def Exchanged (security : Security) (call : SessionCall) (page : Page)
    (old : RefreshToken) (fresh : Jti) : Prop :=
  presented security call = some old ∧ issued call = some fresh ∧
    0 < page.commits

/--
A refresh issues its new token while the old one is not blacklisted, nobody
else has exchanged the old one without having ended, and no revocation under
way has listed it.
-/
def Unraced
    (security : Security) (calls : Nat → SessionCall) (notes : Nat → Page)
    (client : Nat) (_ : List Stmt) (db : Db) : Prop :=
  ∀ old, presented security (calls client) = some old →
    (notes client).commits = 0 →
    isBlacklisted old.jti db = false ∧
    (∀ other token fresh,
      Exchanged security (calls other) (notes other) token fresh →
      token.jti = old.jti → (notes other).stage = .finished) ∧
    ∀ other user listed token, revokes security (calls other) = some user →
      (notes other).stage = .running → (notes other).listed = some listed →
      listed.outstanding.row old.jti = some token → token.user ≠ user

/-- The chain of exchanges from one token to another. -/
inductive Descends
    (security : Security) (calls : Nat → SessionCall) (notes : Nat → Page)
    (first : Jti) : Jti → Prop where
  | refl : Descends security calls notes first first
  | exchange {client : Nat} {old : RefreshToken} {fresh : Jti} :
      Descends security calls notes first old.jti →
      Exchanged security (calls client) (notes client) old fresh →
      Descends security calls notes first fresh

/-- The tables only grow. -/
structure Grows (first second : Db) : Prop where
  outstanding : ∀ jti token, first.outstanding.row jti = some token →
    second.outstanding.row jti = some token
  blacklisted : ∀ jti, isBlacklisted jti first = true →
    isBlacklisted jti second = true

theorem Grows.refl (db : Db) : Grows db db :=
  ⟨fun _ _ present => present, fun _ listed => listed⟩

theorem grows_applyAll (stmts : List Stmt) (db : Db) :
    Grows db (applyAll stmts db) :=
  ⟨fun _ _ => outstanding_applyAll, fun _ listed =>
    isBlacklisted_applyAll.mpr (.inl listed)⟩

/-- What the page of a request says about the tables. -/
structure Holds
    (security : Security) (call : SessionCall) (page : Page) (db : Db) :
    Prop where
  looked : page.before = none → page.commits = 0
  committed : page.listed ≠ none → 0 < page.commits
  known : ∀ jti, page.revoked jti → isBlacklisted jti db = true
  before : ∀ look, page.before = some look → Grows look db
  listed : ∀ look, page.listed = some look → Grows look db
  grown : ∀ first second, page.before = some first →
    page.listed = some second → Grows first second
  ended : page.stage = .finished → Ended security call page
  issued : ∀ old fresh, Exchanged security call page old fresh →
    ∃ token, db.outstanding.row fresh = some token

section Steps

variable {security : Security} {call : SessionCall} {page : Page} {db : Db}

theorem Grows.trans {first second third : Db} (early : Grows first second)
    (late : Grows second third) : Grows first third :=
  ⟨fun jti token present => late.outstanding jti token
    (early.outstanding jti token present),
    fun jti listed => late.blacklisted jti (early.blacklisted jti listed)⟩

/-- Others only add to the tables. -/
theorem Holds.grow {next : Db} (holds : Holds security call page db)
    (grows : Grows db next) : Holds security call page next where
  looked := holds.looked
  committed := holds.committed
  known jti revoked := grows.blacklisted jti (holds.known jti revoked)
  before look same := (holds.before look same).trans grows
  listed look same := (holds.listed look same).trans grows
  grown := holds.grown
  ended := holds.ended
  issued old fresh exchanged := by
    obtain ⟨token, present⟩ := holds.issued old fresh exchanged
    exact ⟨token, grows.outstanding fresh token present⟩

theorem before_look {look : Db}
    (same : (pages.look page db).before = some look) :
    page.before = some look ∨ page.before = none ∧ look = db := by
  cases before : page.before with
  | none =>
      have now : db = look := by simpa [pages, before] using same
      exact .inr ⟨rfl, now.symm⟩
  | some seen => exact .inl (by simpa [pages, before] using same)

theorem listed_look {look : Db}
    (same : (pages.look page db).listed = some look) :
    page.listed = some look ∨ 0 < page.commits ∧ look = db := by
  by_cases positive : 0 < page.commits
  · cases listed : page.listed with
    | none =>
        have now : db = look := by simpa [pages, positive, listed] using same
        exact .inr ⟨positive, now.symm⟩
    | some seen =>
        exact .inl (by simpa [pages, positive, listed] using same)
  · exact .inl (by simpa [pages, positive] using same)

/-- A look notes the tables as they are. -/
theorem Holds.look (holds : Holds security call page db) :
    Holds security call (pages.look page db) db where
  looked none := by
    cases before : page.before <;> simp [pages, before] at none
  committed some := by
    obtain ⟨look, same⟩ := Option.ne_none_iff_exists'.mp some
    rcases listed_look same with earlier | ⟨positive, -⟩
    · exact holds.committed (by simp [earlier])
    · exact positive
  known jti revoked := revoked.elim (holds.known jti) id
  before look same := by
    rcases before_look same with earlier | ⟨-, rfl⟩
    · exact holds.before look earlier
    · exact .refl look
  listed look same := by
    rcases listed_look same with earlier | ⟨-, rfl⟩
    · exact holds.listed look earlier
    · exact .refl look
  grown first second early late := by
    rcases before_look early with earlier | ⟨none, rfl⟩ <;>
      rcases listed_look late with listed | ⟨positive, rfl⟩
    · exact holds.grown first second earlier listed
    · exact holds.before first earlier
    · have committed := holds.committed (by simp [listed])
      exact absurd (holds.looked none) committed.ne'
    · exact .refl second
  ended finished committed :=
    (holds.ended finished committed).continues (pages_look page db)
  issued old fresh exchanged := holds.issued old fresh exchanged

/-- A commit that keeps its promises notes what it has added. -/
theorem Holds.commit {owner : Jti → UserId} {stmts : List Stmt}
    (holds : Holds security call page db)
    (promises : Promises security owner call page stmts) :
    Holds security call (pages.commit page stmts) (applyAll stmts db) := by
  have later := holds.grow (grows_applyAll stmts db)
  refine ⟨fun none => absurd none promises.looked, fun _ => Nat.succ_pos _,
    fun jti revoked => ?_, later.before, later.listed, later.grown,
    fun finished => ?_, ?_⟩
  · rcases revoked with earlier | now
    · exact later.known jti earlier
    · exact isBlacklisted_applyAll.mpr (.inr now)
  · have running : page.stage = .finished := finished
    simp [promises.running] at running
  · rintro old fresh ⟨presents, issues, _⟩
    rcases Nat.eq_zero_or_pos page.commits with first | positive
    · obtain ⟨token, written⟩ := promises.rotates old fresh presents issues first
      exact outstanding_of_issue written
    · exact later.issued old fresh ⟨presents, issues, positive⟩

/-- A request that ends as it should. -/
theorem Holds.close (holds : Holds security call page db)
    (ended : Ended security call page) :
    Holds security call (pages.close page) db := by
  simp only [pages]
  split_ifs
  · exact holds
  · exact ⟨holds.looked, holds.committed, holds.known, holds.before, holds.listed,
      holds.grown, fun _ committed => ⟨(ended committed).old,
        (ended committed).listed⟩, holds.issued⟩

/-- A request that is killed. -/
theorem Holds.abort (holds : Holds security call page db) :
    Holds security call (pages.abort page) db :=
  ⟨holds.looked, holds.committed, holds.known, holds.before, holds.listed,
    holds.grown, fun stopped => by simp [pages] at stopped, holds.issued⟩

end Steps

/-- The invariant of rotation and revocation. -/
structure Kept
    (security : Security) (owner : Jti → UserId) (calls : Nat → SessionCall)
    (notes : Nat → Page) (db : Db) : Prop where
  recorded : ∀ jti token, db.outstanding.row jti = some token →
    token.user = owner jti
  holds : ∀ client, Holds security (calls client) (notes client) db
  once : ∀ first second old other fresh later,
    Exchanged security (calls first) (notes first) old fresh →
    Exchanged security (calls second) (notes second) other later →
    other.jti = old.jti → first = second
  closed : ∀ client user look, revokes security (calls client) = some user →
    (notes client).stage ≠ .stopped → (notes client).listed = some look →
    ∀ other old fresh token,
      Exchanged security (calls other) (notes other) old fresh →
      look.outstanding.row old.jti = some token → token.user = user →
      ∃ token, look.outstanding.row fresh = some token

section Runs

variable {security : Security} {owner : Jti → UserId}
  {calls : Nat → SessionCall} {notes : Nat → Page} {db : Db} {client : Nat}

/-- What only notes more, without a commit, does not exchange a token. -/
theorem exchanged_update
    {page : Page} (same : page.commits = (notes client).commits) {other : Nat}
    {old : RefreshToken} {fresh : Jti} :
    Exchanged security (calls other) (Function.update notes client page other)
        old fresh ↔
      Exchanged security (calls other) (notes other) old fresh := by
  by_cases mover : other = client
  · subst mover
    simp [Exchanged, same]
  · simp [mover]

/-- What a request notes without a commit keeps the invariant. -/
theorem Kept.note {page : Page} (kept : Kept security owner calls notes db)
    (holds : Holds security (calls client) page db)
    (same : page.commits = (notes client).commits)
    (listed : page.stage ≠ .stopped → ∀ look, page.listed = some look →
      (notes client).stage ≠ .stopped ∧ (notes client).listed = some look ∨
        look = db) :
    Kept security owner calls (Function.update notes client page) db where
  recorded := kept.recorded
  holds := by
    rw [Function.forall_update_iff notes fun other page =>
      Holds security (calls other) page db]
    exact ⟨holds, fun other _ => kept.holds other⟩
  once first second old other fresh later exchanged again := by
    rw [exchanged_update same] at exchanged again
    exact kept.once first second old other fresh later exchanged again
  closed query user look concerns running found other old fresh token
      exchanged present owned := by
    rw [exchanged_update same] at exchanged
    by_cases mover : query = client
    · subst mover
      rw [Function.update_self] at running found
      rcases listed running look found with ⟨before, earlier⟩ | rfl
      · exact kept.closed query user look concerns before earlier other old
          fresh token exchanged present owned
      · exact (kept.holds other).issued old fresh exchanged
    · rw [Function.update_of_ne mover] at running found
      exact kept.closed query user look concerns running found other old fresh
        token exchanged present owned

theorem Kept.look (kept : Kept security owner calls notes db) :
    Kept security owner calls
      (Function.update notes client (pages.look (notes client) db)) db := by
  refine kept.note (kept.holds client).look rfl fun running look same => ?_
  exact (listed_look same).imp (fun earlier => ⟨running, earlier⟩) And.right

theorem Kept.close (kept : Kept security owner calls notes db)
    (ended : Ended security (calls client) (notes client)) :
    Kept security owner calls
      (Function.update notes client (pages.close (notes client))) db := by
  have holds := (kept.holds client).close ended
  by_cases stopped : (notes client).stage = .stopped
  · have same : pages.close (notes client) = notes client := if_pos stopped
    rw [same, Function.update_eq_self]
    exact kept
  · have closes : pages.close (notes client) =
        { notes client with stage := .finished } := if_neg stopped
    rw [closes] at holds ⊢
    exact kept.note holds rfl fun _ look same => .inl ⟨stopped, same⟩

theorem Kept.abort (kept : Kept security owner calls notes db) :
    Kept security owner calls
      (Function.update notes client (pages.abort (notes client))) db :=
  kept.note (kept.holds client).abort rfl fun stopped => absurd rfl stopped

/-- An allowed commit exchanges no token again, and none that was listed. -/
theorem Kept.commit {stmts : List Stmt}
    (kept : Kept security owner calls notes db)
    (unraced : Unraced security calls notes client stmts db)
    (promises : Promises security owner (calls client) (notes client) stmts) :
    Kept security owner calls
      (Function.update notes client (pages.commit (notes client) stmts))
      (applyAll stmts db) := by
  -- whatever is exchanged now was exchanged before, or is issued by this commit
  have exchanges : ∀ other old fresh,
      Exchanged security (calls other) (Function.update notes client
        (pages.commit (notes client) stmts) other) old fresh →
      Exchanged security (calls other) (notes other) old fresh ∨
        other = client ∧ presented security (calls client) = some old ∧
          (notes client).commits = 0 := by
    intro other old fresh exchanged
    by_cases mover : other = client
    · subst mover
      obtain ⟨presents, issues, _⟩ := exchanged
      rcases Nat.eq_zero_or_pos (notes other).commits with first | positive
      · exact .inr ⟨rfl, presents, first⟩
      · exact .inl ⟨presents, issues, positive⟩
    · rw [Function.update_of_ne mover] at exchanged
      exact .inl exchanged
  -- nobody else has exchanged what this commit exchanges
  have alone : ∀ other old token fresh,
      presented security (calls client) = some old →
      (notes client).commits = 0 →
      Exchanged security (calls other) (notes other) token fresh →
      token.jti ≠ old.jti := by
    intro other old token fresh presents first exchanged same
    obtain ⟨valid, others, -⟩ := unraced old presents first
    have finished := others other token fresh exchanged same
    have revoked := ((kept.holds other).ended finished exchanged.2.2).old token
      exchanged.1
    have listed := (kept.holds other).known _ revoked
    rw [same, valid] at listed
    simp at listed
  refine ⟨fun jti token present => ?_, ?_, ?_, ?_⟩
  · exact (outstanding_cases present).elim (kept.recorded jti token)
      (promises.owned jti token)
  · rw [Function.forall_update_iff notes fun other page =>
      Holds security (calls other) page (applyAll stmts db)]
    exact ⟨(kept.holds client).commit promises, fun other _ =>
      (kept.holds other).grow (grows_applyAll stmts db)⟩
  · intro first second old other fresh later exchanged again same
    rcases exchanges first old fresh exchanged with before | ⟨rfl, presents, none⟩ <;>
      rcases exchanges second other later again with
        earlier | ⟨rfl, presented, still⟩
    · exact kept.once first second old other fresh later before earlier same
    · exact absurd same.symm (alone first other old fresh presented still before)
    · exact absurd same (alone second old other later presents none earlier)
    · rfl
  · intro query user look concerns running found other old fresh token
      exchanged present owned
    have page : (Function.update notes client
        (pages.commit (notes client) stmts) query).stage =
          (notes query).stage ∧ (Function.update notes client
        (pages.commit (notes client) stmts) query).listed =
          (notes query).listed := by
      by_cases mover : query = client
      · subst mover
        simp [pages]
      · simp [mover]
    rw [page.1] at running
    rw [page.2] at found
    rcases exchanges other old fresh exchanged with
      before | ⟨rfl, presents, first⟩
    · exact kept.closed query user look concerns running found other old fresh
        token before present owned
    · -- a token that was listed is blacklisted, or the revocation is under way
      obtain ⟨valid, -, others⟩ := unraced old presents first
      have committed := (kept.holds query).committed (by simp [found])
      cases stage : (notes query).stage with
      | running =>
          exact absurd owned
            (others query user look token concerns stage found present)
      | stopped => exact absurd stage running
      | finished =>
          obtain ⟨seen, same, all⟩ :=
            ((kept.holds query).ended stage committed).listed user concerns
          obtain rfl := Option.some.inj (same.symm.trans found)
          have listed := (kept.holds query).known _
            (all old.jti token present owned)
          simp [valid] at listed

end Runs

/--
In any interleaving where no refresh issues its token in a race, no token is
exchanged twice, and whatever descends from a token that a finished revocation
has found is blacklisted.
-/
theorem sessions_revoked
    {security : Security} {owner : Jti → UserId} {db : Db}
    {calls : Nat → SessionCall} {notes : Nat → Page} {system : Sessions}
    (signed : Signed security owner db calls)
    (noted : System.Noted pages (Unraced security calls) {} db
      (fun client => (calls client).call security) notes system) :
    (∀ first second old other fresh later,
      Exchanged security (calls first) (notes first) old fresh →
      Exchanged security (calls second) (notes second) other later →
      other.jti = old.jti → first = second) ∧
    ∀ client user look, revokes security (calls client) = some user →
      (notes client).stage = .finished → 0 < (notes client).commits →
      (notes client).before = some look ∨ (notes client).listed = some look →
      ∀ jti ∈ outstandingTokens user look, ∀ later,
        Descends security calls notes jti later →
          isBlacklisted later system.committed = true := by
  have blank : Kept security owner calls (fun _ => {}) db := by
    refine ⟨signed.recorded, fun client => ?_, ?_, ?_⟩
    · exact ⟨fun _ => rfl, fun some => absurd rfl some, fun _ => False.elim,
        by simp, by simp, by simp, by simp, fun _ _ exchanged =>
          absurd exchanged.2.2 (lt_irrefl 0)⟩
    · exact fun _ _ _ _ _ _ exchanged =>
        absurd exchanged.2.2 (lt_irrefl 0)
    · simp
  have kept : _ ∧ Kept security owner calls notes system.committed :=
    noted.keeps (fun client => call_follows signed client) blank
      (fun _ _ _ kept => kept.look)
      (fun _ _ _ _ unraced promises kept => kept.commit unraced promises)
      (fun _ _ _ _ ended kept => kept.close ended)
      fun _ _ _ kept => kept.abort
  obtain ⟨-, kept⟩ := kept
  refine ⟨kept.once, ?_⟩
  intro client user look concerns finished committed seen jti found later
    descends
  have holds := kept.holds client
  obtain ⟨listed, same, all⟩ := (holds.ended finished committed).listed user
    concerns
  have running : (notes client).stage ≠ .stopped := by simp [finished]
  suffices there : ∃ token, listed.outstanding.row later = some token ∧
      token.user = user by
    obtain ⟨token, present, owned⟩ := there
    exact holds.known later (all later token present owned)
  induction descends with
  | refl =>
      obtain ⟨token, present, owned⟩ := mem_outstandingTokens.mp found
      refine ⟨token, ?_, owned⟩
      rcases seen with before | now
      · exact (holds.grown look listed before same).outstanding jti token present
      · obtain rfl := Option.some.inj (now.symm.trans same)
        exact present
  | @exchange other old fresh _ exchanged inductionHypothesis =>
      obtain ⟨token, present, owned⟩ := inductionHypothesis
      obtain ⟨next, there⟩ := kept.closed client user listed concerns running
        same other old fresh token exchanged present owned
      refine ⟨next, there, ?_⟩
      -- the new token belongs to the user of the old one
      have recorded := (holds.listed listed same).outstanding
      have mine := kept.recorded fresh next (recorded fresh next there)
      have theirs := kept.recorded old.jti token (recorded _ token present)
      calc
        next.user = owner fresh := mine
        _ = old.user := signed.drawn other old fresh exchanged.1 exchanged.2.1
        _ = owner old.jti := signed.of_presented exchanged.1
        _ = token.user := theirs.symm
        _ = user := owned

/-! ## Two races -/

/-- A hasher that stores passwords as they are, and two known tokens. -/
def plain : Security where
  decode _ raw := if raw = "laptop" then some ⟨5, 1, days 7⟩ else none
  makePassword _ password := password
  verifyPassword stored raw := stored = raw
  validatePassword _ := .ok ()
  decodeUid _ := none
  checkResetToken _ _ _ _ := false

/-- One user with one session. -/
def signedIn : Db where
  users := .insert .empty 1
    { email := "priya@example.org", password := "long-password-123" }
  outstanding := .insert .empty 5 ⟨1, days 7⟩

/-- Two refreshes of one token. -/
def twoTabs : Nat → SessionCall
  | 0 => .refresh { now := hours 1, key := 6 } (some "laptop") none
  | _ => .refresh { now := hours 1, key := 7 } (some "laptop") none

/-- A refresh, and a change of the password. -/
def refreshAndChange : Nat → SessionCall
  | 0 => .refresh { now := hours 1, key := 6 } (some "laptop") none
  | _ => .passwordChange { now := hours 1 } 1 "long-password-123"
      "longer-password-456"

/-- The clients run for these numbers of turns, one after the other. -/
def slices (parts : List (Nat × Nat)) : List (Event (Except Error Response)) :=
  parts.flatMap fun part => List.replicate part.2 (.run part.1)

/-- The response of a client that has ended. -/
def answered (system : Sessions) (client : Nat) : Option Response :=
  match (system.clients client).proc with
  | .halt (.ok response) => some response
  | _ => none

/-- The clients are about to start. -/
def start (calls : Nat → SessionCall) : Sessions :=
  System.init signedIn fun client => (calls client).call plain

/-- The second tab exchanges the token that the first one has just checked. -/
def bothTabs : Sessions :=
  (start twoTabs).runAll (slices [(0, 2), (1, 20), (0, 20)])

/-- The password is changed while a refresh has checked its token. -/
def lateRefresh : Sessions :=
  (start refreshAndChange).runAll (slices [(0, 2), (1, 20), (0, 20)])

/--
Both tabs exchange one token, and the new token of the late refresh is good
after the password change.
-/
theorem sessions_race :
    presented plain (twoTabs 0) = presented plain (twoTabs 1) ∧
      (answered bothTabs 0).map Response.session =
        some (some ⟨6, 1, hours 1 + days 7⟩) ∧
      (answered bothTabs 1).map Response.session =
        some (some ⟨7, 1, hours 1 + days 7⟩) ∧
      presented plain (refreshAndChange 0) = some ⟨5, 1, days 7⟩ ∧
      5 ∈ outstandingTokens 1 signedIn ∧
      answered lateRefresh 1 =
        some (clearAuthCookies "Password changed. Please sign in again.") ∧
      (answered lateRefresh 0).map Response.session =
        some (some ⟨6, 1, hours 1 + days 7⟩) ∧
      isBlacklisted 6 lateRefresh.committed = false := by
  decide +kernel

theorem signed_plain (calls : Nat → SessionCall) :
    Signed plain (fun _ => 1) signedIn calls where
  decoded now raw token decoded := by
    by_cases same : raw = "laptop"
    · simp [plain, same] at decoded
      simp [← decoded]
    · simp [plain, same] at decoded
  recorded jti token present := by
    have there : (Table.insert .empty 5 ⟨1, days 7⟩ :
        Table Jti OutstandingToken).row jti = some token := present
    rcases Table.row_insert_cases there with old | ⟨-, rfl, -⟩
    · simp at old
    · rfl
  drawn client old fresh presents _ := by
    cases call : calls client with
    | refresh env cookie body =>
        rw [call] at presents
        obtain ⟨raw, -, decoded⟩ := Option.bind_eq_some_iff.mp presents
        by_cases same : raw = "laptop"
        · simp [plain, same] at decoded
          simp [← decoded]
        · simp [plain, same] at decoded
    | _ => simp [call, presented] at presents

/-- A refresh that runs on its own is not in a race. -/
theorem unraced_alone
    {calls : Nat → SessionCall} {system : Sessions} {count : Nat}
    {stmts : List Stmt} {db : Db} (client : Nat)
    (valid : ∀ old, presented plain (calls client) = some old →
      isBlacklisted old.jti db = false) :
    Unraced plain calls (system.noteAll pages
      (List.replicate count (.run client)) fun _ => {}) client stmts db := by
  intro old presents first
  have blank : ∀ other, other ≠ client → system.noteAll pages
      (List.replicate count (.run client)) (fun _ => {}) other = ({} : Page) :=
    fun other different => System.noteAll_other different count
  refine ⟨valid old presents, fun other token fresh exchanged _ => ?_,
    fun other user listed token concerns _ found _ => ?_⟩
  · by_cases mover : other = client
    · subst mover
      exact absurd first exchanged.2.2.ne'
    · have committed := exchanged.2.2
      rw [blank other mover] at committed
      exact absurd committed (lt_irrefl 0)
  · by_cases mover : other = client
    · subst mover
      cases call : calls other <;>
        simp [call, presented, revokes] at presents concerns
    · rw [blank other mover] at found
      simp at found

/-- The refresh on its own. -/
def refreshed : Sessions :=
  (start refreshAndChange).runAll (List.replicate 8 (.run 0))

/-- What is noted of it. -/
def refreshPages : Nat → Page :=
  System.noteAll pages (start refreshAndChange) (List.replicate 8 (.run 0))
    fun _ => {}

/-- What is noted after the password change that follows. -/
def changePages : Nat → Page :=
  System.noteAll pages refreshed (List.replicate 9 (.run 1)) refreshPages

theorem refreshed_noted :
    System.Noted pages (Unraced plain refreshAndChange) {} signedIn
      (fun client => (refreshAndChange client).call plain) refreshPages
      refreshed := by
  have begun : System.Noted pages (Unraced plain refreshAndChange) {} signedIn
      (fun client => (refreshAndChange client).call plain) _
      (start refreshAndChange) := .start
  have issues := begun.quietly (List.replicate 3 (.run 0)) (by decide +kernel)
  have rotates := System.Noted.step (.run 0) issues fun client stmts same _ => by
    obtain rfl : 0 = client := by simpa using same
    refine unraced_alone 0 fun old presents => ?_
    have checked : (presented plain (refreshAndChange 0)).all fun old =>
        !isBlacklisted old.jti ((start refreshAndChange).runAll
          (List.replicate 3 (.run 0))).committed := by
      decide +kernel
    simpa [presents] using checked
  have settles := rotates.quietly (List.replicate 3 (.run 0)) (by decide +kernel)
  have once : (System.noteAll pages (start refreshAndChange)
      (List.replicate 7 (.run 0)) (fun _ => {}) 0).commits = 1 := by
    decide +kernel
  refine System.Noted.step (.run 0) settles fun client stmts same _ => ?_
  obtain rfl : 0 = client := by simpa using same
  exact fun old _ first => absurd (once.symm.trans first) one_ne_zero

/-- A refresh, and then the password change: both tokens are blacklisted. -/
theorem sessions_revoked_in_turn :
    let system := (start refreshAndChange).runAll (slices [(0, 8), (1, 9)])
    isBlacklisted 5 system.committed = true ∧
      isBlacklisted 6 system.committed = true := by
  intro system
  have always : ∀ notes stmts db,
      Unraced plain refreshAndChange notes 1 stmts db :=
    fun _ _ _ _ presents => by simp [presented, refreshAndChange] at presents
  have noted := refreshed_noted.runs always 9
  obtain ⟨-, revoked⟩ := sessions_revoked (signed_plain _) noted
  obtain ⟨look, before, found⟩ : ∃ look, (changePages 1).before = some look ∧
      5 ∈ outstandingTokens 1 look :=
    ⟨_, rfl, by decide +kernel⟩
  have all := revoked 1 1 look rfl (by decide +kernel) (by decide +kernel)
    (.inl before) 5 found
  have exchanged : Exchanged plain (refreshAndChange 0) (changePages 0)
      ⟨5, 1, days 7⟩ 6 :=
    ⟨by decide +kernel, rfl, by decide +kernel⟩
  exact ⟨all 5 .refl, all 6 (.exchange .refl exchanged)⟩

end Accounts

end KnowledgeMarketplace
