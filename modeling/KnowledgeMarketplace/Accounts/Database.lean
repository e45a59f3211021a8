import KnowledgeMarketplace.Core.Errors
import KnowledgeMarketplace.Database.Rows
import KnowledgeMarketplace.Transaction.Schedule
import KnowledgeMarketplace.Transaction.Table

/-!
# Users and their refresh tokens

The tables of the accounts application and of the token blacklist.  Every
statement of the views is committed on its own.
-/

namespace KnowledgeMarketplace

open Transaction

namespace Accounts

/-- The unique identifier of a refresh token. -/
abbrev Jti := Nat

/-- A user; the password is stored as a hash. -/
structure User where
  email : String
  password : String
  isActive : Bool := true
  lastLogin : Option Time := none
  deriving DecidableEq

/-- The record of a refresh token that was issued. -/
structure OutstandingToken where
  user : UserId
  expiresAt : Time
  deriving DecidableEq

/-- The tables; a blacklisted token stays blacklisted. -/
structure Db where
  users : Table UserId User := .empty
  outstanding : Table Jti OutstandingToken := .empty
  blacklisted : List Jti := []

inductive Row where
  | user (id : UserId)
  | outstanding (jti : Jti)
  | blacklisted (jti : Jti)
  deriving DecidableEq

/-- Saves of a user, and inserts under a unique identifier. -/
inductive Stmt where
  | insertUser (id : UserId) (user : User)
  | saveUser (id : UserId) (set : User → User)
  | issue (jti : Jti) (token : OutstandingToken)
  | blacklist (jti : Jti)

namespace Stmt

def apply (db : Db) : Stmt → Db
  | insertUser id user => { db with users := db.users.insert id user }
  | saveUser id set => { db with users := db.users.modify id set }
  | issue jti token =>
      { db with outstanding := db.outstanding.insert jti token }
  | blacklist jti =>
      { db with
        blacklisted :=
          if jti ∈ db.blacklisted then db.blacklisted
          else db.blacklisted ++ [jti] }

def rows : Stmt → List Row
  | insertUser id _ => [.user id]
  | saveUser id _ => [.user id]
  | issue jti _ => [.outstanding jti]
  | blacklist jti => [.blacklisted jti]

end Stmt

instance : Store Db Row Stmt where
  apply stmt db := stmt.apply db
  rows := Stmt.rows

@[simp] theorem store_apply (stmt : Stmt) (db : Db) :
    Store.apply stmt db = stmt.apply db :=
  rfl

/-- The token is on the blacklist. -/
def isBlacklisted (jti : Jti) (db : Db) : Bool :=
  db.blacklisted.contains jti

/-- The tokens that were issued to a user. -/
def outstandingTokens (user : UserId) (db : Db) : List Jti :=
  db.outstanding.select fun _ token => token.user = user

/-- A token is blacklisted by its own statement, and stays so. -/
theorem isBlacklisted_apply {jti : Jti} {stmt : Stmt} {db : Db} :
    isBlacklisted jti (stmt.apply db) = true ↔
      isBlacklisted jti db = true ∨ stmt = .blacklist jti := by
  cases stmt with
  | blacklist key =>
      simp only [isBlacklisted, List.contains_iff_mem, Stmt.apply,
        Stmt.blacklist.injEq]
      by_cases there : key ∈ db.blacklisted
      · rw [if_pos there]
        refine ⟨.inl, ?_⟩
        rintro (before | rfl)
        · exact before
        · exact there
      · rw [if_neg there, List.mem_append, List.mem_singleton]
        exact or_congr_right eq_comm
  | _ => simp [isBlacklisted, Stmt.apply]

theorem isBlacklisted_applyAll {jti : Jti} {stmts : List Stmt} {db : Db} :
    isBlacklisted jti (applyAll stmts db) = true ↔
      isBlacklisted jti db = true ∨ .blacklist jti ∈ stmts := by
  induction stmts generalizing db with
  | nil => simp
  | cons stmt rest inductionHypothesis =>
      rw [applyAll_cons, inductionHypothesis, store_apply, isBlacklisted_apply,
        List.mem_cons, or_assoc]
      refine or_congr_right (or_congr_left ?_)
      exact eq_comm

/-- Issued tokens stay, and new ones are inserted by their own statement. -/
theorem outstanding_apply
    {jti : Jti} {token : OutstandingToken} {stmt : Stmt} {db : Db}
    (present : db.outstanding.row jti = some token) :
    (stmt.apply db).outstanding.row jti = some token := by
  cases stmt with
  | issue key value => exact Table.row_insert_of_some key value present
  | _ => exact present

theorem outstanding_applyAll
    {jti : Jti} {token : OutstandingToken} {stmts : List Stmt} {db : Db}
    (present : db.outstanding.row jti = some token) :
    (applyAll stmts db).outstanding.row jti = some token :=
  applyAll_keeps (fun now : Db => now.outstanding.row jti = some token)
    (fun _ _ _ => outstanding_apply) present

/-- After an issue there is a token of that identifier. -/
theorem outstanding_of_issue
    {jti : Jti} {token : OutstandingToken} {stmts : List Stmt} {db : Db}
    (issues : .issue jti token ∈ stmts) :
    ∃ found, (applyAll stmts db).outstanding.row jti = some found := by
  induction stmts generalizing db with
  | nil => simp at issues
  | cons stmt rest inductionHypothesis =>
      rcases List.mem_cons.mp issues with rfl | later
      · have there : ∃ found, ((Stmt.issue jti token).apply
            db).outstanding.row jti = some found := by
          cases stored : db.outstanding.row jti with
          | none => exact ⟨token, Table.row_insert_self token stored⟩
          | some found =>
              exact ⟨found, Table.row_insert_of_some jti token stored⟩
        obtain ⟨found, present⟩ := there
        rw [applyAll_cons]
        exact ⟨found, outstanding_applyAll present⟩
      · exact inductionHypothesis later

/-- A token was there before, or it is issued now. -/
theorem outstanding_cases
    {jti : Jti} {token : OutstandingToken} {stmts : List Stmt} {db : Db}
    (present : (applyAll stmts db).outstanding.row jti = some token) :
    db.outstanding.row jti = some token ∨ .issue jti token ∈ stmts := by
  induction stmts generalizing db with
  | nil => exact .inl present
  | cons stmt rest inductionHypothesis =>
      rcases inductionHypothesis present with early | late
      · cases stmt with
        | issue key value =>
            rcases Table.row_insert_cases early with old | ⟨rfl, rfl, -⟩
            · exact .inl old
            · exact .inr List.mem_cons_self
        | _ => exact .inl early
      · exact .inr (List.mem_cons_of_mem _ late)

theorem mem_outstandingTokens {jti : Jti} {user : UserId} {db : Db} :
    jti ∈ outstandingTokens user db ↔
      ∃ token, db.outstanding.row jti = some token ∧ token.user = user := by
  simp [outstandingTokens, Table.mem_select]

end Accounts

end KnowledgeMarketplace
