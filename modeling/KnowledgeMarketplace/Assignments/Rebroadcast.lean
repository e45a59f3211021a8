import KnowledgeMarketplace.Assignments.Services
import KnowledgeMarketplace.Transaction.Alone

/-!
# Re-broadcasting invitations

Staff select ended invitations and send fresh ones.  The action inserts a
second invitation of the same expert to the same request, which the unique
constraint of the table refuses.
-/

namespace KnowledgeMarketplace

open Transaction

namespace Assignments

/-- The selected invitations that are expired or declined. -/
def endedInvitations (selected : List InvitationId) (db : Db) :
    List PoolInvitation :=
  (selected.filterMap db.invitations.row).filter fun invitation =>
    invitation.status = .expired || invitation.status = .declined

/--
The admin action on selected invitations; every round reads the clock and
inserts in a transaction of its own.
-/
def reinvite
    (env : Env) (clock : Nat → Time) (admin : UserId)
    (selected : List InvitationId) : Call Unit := do
  let ended ← Call.load (endedInvitations selected)
  Call.forEach ended.zipIdx fun (invitation, index) =>
    Call.atomic <| Tx.create (.invitation (env.key + index))
      (fun db => (db.invitations.row (env.key + index)).isSome ||
        invited invitation.request invitation.expert db)
      (.insertInvitation (env.key + index)
        { request := invitation.request
          expert := invitation.expert
          expiresAt := clock index + hours 48
          invitedBy := admin }) "PoolInvitation"

/-- Ended invitations to one managed request. -/
structure Selection
    (id : RequestId) (selected : List InvitationId) (db : Db) : Prop where
  managed : ∃ request, db.requests.row id = some request ∧
    request.mode = .managed
  ended : ∀ key ∈ selected, ∃ invitation,
    db.invitations.row key = some invitation ∧ invitation.request = id ∧
      (invitation.status = .expired ∨ invitation.status = .declined)

/-- The pending invitations of an expert to a request. -/
def pendingInvitations (id : RequestId) (expert : UserId) (db : Db) :
    List InvitationId :=
  db.invitations.select fun _ invitation =>
    invitation.request = id && invitation.expert = expert &&
      invitation.status = .pending

/-- The action succeeds, and each selected expert has one fresh invitation. -/
structure Rebroadcast
    (clock : Nat → Time) (id : RequestId) (selected : List InvitationId)
    (db : Db) (result : Except Error Unit) (next : Db) : Prop where
  succeeds : result = .ok ()
  fresh : ∀ key ∈ selected, ∀ invitation,
    db.invitations.row key = some invitation →
      ∃ pending row index, pendingInvitations id invitation.expert next =
          [pending] ∧ next.invitations.row pending = some row ∧
        row.expiresAt = clock index + hours 48
  ordered : orderExists id db = true → ∀ expert,
    pendingInvitations id expert next = pendingInvitations id expert db

variable {id : RequestId} {selected : List InvitationId} {db : Db}

/-- A selected invitation is one of its expert to the request. -/
theorem Selection.invited
    (selection : Selection id selected db) {key : InvitationId}
    (member : key ∈ selected) :
    ∃ invitation, db.invitations.row key = some invitation ∧
      invitation ∈ endedInvitations selected db ∧
        invited id invitation.expert db = true := by
  obtain ⟨invitation, stored, about, status⟩ := selection.ended key member
  refine ⟨invitation, stored, ?_, ?_⟩
  · simp only [endedInvitations, List.mem_filter, List.mem_filterMap]
    exact ⟨⟨key, member, stored⟩, by simpa using status⟩
  · exact Table.any_eq_true.mpr ⟨key, invitation, stored, by simp [about]⟩

/-- The constraint refuses the first of the fresh invitations. -/
theorem reinvite_refused
    (selection : Selection id selected db) (chosen : selected ≠ [])
    (env : Env) (clock : Nat → Time) (admin : UserId) :
    Request.run (reinvite env clock admin selected) db =
      (.error (.integrity "PoolInvitation"), db) := by
  have about : ∀ invitation ∈ endedInvitations selected db,
      Assignments.invited invitation.request invitation.expert db = true := by
    intro invitation member
    simp only [endedInvitations, List.mem_filter, List.mem_filterMap] at member
    obtain ⟨⟨key, _, stored⟩, _⟩ := member
    exact Table.any_eq_true.mpr ⟨key, invitation, stored, by simp⟩
  obtain ⟨key, member⟩ := List.exists_mem_of_ne_nil selected chosen
  obtain ⟨_, _, ended, _⟩ := selection.invited member
  suffices whole : Request.Leaves (reinvite env clock admin selected) db []
      fun result next _ =>
        (result, next) = (.error (.integrity "PoolInvitation"), db) from
    Request.leaves_iff_run.mp whole
  refine Request.leaves_bind.mpr (Request.leaves_load.mpr ?_)
  rw [applyAll_nil]
  cases present : endedInvitations selected db with
  | nil => simp [present] at ended
  | cons first rest =>
      have taken := about first (by simp [present])
      refine Request.leaves_bind.mpr (Request.leaves_atomic.mpr ?_)
      simp [Tx.create, taken]

/--
The re-broadcast does what staff ask for only if nothing was selected: the old
invitation of a selected expert is still in the table.
-/
theorem rebroadcast_iff_nothing
    (env : Env) (clock : Nat → Time) (admin : UserId) (id : RequestId)
    (selected : List InvitationId) (db : Db)
    (selection : Selection id selected db) :
    let reached := Request.run (reinvite env clock admin selected) db
    Rebroadcast clock id selected db reached.1 reached.2 ↔ selected = [] := by
  intro reached
  constructor
  · intro done
    by_contra chosen
    have refused := reinvite_refused selection chosen env clock admin
    have succeeds := done.succeeds
    simp only [reached, refused] at succeeds
    exact nomatch succeeds
  · rintro rfl
    exact ⟨rfl, nofun, fun _ _ => rfl⟩

/-- A pooled request whose only invitation has expired. -/
def poolExpired : Db :=
  { requests := .insert .empty 10
      { student := 1, mode := .managed, status := .pooled }
    invitations := .insert .empty 20
      { request := 10
        expert := 2
        status := .expired
        expiresAt := 50
        invitedBy := 9 } }

theorem poolExpired_selection : Selection 10 [20] poolExpired where
  managed := ⟨_, rfl, rfl⟩
  ended := by
    intro key member
    obtain rfl := List.mem_singleton.mp member
    exact ⟨_, rfl, rfl, .inl rfl⟩

/-- Without a selection the action does what it should, with one it fails. -/
theorem rebroadcast_expired :
    let reached := fun selected => Request.run
      (reinvite { now := 100, key := 21 } (fun _ => 100) 9 selected) poolExpired
    Rebroadcast (fun _ => 100) 10 [] poolExpired (reached []).1 (reached []).2 ∧
      ¬Rebroadcast (fun _ => 100) 10 [20] poolExpired (reached [20]).1
        (reached [20]).2 :=
  ⟨(rebroadcast_iff_nothing _ _ _ _ _ _
      ⟨poolExpired_selection.managed, by simp⟩).mpr rfl,
    fun done => List.cons_ne_nil _ _ ((rebroadcast_iff_nothing _ _ _ _ _ _
      poolExpired_selection).mp done)⟩

/-- The database refuses the fresh invitation of the expert. -/
theorem reinvite_fails :
    let reached := Request.run
      (reinvite { now := 100, key := 21 } (fun _ => 100) 9 [20]) poolExpired
    Selection 10 [20] poolExpired ∧
      reached.1 = .error (.integrity "PoolInvitation") ∧
      ¬Rebroadcast (fun _ => 100) 10 [20] poolExpired reached.1 reached.2 := by
  have failed : (Request.run
      (reinvite { now := 100, key := 21 } (fun _ => 100) 9 [20])
        poolExpired).1 = .error (.integrity "PoolInvitation") := by
    decide +kernel
  refine ⟨poolExpired_selection, failed, fun done => ?_⟩
  exact nomatch failed.symm.trans done.succeeds

end Assignments

end KnowledgeMarketplace
