import KnowledgeMarketplace.Notifications.Services
import KnowledgeMarketplace.Transaction.History

/-!
# What is delivered

Tasks are run at least once, and several may work on one notification.  Each
mail tells what its row says and was agreed to by its recipient; a stamp in the
row tells that the mail has left.
-/

namespace KnowledgeMarketplace

open Transaction

namespace Notifications

/-! ## Who is at work -/

variable {τ : Type}

inductive Party (τ : Type) where
  | notify (env : Env) (recipient : Option UserId)
      (ntype title body url : String)
  | notifyMany (recipients : List (Env × Option UserId))
      (ntype title body url : String)
  | deliver (env : Delivery) (id : NotificationId)
  | markRead (now : Time) (user : UserId) (id : NotificationId)
  | markAllRead (now : Time) (user : UserId)
  | prune (now : Time) (age : Nat)
  | setPreference (user : UserId) (category : String) (enabled : Bool)
  | unsubscribe (now : Time) (token : τ)

namespace Party

def call (signer : Signing.Signer String Claim τ) : Party τ → InboxCall Unit
  | .notify env recipient ntype title body url => do
      let _ ← Request.atomic (Notifications.notify env recipient ntype title
        body url)
      return ()
  | .notifyMany recipients ntype title body url =>
      Notifications.notifyMany recipients ntype title body url
  | .deliver env id => deliverNotification env id
  | .markRead now user id => do
      let _ ← Notifications.markRead now user id
      return ()
  | .markAllRead now user => do
      let _ ← Notifications.markAllRead now user
      return ()
  | .prune now age => do
      let _ ← Notifications.prune now age
      return ()
  | .setPreference user category enabled =>
      Request.atomic (Notifications.setPreference user category enabled)
  | .unsubscribe now token => do
      let _ ← Notifications.unsubscribe signer now token
      return ()

/-- The notification that a task delivers. -/
def delivers : Party τ → Option NotificationId
  | .deliver _ id => some id
  | _ => none

/-- Who may switch mail on or off: its recipient, and a link for it off. -/
def decides (signer : Signing.Signer String Claim τ) (party : Party τ)
    (user : UserId) (category : Category) (enabled : Bool) : Prop :=
  party = .setPreference user category.value enabled ∨
    enabled = false ∧ ∃ now token, party = .unsubscribe now token ∧
      ∃ signed, signer.unsign unsubscribeSalt token =
        some (signed, { u := user, c := category.value }) ∧
          now ≤ signed + unsubscribeMaxAge

end Party

/-! ## What is remembered -/

/-- The mail was found unsent, and its recipient was found to agree. -/
def Consented (looks : List Inbox) (id : NotificationId) (mail : Mail) : Prop :=
  ∃ look ∈ looks, ∃ row address, look.addressed id = some (row, address) ∧
    row.emailedAt = none ∧ mail = row.mail address ∧
    ∃ later ∈ looks, emailEnabled row.recipient row.type later = true

/-- The row was found not pushed yet. -/
def Unpushed (looks : List Inbox) (id : NotificationId) (payload : Push) :
    Prop :=
  ∃ look ∈ looks, ∃ row, look.row id = some row ∧ row.pushedAt = none ∧
    payload = row.push id

/-- What a party commits, as far as it remembers. -/
def Party.good (signer : Signing.Signer String Claim τ) (party : Party τ)
    (memory : Memory Inbox InboxStmt) (stmts : List InboxStmt) :
    InboxStmt → Prop
  | .create id row =>
      row.readAt = none ∧ row.emailedAt = none ∧ row.pushedAt = none ∧
        .enqueue id ∈ stmts
  | .push id payload =>
      party.delivers = some id ∧ Unpushed memory.looks id payload
  | .pushed id _ => ∃ payload, .push id payload ∈ memory.done
  | .send id mail =>
      party.delivers = some id ∧ Consented memory.looks id mail
  | .emailed id _ => ∃ mail, .send id mail ∈ memory.done
  | .prefer user category enabled =>
      category ≠ .account ∧ party.decides signer user category enabled
  | .enqueue _ | .read _ _ | .delete _ => True

def Party.promise (signer : Signing.Signer String Claim τ) (party : Party τ)
    (memory : Memory Inbox InboxStmt) (stmts : List InboxStmt) : Prop :=
  ∀ stmt ∈ stmts, party.good signer memory stmts stmt

variable {signer : Signing.Signer String Claim τ}

theorem value_of_ofValue {value : String} {category : Category}
    (found : Category.ofValue value = some category) :
    value = category.value := by
  have same := List.find?_some found
  simp only [decide_eq_true_eq] at same
  exact same.symm

theorem notify_follows
    (party : Party τ) (memory : Memory Inbox InboxStmt) (env : Env)
    (recipient : Option UserId) (ntype title body url : String) :
    (Request.atomic (notify env recipient ntype title body url)).Follows
      .memory (party.promise signer) memory [] fun _ _ stmts => stmts = [] := by
  refine Request.follows_atomic_remembers ?_
  simp [notify, Party.promise, Party.good]

theorem storePreference_follows
    {party : Party τ} {memory : Memory Inbox InboxStmt} {user : UserId}
    {category : Category} {enabled : Bool} (allowed : category ≠ .account)
    (decides : party.decides signer user category enabled) :
    (Request.atomic (storePreference user category enabled)).Follows .memory
      (party.promise signer) memory [] fun _ _ _ => True := by
  refine Request.follows_atomic_remembers ?_
  simp [storePreference, Party.promise, Party.good, allowed, decides]

/-- One statement in a transaction of its own. -/
@[simp] theorem follows_perform
    {journal : Journal Inbox InboxStmt (Memory Inbox InboxStmt)}
    {promise : Memory Inbox InboxStmt → List InboxStmt → Prop}
    {memory : Memory Inbox InboxStmt} {stmt : InboxStmt}
    {goal : Except InboxError Unit → Memory Inbox InboxStmt →
      List InboxStmt → Prop} :
    (perform stmt).Follows journal promise memory [] goal ↔
      promise memory [stmt] ∧ goal (.ok ()) (journal.commit memory [stmt]) [] :=
  Iff.rfl

theorem pushRealtime_follows
    {env : Delivery} {id : NotificationId} {row : Notification}
    {memory : Memory Inbox InboxStmt}
    (unpushed : Unpushed memory.looks id (row.push id)) :
    (pushRealtime env id row).Follows .memory
      ((Party.deliver env id : Party τ).promise signer) memory []
      fun result later stmts =>
        result = .ok () ∧ stmts = [] ∧ later.looks = memory.looks := by
  unfold pushRealtime
  split <;>
    simp [Party.promise, Party.good, Party.delivers, Journal.memory, unpushed]

theorem sendMail_follows
    {env : Delivery} {id : NotificationId} {mail : Mail}
    {memory : Memory Inbox InboxStmt}
    (consented : Consented memory.looks id mail) :
    (sendMail env id mail).Follows .memory
      ((Party.deliver env id : Party τ).promise signer) memory []
      fun result later stmts => stmts = [] ∧
        (result = .ok () → .send id mail ∈ later.done) := by
  unfold sendMail
  split <;>
    simp [Party.promise, Party.good, Party.delivers, Journal.memory, consented]

/-- The mail and its stamp, after everything that the task has looked at. -/
theorem mailUnsent_follows
    {env : Delivery} {id : NotificationId} {row : Notification}
    {address : String} {memory : Memory Inbox InboxStmt} {look : Inbox}
    (seen : look ∈ memory.looks)
    (found : look.addressed id = some (row, address)) :
    (mailUnsent env id row address).Follows .memory
      ((Party.deliver env id : Party τ).promise signer) memory []
      fun _ _ _ => True := by
  simp only [mailUnsent, Request.follows_ite, Request.follows_bind,
    Request.follows_load, applyAll_nil, Request.follows_pure, implies_true,
    and_true]
  intro unsent later enabled
  have consented : Consented (later :: memory.looks) id (row.mail address) :=
    ⟨look, List.mem_cons_of_mem _ seen, row, address, found, unsent, rfl, later,
      List.mem_cons_self, enabled⟩
  refine (sendMail_follows consented).mono ?_
  intro result after stmts reached
  obtain ⟨rfl, sent⟩ := reached
  cases result with
  | error error => trivial
  | ok value =>
      have left := sent rfl
      simp only [follows_perform, and_true]
      intro stmt member
      obtain rfl := List.mem_singleton.mp member
      exact ⟨_, left⟩

/-- A task remembers what it has looked for before it pushes and mails. -/
theorem deliverNotification_follows (env : Delivery) (id : NotificationId) :
    (deliverNotification env id).Follows .memory
      ((Party.deliver env id : Party τ).promise signer) {} []
      fun _ _ _ => True := by
  unfold deliverNotification
  simp only [Request.follows_bind, Request.follows_load, applyAll_nil,
    Request.follows_orFail, implies_true, and_true]
  intro look copy found
  obtain ⟨row, address⟩ := copy
  have seen : (Journal.memory.look ({} : Memory Inbox InboxStmt) look).looks =
      [look] := rfl
  rw [Request.follows_ite]
  constructor
  · intro unpushed
    have before : look.row id = some row := (addressed_eq_some.mp found).1
    simp only [Request.follows_bind]
    refine (pushRealtime_follows ⟨look, by simp [seen], row, before, unpushed,
      rfl⟩).mono ?_
    intro result after stmts reached
    obtain ⟨rfl, rfl, same⟩ := reached
    simp only [Request.follows_load, applyAll_nil, Request.follows_orFail,
      implies_true, and_true]
    intro again _ _
    have kept : look ∈ (Journal.memory.look after again).looks := by
      simp [Journal.memory, same]
    exact mailUnsent_follows kept found
  · intro _
    have kept : look ∈ (Journal.memory.look
        ({} : Memory Inbox InboxStmt) look).looks := by
      simp [seen]
    exact mailUnsent_follows kept found

/-- A bulk update commits statements of one kind. -/
theorem updateWhere_follows
    {party : Party τ} {keys : Inbox → List NotificationId}
    {holds : NotificationId → Inbox → Bool}
    {row : NotificationId → InboxRow} {stmt : NotificationId → InboxStmt}
    (good : ∀ memory stmts id, party.good signer memory stmts (stmt id)) :
    (Request.atomic (Prog.updateWhere keys holds row stmt) :
      InboxCall Nat).Follows .memory (party.promise signer) {} []
      fun _ _ _ => True := by
  let kind : Effect InboxStmt → Prop
    | .write written => ∃ id, written = stmt id
    | .savepoint => True
  have emits : (Request.atomic (Prog.updateWhere keys holds row stmt) :
      InboxCall Nat).Emits kind fun _ => True :=
    Request.emits_atomic.mpr
      (Prog.emits_updateWhere ⟨fun id => ⟨id, rfl⟩, fun _ => trivial⟩)
  refine Request.follows_of_emits emits fun memory stmts all => ?_
  intro written member
  obtain ⟨id, rfl⟩ := all written member
  exact good memory stmts id

theorem notifyMany_follows
    (party : Party τ) (recipients : List (Env × Option UserId))
    (ntype title body url : String) :
    (notifyMany recipients ntype title body url).Follows .memory
      (party.promise signer) {} [] fun _ _ _ => True := by
  have round : ∀ target ∈ recipients.filter (·.2.isSome), ∀ memory, True →
      (do
        let _ ← Request.atomic (notify target.1 target.2 ntype title body url)
        return () : InboxCall Unit).Follows .memory (party.promise signer)
        memory [] fun _ _ stmts => stmts = [] ∧ True := by
    intro target _ memory _
    have follows : (Request.atomic (notify target.1 target.2 ntype title body
        url)).Follows .memory (party.promise signer) memory [] fun _ _ stmts =>
          stmts = [] :=
      notify_follows party memory target.1 target.2 ntype title body url
    exact (Request.follows_discard follows).mono
      fun _ _ _ empty => ⟨empty, trivial⟩
  have follows : (notifyMany recipients ntype title body url).Follows .memory
      (party.promise signer) {} [] fun _ _ stmts => stmts = [] ∧ True :=
    Request.follows_each (fun _ => True) round trivial
  exact follows.mono fun _ _ _ _ => trivial

theorem unsubscribe_follows
    (now : Time) (token : τ) :
    (unsubscribe signer now token).Follows .memory
      ((Party.unsubscribe now token).promise signer) {} []
      fun _ _ _ => True := by
  unfold unsubscribe
  cases resolved : resolveUnsubscribeToken signer now token with
  | none => trivial
  | some claim =>
      cases named : Category.ofValue claim.c with
      | none => simp [named]
      | some category =>
          have genuine : signer.loads unsubscribeSalt now unsubscribeMaxAge
              token = .ok claim := by
            unfold resolveUnsubscribeToken at resolved
            cases loaded : signer.loads unsubscribeSalt now unsubscribeMaxAge
              token <;> simp_all [Except.toOption]
          obtain ⟨signed, opens, young⟩ :=
            Signing.Signer.loads_eq_ok.mp genuine
          have claims : claim = { u := claim.u, c := category.value } := by
            rw [← value_of_ofValue named]
          simp only [named, Request.follows_ite, Request.follows_pure,
            Request.follows_bind, Request.follows_load, implies_true, true_and,
            and_true]
          intro allowed look _
          refine (storePreference_follows allowed (.inr ⟨rfl, now, token, rfl,
            signed, claims ▸ opens, young⟩)).mono ?_
          intro result after stmts _
          cases result <;> trivial

/-- What parties commit, they may. -/
theorem Party.follows (party : Party τ) :
    (party.call signer).Follows .memory (party.promise signer) {} []
      fun _ _ _ => True := by
  cases party with
  | notify env recipient ntype title body url =>
      exact (Request.follows_discard (notify_follows _ {} env recipient ntype
        title body url)).mono fun _ _ _ _ => trivial
  | notifyMany recipients ntype title body url =>
      exact notifyMany_follows _ recipients ntype title body url
  | deliver env id => exact deliverNotification_follows env id
  | markRead now user id =>
      simp [Party.call, Notifications.markRead, Party.promise, Party.good]
  | markAllRead now user =>
      have follows : (Notifications.markAllRead now user).Follows .memory
          ((Party.markAllRead now user : Party τ).promise signer) {} []
          fun _ _ _ => True := updateWhere_follows fun _ _ _ => trivial
      exact Request.follows_discard follows
  | prune now age =>
      have follows : (Notifications.prune now age).Follows .memory
          ((Party.prune now age : Party τ).promise signer) {} []
          fun _ _ _ => True := updateWhere_follows fun _ _ _ => trivial
      exact Request.follows_discard follows
  | setPreference user category enabled =>
      refine Request.follows_atomic_remembers ?_
      simp only [Notifications.setPreference, Prog.sees_bind, Prog.sees_require,
        Prog.sees_orFail, implies_true, and_true]
      intro other valid found
      obtain rfl := value_of_ofValue found
      have allowed : valid ≠ .account := fun same => other (same ▸ rfl)
      simp [storePreference, Party.promise, Party.good, allowed, Party.decides]
  | unsubscribe now token =>
      exact Request.follows_discard (unsubscribe_follows now token)

/-! ## Rows and what has left -/

/-- The same notification later: no stamp is taken back. -/
structure Ages (row later : Notification) : Prop where
  content : later.content = row.content
  emailed : row.emailedAt.isSome = true → later.emailedAt.isSome = true
  pushed : row.pushedAt.isSome = true → later.pushedAt.isSome = true

theorem Ages.refl (row : Notification) : Ages row row :=
  ⟨rfl, id, id⟩

theorem Ages.trans
    {row middle later : Notification} (first : Ages row middle)
    (second : Ages middle later) : Ages row later :=
  ⟨second.content.trans first.content, second.emailed ∘ first.emailed,
    second.pushed ∘ first.pushed⟩

section Content

variable {row later : Notification} (same : later.content = row.content)

include same

theorem recipient_congr :
    later.recipient = row.recipient ∧ later.type = row.type := by
  simp only [Notification.content, Prod.mk.injEq] at same
  exact ⟨same.1, same.2.1⟩

theorem mail_congr (address : String) :
    later.mail address = row.mail address := by
  simp only [Notification.content, Prod.mk.injEq] at same
  obtain ⟨_, _, title, body, url, _⟩ := same
  simp only [Notification.mail, title, body, url]

theorem push_congr (id : NotificationId) : later.push id = row.push id := by
  simp only [Notification.content, Prod.mk.injEq] at same
  obtain ⟨recipient, type, title, body, url, createdAt⟩ := same
  simp only [Notification.push, recipient, type, title, body, url, createdAt]

end Content

/-- Nothing is taken back. -/
structure Grown (look now : Inbox) : Prop where
  rows : ∀ id row, look.notifications.row id = some row →
    ∃ later, now.notifications.row id = some later ∧ Ages row later
  emails : now.emails = look.emails
  pruned : look.pruned ⊆ now.pruned
  tasks : look.tasks ⊆ now.tasks
  pushes : look.pushes ⊆ now.pushes
  mails : look.mails ⊆ now.mails

theorem Grown.refl (inbox : Inbox) : Grown inbox inbox where
  rows _ row stored := ⟨row, stored, .refl row⟩
  emails := rfl
  pruned := List.Subset.refl _
  tasks := List.Subset.refl _
  pushes := List.Subset.refl _
  mails := List.Subset.refl _

theorem Grown.trans
    {look middle now : Inbox} (first : Grown look middle)
    (second : Grown middle now) : Grown look now where
  rows id row stored := by
    obtain ⟨between, there, ages⟩ := first.rows id row stored
    obtain ⟨later, found, still⟩ := second.rows id between there
    exact ⟨later, found, ages.trans still⟩
  emails := second.emails.trans first.emails
  pruned := List.Subset.trans first.pruned second.pruned
  tasks := List.Subset.trans first.tasks second.tasks
  pushes := List.Subset.trans first.pushes second.pushes
  mails := List.Subset.trans first.mails second.mails

/-- A row that is changed is the same notification. -/
theorem rows_modify
    {inbox : Inbox} {id other : NotificationId} {row : Notification}
    {change : Notification → Notification} (ages : ∀ row, Ages row (change row))
    (stored : inbox.notifications.row other = some row) :
    ∃ later, (inbox.notifications.modify id change).row other = some later ∧
      Ages row later := by
  by_cases same : other = id
  · subst same
    exact ⟨change row, by simp [stored], ages row⟩
  · exact ⟨row, by simp [same, stored], .refl row⟩

theorem Grown.apply (inbox : Inbox) (stmt : InboxStmt) :
    Grown inbox (stmt.apply inbox) := by
  have same := Grown.refl inbox
  cases stmt with
  | create id value =>
      exact { same with rows := fun other row stored =>
        ⟨row, Table.row_insert_of_some id value stored, .refl row⟩ }
  | enqueue id =>
      exact { same with tasks := List.subset_append_left _ _ }
  | read id now | pushed id now | emailed id now =>
      refine { same with rows := fun other row stored => ?_ }
      exact rows_modify (fun row => ⟨rfl, by simp, by simp⟩) stored
  | push id payload =>
      exact { same with pushes := List.subset_append_left _ _ }
  | send id mail =>
      exact { same with mails := List.subset_append_left _ _ }
  | prefer user category enabled => exact { same with rows := same.rows }
  | delete id => exact { same with pruned := List.subset_append_left _ _ }

theorem grown_applyAll (inbox : Inbox) (stmts : List InboxStmt) :
    Grown inbox (applyAll stmts inbox) :=
  applyAll_keeps (Grown inbox ·)
    (fun stmt _ current grown => grown.trans (.apply current stmt))
    (.refl inbox)

/-- What has left the database belongs to the rows, and the stamps to it. -/
structure Truthful (inbox : Inbox) : Prop where
  pushed : ∀ id row, inbox.notifications.row id = some row →
    row.pushedAt.isSome = true → (id, row.push id) ∈ inbox.pushes
  emailed : ∀ id row, inbox.notifications.row id = some row →
    row.emailedAt.isSome = true → ∃ mail, (id, mail) ∈ inbox.mails
  pushes : ∀ id payload, (id, payload) ∈ inbox.pushes →
    ∃ row, inbox.notifications.row id = some row ∧ payload = row.push id
  mails : ∀ id mail, (id, mail) ∈ inbox.mails →
    ∃ row address, inbox.notifications.row id = some row ∧
      inbox.emails row.recipient = some address ∧ mail = row.mail address
  security : ∀ user, inbox.preferences.row (user, .account) = none

/-- Every row has its task. -/
structure InOrder (inbox : Inbox) : Prop extends Truthful inbox where
  queued : ∀ id row, inbox.notifications.row id = some row → id ∈ inbox.tasks

/-- What a statement has left behind. -/
def traced : InboxStmt → Inbox → Prop
  | .push id payload, inbox => (id, payload) ∈ inbox.pushes
  | .send id mail, inbox => (id, mail) ∈ inbox.mails
  | _, _ => True

theorem traced_apply (stmt : InboxStmt) (inbox : Inbox) :
    traced stmt (stmt.apply inbox) := by
  cases stmt <;> simp [traced, InboxStmt.apply]

theorem Grown.traced
    {look now : Inbox} (grown : Grown look now) {stmt : InboxStmt}
    (left : traced stmt look) : Notifications.traced stmt now := by
  cases stmt with
  | push id payload => exact grown.pushes left
  | send id mail => exact grown.mails left
  | _ => trivial

theorem traced_applyAll
    {inbox : Inbox} {stmts : List InboxStmt} {stmt : InboxStmt}
    (member : stmt ∈ stmts) : traced stmt (applyAll stmts inbox) := by
  induction stmts generalizing inbox with
  | nil => simp at member
  | cons first rest inductionHypothesis =>
      rcases List.mem_cons.mp member with rfl | later
      · exact (grown_applyAll _ rest).traced (traced_apply stmt inbox)
      · exact inductionHypothesis later

theorem row_of_visible
    {inbox : Inbox} {id : NotificationId} {row : Notification}
    (found : inbox.row id = some row) :
    inbox.notifications.row id = some row := by
  unfold Inbox.row at found
  split at found
  · simp at found
  · exact found

section Commits

variable {party : Party τ} {memory : Memory Inbox InboxStmt} {origin : Inbox}

/-- A row is a row from before, or one that is created unstamped. -/
theorem row_apply
    {inbox : Inbox} {stmts : List InboxStmt} {stmt : InboxStmt}
    (good : party.good signer memory stmts stmt)
    {id : NotificationId} {later : Notification}
    (stored : (stmt.apply inbox).notifications.row id = some later) :
    (∃ row, inbox.notifications.row id = some row ∧
      later.content = row.content ∧
      (later.emailedAt.isSome = true → row.emailedAt.isSome = true ∨
        ∃ mail, .send id mail ∈ memory.done) ∧
      (later.pushedAt.isSome = true → row.pushedAt.isSome = true ∨
        ∃ payload, .push id payload ∈ memory.done)) ∨
    later.emailedAt = none ∧ later.pushedAt = none ∧ .enqueue id ∈ stmts := by
  cases stmt with
  | create key value =>
      rcases Table.row_insert_cases stored with old | ⟨rfl, rfl, _⟩
      · exact .inl ⟨later, old, rfl, .inl, .inl⟩
      · exact .inr ⟨good.2.1, good.2.2.1, good.2.2.2⟩
  | read key now =>
      rcases Table.row_modify_cases stored with ⟨_, old⟩ | ⟨rfl, row, old, rfl⟩
      · exact .inl ⟨later, old, rfl, .inl, .inl⟩
      · exact .inl ⟨row, old, rfl, .inl, .inl⟩
  | pushed key now =>
      rcases Table.row_modify_cases stored with ⟨_, old⟩ | ⟨rfl, row, old, rfl⟩
      · exact .inl ⟨later, old, rfl, .inl, .inl⟩
      · exact .inl ⟨row, old, rfl, .inl, fun _ => .inr good⟩
  | emailed key now =>
      rcases Table.row_modify_cases stored with ⟨_, old⟩ | ⟨rfl, row, old, rfl⟩
      · exact .inl ⟨later, old, rfl, .inl, .inl⟩
      · exact .inl ⟨row, old, rfl, fun _ => .inr good, .inl⟩
  | _ => exact .inl ⟨later, stored, rfl, .inl, .inl⟩

/-- What a party remembers lies in the past. -/
structure Recalls (memory : Memory Inbox InboxStmt) (origin : Inbox) :
    Prop where
  looks : ∀ look ∈ memory.looks, Grown look origin
  done : ∀ stmt ∈ memory.done, traced stmt origin

/-- What has left before or leaves now. -/
theorem mails_apply
    {inbox : Inbox} {stmts : List InboxStmt} {stmt : InboxStmt}
    (good : party.good signer memory stmts stmt)
    {id : NotificationId} {mail : Mail}
    (left : (id, mail) ∈ (stmt.apply inbox).mails) :
    (id, mail) ∈ inbox.mails ∨ Consented memory.looks id mail := by
  cases stmt with
  | send key value =>
      rcases List.mem_append.mp left with before | now
      · exact .inl before
      · obtain ⟨rfl, rfl⟩ := by simpa using now
        exact .inr good.2
  | _ => exact .inl left

theorem pushes_apply
    {inbox : Inbox} {stmts : List InboxStmt} {stmt : InboxStmt}
    (good : party.good signer memory stmts stmt)
    {id : NotificationId} {payload : Push}
    (left : (id, payload) ∈ (stmt.apply inbox).pushes) :
    (id, payload) ∈ inbox.pushes ∨ Unpushed memory.looks id payload := by
  cases stmt with
  | push key value =>
      rcases List.mem_append.mp left with before | now
      · exact .inl before
      · obtain ⟨rfl, rfl⟩ := by simpa using now
        exact .inr good.2
  | _ => exact .inl left

theorem Truthful.apply
    {inbox : Inbox} {stmts : List InboxStmt} (truthful : Truthful inbox)
    (recalls : Recalls memory origin) (since : Grown origin inbox)
    {stmt : InboxStmt} (good : party.good signer memory stmts stmt) :
    Truthful (stmt.apply inbox) := by
  have grown := Grown.apply inbox stmt
  constructor
  · intro id later stored stamped
    rcases row_apply good stored with ⟨row, old, same, _, pushed⟩ | ⟨_, new, _⟩
    · rw [push_congr same]
      rcases pushed stamped with before | ⟨payload, done⟩
      · exact grown.pushes (truthful.pushed id row old before)
      · have left : (id, payload) ∈ inbox.pushes :=
          since.traced (recalls.done _ done)
        obtain ⟨other, there, rfl⟩ := truthful.pushes id payload left
        obtain rfl := Option.some.inj (there.symm.trans old)
        exact grown.pushes left
    · simp [new] at stamped
  · intro id later stored stamped
    rcases row_apply good stored with ⟨row, old, _, emailed, _⟩ | ⟨new, _, _⟩
    · rcases emailed stamped with before | ⟨mail, done⟩
      · exact (truthful.emailed id row old before).imp
          fun mail left => grown.mails left
      · exact ⟨mail, grown.mails (since.traced (recalls.done _ done))⟩
    · simp [new] at stamped
  · intro id payload left
    rcases pushes_apply good left with before | ⟨look, seen, row, found, _, rfl⟩
    · obtain ⟨row, stored, rfl⟩ := truthful.pushes id payload before
      obtain ⟨later, there, ages⟩ := grown.rows id row stored
      exact ⟨later, there, (push_congr ages.content id).symm⟩
    · obtain ⟨later, there, ages⟩ :=
        (((recalls.looks look seen).trans since).trans grown).rows id row
          (row_of_visible found)
      exact ⟨later, there, (push_congr ages.content id).symm⟩
  · intro id mail left
    have lasts : ∀ {first : Inbox} {row : Notification} {address : String},
        Grown first (stmt.apply inbox) →
        first.notifications.row id = some row →
        first.emails row.recipient = some address → mail = row.mail address →
        ∃ later address, (stmt.apply inbox).notifications.row id = some later ∧
          (stmt.apply inbox).emails later.recipient = some address ∧
          mail = later.mail address := by
      intro first row address more stored known same
      obtain ⟨later, there, ages⟩ := more.rows id row stored
      refine ⟨later, address, there, ?_, ?_⟩
      · rw [more.emails, (recipient_congr ages.content).1, known]
      · rw [mail_congr ages.content, same]
    rcases mails_apply good left with before | consented
    · obtain ⟨row, address, stored, known, same⟩ :=
        truthful.mails id mail before
      exact lasts grown stored known same
    · obtain ⟨look, seen, row, address, found, _, same, _⟩ := consented
      obtain ⟨visible, known⟩ := addressed_eq_some.mp found
      exact lasts (((recalls.looks look seen).trans since).trans grown)
        (row_of_visible visible) known same
  · intro user
    cases stmt with
    | prefer other category enabled =>
        have differs : ((user, Category.account) : UserId × Category) ≠
            (other, category) := by
          intro same
          exact good.1 (Prod.ext_iff.mp same).2.symm
        simp [InboxStmt.apply, differs, truthful.security user]
    | _ => exact truthful.security user

theorem tasks_applyAll
    {inbox : Inbox} {stmts : List InboxStmt} {id : NotificationId}
    (enqueued : .enqueue id ∈ stmts) : id ∈ (applyAll stmts inbox).tasks := by
  induction stmts generalizing inbox with
  | nil => simp at enqueued
  | cons stmt rest inductionHypothesis =>
      rcases List.mem_cons.mp enqueued with rfl | later
      · refine (grown_applyAll _ rest).tasks ?_
        simp [InboxStmt.apply]
      · exact inductionHypothesis later

theorem rows_applyAll
    {inbox : Inbox} {whole stmts : List InboxStmt}
    (good : ∀ stmt ∈ stmts, party.good signer memory whole stmt)
    {id : NotificationId} {later : Notification}
    (stored : (applyAll stmts inbox).notifications.row id = some later) :
    (∃ row, inbox.notifications.row id = some row) ∨ .enqueue id ∈ whole := by
  induction stmts generalizing inbox with
  | nil => exact .inl ⟨later, stored⟩
  | cons stmt rest inductionHypothesis =>
      rcases inductionHypothesis
          (fun other member => good other (List.mem_cons_of_mem _ member))
          stored with ⟨row, before⟩ | enqueued
      · rcases row_apply (good stmt List.mem_cons_self) before with
          ⟨old, there, _⟩ | ⟨_, _, enqueued⟩
        · exact .inl ⟨old, there⟩
        · exact .inr enqueued
      · exact .inr enqueued

/-- A commit keeps the inbox in order. -/
theorem InOrder.applyAll
    (ordered : InOrder origin) (recalls : Recalls memory origin)
    {stmts : List InboxStmt} (promised : party.promise signer memory stmts) :
    InOrder (applyAll stmts origin) := by
  have truthful : Truthful (Transaction.applyAll stmts origin) ∧
      Grown origin (Transaction.applyAll stmts origin) := by
    refine applyAll_keeps
      (fun inbox => Truthful inbox ∧ Grown origin inbox) ?_
      ⟨ordered.toTruthful, .refl origin⟩
    intro stmt member current kept
    exact ⟨kept.1.apply recalls kept.2 (promised stmt member),
      kept.2.trans (.apply current stmt)⟩
  refine { truthful.1 with queued := fun id later stored => ?_ }
  rcases rows_applyAll promised stored with ⟨row, before⟩ | enqueued
  · exact truthful.2.tasks (ordered.queued id row before)
  · exact tasks_applyAll enqueued

end Commits

/-- The mails about a notification. -/
def mailsAbout (id : NotificationId) (inbox : Inbox) :
    List (NotificationId × Mail) :=
  inbox.mails.filter (·.1 = id)

/-! ## Runs -/

/-- Parties at work and the inbox. -/
abbrev Office := System Inbox InboxRow InboxStmt (Except InboxError Unit)

variable {parties : Nat → Party τ} {system : Office} {start : Inbox}
  {memories : Nat → Memory Inbox InboxStmt}
  {allow : (Nat → Memory Inbox InboxStmt) → Nat → List InboxStmt → Inbox →
    Prop}

/-- What commits keep that rest on the past is kept in every run. -/
theorem remembered_of_noted
    (base : Inbox → Prop)
    (noted : System.Noted .memory allow {} start
      (fun client => (parties client).call signer) memories system)
    (kept : ∀ memories client stmts inbox, allow memories client stmts inbox →
      (parties client).promise signer (memories client) stmts →
      Recalls (memories client) inbox → base inbox →
      (∀ look ∈ (memories client).looks, base look) →
        base (applyAll stmts inbox))
    (initial : base start) :
    system.Following .memory (fun client => (parties client).promise signer)
        (fun _ _ _ => True) memories ∧
      System.Remembered (fun look now => Grown look now ∧ base look) traced base
        memories system.committed := by
  refine noted.remembered (fun client => (parties client).follows)
    (fun inbox holds => ⟨.refl inbox, holds⟩)
    (fun _ _ _ first second => ⟨first.1.trans second.1, first.2⟩)
    (fun _ _ _ left grown => grown.1.traced left) ?_ initial
  intro memories client stmts inbox allowed promised remembered
  have looks := remembered.past client
  exact ⟨kept memories client stmts inbox allowed promised
    ⟨fun look seen => (looks look seen).1, remembered.traces client⟩
    remembered.holds fun look seen => (looks look seen).2,
    ⟨grown_applyAll inbox stmts, remembered.holds⟩,
    fun stmt member => traced_applyAll member⟩

/--
In every run, whoever is killed, every row has its task, what has left belongs
to the rows, and a stamp tells that it has.  A mail or a push is handed over by
a task of its notification, which has found it not handed over yet, and mail to
be switched on.  Mail is switched by its recipient or by a link, and security
mail by nobody.
-/
theorem delivery_truthful
    (ordered : InOrder start)
    (noted : System.Noted .memory (fun _ _ _ _ => True) {} start
      (fun client => (parties client).call signer) memories system) :
    InOrder system.committed ∧
      ∀ client stmts, system.committing (.run client) = some stmts →
        (∀ id mail, .send id mail ∈ stmts →
          (parties client).delivers = some id ∧
            Consented (memories client).looks id mail) ∧
        (∀ id payload, .push id payload ∈ stmts →
          (parties client).delivers = some id ∧
            Unpushed (memories client).looks id payload) ∧
        ∀ user category enabled, .prefer user category enabled ∈ stmts →
          category ≠ .account ∧
            (parties client).decides signer user category enabled := by
  obtain ⟨following, remembered⟩ := remembered_of_noted InOrder noted
    (fun _ _ _ _ _ promised recalls holds _ => holds.applyAll recalls promised)
    ordered
  refine ⟨remembered.holds, fun client stmts commits => ?_⟩
  have promised := following.promised commits
  exact ⟨fun id mail member => promised _ member,
    fun id payload member => promised _ member,
    fun user category enabled member => promised _ member⟩

/-- The notice of a message. -/
def notice : Notification where
  recipient := 1
  type := "message_new"
  title := "New message"
  body := ""
  url := "/messages/5"
  createdAt := 3

/-- The user 1 has been told about a message. -/
def told : Inbox where
  emails _ := some "student@example.org"
  notifications := .insert .empty 20 notice
  tasks := [20]

theorem told_inOrder : InOrder told := by
  have none : (Table.empty : Table NotificationId Notification).All
      (· = notice) := by
    simp [Table.All]
  have only : told.notifications.All (· = notice) := none.insert 20 rfl
  have key : ∀ id row, told.notifications.row id = some row → id = 20 := by
    intro id row stored
    have inserted : (Table.empty.insert 20 notice).row id = some row := stored
    rcases Table.row_insert_cases inserted with old | ⟨same, _⟩
    · simp at old
    · exact same
  refine { pushed := ?_, emailed := ?_, pushes := ?_, mails := ?_,
           security := fun _ => rfl, queued := ?_ }
  · intro id row stored stamped
    simp [only id row stored, notice] at stamped
  · intro id row stored stamped
    simp [only id row stored, notice] at stamped
  · simp [told]
  · simp [told]
  · intro id row stored
    simp [key id row stored, told]

/-- The mail server works, the channel layer is down. -/
def mailsOnly : Delivery where
  channel := .absent
  pushedAt := 5
  mailer := .works
  emailedAt := 5

/-- Two workers deliver the same notification. -/
def twice : Nat → Party (String × Nat × Claim) :=
  fun _ => .deliver mailsOnly 20

/-- Both have found it unsent: the second mail follows the first. -/
theorem delivery_truthful_twice :
    let started : Office := System.init told fun client =>
      (twice client).call Signing.Signer.plain
    let reached := (started.runAll (List.replicate 4 (.run 1))).runAll
      (List.replicate 5 (.run 0))
    reached.committing (.run 1) =
        some [.send 20 (notice.mail "student@example.org")] ∧
      (mailsAbout 20 reached.committed).length = 1 ∧
      InOrder reached.committed ∧
      ∃ looks, Consented looks 20 (notice.mail "student@example.org") := by
  intro started reached
  obtain ⟨memories, noted⟩ : ∃ memories, System.Noted .memory
      (fun _ _ _ _ => True) {} told
      (fun client => (twice client).call Signing.Signer.plain) memories
      reached :=
    ⟨_, (System.Noted.runs .start (fun _ _ _ => trivial) 4).runs
      (fun _ _ _ => trivial) 5⟩
  have sends : reached.committing (.run 1) =
      some [.send 20 (notice.mail "student@example.org")] := by
    decide +kernel
  have once : (mailsAbout 20 reached.committed).length = 1 := by
    decide +kernel
  obtain ⟨ordered, commits⟩ := delivery_truthful told_inOrder noted
  exact ⟨sends, once, ordered, (memories 1).looks,
    ((commits 1 _ sends).1 20 _ (by simp)).2⟩

end Notifications

end KnowledgeMarketplace
