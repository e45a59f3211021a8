import KnowledgeMarketplace.Notifications.Delivery

/-!
# Deliveries that are repeated

Once mail about a row is over, no task that begins later sends any.  How often
something is handed over in all is told by the answers of the servers.
-/

namespace KnowledgeMarketplace

open Transaction

namespace Notifications

variable {τ : Type} {signer : Signing.Signer String Claim τ}
  {parties : Nat → Party τ} {system : Office} {start : Inbox}
  {memories : Nat → Memory Inbox InboxStmt}
  {allow : (Nat → Memory Inbox InboxStmt) → Nat → List InboxStmt → Inbox →
    Prop}

/-! ## Mail that is over -/

/-- The row was mailed, is gone, or its recipient has switched mail off. -/
inductive Over (inbox : Inbox) (id : NotificationId) : Prop where
  | pruned (gone : id ∈ inbox.pruned)
  | sent (row : Notification) (stored : inbox.notifications.row id = some row)
      (stamped : row.emailedAt.isSome = true)
  | off (row : Notification) (stored : inbox.notifications.row id = some row)
      (muted : emailEnabled row.recipient row.type inbox = false)

/-- If only that keeps it from being mailed, mail is not switched on again. -/
def StaysOff (start : Inbox) (id : NotificationId) (stmts : List InboxStmt) :
    Prop :=
  ∀ row, start.row id = some row → row.emailedAt = none →
    .prefer row.recipient (categoryOf row.type) true ∉ stmts

theorem mailsAbout_applyAll
    {inbox : Inbox} {stmts : List InboxStmt} {id : NotificationId}
    (silent : ∀ mail, .send id mail ∉ stmts) :
    mailsAbout id (applyAll stmts inbox) = mailsAbout id inbox := by
  refine applyAll_frame (mailsAbout id) fun stmt member current => ?_
  cases stmt with
  | send other mail =>
      have differs : other ≠ id := by
        intro same
        exact silent mail (same ▸ member)
      simp [mailsAbout, InboxStmt.apply, differs]
  | _ => rfl

theorem emailEnabled_eq_false
    {recipient : UserId} {ntype : String} {inbox : Inbox} :
    emailEnabled recipient ntype inbox = false ↔
      categoryOf ntype ≠ .account ∧
        inbox.preferences.row (recipient, categoryOf ntype) = some false := by
  unfold emailEnabled
  by_cases security : categoryOf ntype = .account
  · simp [security]
  · cases stored : inbox.preferences.row (recipient, categoryOf ntype) <;>
      simp [security, stored]

/-- What is switched off stays off, if nobody switches it on. -/
theorem emailEnabled_applyAll
    {recipient : UserId} {ntype : String} {inbox : Inbox}
    {stmts : List InboxStmt}
    (stays : .prefer recipient (categoryOf ntype) true ∉ stmts)
    (muted : emailEnabled recipient ntype inbox = false) :
    emailEnabled recipient ntype (applyAll stmts inbox) = false := by
  refine applyAll_keeps (emailEnabled recipient ntype · = false) ?_ muted
  intro stmt member current off
  obtain ⟨allowed, stored⟩ := emailEnabled_eq_false.mp off
  refine emailEnabled_eq_false.mpr ⟨allowed, ?_⟩
  cases stmt with
  | prefer user category enabled =>
      by_cases same : (recipient, categoryOf ntype) = (user, category)
      · obtain ⟨rfl, rfl⟩ := Prod.mk.inj same
        cases enabled with
        | false => simp [InboxStmt.apply]
        | true => exact (stays member).elim
      · simp [InboxStmt.apply, same, stored]
  | _ => exact stored

/-- A condition that holds throughout and excludes mail. -/
theorem silent_of_base
    {id : NotificationId} (base : Inbox → Prop)
    (noted : System.Noted .memory allow {} start
      (fun client => (parties client).call signer) memories system)
    (kept : ∀ memories client stmts inbox, allow memories client stmts inbox →
      base inbox → base (applyAll stmts inbox))
    (excludes : ∀ looks : List Inbox, (∀ look ∈ looks, base look) →
      ∀ mail, ¬Consented looks id mail)
    (initial : base start) :
    (∀ client stmts, system.committing (.run client) = some stmts →
      ∀ mail, .send id mail ∉ stmts) ∧
      mailsAbout id system.committed = mailsAbout id start := by
  let silent : Inbox → Prop := fun inbox =>
    base inbox ∧ mailsAbout id inbox = mailsAbout id start
  have none : ∀ {party : Party τ} {memory : Memory Inbox InboxStmt}
      {stmts : List InboxStmt}, party.promise signer memory stmts →
      (∀ look ∈ memory.looks, silent look) →
        ∀ mail, .send id mail ∉ stmts := by
    intro party memory stmts promised looks mail member
    exact excludes memory.looks (fun look seen => (looks look seen).1) mail
      (promised _ member).2
  obtain ⟨following, remembered⟩ := remembered_of_noted silent noted
    (fun memories client stmts inbox allowed promised _ holds looks =>
      ⟨kept memories client stmts inbox allowed holds.1,
        (mailsAbout_applyAll (none promised looks)).trans holds.2⟩)
    ⟨initial, rfl⟩
  exact ⟨fun client stmts commits => none (following.promised commits)
    fun look seen => (remembered.past client look seen).2,
    remembered.holds.2⟩

/--
Once mail about a row is over, no task that begins later sends any, however
often it is repeated: because the row was mailed or pruned, or because its
recipient has switched mail off and nobody switches it on again.
-/
theorem mail_over
    {id : NotificationId} (finished : Over start id)
    (noted : System.Noted .memory (fun _ _ stmts _ => StaysOff start id stmts)
      {} start (fun client => (parties client).call signer) memories system) :
    (∀ client stmts, system.committing (.run client) = some stmts →
      ∀ mail, .send id mail ∉ stmts) ∧
      mailsAbout id system.committed = mailsAbout id start := by
  have visible : ∀ {look : Inbox} {row address},
      look.addressed id = some (row, address) →
        id ∉ look.pruned ∧ look.notifications.row id = some row := by
    intro look row address found
    have seen := (addressed_eq_some.mp found).1
    refine ⟨fun gone => ?_, row_of_visible seen⟩
    simp [Inbox.row, gone] at seen
  by_cases gone : id ∈ start.pruned
  · refine silent_of_base (id ∈ ·.pruned) noted
      (fun _ _ stmts inbox _ holds => (grown_applyAll inbox stmts).pruned holds)
      ?_ gone
    intro looks all mail consented
    obtain ⟨look, seen, row, address, found, _⟩ := consented
    exact (visible found).1 (all look seen)
  by_cases stamped : ∃ row, start.notifications.row id = some row ∧
      row.emailedAt.isSome = true
  · refine silent_of_base (fun inbox => ∃ row,
      inbox.notifications.row id = some row ∧ row.emailedAt.isSome = true) noted
      ?_ ?_ stamped
    · intro _ _ stmts inbox _ holds
      obtain ⟨row, stored, sent⟩ := holds
      obtain ⟨later, there, ages⟩ :=
        (grown_applyAll inbox stmts).rows id row stored
      exact ⟨later, there, ages.emailed sent⟩
    · intro looks all mail consented
      obtain ⟨look, seen, row, address, found, unsent, _⟩ := consented
      obtain ⟨other, stored, sent⟩ := all look seen
      obtain rfl := Option.some.inj (stored.symm.trans (visible found).2)
      simp [unsent] at sent
  cases finished with
  | pruned before => exact (gone before).elim
  | sent row stored sent => exact (stamped ⟨row, stored, sent⟩).elim
  | off row stored muted =>
      have unsent : row.emailedAt = none := by
        by_contra sent
        exact stamped ⟨row, stored, Option.isSome_iff_ne_none.mpr sent⟩
      have shown : start.row id = some row := by simp [Inbox.row, gone, stored]
      refine silent_of_base (fun inbox =>
        (∃ later, inbox.notifications.row id = some later ∧
          later.content = row.content) ∧
        emailEnabled row.recipient row.type inbox = false) noted ?_ ?_
        ⟨⟨row, stored, rfl⟩, muted⟩
      · intro _ _ stmts inbox stays holds
        obtain ⟨⟨later, there, same⟩, off⟩ := holds
        obtain ⟨last, found, ages⟩ :=
          (grown_applyAll inbox stmts).rows id later there
        exact ⟨⟨last, found, ages.content.trans same⟩,
          emailEnabled_applyAll (stays row shown unsent) off⟩
      · intro looks all mail consented
        obtain ⟨look, seen, other, address, found, _, _, later, looked,
          enabled⟩ := consented
        obtain ⟨⟨copy, there, same⟩, _⟩ := all look seen
        obtain rfl := Option.some.inj (there.symm.trans (visible found).2)
        obtain ⟨recipient, type⟩ := recipient_congr same
        rw [recipient, type, (all later looked).2] at enabled
        simp at enabled

/-- The notice was mailed before. -/
def mailed : Inbox :=
  { told with
    notifications := .insert .empty 20 { notice with emailedAt := some 4 }
    mails := [(20, notice.mail "student@example.org")] }

/-- A task that is repeated later sends no mail, and ends. -/
theorem mail_over_repeated :
    let started : Office := System.init mailed fun client =>
      (twice client).call Signing.Signer.plain
    let reached := started.runAll (List.replicate 9 (.run 0))
    (reached.clients 0).proc.ended = true ∧
      mailsAbout 20 reached.committed = mailsAbout 20 mailed := by
  intro started reached
  have stored : mailed.notifications.row 20 =
      some { notice with emailedAt := some 4 } := rfl
  have allowed : ∀ stmts, StaysOff mailed 20 stmts := by
    intro stmts row shown unsent
    obtain rfl := Option.some.inj (stored.symm.trans (row_of_visible shown))
    simp at unsent
  obtain ⟨memories, noted⟩ : ∃ memories, System.Noted .memory
      (fun _ _ stmts _ => StaysOff mailed 20 stmts) {} mailed
      (fun client => (twice client).call Signing.Signer.plain) memories
      reached :=
    ⟨_, System.Noted.runs .start (fun _ stmts _ => allowed stmts) 9⟩
  have ends : (reached.clients 0).proc.ended = true := by decide +kernel
  exact ⟨ends, (mail_over (.sent _ stored rfl) noted).2⟩

/-! ## Tasks that are repeated -/

/-- Run the task again and again, one run after the other. -/
def retried (id : NotificationId) : List Delivery → Inbox → Inbox
  | [], inbox => inbox
  | env :: rest, inbox =>
      retried id rest ((deliverNotification env id).run inbox).2

/-- How often something due is handed over to a server that answers so. -/
def handovers : List Server → Nat
  | [] => 0
  | .absent :: rest | .fails :: rest => handovers rest
  | .breaks :: rest => handovers rest + 1
  | .works :: _ => 1

/-- The row is visible and not mailed yet, and mail is on. -/
def mailDue (id : NotificationId) (inbox : Inbox) : Bool :=
  (inbox.addressed id).any fun found =>
    found.1.emailedAt.isNone && emailEnabled found.1.recipient found.1.type inbox

def pushDue (id : NotificationId) (inbox : Inbox) : Bool :=
  (inbox.addressed id).any fun found => found.1.pushedAt.isNone

def pushesAbout (id : NotificationId) (inbox : Inbox) :
    List (NotificationId × Push) :=
  inbox.pushes.filter (·.1 = id)

/-- Whether something is due, and how often it was handed over. -/
structure Standing where
  due : Bool
  handed : Nat

/-- One run of the task, for a server. -/
def Standing.tried (standing : Standing) (server : Server) : Standing :=
  match standing.due, server with
  | true, .breaks => { standing with handed := standing.handed + 1 }
  | true, .works => { due := false, handed := standing.handed + 1 }
  | _, _ => standing

theorem handed_foldl_tried (servers : List Server) (standing : Standing) :
    (servers.foldl Standing.tried standing).handed =
      standing.handed + if standing.due then handovers servers else 0 := by
  induction servers generalizing standing with
  | nil => simp [handovers]
  | cons server rest inductionHypothesis =>
      rw [List.foldl_cons, inductionHypothesis]
      obtain ⟨due, handed⟩ := standing
      cases due <;> cases server <;>
        simp [Standing.tried, handovers, Nat.add_assoc, Nat.add_comm]

def mailing (id : NotificationId) (inbox : Inbox) : Standing where
  due := mailDue id inbox
  handed := (mailsAbout id inbox).length

def pushing (id : NotificationId) (inbox : Inbox) : Standing where
  due := pushDue id inbox
  handed := (pushesAbout id inbox).length

theorem addressed_modify
    {inbox : Inbox} {id : NotificationId} {row : Notification}
    {address : String} (found : inbox.addressed id = some (row, address))
    {change : Notification → Notification}
    (same : (change row).recipient = row.recipient) :
    ({ inbox with notifications := inbox.notifications.modify id change } :
      Inbox).addressed id = some (change row, address) := by
  obtain ⟨shown, known⟩ := addressed_eq_some.mp found
  refine addressed_eq_some.mpr ⟨?_, by simp [same, known]⟩
  have present := row_of_visible shown
  unfold Inbox.row at shown ⊢
  split at shown
  · simp at shown
  · next visible => simp [visible, present]

@[simp] theorem leaves_perform
    {stmt : InboxStmt} {inbox : Inbox}
    {goal : Except InboxError Unit → Inbox → List InboxStmt → Prop} :
    (perform stmt).Leaves inbox [] goal ↔
      goal (.ok ()) (stmt.apply inbox) [] :=
  Iff.rfl

/-- The push changes nothing about the mail. -/
theorem pushRealtime_leaves
    {env : Delivery} {id : NotificationId} {row : Notification}
    {address : String} {inbox : Inbox}
    (found : inbox.addressed id = some (row, address))
    (unpushed : row.pushedAt = none) :
    (pushRealtime env id row).Leaves inbox [] fun result next later =>
      result = .ok () ∧ later = [] ∧
        (∃ copy, next.addressed id = some (copy, address) ∧
          copy.content = row.content ∧ copy.emailedAt = row.emailedAt) ∧
        next.preferences = inbox.preferences ∧ next.mails = inbox.mails ∧
        pushing id next = (pushing id inbox).tried env.channel := by
  have due : pushDue id inbox = true := by simp [pushDue, found, unpushed]
  unfold pushRealtime
  cases env.channel with
  | absent | fails =>
      simp [found, pushing, Standing.tried, due]
  | breaks =>
      have again : ({ inbox with pushes := inbox.pushes ++ [(id, row.push id)] }
          : Inbox).addressed id = some (row, address) := found
      simp [InboxStmt.apply, pushing, Standing.tried, pushDue, found, again,
        unpushed, pushesAbout]
  | works =>
      have before : ({ inbox with
          pushes := inbox.pushes ++ [(id, row.push id)] } :
            Inbox).addressed id = some (row, address) := found
      have again : ({ inbox with
          pushes := inbox.pushes ++ [(id, row.push id)]
          notifications := inbox.notifications.modify id fun row =>
            { row with pushedAt := some env.pushedAt } } : Inbox).addressed id =
          some ({ row with pushedAt := some env.pushedAt }, address) :=
        addressed_modify before rfl
      simp [InboxStmt.apply, pushing, Standing.tried, pushDue, found, again,
        unpushed, pushesAbout, Notification.content]

/-- The mail changes nothing about the push. -/
theorem mailUnsent_leaves
    {env : Delivery} {id : NotificationId} {row copy : Notification}
    {address : String} {inbox : Inbox}
    (found : inbox.addressed id = some (copy, address))
    (same : copy.content = row.content) (sent : copy.emailedAt = row.emailedAt) :
    (mailUnsent env id row address).Leaves inbox [] fun _ next _ =>
      pushing id next = pushing id inbox ∧
        mailing id next = (mailing id inbox).tried env.mailer := by
  obtain ⟨recipient, type⟩ := recipient_congr same
  have due : mailDue id inbox = (row.emailedAt.isNone &&
      emailEnabled row.recipient row.type inbox) := by
    simp [mailDue, found, sent, recipient, type]
  simp only [mailUnsent, Request.leaves_ite, Request.leaves_bind,
    Request.leaves_load, applyAll_nil, Request.leaves_pure]
  refine ⟨fun unsent => ⟨fun enabled => ?_, fun off => ?_⟩, fun done => ?_⟩
  · have copied : copy.emailedAt = none := sent.trans unsent
    simp only [unsent, Option.isNone_none, enabled, Bool.true_and] at due
    unfold sendMail
    cases env.mailer with
    | absent | fails => simp [mailing, due, Standing.tried]
    | breaks =>
        have again : mailDue id { inbox with
            mails := inbox.mails ++ [(id, row.mail address)] } = true := due
        simp only [Request.leaves_bind, leaves_perform, Request.leaves_throw,
          InboxStmt.apply]
        refine ⟨rfl, ?_⟩
        simp [mailing, due, again, Standing.tried, mailsAbout]
    | works =>
        have before : ({ inbox with
            mails := inbox.mails ++ [(id, row.mail address)] } :
              Inbox).addressed id = some (copy, address) := found
        have again : ({ inbox with
            mails := inbox.mails ++ [(id, row.mail address)]
            notifications := inbox.notifications.modify id fun row =>
              { row with emailedAt := some env.emailedAt } } :
            Inbox).addressed id =
              some ({ copy with emailedAt := some env.emailedAt }, address) :=
          addressed_modify before rfl
        simp only [leaves_perform, InboxStmt.apply]
        constructor
        · simp [pushing, pushDue, found, again, pushesAbout]
        · simp [mailing, mailDue, found, again, recipient, type, enabled, copied,
            Standing.tried, mailsAbout]
  · simp [mailing, due, off, Standing.tried]
  · have sent : row.emailedAt.isNone = false := by
      cases stamp : row.emailedAt with
      | none => exact (done stamp).elim
      | some time => rfl
    simp [mailing, due, sent, Standing.tried]

/-- One run of the task tries both servers. -/
theorem deliverNotification_run
    (env : Delivery) (id : NotificationId) (inbox : Inbox) :
    let next := ((deliverNotification env id).run inbox).2
    pushing id next = (pushing id inbox).tried env.channel ∧
      mailing id next = (mailing id inbox).tried env.mailer := by
  have leaves : (deliverNotification env id).Leaves inbox [] fun _ next _ =>
      pushing id next = (pushing id inbox).tried env.channel ∧
        mailing id next = (mailing id inbox).tried env.mailer := by
    unfold deliverNotification
    simp only [Request.leaves_bind, Request.leaves_load, applyAll_nil,
      Request.leaves_orFail, Request.leaves_ite]
    constructor
    · intro copy found
      obtain ⟨row, address⟩ := copy
      refine ⟨fun unpushed => ?_, fun done => ?_⟩
      · refine (pushRealtime_leaves found unpushed).mono ?_
        intro result middle later reached
        obtain ⟨rfl, rfl, ⟨copy, again, same, sent⟩, off, mails, tried⟩ := reached
        have due : mailing id middle = mailing id inbox := by
          obtain ⟨recipient, type⟩ := recipient_congr same
          simp [mailing, mailDue, found, again, sent, recipient, type, mailsAbout,
            mails, emailEnabled, off]
        have shown := (addressed_eq_some.mp again).1
        refine ⟨fun _ _ => (mailUnsent_leaves again same sent).mono ?_,
          fun none => ?_⟩
        · intro _ next _ mailed
          exact ⟨mailed.1.trans tried, due ▸ mailed.2⟩
        · simp [shown] at none
      · refine (mailUnsent_leaves found rfl rfl).mono ?_
        intro _ next _ mailed
        have pushed : row.pushedAt.isNone = false := by
          cases stamp : row.pushedAt with
          | none => exact (done stamp).elim
          | some time => rfl
        refine ⟨?_, mailed.2⟩
        rw [mailed.1]
        simp [pushing, pushDue, found, pushed, Standing.tried]
    · intro none
      simp [pushing, mailing, pushDue, mailDue, none, Standing.tried]
  exact leaves

/--
However often the task is repeated, what is due is handed over once by the first
run whose server works, and once more by every run before it whose server takes
it and then fails; what is not due is never handed over.
-/
theorem retries_counted
    (id : NotificationId) (envs : List Delivery) (inbox : Inbox) :
    (mailsAbout id (retried id envs inbox)).length =
        (mailsAbout id inbox).length +
          (if mailDue id inbox then handovers (envs.map (·.mailer)) else 0) ∧
      (pushesAbout id (retried id envs inbox)).length =
        (pushesAbout id inbox).length +
          if pushDue id inbox then handovers (envs.map (·.channel)) else 0 := by
  have standing : ∀ (envs : List Delivery) (inbox : Inbox),
      mailing id (retried id envs inbox) =
          (envs.map (·.mailer)).foldl Standing.tried (mailing id inbox) ∧
        pushing id (retried id envs inbox) =
          (envs.map (·.channel)).foldl Standing.tried (pushing id inbox) := by
    intro envs
    induction envs with
    | nil => exact fun _ => ⟨rfl, rfl⟩
    | cons env rest inductionHypothesis =>
        intro inbox
        obtain ⟨pushed, mailed⟩ := deliverNotification_run env id inbox
        obtain ⟨mails, pushes⟩ := inductionHypothesis
          ((deliverNotification env id).run inbox).2
        rw [mailed] at mails
        rw [pushed] at pushes
        exact ⟨mails, pushes⟩
  obtain ⟨mails, pushes⟩ := standing envs inbox
  have mailed := handed_foldl_tried (envs.map (·.mailer)) (mailing id inbox)
  have pushed := handed_foldl_tried (envs.map (·.channel)) (pushing id inbox)
  rw [← mails] at mailed
  rw [← pushes] at pushed
  exact ⟨mailed, pushed⟩

end Notifications

end KnowledgeMarketplace
