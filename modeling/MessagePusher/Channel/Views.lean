import MessagePusher.Channel.Dispatch

/-!
# Deliveries of one message by different hands

A message that is loaded again loses the fields that are not stored, and a user
that is loaded without all columns loses the permission to mail others. The
senders see nothing of this but the mail sender, which asks for the permission,
and the client sender, whose frame is the whole message. Of a frame only the
fields of `docs/API.md` are documented; clients are told to ignore the others.
-/

namespace MessagePusher.Channel

open Common Model

/-- The fields of a message that depend on the way it took. -/
structure Transit where
  token : String := ""
  status : Int := 0
  openId : String := ""
  desp : String := ""
  short : String := ""
deriving DecidableEq

def transitOf (message : Message) : Transit where
  token := message.token
  status := message.status
  openId := message.openId
  desp := message.desp
  short := message.short

/-- The message with other fields of transit. -/
def Transit.put (transit : Transit) (message : Message) : Message :=
  { message with
    token := transit.token
    status := transit.status
    openId := transit.openId
    desp := transit.desp
    short := transit.short }

@[simp]
theorem Transit.put_eq_self_iff {transit : Transit} {message : Message} :
    transit.put message = message ↔ transit = transitOf message := by
  constructor
  · intro same
    rw [← same]
    rfl
  · rintro rfl
    rfl

/-- The fields of a frame that `docs/API.md` describes. -/
def documentedFrame (message : Message) : Message where
  title := message.title
  description := message.description
  content := message.content
  htmlContent := message.htmlContent
  url := message.url

@[simp]
theorem documentedFrame_put (transit : Transit) (message : Message) :
    documentedFrame (transit.put message) = documentedFrame message := rfl

/-- A request as far as `view` shows the frame of a client. -/
def Outgoing.shown (view : Message → Message) (outgoing : Outgoing) : Outgoing :=
  match outgoing with
  | .client key message => .client key (view message)
  | other => other

def Attempt.shown (view : Message → Message) (attempt : Attempt) : Attempt :=
  { attempt with decision := attempt.decision.map (Outgoing.shown view) }

def Delivery.shown (view : Message → Message) (delivery : Delivery) : Delivery :=
  { delivery with attempts := delivery.attempts.map (Attempt.shown view) }

variable (lib : Library) (transport : Outgoing → Option String)

/-- A request that is shown the same meets the network with the same result. -/
theorem errorOf_shown {view : Message → Message} {left right : Except String Outgoing}
    (same : left.map (Outgoing.shown view) = right.map (Outgoing.shown view)) :
    errorOf transport left = errorOf transport right := by
  cases left with
  | error text =>
      cases right with
      | error other =>
          simp only [Except.map, Except.error.injEq] at same
          rw [same]
      | ok outgoing => simp [Except.map] at same
  | ok outgoing =>
      cases right with
      | error text => simp [Except.map] at same
      | ok other =>
          simp only [Except.map, Except.ok.injEq] at same
          cases outgoing <;> cases other <;> simp_all [Outgoing.shown, errorOf]

/-- A mail to someone else that only the permission column allows. -/
def needsPermission (user : User) (channel : Model.Channel) (target : String) : Prop :=
  channel.type = typeEmail ∧ target ≠ "" ∧ user.sendEmailToOthers = sendEmailToOthersAllowed ∧
    user.role < roleAdminUser

/-- A frame goes to a connected client. -/
def sendsFrame (readings : Readings) (user : User) (channel : Model.Channel) : Prop :=
  channel.type = typeClient ∧
    readings.connected (channel.name ++ ":" ++ Text.itoa user.id) = true

theorem senderOf_mem {type : String} {sender : Sender} (found : senderOf type = some sender) :
    (type, sender) ∈ senderTable := by
  obtain ⟨before, after, split, -⟩ := List.lookup_eq_some_iff.mp found
  simp [split]

theorem senderOf_email_iff {type : String} :
    senderOf type = some .email ↔ type = typeEmail := by
  constructor
  · intro found
    simpa [senderTable] using senderOf_mem found
  · rintro rfl
    rfl

theorem senderOf_client_iff {type : String} :
    senderOf type = some .client ↔ type = typeClient := by
  constructor
  · intro found
    simpa [senderTable] using senderOf_mem found
  · rintro rfl
    rfl

/-- Without the permission column only the role allows a mail to someone else. -/
theorem mayMailOthers_brief_iff (user : User) :
    mayMailOthers user.brief ↔ roleAdminUser ≤ user.role := by
  have dropped : ¬ user.brief.sendEmailToOthers = sendEmailToOthersAllowed := by
    show ¬ (0 : Int) = 1
    decide
  simp only [mayMailOthers, dropped, false_or]
  rfl

/-- A mail is forbidden without the permission column just when it was before, unless it
needs the permission. -/
theorem mailForbidden_brief_iff (transit : Transit) (message : Message) (user : User)
    (allowed : ¬ (message.to_ ≠ "" ∧ user.sendEmailToOthers = sendEmailToOthersAllowed ∧
      user.role < roleAdminUser)) :
    mailForbidden (transit.put message) user.brief ↔ mailForbidden message user := by
  have sameTarget : (transit.put message).to_ = message.to_ := rfl
  simp only [mailForbidden, sameTarget, mayMailOthers_brief_iff]
  unfold mayMailOthers
  by_cases permitted : user.sendEmailToOthers = sendEmailToOthersAllowed
  · simp only [permitted, true_and, true_or, not_true_eq_false, and_false, iff_false]
      at allowed ⊢
    simpa [Int.not_lt] using allowed
  · simp [permitted]

/-- The mail sender decides the same unless the mail needs the permission. -/
theorem sendEmailMessage_brief (readings : Readings) (transit : Transit) (message : Message)
    (user : User)
    (allowed : ¬ (message.to_ ≠ "" ∧ user.sendEmailToOthers = sendEmailToOthersAllowed ∧
      user.role < roleAdminUser)) :
    sendEmailMessage lib readings (transit.put message) user.brief =
      let sent := sendEmailMessage lib readings message user
      ⟨transit.put sent.message, sent.user.brief, sent.decision⟩ := by
  have forbidden := mailForbidden_brief_iff transit message user allowed
  have receiver : orElse (transit.put message).to_ user.brief.email =
      orElse message.to_ user.email := rfl
  unfold sendEmailMessage
  simp only [forbidden, receiver]
  split_ifs with refused unset
  · rfl
  · rfl
  · rfl

/-- A mail that needs the permission is sent with it and refused without it. -/
theorem sendEmailMessage_needsPermission (readings : Readings) (transit : Transit)
    (message : Message) (user : User) (target : message.to_ ≠ "")
    (permitted : user.sendEmailToOthers = sendEmailToOthersAllowed)
    (common : user.role < roleAdminUser) :
    (∃ outgoing, (sendEmailMessage lib readings message user).decision = .ok outgoing) ∧
      ∃ text, (sendEmailMessage lib readings (transit.put message) user.brief).decision =
        .error text := by
  have sent : ¬ mailForbidden message user := by
    simp [mailForbidden, mayMailOthers, permitted]
  have receiver : ¬ orElse message.to_ user.email = "" := by
    simp [target]
  have refused : mailForbidden (transit.put message) user.brief := by
    refine ⟨target, ?_⟩
    rw [mayMailOthers_brief_iff]
    exact Int.not_le.mpr common
  constructor
  · simp [sendEmailMessage, sent, receiver]
  · simp [sendEmailMessage, refused]

/-- A sender decides the same on the reloaded message and user, but for a mail that needs
the permission and a frame that shows the fields of transit. -/
theorem sendDirect_brief (readings : Readings) (transit : Transit) (message : Message)
    (user : User) (channel : Model.Channel)
    (allowed : ¬ needsPermission user channel message.to_) :
    (sendDirect lib readings (transit.put message) user.brief channel).message =
        transit.put (sendDirect lib readings message user channel).message ∧
      (sendDirect lib readings (transit.put message) user.brief channel).user =
        (sendDirect lib readings message user channel).user.brief := by
  unfold sendDirect
  cases found : senderOf channel.type with
  | none => exact ⟨rfl, rfl⟩
  | some sender =>
      cases sender with
      | email =>
          have mail := senderOf_email_iff.mp found
          simp only [needsPermission, mail, true_and] at allowed
          simp only [runSender, sendEmailMessage_brief lib readings transit message user allowed]
          exact ⟨trivial, trivial⟩
      | _ => exact ⟨rfl, rfl⟩

/-- Exactly a mail that needs the permission, and a frame whose fields of transit are shown
and differ, are decided differently on the reloaded message and user. -/
theorem sendDirect_brief_shown_iff (readings : Readings) (view : Message → Message)
    (transit : Transit) (message : Message) (user : User) (channel : Model.Channel) :
    (sendDirect lib readings (transit.put message) user.brief channel).decision.map
        (Outgoing.shown view) =
        (sendDirect lib readings message user channel).decision.map (Outgoing.shown view) ↔
      ¬ needsPermission user channel message.to_ ∧
        (sendsFrame readings user channel → view (transit.put message) = view message) := by
  unfold sendDirect
  cases found : senderOf channel.type with
  | none =>
      have notMail : channel.type ≠ typeEmail := fun mail => by
        rw [senderOf_email_iff.mpr mail] at found
        cases found
      have notClient : channel.type ≠ typeClient := fun client => by
        rw [senderOf_client_iff.mpr client] at found
        cases found
      simp [needsPermission, sendsFrame, notMail, notClient]
  | some sender =>
      have mail : sender = .email ↔ channel.type = typeEmail := by
        rw [← senderOf_email_iff, found, Option.some.injEq]
      have client : sender = .client ↔ channel.type = typeClient := by
        rw [← senderOf_client_iff, found, Option.some.injEq]
      simp only [needsPermission, sendsFrame, ← mail, ← client]
      cases sender with
      | email =>
          simp only [runSender, reduceCtorEq, false_and, false_implies, and_true, true_and]
          by_cases needed : message.to_ ≠ "" ∧
              user.sendEmailToOthers = sendEmailToOthersAllowed ∧ user.role < roleAdminUser
          · obtain ⟨target, permitted, common⟩ := needed
            obtain ⟨⟨outgoing, sent⟩, text, refused⟩ :=
              sendEmailMessage_needsPermission lib readings transit message user target permitted
                common
            simp [sent, refused, Except.map, target, permitted, common]
          · simp [needed, sendEmailMessage_brief lib readings transit message user needed]
      | client =>
          have sameKey : user.brief.id = user.id := rfl
          simp only [runSender, clientMessage, sameKey]
          by_cases connected : readings.connected (channel.name ++ ":" ++ Text.itoa user.id)
          · simp [connected, Except.map, Outgoing.shown]
          · simp [connected]
      | _ =>
          simp only [reduceCtorEq, false_and, false_implies, not_false_eq_true, and_self,
            iff_true]
          rfl

end MessagePusher.Channel
