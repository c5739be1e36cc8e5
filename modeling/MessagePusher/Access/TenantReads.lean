import MessagePusher.Store.Agreement
import MessagePusher.Controller.Reads

/-!
# What a user can read of others

Two databases that agree on everything a user owns, and the answers of the read
endpoints in a session of that user. Every handler confines its query to the user,
except `SearchMessages`, whose query names no user.
-/

namespace MessagePusher.Access

open Common Model Store Middleware Controller

/-- The databases agree on the user's own row and on all that the user owns. -/
structure OwnAgree (user : Int) (left right : Database) : Prop where
  self : left.users.rowAt user = right.users.rowAt user
  messages : left.messages.AgreesOn (fun row => row.userId = user) right.messages
  channels : left.channels.AgreesOn (fun row => row.userId = user) right.channels
  webhooks : left.webhooks.AgreesOn (fun row => row.userId = user) right.webhooks

/-- A message of another user that a search for `keyword` finds, as the search shows it. -/
def FoundOfOthers (dialect : Dialect) (keyword : String) (user : Int) (messages : Messages)
    (shown : Message) : Prop :=
  messages.ShownOutside (fun row => row.userId = user) (MessageRow.found dialect keyword)
    MessageRow.brief shown

variable {user : Int} {left right : Database}

/-- Searches of two agreeing databases differ exactly by what they find of other users. -/
theorem searchMessages_eq_iff (dialect : Dialect) (keyword : String)
    (agree : OwnAgree user left right) :
    searchMessages dialect left.messages keyword = searchMessages dialect right.messages keyword ↔
      ∀ shown, FoundOfOthers dialect keyword user left.messages shown ↔
        FoundOfOthers dialect keyword user right.messages shown := by
  have keyed : ∀ row : MessageRow, row.brief.id = Record.id row := fun _ => rfl
  unfold searchMessages
  rw [List.map_reverse, List.map_reverse, List.reverse_inj]
  exact agree.messages.map_select_eq_iff keyed

/-- Every other read is confined to the user. -/
theorem handleRead_eq (dialect : Dialect) (settings : Settings) {request : ReadRequest}
    (agree : OwnAgree user left right)
    (notSearch : ∀ keyword, request ≠ .searchMessages keyword) :
    handleRead dialect settings user request left =
      handleRead dialect settings user request right := by
  cases request with
  | searchMessages keyword => exact absurd rfl (notSearch keyword)
  | getUserMessages p =>
      simp only [handleRead, getUserMessages, getMessagesByUserId]
      rw [agree.messages.select fun _ own => own]
  | getMessage idParam =>
      simp only [handleRead, getMessage, getMessageByIds]
      rw [agree.messages.first_and]
  | getAllChannels brief p =>
      simp only [handleRead, getAllChannels, getBriefChannels, getBriefChannelsByUserId,
        getChannelsByUserId]
      rw [agree.channels.select_and, agree.channels.select fun _ own => own]
  | getChannel idParam =>
      simp only [handleRead, getChannel, getChannelById, agree.channels.first_and]
  | searchChannels keyword =>
      simp only [handleRead, searchChannelsReply, searchChannels]
      rw [agree.channels.select_and]
  | getAllWebhooks p =>
      simp only [handleRead, getAllWebhooks, getWebhooksByUserId]
      rw [agree.webhooks.select fun _ own => own]
  | getWebhook idParam =>
      simp only [handleRead, getWebhook, getWebhookById, agree.webhooks.first_and]
  | searchWebhooks keyword =>
      simp only [handleRead, searchWebhooksReply, searchWebhooks]
      rw [agree.webhooks.select_and]

/-- The request passes the middleware and is a message search, and the databases differ in
what it shows of other users. -/
def ShowsOthers (dialect : Dialect) (session : Session) (request : ReadRequest)
    (left right : Database) : Prop :=
  session.status ≠ userStatusDisabled ∧ roleCommonUser ≤ session.role ∧
    ∃ keyword, request = .searchMessages keyword ∧
      ¬ ∀ shown, FoundOfOthers dialect keyword session.id left.messages shown ↔
        FoundOfOthers dialect keyword session.id right.messages shown

/-- The answers in a session depend on nothing that others own, except where a message
search shows messages of others. -/
theorem reads_isolated_iff (dialect : Dialect) (settings : Settings) {session : Session}
    (request : ReadRequest) (agree : OwnAgree session.id left right) :
    serveRead dialect settings (some session) request left =
        serveRead dialect settings (some session) request right ↔
      ¬ ShowsOthers dialect session request left right := by
  unfold serveRead
  cases passed : @userAuth ReadData (some session) with
  | error refusal =>
      refine iff_of_true rfl ?_
      rintro ⟨active, enough, -⟩
      rw [show @userAuth ReadData (some session) = .ok session from
        authHelper_ok_iff.mpr ⟨rfl, active, enough⟩] at passed
      cases passed
  | ok actor =>
      obtain ⟨held, active, enough⟩ := authHelper_ok_iff.mp passed
      obtain rfl := Option.some.inj held
      dsimp only
      by_cases search : ∃ keyword, request = .searchMessages keyword
      · obtain ⟨keyword, rfl⟩ := search
        have shows : ShowsOthers dialect session (.searchMessages keyword) left right ↔
            ¬ ∀ shown, FoundOfOthers dialect keyword session.id left.messages shown ↔
              FoundOfOthers dialect keyword session.id right.messages shown := by
          simp [ShowsOthers, active, enough]
        rw [shows, not_not, ← searchMessages_eq_iff dialect keyword agree]
        simp [handleRead, searchMessagesReply, replyOf]
      · refine iff_of_true (handleRead_eq dialect settings agree fun keyword same =>
          search ⟨keyword, same⟩) ?_
        rintro ⟨-, -, keyword, same, -⟩
        exact search ⟨keyword, same⟩

/-- A database whose only row is a message of user 2. -/
def foreignMessage : Database where
  users := .empty
  messages :=
    { rows :=
        [ { id := 1, userId := 2, title := "salary", description := "", content := "", url := ""
            channel := "c", timestamp := 0, link := "l", to_ := "", status := 2, renderMode := ""
            msgType := "", extra := "" } ]
      counter := 1
      sorted := by decide
      unique := by decide
      counterNonneg := Int.one_nonneg
      bounded := by decide }
  channels := .empty
  webhooks := .empty

def emptyDatabase : Database where
  users := .empty
  messages := .empty
  channels := .empty
  webhooks := .empty

def commonSession : Session := { id := 3, username := "eve", role := roleCommonUser, status := 1 }

theorem ownAgree_foreignMessage : OwnAgree commonSession.id foreignMessage emptyDatabase := by
  refine ⟨rfl, ?_, .refl _ _, .refl _ _⟩
  intro row own
  refine iff_of_false ?_ (by simp [emptyDatabase, Table.empty])
  intro member
  obtain rfl := List.mem_singleton.mp member
  exact absurd own (by decide)

/-- The answers to a search of a user without messages differ by a message of another. -/
theorem search_shows_foreign_message :
    ¬ ∀ (dialect : Dialect) (settings : Settings) (left right : Database) (session : Session)
      (request : ReadRequest), session.role < roleRootUser → OwnAgree session.id left right →
        serveRead dialect settings (some session) request left =
          serveRead dialect settings (some session) request right := by
  intro claimed
  have same := claimed .sqlite {} foreignMessage emptyDatabase commonSession
    (.searchMessages "sal") (by decide) ownAgree_foreignMessage
  exact absurd same (by decide)

/-- The two databases, seen by a user who owns nothing in either. -/
theorem reads_isolated_iff_foreignMessage :
    serveRead .sqlite {} (some commonSession) (.searchMessages "x") foreignMessage =
        serveRead .sqlite {} (some commonSession) (.searchMessages "x") emptyDatabase ↔
      ¬ ShowsOthers .sqlite commonSession (.searchMessages "x") foreignMessage emptyDatabase :=
  reads_isolated_iff .sqlite {} (.searchMessages "x") ownAgree_foreignMessage

end MessagePusher.Access
