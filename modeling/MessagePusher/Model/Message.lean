import MessagePusher.Common.Json
import MessagePusher.Common.Constants
import MessagePusher.Common.Sql
import MessagePusher.Store.Table

/-!
# Messages

`Message` is the struct of `model/message.go`; `MessageRow` holds its stored
columns, so the fields tagged `gorm:"-"` do not survive a round trip through the
table. Every write takes the error of a failing database step as an argument.
-/

namespace MessagePusher.Model

open Common Store

/-- The Go struct `Message`. -/
structure Message where
  id : Int := 0
  userId : Int := 0
  title : String := ""
  description : String := ""
  content : String := ""
  url : String := ""
  channel : String := ""
  token : String := ""
  htmlContent : String := ""
  timestamp : Int := 0
  link : String := ""
  to_ : String := ""
  status : Int := 0
  openId : String := ""
  desp : String := ""
  short : String := ""
  async : Bool := false
  renderMode : String := ""
  msgType : String := ""
  extra : String := ""
deriving DecidableEq

/-- The columns of the table `messages`. -/
structure MessageRow where
  id : Int
  userId : Int
  title : String
  description : String
  content : String
  url : String
  channel : String
  timestamp : Int
  link : String
  to_ : String
  status : Int
  renderMode : String
  msgType : String
  extra : String
deriving DecidableEq

/-- `Link` carries the only unique index besides the primary key. -/
instance : Record MessageRow where
  id := MessageRow.id
  withId key row := { row with id := key }
  clash left right := left.link = right.link
  id_withId _ _ := rfl
  withId_id _ := rfl
  clash_comm left right := by simp only [eq_comm]

@[simp] theorem MessageRow.record_id (row : MessageRow) : Record.id row = row.id := rfl

@[simp] theorem MessageRow.record_withId (key : Int) (row : MessageRow) :
    Record.withId key row = { row with id := key } := rfl

/-- The table of messages. -/
abbrev Messages := Table MessageRow

/-- What `Create` writes. -/
def Message.toRow (message : Message) : MessageRow where
  id := message.id
  userId := message.userId
  title := message.title
  description := message.description
  content := message.content
  url := message.url
  channel := message.channel
  timestamp := message.timestamp
  link := message.link
  to_ := message.to_
  status := message.status
  renderMode := message.renderMode
  msgType := message.msgType
  extra := message.extra

/-- What `First` fills in. -/
def Message.ofRow (row : MessageRow) : Message where
  id := row.id
  userId := row.userId
  title := row.title
  description := row.description
  content := row.content
  url := row.url
  channel := row.channel
  timestamp := row.timestamp
  link := row.link
  to_ := row.to_
  status := row.status
  renderMode := row.renderMode
  msgType := row.msgType
  extra := row.extra

/-- The JSON names of the fields of `Message`; `Extra` has none. -/
def Message.jsonFields : List (Json.Field Message) :=
  [ Json.intField "id" fun value message => { message with id := value },
    Json.intField "user_id" fun value message => { message with userId := value },
    Json.stringField "title" fun value message => { message with title := value },
    Json.stringField "description" fun value message => { message with description := value },
    Json.stringField "content" fun value message => { message with content := value },
    Json.stringField "url" fun value message => { message with url := value },
    Json.stringField "channel" fun value message => { message with channel := value },
    Json.stringField "token" fun value message => { message with token := value },
    Json.stringField "html_content" fun value message => { message with htmlContent := value },
    Json.intField "timestamp" fun value message => { message with timestamp := value },
    Json.stringField "link" fun value message => { message with link := value },
    Json.stringField "to" fun value message => { message with to_ := value },
    Json.intField "status" fun value message => { message with status := value },
    Json.stringField "openid" fun value message => { message with openId := value },
    Json.stringField "desp" fun value message => { message with desp := value },
    Json.stringField "short" fun value message => { message with short := value },
    Json.boolField "async" fun value message => { message with async := value },
    Json.stringField "render_mode" fun value message => { message with renderMode := value },
    Json.stringField "msg_type" fun value message => { message with msgType := value } ]

/-- `gorm.ErrRecordNotFound`. -/
def recordNotFound : String := "record not found"
/-- `gorm.ErrMissingWhereClause`. -/
def missingWhereClause : String := "WHERE conditions required"

/-- The error text of a violated key or unique index. -/
def uniqueViolation : String := "UNIQUE constraint failed"

/-- `GetMessageById`. -/
def getMessageById (messages : Messages) (id : Int) : Except String Message :=
  if id = 0 then .error "id 为空！"
  else match messages.rowAt id with
    | some row => .ok (Message.ofRow row)
    | none => .error recordNotFound

/-- `GetMessageByIds`: the message has to belong to the user. -/
def getMessageByIds (messages : Messages) (id userId : Int) : Except String Message :=
  if id = 0 ∨ userId = 0 then .error "id 或 userId 为空！"
  else match messages.first fun row => row.id = id ∧ row.userId = userId with
    | some row => .ok (Message.ofRow row)
    | none => .error recordNotFound

/-- `GetMessageByLink`. -/
def getMessageByLink (messages : Messages) (link : String) : Except String Message :=
  if link = "" then .error "link 为空！"
  else match messages.first fun row => row.link = link with
    | some row => .ok (Message.ofRow row)
    | none => .error recordNotFound

/-- `GetAsyncPendingMessageIds`. -/
def getAsyncPendingMessageIds (messages : Messages) : List Int :=
  (messages.select fun row => row.status = messageSendStatusAsyncPending).map MessageRow.id

/-- The columns that lists of messages show. -/
def MessageRow.brief (row : MessageRow) : Message where
  id := row.id
  title := row.title
  channel := row.channel
  timestamp := row.timestamp
  status := row.status

/-- `GetMessagesByUserId`: a page of the messages of a user, the newest first. -/
def getMessagesByUserId (messages : Messages) (userId startIdx num : Int) : List Message :=
  (page (messages.select fun row => row.userId = userId).reverse startIdx num).map MessageRow.brief

/-- The condition of `SearchMessages`. -/
def MessageRow.found (dialect : Dialect) (keyword : String) (row : MessageRow) : Bool :=
  dialect.equalsId row.id keyword || dialect.like row.title (keyword ++ "%") ||
    dialect.like row.description (keyword ++ "%") || dialect.like row.content (keyword ++ "%")

/-- `SearchMessages`, which takes no user. -/
def searchMessages (dialect : Dialect) (messages : Messages) (keyword : String) : List Message :=
  (messages.select (MessageRow.found dialect keyword)).reverse.map MessageRow.brief

/-- A page has no message twice. -/
theorem getMessagesByUserId_ids_nodup (messages : Messages) (userId startIdx num : Int) :
    ((getMessagesByUserId messages userId startIdx num).map Message.id).Nodup := by
  unfold getMessagesByUserId
  rw [List.map_map]
  refine List.Nodup.sublist ((page_sublist _ startIdx num).map _) ?_
  rw [List.map_reverse]
  exact (List.reverse_perm _).nodup_iff.mpr (Table.select_ids_nodup messages _)

/-- A search finds no message twice. -/
theorem searchMessages_ids_nodup (dialect : Dialect) (messages : Messages) (keyword : String) :
    ((searchMessages dialect messages keyword).map Message.id).Nodup := by
  unfold searchMessages
  rw [List.map_map, List.map_reverse]
  exact (List.reverse_perm _).nodup_iff.mpr (Table.select_ids_nodup messages _)

/-- The assignments that `UpdateAndInsert` makes before it calls `Create`. -/
def Message.stamped (message : Message) (userId now : Int) : Message :=
  { message with timestamp := now, userId := userId, status := messageSendStatusPending }

/-- `UpdateAndInsert`: the struct afterwards, the table afterwards and the error.
`failure` is the error of a database that does not execute the insertion. -/
def Message.updateAndInsert (message : Message) (userId now : Int) (failure : Option String)
    (messages : Messages) : Message × Messages × Option String :=
  match failure with
  | some text => (message.stamped userId now, messages, some text)
  | none =>
      match messages.insert (message.stamped userId now).toRow with
      | some (next, row) => ({ message.stamped userId now with id := row.id }, next, none)
      | none => (message.stamped userId now, messages, some uniqueViolation)

/-- The assignment of one column by `Update("status", status)`. -/
def MessageRow.setStatus (status : Int) (row : MessageRow) : MessageRow :=
  { row with status := status }

/-- The table after `UPDATE messages SET status = … WHERE id = …`. -/
def setStatus (messages : Messages) (id status : Int) : Messages :=
  (messages.update id (MessageRow.setStatus status)).getD messages

/-- `UpdateStatus`: the update is refused for a struct without a primary key. -/
def Message.updateStatus (message : Message) (status : Int) (failure : Option String)
    (messages : Messages) : Messages × Option String :=
  if message.id = 0 then (messages, some missingWhereClause)
  else match failure with
    | some text => (messages, some text)
    | none => (setStatus messages message.id status, none)

/-- A status update never touches a unique index, so it always goes through. -/
theorem setStatus_update (messages : Messages) (id status : Int) :
    messages.update id (MessageRow.setStatus status) = some (setStatus messages id status) := by
  have keeps : ∀ row other : MessageRow,
      Record.clash (Record.withId id (row.setStatus status)) other = Record.clash row other :=
    fun _ _ => rfl
  obtain ⟨next, updated⟩ : ∃ next, messages.update id (MessageRow.setStatus status) = some next :=
    Table.update_isSome fun row _ _ => keeps row
  rw [setStatus, updated, Option.getD_some]

/-- A status is set in the row of its message only. -/
@[simp]
theorem rowAt_setStatus (messages : Messages) (id status key : Int) :
    (setStatus messages id status).rowAt key =
      if key = id then (messages.rowAt id).map (MessageRow.setStatus status)
      else messages.rowAt key := by
  rw [Table.rowAt_update (setStatus_update messages id status)]
  split_ifs
  · cases found : messages.rowAt id with
    | none => rfl
    | some row =>
        have same : row.id = id := Table.rowAt_id found
        simp [MessageRow.setStatus, ← same]
  · rfl

@[simp]
theorem counter_setStatus (messages : Messages) (id status : Int) :
    (setStatus messages id status).counter = messages.counter :=
  (Table.update_rows (setStatus_update messages id status)).2

/-- The messages that are pending are those with the status. -/
theorem mem_getAsyncPendingMessageIds {messages : Messages} {id : Int} :
    id ∈ getAsyncPendingMessageIds messages ↔
      ∃ row, messages.rowAt id = some row ∧ row.status = messageSendStatusAsyncPending := by
  simp only [getAsyncPendingMessageIds, List.mem_map, Table.mem_select, decide_eq_true_eq,
    Table.rowAt_eq_some_iff]
  constructor
  · rintro ⟨row, ⟨member, pending⟩, rfl⟩
    exact ⟨row, ⟨member, rfl⟩, pending⟩
  · rintro ⟨row, ⟨member, rfl⟩, pending⟩
    exact ⟨row, ⟨member, pending⟩, rfl⟩

/-- A status update changes no row but the one with the struct's id. -/
theorem rowAt_updateStatus_of_ne (message : Message) (status : Int) (failure : Option String)
    (messages : Messages) {key : Int} (other : key ≠ message.id) :
    (message.updateStatus status failure messages).1.rowAt key = messages.rowAt key := by
  unfold Message.updateStatus
  split_ifs
  · rfl
  · cases failure with
    | some text => rfl
    | none => simp [other]

/-- A status update never changes the owner of a row. -/
theorem rowAt_updateStatus_userId (message : Message) (status : Int) (failure : Option String)
    (messages : Messages) {key : Int} {row : MessageRow} (found : messages.rowAt key = some row) :
    ∃ after, (message.updateStatus status failure messages).1.rowAt key = some after ∧
      after.userId = row.userId := by
  unfold Message.updateStatus
  split_ifs
  · exact ⟨row, found, rfl⟩
  · cases failure with
    | some text => exact ⟨row, found, rfl⟩
    | none =>
        simp only [rowAt_setStatus]
        split_ifs with same
        · subst same
          exact ⟨row.setStatus status, by rw [found]; rfl, rfl⟩
        · exact ⟨row, found, rfl⟩

theorem counter_updateStatus (message : Message) (status : Int) (failure : Option String)
    (messages : Messages) :
    (message.updateStatus status failure messages).1.counter = messages.counter := by
  unfold Message.updateStatus
  split_ifs
  · rfl
  · cases failure with
    | some text => rfl
    | none => exact counter_setStatus messages message.id status

/-- A status update that is not refused and does not fail writes the row with the struct's id. -/
theorem rowAt_updateStatus_self (message : Message) (status : Int) (messages : Messages)
    (hasId : message.id ≠ 0) :
    (message.updateStatus status none messages).1.rowAt message.id =
      (messages.rowAt message.id).map (MessageRow.setStatus status) := by
  simp [Message.updateStatus, hasId]

/-- What a status update makes of a row: nothing, or it writes the status. -/
theorem rowAt_updateStatus (message : Message) (status : Int) (failure : Option String)
    (messages : Messages) (key : Int) :
    (message.updateStatus status failure messages).1.rowAt key = messages.rowAt key ∨
      (key = message.id ∧ message.id ≠ 0 ∧
        (message.updateStatus status failure messages).1.rowAt key =
          (messages.rowAt key).map (MessageRow.setStatus status)) := by
  by_cases same : key = message.id
  · subst same
    by_cases unset : message.id = 0
    · exact .inl (by simp [Message.updateStatus, unset])
    · cases failure with
      | some text => exact .inl (by simp [Message.updateStatus, unset])
      | none => exact .inr ⟨rfl, unset, rowAt_updateStatus_self message status messages unset⟩
  · exact .inl (rowAt_updateStatus_of_ne message status failure messages same)

/-- `UpdateAndInsert` either stores the row and keeps its key, or fails and changes nothing. -/
theorem Message.updateAndInsert_cases (message : Message) (userId now : Int)
    (failure : Option String) (messages : Messages) :
    (∃ text, message.updateAndInsert userId now failure messages =
      (message.stamped userId now, messages, some text)) ∨
    ∃ next row, messages.insert (message.stamped userId now).toRow = some (next, row) ∧
      message.updateAndInsert userId now failure messages =
        ({ message.stamped userId now with id := row.id }, next, none) := by
  cases failure with
  | some text => exact .inl ⟨text, rfl⟩
  | none =>
      cases inserted : messages.insert (message.stamped userId now).toRow with
      | none => exact .inl ⟨uniqueViolation, by simp [Message.updateAndInsert, inserted]⟩
      | some stored =>
          obtain ⟨next, row⟩ := stored
          exact .inr ⟨next, row, rfl, by simp [Message.updateAndInsert, inserted]⟩

/-- A message that is loaded has the id it was asked for, which is not zero. -/
theorem getMessageById_id {messages : Messages} {id : Int} {message : Message}
    (loaded : getMessageById messages id = .ok message) : id ≠ 0 ∧ message.id = id := by
  unfold getMessageById at loaded
  by_cases unset : id = 0
  · simp [unset] at loaded
  · simp only [unset, if_false] at loaded
    cases found : messages.rowAt id with
    | none => simp [found] at loaded
    | some row =>
        simp only [found, Except.ok.injEq] at loaded
        subst loaded
        exact ⟨unset, Table.rowAt_id found⟩

/-- No other row has the link of a row. -/
theorem getMessageByLink_rowAt {messages : Messages} {key : Int} {row : MessageRow}
    (found : messages.rowAt key = some row) (named : row.link ≠ "") :
    getMessageByLink messages row.link = .ok (Message.ofRow row) := by
  have member := Table.rowAt_mem found
  have present : (messages.first fun other => other.link = row.link).isSome :=
    Table.first_isSome_iff.mpr ⟨row, member, by simp⟩
  obtain ⟨other, first⟩ := Option.isSome_iff_exists.mp present
  have same : other.link = row.link := by simpa using Table.first_accepts first
  have equal : other = row :=
    messages.eq_of_clash (Table.first_mem first) member (by simp [Record.clash, same])
  rw [getMessageByLink, if_neg named, first, equal]

/-- `DeleteMessageById`: only a message of the user is deleted. -/
def deleteMessageById (messages : Messages) (id userId : Int) : Messages × Option String :=
  match getMessageByIds messages id userId with
  | .error text => (messages, some text)
  | .ok message => (messages.delete message.id, none)

/-- A message that is loaded for a user is one of the user's rows. -/
theorem getMessageByIds_ok {messages : Messages} {id userId : Int} {message : Message}
    (loaded : getMessageByIds messages id userId = .ok message) :
    ∃ row ∈ messages.rows, row.id = id ∧ row.userId = userId ∧ message = Message.ofRow row := by
  unfold getMessageByIds at loaded
  split_ifs at loaded
  split at loaded
  · next row first =>
    cases loaded
    have accepted : row.id = id ∧ row.userId = userId := by
      simpa using Table.first_accepts first
    exact ⟨row, Table.first_mem first, accepted.1, accepted.2, rfl⟩
  · cases loaded

/-- A deletion that goes through finds the row with the given id and removes it. -/
theorem deleteMessageById_found {messages : Messages} {id userId : Int}
    (done : (deleteMessageById messages id userId).2 = none) :
    (∃ row ∈ messages.rows, row.id = id) ∧
      (deleteMessageById messages id userId).1 = messages.delete id := by
  unfold deleteMessageById at done ⊢
  cases loaded : getMessageByIds messages id userId with
  | error text => simp [loaded] at done
  | ok message =>
      obtain ⟨row, member, same, -, rfl⟩ := getMessageByIds_ok loaded
      refine ⟨⟨row, member, same⟩, ?_⟩
      show messages.delete row.id = messages.delete id
      rw [same]

/-- A deletion without an error deletes the row. -/
theorem deleteMessageById_done {messages : Messages} {id userId : Int}
    (done : (deleteMessageById messages id userId).2 = none) :
    (deleteMessageById messages id userId).1 = messages.delete id :=
  (deleteMessageById_found done).2

/-- `DeleteAllMessages`. -/
def deleteAllMessages (messages : Messages) : Messages := messages.clear

end MessagePusher.Model
