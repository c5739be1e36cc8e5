import MessagePusher.Common.Json
import MessagePusher.Common.Constants
import MessagePusher.Common.Sql
import MessagePusher.Model.Message

/-!
# Channels

The struct of `model/channel.go` is also its row. The pair of name and owner is
unique.
-/

namespace MessagePusher.Model

open Common Store

def typeEmail : String := "email"
def typeWeChatTestAccount : String := "test"
def typeWeChatCorpAccount : String := "corp_app"
def typeCorp : String := "corp"
def typeLark : String := "lark"
def typeDing : String := "ding"
def typeTelegram : String := "telegram"
def typeDiscord : String := "discord"
def typeBark : String := "bark"
def typeClient : String := "client"
def typeNone : String := "none"
def typeOneBot : String := "one_bot"
def typeGroup : String := "group"
def typeLarkApp : String := "lark_app"
def typeCustom : String := "custom"
def typeTencentAlarm : String := "tencent_alarm"

/-- The Go struct `Channel`. -/
structure Channel where
  id : Int := 0
  type : String := ""
  userId : Int := 0
  name : String := ""
  description : String := ""
  status : Int := 0
  secret : String := ""
  appId : String := ""
  accountId : String := ""
  url : String := ""
  other : String := ""
  createdTime : Int := 0
  token : Option String := none
deriving DecidableEq

instance : Record Channel where
  id := Channel.id
  withId key row := { row with id := key }
  clash left right := left.name = right.name ∧ left.userId = right.userId
  id_withId _ _ := rfl
  withId_id _ := rfl
  clash_comm left right := by simp only [eq_comm]

@[simp] theorem Channel.record_id (channel : Channel) : Record.id channel = channel.id := rfl

@[simp] theorem Channel.record_withId (key : Int) (channel : Channel) :
    Record.withId key channel = { channel with id := key } := rfl

/-- The table of channels. -/
abbrev Channels := Table Channel

/-- The JSON names of the fields of `Channel`. -/
def Channel.jsonFields : List (Json.Field Channel) :=
  [ Json.intField "id" fun value channel => { channel with id := value },
    Json.stringField "type" fun value channel => { channel with type := value },
    Json.intField "user_id" fun value channel => { channel with userId := value },
    Json.stringField "name" fun value channel => { channel with name := value },
    Json.stringField "description" fun value channel => { channel with description := value },
    Json.intField "status" fun value channel => { channel with status := value },
    Json.stringField "secret" fun value channel => { channel with secret := value },
    Json.stringField "app_id" fun value channel => { channel with appId := value },
    Json.stringField "account_id" fun value channel => { channel with accountId := value },
    Json.stringField "url" fun value channel => { channel with url := value },
    Json.stringField "other" fun value channel => { channel with other := value },
    Json.intField "created_time" fun value channel => { channel with createdTime := value },
    Json.optionalStringField "token" fun value channel => { channel with token := value } ]

/-- `Omit("secret")`. -/
def Channel.withoutSecret (channel : Channel) : Channel := { channel with secret := "" }

/-- `GetChannelById`; without `selectAll` the secret stays blank. -/
def getChannelById (channels : Channels) (id userId : Int) (selectAll : Bool) :
    Except String Channel :=
  if id = 0 ∨ userId = 0 then .error "id 或 userId 为空！"
  else match channels.first fun row => row.id = id ∧ row.userId = userId with
    | some row => .ok (if selectAll then row else row.withoutSecret)
    | none => .error recordNotFound

/-- `GetChannelByName`: both the name and the user are required. -/
def getChannelByName (channels : Channels) (name : String) (userId : Int) :
    Except String Channel :=
  if name = "" ∨ userId = 0 then .error "name 或 userId 为空！"
  else match channels.first fun row => row.name = name ∧ row.userId = userId with
    | some row => .ok row
    | none => .error recordNotFound

/-- `ChannelNameExists`: the count is positive when a row is found. -/
def channelNameExists (channels : Channels) (name : String) (userId : Int) :
    Except String Bool :=
  if name = "" ∨ userId = 0 then .error "name 或 userId 为空！"
  else .ok (channels.first fun row => row.name = name ∧ row.userId = userId).isSome

/-- `GetTokenStoreChannels`: the channels of the two WeChat types. -/
def getTokenStoreChannels (channels : Channels) : List Channel :=
  channels.select fun row => row.type = typeWeChatCorpAccount ∨ row.type = typeWeChatTestAccount

/-- `GetTokenStoreChannelsByUserId`. -/
def getTokenStoreChannelsByUserId (channels : Channels) (userId : Int) : List Channel :=
  channels.select fun row =>
    row.userId = userId ∧ (row.type = typeWeChatCorpAccount ∨ row.type = typeWeChatTestAccount)

/-- `GetChannelsByUserId`: a page of the channels of a user, the newest first. -/
def getChannelsByUserId (channels : Channels) (userId startIdx num : Int) : List Channel :=
  (page (channels.select fun row => row.userId = userId).reverse startIdx num).map
    Channel.withoutSecret

/-- The struct `BriefChannel`. -/
structure BriefChannel where
  id : Int
  name : String
  description : String
deriving DecidableEq

/-- `GetBriefChannelsByUserId`, in key order, as no other is asked for. -/
def getBriefChannelsByUserId (channels : Channels) (userId : Int) : List BriefChannel :=
  (channels.select fun row => row.userId = userId ∧ row.status = channelStatusEnabled).map
    fun row => { id := row.id, name := row.name, description := row.description }

/-- `SearchChannels`, in key order, as no other is asked for. -/
def searchChannels (dialect : Dialect) (channels : Channels) (userId : Int) (keyword : String) :
    List Channel :=
  (channels.select fun row => row.userId = userId ∧
    (dialect.equalsId row.id keyword ∨ dialect.like row.name (keyword ++ "%"))).map
    Channel.withoutSecret

/-- A channel that a lookup by name answers is one of that user's rows with that name. -/
theorem getChannelByName_ok {channels : Channels} {name : String} {userId : Int}
    {channel : Channel} (found : getChannelByName channels name userId = .ok channel) :
    channel ∈ channels.rows ∧ channel.name = name ∧ channel.userId = userId := by
  unfold getChannelByName at found
  split_ifs at found
  split at found
  · next row first =>
    cases found
    have accepted := Table.first_accepts first
    exact ⟨Table.first_mem first, by simpa using accepted⟩
  · cases found

/-- `Create` writes the declared default of the status. -/
def Channel.withDefaults (channel : Channel) : Channel :=
  { channel with
    status := if channel.status = 0 then channelStatusEnabled else channel.status }

/-- `Channel.Insert`, answering the stored row. -/
def Channel.insert (channel : Channel) (channels : Channels) :
    Channels × Except String Channel :=
  match Table.insert channels channel.withDefaults with
  | some (next, stored) => (next, .ok stored)
  | none => (channels, .error uniqueViolation)

/-- The columns that `Channel.Update` selects, zero values included. -/
def Channel.applySelected (channel row : Channel) : Channel :=
  { row with
    type := channel.type
    name := channel.name
    description := channel.description
    secret := channel.secret
    appId := channel.appId
    accountId := channel.accountId
    url := channel.url
    other := channel.other
    status := channel.status
    token := channel.token }

/-- `Channel.Update`. -/
def Channel.update (channel : Channel) (channels : Channels) : Channels × Option String :=
  if channel.id = 0 then (channels, some missingWhereClause)
  else match Table.update channels channel.id channel.applySelected with
    | some next => (next, none)
    | none => (channels, some uniqueViolation)

/-- `DeleteChannelById`, answering the deleted row. -/
def deleteChannelById (channels : Channels) (id userId : Int) :
    Channels × Except String Channel :=
  if id = 0 ∨ userId = 0 then (channels, .error "id 或 userId 为空！")
  else match channels.first fun row => row.id = id ∧ row.userId = userId with
    | some row => (channels.delete row.id, .ok row)
    | none => (channels, .error recordNotFound)

/-- A channel loaded by id is the user's row with that id. -/
theorem getChannelById_ok {channels : Channels} {id userId : Int} {channel : Channel}
    (found : getChannelById channels id userId true = .ok channel) :
    channel.id ≠ 0 ∧ channels.rowAt channel.id = some channel ∧ channel.userId = userId := by
  unfold getChannelById at found
  by_cases blank : id = 0 ∨ userId = 0
  · simp [blank] at found
  · simp only [blank, if_false, if_true] at found
    cases first : channels.first fun row => row.id = id ∧ row.userId = userId with
    | none =>
        rw [first] at found
        cases found
    | some row =>
        rw [first] at found
        obtain rfl := Except.ok.inj found
        have accepted := Table.first_accepts first
        simp only [decide_eq_true_eq] at accepted
        obtain ⟨rfl, owned⟩ := accepted
        exact ⟨fun unset => blank (.inl unset), Table.rowAt_of_mem (Table.first_mem first), owned⟩

/-- The channel that is loaded has the id that was asked for. -/
theorem getChannelById_id {channels : Channels} {id userId : Int} {selectAll : Bool}
    {channel : Channel} (found : getChannelById channels id userId selectAll = .ok channel) :
    channel.id = id := by
  unfold getChannelById at found
  by_cases blank : id = 0 ∨ userId = 0
  · simp [blank] at found
  · rw [if_neg blank] at found
    split at found
    · next row first =>
      have accepted := Table.first_accepts first
      simp only [decide_eq_true_eq] at accepted
      cases found
      cases selectAll with
      | false => exact accepted.1
      | true => exact accepted.1
    · cases found

/-- A name that is free is not blank, and no channel of the user has it. -/
theorem channelNameExists_false {channels : Channels} {name : String} {userId : Int}
    (free : channelNameExists channels name userId = .ok false) :
    name ≠ "" ∧ ∀ row ∈ channels.rows, row.name = name → row.userId ≠ userId := by
  unfold channelNameExists at free
  split_ifs at free with blank
  have absent := Except.ok.inj free
  refine ⟨fun unnamed => blank (.inl unnamed), fun row member named owned => ?_⟩
  have present : (channels.first fun row => row.name = name ∧ row.userId = userId).isSome = true :=
    Table.first_isSome_iff.mpr ⟨row, member, by simp [named, owned]⟩
  rw [absent] at present
  cases present

/-- An insertion writes a new row, unless an index refuses it. -/
theorem Channel.insert_cases (channel : Channel) (channels : Channels) :
    ((channel.insert channels).1 = channels ∧ ¬ channels.Insertable channel.withDefaults) ∨
      ∃ stored : Channel, stored = { channel.withDefaults with id := stored.id } ∧
        channels.Rewrites (channel.insert channels).1 stored.id (some stored) ∧
        channels.Insertable channel.withDefaults ∧ stored ∉ channels.rows := by
  unfold Channel.insert
  cases inserted : Table.insert channels channel.withDefaults with
  | none => exact .inl ⟨rfl, Table.insert_eq_none_iff.mp inserted⟩
  | some pair =>
      obtain ⟨next, stored⟩ := pair
      obtain ⟨accepted, same, -⟩ := Table.insert_spec inserted
      refine .inr ⟨stored, ?_, Table.rewrites_insert inserted, accepted,
        Table.insert_notMem inserted⟩
      rw [same]
      rfl

/-- A deletion removes one row at most. -/
theorem deleteChannelById_subset (channels : Channels) (id userId : Int) :
    ∀ row ∈ (deleteChannelById channels id userId).1.rows, row ∈ channels.rows := by
  unfold deleteChannelById
  split_ifs
  · exact fun row member => member
  · split
    · exact fun row member => (Table.mem_delete.mp member).1
    · exact fun row member => member

/-- A deletion that answers a row removed the user's row with that id. -/
theorem deleteChannelById_ok {channels : Channels} {id userId : Int} {channel : Channel}
    (deleted : (deleteChannelById channels id userId).2 = .ok channel) :
    channels.rowAt channel.id = some channel ∧ channel.userId = userId ∧
      (deleteChannelById channels id userId).1 = channels.delete channel.id := by
  unfold deleteChannelById at deleted ⊢
  by_cases blank : id = 0 ∨ userId = 0
  · simp [blank] at deleted
  · simp only [blank, if_false] at deleted ⊢
    cases found : channels.first fun row => row.id = id ∧ row.userId = userId with
    | none =>
        rw [found] at deleted
        cases deleted
    | some row =>
        rw [found] at deleted
        obtain rfl := Except.ok.inj deleted
        have accepted := Table.first_accepts found
        simp only [decide_eq_true_eq] at accepted
        exact ⟨Table.rowAt_of_mem (Table.first_mem found), accepted.2, rfl⟩

/-- An update that is refused changes nothing. -/
theorem Channel.update_failed {channel : Channel} {channels next : Channels} {text : String}
    (failed : channel.update channels = (next, some text)) : next = channels := by
  unfold Channel.update at failed
  split_ifs at failed
  · exact (Prod.mk.inj failed).1.symm
  · split at failed
    · cases failed
    · exact (Prod.mk.inj failed).1.symm

/-- An accepted update writes the selected columns of its row. -/
theorem Channel.update_rewrites {channels : Channels} {row oldRow : Channel}
    (present : channels.rowAt row.id = some oldRow) (selected : row.applySelected oldRow = row)
    (accepted : (row.update channels).2 = none) :
    channels.Rewrites (row.update channels).1 row.id (some row) := by
  unfold Channel.update at accepted ⊢
  split_ifs at accepted ⊢
  cases updated : Table.update channels row.id row.applySelected with
  | none => simp [updated] at accepted
  | some next =>
      have writes := Table.rewrites_update updated present
      rwa [selected] at writes

/-- An update is accepted unless another channel of the owner has the name. -/
theorem Channel.update_accepted {channels : Channels} {row oldRow : Channel} (set : row.id ≠ 0)
    (present : channels.rowAt row.id = some oldRow) (selected : row.applySelected oldRow = row)
    (free : ∀ other ∈ channels.rows, other.id ≠ row.id → clash row other = false) :
    (row.update channels).2 = none := by
  have changed : Record.withId row.id (row.applySelected oldRow) = row :=
    (congrArg (Record.withId row.id) selected).trans (Record.withId_id row)
  have accepted : ∃ next, Table.update channels row.id row.applySelected = some next :=
    Table.update_isSome_of_free present fun other member apart =>
      changed.symm ▸ free other member apart
  obtain ⟨next, updated⟩ := accepted
  rw [Channel.update, if_neg set, updated]

end MessagePusher.Model
