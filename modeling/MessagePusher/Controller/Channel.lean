import Mathlib.Algebra.GroupWithZero.Nat
import MessagePusher.Channel.TokenStore
import MessagePusher.Middleware.Auth

/-!
# The channel handlers

`AddChannel`, `UpdateChannel` and `DeleteChannel` of `controller/channel.go`, with
the calls of the token store that they make after the change of the table.
-/

namespace MessagePusher.Controller

open Common Model Store Middleware
open Channel (StoreCall tokenStoreAddChannel tokenStoreRemoveChannel tokenStoreUpdateChannel
  keepChangedParts TokenStoreItem)

/-- The clock, and the text of a binding error. -/
structure ChannelEnvironment where
  now : Int := 0
  bindError : Option Json → String := fun _ => ""

/-- What a channel handler does. -/
structure ChannelHandled where
  channels : Channels
  calls : List StoreCall := []
  reply : Reply Model.Channel

def refuseChannel (channels : Channels) (message : String) : ChannelHandled :=
  { channels, reply := { message } }

/-- `len` of a string, in bytes. -/
def byteLength (text : String) : Nat :=
  (text.toList.map Char.utf8Size).sum

theorem byteLength_pos {text : String} (filled : text ≠ "") : 0 < byteLength text := by
  have chars : text.toList ≠ [] := fun blank => filled (String.toList_eq_nil_iff.mp blank)
  obtain ⟨char, rest, chars⟩ := List.exists_cons_of_ne_nil chars
  have size := char.utf8Size_pos
  rw [byteLength, chars, List.map_cons, List.sum_cons]
  omega

/-- The channel that `AddChannel` inserts. -/
def addedChannel (env : ChannelEnvironment) (userId : Int) (channel : Model.Channel) :
    Model.Channel where
  type := channel.type
  userId := userId
  name := channel.name
  description := channel.description
  status := channelStatusEnabled
  secret := channel.secret
  appId := channel.appId
  accountId := channel.accountId
  url := channel.url
  other := channel.other
  createdTime := env.now
  token := channel.token

/-- `AddChannel` up to its write: the channel to insert, or the refusal. -/
def admitAddChannel (env : ChannelEnvironment) (userId : Int) (body : Option Json)
    (channels : Channels) : Except String Model.Channel := do
  let channel ←
    match Json.decodeInto Channel.jsonFields body {} with
    | none => .error (env.bindError body)
    | some channel => .ok channel
  if byteLength channel.name = 0 ∨ 20 < byteLength channel.name then
    .error "通道名称长度必须在1-20之间"
  if channel.name = "email" then .error "不能使用系统保留名称"
  let nameExists ← (channelNameExists channels channel.name userId).mapError
    ("检查通道名称失败：" ++ ·)
  if nameExists then .error "通道名称已存在，请换一个名称"
  return addedChannel env userId channel

/-- What `AddChannel` lets through has a legal name, which is not reserved. -/
theorem admitAddChannel_ok {env : ChannelEnvironment} {userId : Int} {body : Option Json}
    {channels : Channels} {row : Model.Channel}
    (admitted : admitAddChannel env userId body channels = .ok row) :
    1 ≤ byteLength row.name ∧ byteLength row.name ≤ 20 ∧ row.name ≠ "email" := by
  unfold admitAddChannel at admitted
  cases decoded : Json.decodeInto Channel.jsonFields body {} with
  | none => simp [decoded, bind, Except.bind] at admitted
  | some channel =>
      simp only [decoded, bind, Except.bind, pure, Except.pure] at admitted
      split_ifs at admitted with size reserved
      cases exists_ : channelNameExists channels channel.name userId with
      | error text => simp [exists_, Except.mapError] at admitted
      | ok taken =>
          cases taken with
          | true => simp [exists_, Except.mapError] at admitted
          | false =>
              have same : addedChannel env userId channel = row := by
                simpa [exists_, Except.mapError] using admitted
              subst same
              have long : byteLength (addedChannel env userId channel).name =
                  byteLength channel.name := rfl
              exact ⟨by omega, by omega, reserved⟩

def addChannel (env : ChannelEnvironment) (userId : Int) (body : Option Json)
    (channels : Channels) : ChannelHandled :=
  match admitAddChannel env userId body channels with
  | .error text => refuseChannel channels text
  | .ok cleanChannel =>
      match cleanChannel.insert channels with
      | (next, .error text) => refuseChannel next text
      | (next, .ok stored) =>
          { channels := next
            calls := tokenStoreAddChannel stored
            reply := { success := true } }

def deleteChannel (userId : Int) (idParam : String) (channels : Channels) : ChannelHandled :=
  match deleteChannelById channels (Text.parseInt idParam).1 userId with
  | (next, .error text) => refuseChannel next text
  | (next, .ok channel) =>
      { channels := next
        calls := tokenStoreRemoveChannel (TokenStoreItem.isShared next) channel
        reply := { success := true } }

/-- The old channel with the fields of the request; a blank secret keeps the old one. -/
def updatedChannel (channel oldChannel : Model.Channel) : Model.Channel :=
  { oldChannel with
    type := channel.type
    name := channel.name
    description := channel.description
    secret := if channel.secret = "" then oldChannel.secret else channel.secret
    appId := channel.appId
    accountId := channel.accountId
    url := channel.url
    other := channel.other
    token := channel.token }

/-- `UpdateChannel` up to its write: the channel to write and the old one, or the refusal. -/
def admitUpdateChannel (env : ChannelEnvironment) (userId : Int) (statusOnly : String)
    (body : Option Json) (channels : Channels) :
    Except String (Model.Channel × Model.Channel) := do
  let channel ←
    match Json.decodeInto Channel.jsonFields body {} with
    | none => .error (env.bindError body)
    | some channel => .ok channel
  let oldChannel ← getChannelById channels channel.id userId true
  if statusOnly ≠ "" then return ({ oldChannel with status := channel.status }, oldChannel)
  if channel.name ≠ oldChannel.name then
    let nameExists ← (channelNameExists channels channel.name userId).mapError
      ("检查通道名称失败：" ++ ·)
    if nameExists then .error "通道名称已存在，请换一个名称"
  return (updatedChannel channel oldChannel, oldChannel)

/-- What `UpdateChannel` lets through: another status for a channel of the user, or the request
under a name that is the old one or free. -/
theorem admitUpdateChannel_cases {env : ChannelEnvironment} {userId : Int} {statusOnly : String}
    {body : Option Json} {channels : Channels} {row oldRow : Model.Channel}
    (admitted : admitUpdateChannel env userId statusOnly body channels = .ok (row, oldRow)) :
    ∃ channel, Json.decodeInto Channel.jsonFields body {} = some channel ∧
      getChannelById channels channel.id userId true = .ok oldRow ∧
      ((statusOnly ≠ "" ∧ row = { oldRow with status := channel.status }) ∨
        (statusOnly = "" ∧ row = updatedChannel channel oldRow ∧
          (channel.name ≠ oldRow.name →
            channelNameExists channels channel.name userId = .ok false))) := by
  unfold admitUpdateChannel at admitted
  cases decoded : Json.decodeInto Channel.jsonFields body {} with
  | none => simp [decoded, bind, Except.bind] at admitted
  | some channel =>
      simp only [decoded, bind, Except.bind, pure, Except.pure] at admitted
      cases loaded : getChannelById channels channel.id userId true with
      | error text => simp [loaded] at admitted
      | ok old =>
          simp only [loaded] at admitted
          by_cases status : statusOnly ≠ ""
          · rw [if_pos status] at admitted
            cases admitted
            exact ⟨channel, rfl, loaded, .inl ⟨status, rfl⟩⟩
          · rw [if_neg status] at admitted
            have answered : (updatedChannel channel old = row ∧ old = oldRow) ∧
                (channel.name ≠ old.name →
                  channelNameExists channels channel.name userId = .ok false) := by
              split_ifs at admitted with renamed
              · cases exists_ : channelNameExists channels channel.name userId with
                | error text => simp [exists_, Except.mapError] at admitted
                | ok taken =>
                    cases taken with
                    | true => simp [exists_, Except.mapError] at admitted
                    | false => simpa [exists_, Except.mapError] using admitted
              · exact ⟨by simpa using admitted, fun other => absurd other renamed⟩
            obtain ⟨⟨rfl, rfl⟩, free⟩ := answered
            exact ⟨channel, rfl, loaded, .inr ⟨not_not.mp status, rfl, free⟩⟩

/-- An update is let through for a row of the table, and changes selected columns of it only. -/
theorem admitUpdateChannel_ok {env : ChannelEnvironment} {userId : Int} {statusOnly : String}
    {body : Option Json} {channels : Channels} {row oldRow : Model.Channel}
    (admitted : admitUpdateChannel env userId statusOnly body channels = .ok (row, oldRow)) :
    row.id = oldRow.id ∧ channels.rowAt oldRow.id = some oldRow ∧
      row.applySelected oldRow = row := by
  obtain ⟨channel, -, loaded, change⟩ := admitUpdateChannel_cases admitted
  have found := (getChannelById_ok loaded).2.1
  rcases change with ⟨-, rfl⟩ | ⟨-, rfl, -⟩
  · exact ⟨rfl, found, rfl⟩
  · exact ⟨rfl, found, rfl⟩

def updateChannel (env : ChannelEnvironment) (userId : Int) (statusOnly : String)
    (body : Option Json) (channels : Channels) : ChannelHandled :=
  match admitUpdateChannel env userId statusOnly body channels with
  | .error text => refuseChannel channels text
  | .ok (cleanChannel, oldChannel) =>
      match cleanChannel.update channels with
      | (next, some text) => refuseChannel next text
      | (next, none) =>
          { channels := next
            calls := tokenStoreUpdateChannel (TokenStoreItem.isShared next) cleanChannel oldChannel
            reply :=
              { success := true, data := some (keepChangedParts cleanChannel oldChannel) } }

/-- What `AddChannel` leaves of the table: all of it, or one new row under an admitted name. -/
theorem addChannel_writes (env : ChannelEnvironment) (userId : Int) (body : Option Json)
    (channels : Channels) :
    (addChannel env userId body channels).channels = channels ∨
      ∃ row : Model.Channel, 1 ≤ byteLength row.name ∧ byteLength row.name ≤ 20 ∧
        row.name ≠ "email" ∧
        channels.Rewrites (addChannel env userId body channels).channels row.id (some row) := by
  unfold addChannel
  cases admitted : admitAddChannel env userId body channels with
  | error text => exact .inl rfl
  | ok row =>
      have named := admitAddChannel_ok admitted
      have inserted := row.insert_cases channels
      dsimp only
      cases result : row.insert channels with
      | mk next outcome =>
          rw [result] at inserted
          rcases inserted with ⟨same, -⟩ | ⟨stored, fields, writes, -⟩
          · left
            cases outcome <;> exact same
          · have name : stored.name = row.name := by rw [fields]; rfl
            rw [← name] at named
            refine .inr ⟨stored, named.1, named.2.1, named.2.2, ?_⟩
            cases outcome <;> exact writes

theorem deleteChannel_subset (userId : Int) (idParam : String) (channels : Channels) :
    ∀ row ∈ (deleteChannel userId idParam channels).channels.rows, row ∈ channels.rows := by
  have subset := deleteChannelById_subset channels (Text.parseInt idParam).1 userId
  unfold deleteChannel
  split
  · next deleted =>
    rw [deleted] at subset
    exact subset
  · next deleted =>
    rw [deleted] at subset
    exact subset

/-- A change that is let through is accepted. -/
theorem admitUpdateChannel_accepted {env : ChannelEnvironment} {userId : Int}
    {statusOnly : String} {body : Option Json} {channels : Channels} {row oldRow : Model.Channel}
    (admitted : admitUpdateChannel env userId statusOnly body channels = .ok (row, oldRow)) :
    (row.update channels).2 = none := by
  obtain ⟨sameId, found, selected⟩ := admitUpdateChannel_ok admitted
  obtain ⟨channel, -, loaded, change⟩ := admitUpdateChannel_cases admitted
  obtain ⟨set, -, owned⟩ := getChannelById_ok loaded
  rw [← sameId] at found set
  have old : ∀ other ∈ channels.rows, other.id ≠ row.id → clash oldRow other = false := by
    intro other member apart
    by_contra clashes
    have same := channels.eq_of_clash (Table.rowAt_mem found) member (by simpa using clashes)
    rw [← same] at apart
    exact apart sameId.symm
  have free : ∀ other ∈ channels.rows, other.id ≠ row.id → clash row other = false := by
    rcases change with ⟨-, rfl⟩ | ⟨-, rfl, renamed⟩
    · exact old
    · by_cases same : channel.name = oldRow.name
      · intro other member apart
        have before := old other member apart
        rwa [show clash oldRow other = clash (updatedChannel channel oldRow) other by
          show decide (oldRow.name = other.name ∧ oldRow.userId = other.userId) =
            decide (channel.name = other.name ∧ oldRow.userId = other.userId)
          rw [same]] at before
      · intro other member apart
        have unused := (channelNameExists_false (renamed same)).2 other member
        show decide (channel.name = other.name ∧ oldRow.userId = other.userId) = false
        rw [decide_eq_false_iff_not]
        rintro ⟨named, owner⟩
        exact unused named.symm (owner.symm.trans owned)
  exact Model.Channel.update_accepted set found selected free

/-- So it is answered with what the token store leaves of the channel. -/
theorem updateChannel_reply {env : ChannelEnvironment} {userId : Int} {statusOnly : String}
    {body : Option Json} {channels : Channels} {row oldRow : Model.Channel}
    (admitted : admitUpdateChannel env userId statusOnly body channels = .ok (row, oldRow)) :
    (updateChannel env userId statusOnly body channels).reply =
      { success := true, data := some (keepChangedParts row oldRow) } := by
  have accepted := admitUpdateChannel_accepted admitted
  unfold updateChannel
  rw [admitted]
  dsimp only
  cases result : row.update channels with
  | mk next failure =>
      rw [result] at accepted
      obtain rfl : failure = none := accepted
      rfl

/-- And it writes its row. -/
theorem updateChannel_writes {env : ChannelEnvironment} {userId : Int} {statusOnly : String}
    {body : Option Json} {channels : Channels} {row oldRow : Model.Channel}
    (admitted : admitUpdateChannel env userId statusOnly body channels = .ok (row, oldRow)) :
    channels.Rewrites (updateChannel env userId statusOnly body channels).channels row.id
      (some row) := by
  obtain ⟨sameId, found, selected⟩ := admitUpdateChannel_ok admitted
  rw [← sameId] at found
  have accepted := admitUpdateChannel_accepted admitted
  have writes := Model.Channel.update_rewrites found selected accepted
  unfold updateChannel
  rw [admitted]
  dsimp only
  cases result : row.update channels with
  | mk next failure =>
      rw [result] at accepted writes
      obtain rfl : failure = none := accepted
      exact writes

end MessagePusher.Controller
