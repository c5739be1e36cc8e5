import MessagePusher.Channel.Senders

/-!
# The token store

`channel/token-store.go` with the items of the two WeChat channel types. Every
exported function comes down to a list of `TokenStoreAddItem` and
`TokenStoreRemoveItem` calls; `shared` answers `IsShared`, which counts rows.
-/

namespace MessagePusher.Channel

open Common Model Store

/-- The credentials of an item; its access token is kept apart. -/
inductive TokenStoreItem where
  | weChatTestAccount (appId appSecret : String)
  | weChatCorpAccount (corpId agentId agentSecret : String)
deriving DecidableEq

namespace TokenStoreItem

/-- `Key`: the credentials in a row, without anything between them. -/
def key : TokenStoreItem → String
  | weChatTestAccount appId appSecret => appId ++ appSecret
  | weChatCorpAccount corpId agentId agentSecret => corpId ++ agentId ++ agentSecret

/-- `IsFilled`: no credential is blank. -/
def isFilled : TokenStoreItem → Bool
  | weChatTestAccount appId appSecret => appId ≠ "" && appSecret ≠ ""
  | weChatCorpAccount corpId agentId agentSecret =>
      corpId ≠ "" && agentSecret ≠ "" && agentId ≠ ""

/-- The condition of the count in `IsShared`. -/
def usedBy (row : Model.Channel) : TokenStoreItem → Bool
  | weChatTestAccount appId appSecret =>
      row.secret = appSecret ∧ row.appId = appId ∧ row.type = typeWeChatTestAccount
  | weChatCorpAccount corpId agentId agentSecret =>
      row.secret = agentSecret ∧ row.appId = corpId ++ "|" ++ agentId ∧
        row.type = typeWeChatCorpAccount

/-- `IsShared`: more than one channel has the credentials, whoever owns it. -/
def isShared (channels : Channels) (item : TokenStoreItem) : Bool :=
  1 < (channels.select fun row => item.usedBy row).length

end TokenStoreItem

/-- `channel2item`; `none` for other types and for a corp account without two parts. -/
def channel2item (channel : Model.Channel) : Option TokenStoreItem :=
  if channel.type = typeWeChatTestAccount then
    some (.weChatTestAccount channel.appId channel.secret)
  else if channel.type = typeWeChatCorpAccount then
    match parseWechatCorpAccountAppId channel.appId with
    | .error _ => none
    | .ok (corpId, agentId) => some (.weChatCorpAccount corpId agentId channel.secret)
  else none

/-- The items of channels; a channel without one is skipped. -/
def channels2items (channels : List Model.Channel) : List TokenStoreItem :=
  channels.filterMap channel2item

/-- A call of `TokenStoreAddItem` or `TokenStoreRemoveItem`. -/
inductive StoreCall where
  | addItem (item : TokenStoreItem)
  | removeItem (item : TokenStoreItem)
deriving DecidableEq

/-- `TokenStoreAddUser`: an item for each channel of the user. -/
def tokenStoreAddUser (channels : Channels) (userId : Int) : List StoreCall :=
  (channels2items (getTokenStoreChannelsByUserId channels userId)).map .addItem

/-- `TokenStoreRemoveUser`, which keeps the items that are shared. -/
def tokenStoreRemoveUser (shared : TokenStoreItem → Bool) (channels : Channels) (userId : Int) :
    List StoreCall :=
  ((channels2items (getTokenStoreChannelsByUserId channels userId)).filter fun item =>
    !shared item).map .removeItem

/-- `checkTokenStoreChannelType`: the two WeChat types. -/
def checkTokenStoreChannelType (type : String) : Bool :=
  type = typeWeChatTestAccount || type = typeWeChatCorpAccount

/-- `TokenStoreAddChannel`. -/
def tokenStoreAddChannel (channel : Model.Channel) : List StoreCall :=
  if checkTokenStoreChannelType channel.type then
    (channel2item channel).toList.map .addItem
  else []

/-- `TokenStoreRemoveChannel`, which keeps an item that is shared. -/
def tokenStoreRemoveChannel (shared : TokenStoreItem → Bool) (channel : Model.Channel) :
    List StoreCall :=
  if checkTokenStoreChannelType channel.type then
    ((channel2item channel).toList.filter fun item => !shared item).map .removeItem
  else []

/-- A part of the new channel, blank when it is unchanged. -/
def changedPart (new old : String) : String := if new = old then "" else new

/-- `TokenStoreUpdateChannel` blanks the unchanged credentials of the channel it is given. -/
def keepChangedParts (newChannel oldChannel : Model.Channel) : Model.Channel :=
  if checkTokenStoreChannelType oldChannel.type then
    { newChannel with
      appId := changedPart newChannel.appId oldChannel.appId
      secret := changedPart newChannel.secret oldChannel.secret }
  else newChannel

/-- A part that was changed to something, else the old one. -/
def changedOr (changed old : String) : String := if changed ≠ "" then changed else old

/-- The old and the new item of `TokenStoreUpdateChannel`, by the type of the old channel.
For a changed corp account the source parses the old `AppId` once more. -/
def updatedItems (newChannel oldChannel : Model.Channel) :
    Option (TokenStoreItem × TokenStoreItem) :=
  let changed := keepChangedParts newChannel oldChannel
  if oldChannel.type = typeWeChatTestAccount then
    some
      (.weChatTestAccount oldChannel.appId oldChannel.secret,
        .weChatTestAccount (changedOr changed.appId oldChannel.appId)
          (changedOr changed.secret oldChannel.secret))
  else if oldChannel.type = typeWeChatCorpAccount then
    match parseWechatCorpAccountAppId oldChannel.appId with
    | .error _ => none
    | .ok (corpId, agentId) =>
        let parts :=
          if changed.appId ≠ "" then parseWechatCorpAccountAppId oldChannel.appId
          else .ok (corpId, agentId)
        match parts with
        | .error _ => none
        | .ok (newCorpId, newAgentId) =>
            some
              (.weChatCorpAccount corpId agentId oldChannel.secret,
                .weChatCorpAccount newCorpId newAgentId
                  (changedOr changed.secret oldChannel.secret))
  else none

/-- `TokenStoreUpdateChannel`: the old item goes unless it is shared, and the new one comes. -/
def tokenStoreUpdateChannel (shared : TokenStoreItem → Bool)
    (newChannel oldChannel : Model.Channel) : List StoreCall :=
  match updatedItems newChannel oldChannel with
  | none => []
  | some (oldItem, newItem) =>
      (if shared oldItem then [] else [.removeItem oldItem]) ++ [.addItem newItem]

/-- The items that `TokenStoreInit` writes, filled or not. -/
def tokenStoreInitItems (channels : Channels) : List TokenStoreItem :=
  channels2items (getTokenStoreChannels channels)

end MessagePusher.Channel
