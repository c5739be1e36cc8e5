import MessagePusher.Middleware.Auth
import MessagePusher.Model.Channel
import MessagePusher.Model.Webhook

/-!
# The read endpoints

The list, get and search handlers of `controller/message.go`, `channel.go` and
`webhook.go`, behind `UserAuth` as `SetApiRouter` sets them up. A handler takes the
id that the middleware read from the session.
-/

namespace MessagePusher.Controller

open Common Model Store Middleware

/-- The tables of the database. -/
structure Database where
  users : Users
  messages : Messages
  channels : Channels
  webhooks : Webhooks

/-- What the read endpoints answer. -/
inductive ReadData where
  | messages (list : List Message)
  | message (message : Message)
  | channels (list : List Channel)
  | briefChannels (list : List BriefChannel)
  | channel (channel : Channel)
  | webhooks (list : List Webhook)
  | webhook (webhook : Webhook)
deriving DecidableEq

/-- The answer with the data, or with the text of the error. -/
def replyOf {α : Type} (wrap : α → ReadData) (result : Except String α) : Reply ReadData :=
  match result with
  | .error text => { message := text }
  | .ok value => { success := true, data := some (wrap value) }

/-- The first row of a page; what does not parse counts as page zero or as the number it was
clamped to. -/
def startIndex (p : String) : Int :=
  let parsed := (Text.parseInt p).1
  mulInt64 (if parsed < 0 then 0 else parsed) itemsPerPage

/-! ### Messages -/

/-- `GetUserMessages`. -/
def getUserMessages (messages : Messages) (userId : Int) (p : String) : Reply ReadData :=
  replyOf .messages (.ok (getMessagesByUserId messages userId (startIndex p) itemsPerPage))

/-- `GetMessage`; a number that does not parse is zero. -/
def getMessage (messages : Messages) (userId : Int) (idParam : String) : Reply ReadData :=
  replyOf .message (getMessageByIds messages (Text.parseInt idParam).1 userId)

/-- `SearchMessages`, which does not ask for the user. -/
def searchMessagesReply (dialect : Dialect) (messages : Messages) (keyword : String) :
    Reply ReadData :=
  replyOf .messages (.ok (searchMessages dialect messages keyword))

/-! ### Channels -/

/-- `GetBriefChannels`: the enabled ones. -/
def getBriefChannels (channels : Channels) (userId : Int) : Reply ReadData :=
  replyOf .briefChannels (.ok (getBriefChannelsByUserId channels userId))

/-- `GetAllChannels`. -/
def getAllChannels (channels : Channels) (userId : Int) (brief p : String) : Reply ReadData :=
  if brief ≠ "" then getBriefChannels channels userId
  else replyOf .channels (.ok (getChannelsByUserId channels userId (startIndex p) itemsPerPage))

/-- `SearchChannels`. -/
def searchChannelsReply (dialect : Dialect) (channels : Channels) (userId : Int)
    (keyword : String) : Reply ReadData :=
  replyOf .channels (.ok (searchChannels dialect channels userId keyword))

/-- `GetChannel`. -/
def getChannel (channels : Channels) (userId : Int) (idParam : String) : Reply ReadData :=
  replyOf .channel do
    let id ← Text.atoi idParam
    getChannelById channels id userId false

/-! ### Webhooks -/

/-- `GetAllWebhooks`. -/
def getAllWebhooks (webhooks : Webhooks) (userId : Int) (p : String) : Reply ReadData :=
  replyOf .webhooks (.ok (getWebhooksByUserId webhooks userId (startIndex p) itemsPerPage))

/-- `SearchWebhooks`: the keyword may be a whole link. -/
def searchWebhooksReply (dialect : Dialect) (settings : Settings) (webhooks : Webhooks)
    (userId : Int) (keyword : String) : Reply ReadData :=
  let keyword := Text.trimPrefix keyword (settings.serverAddress ++ "/webhook/")
  replyOf .webhooks (.ok (searchWebhooks dialect webhooks userId keyword))

/-- `GetWebhook`. -/
def getWebhook (webhooks : Webhooks) (userId : Int) (idParam : String) : Reply ReadData :=
  replyOf .webhook do
    let id ← Text.atoi idParam
    getWebhookById webhooks id userId

/-! ### Routes -/

/-- The read requests, with their path and query parameters. -/
inductive ReadRequest where
  | getUserMessages (p : String)
  | getMessage (idParam : String)
  | searchMessages (keyword : String)
  | getAllChannels (brief p : String)
  | getChannel (idParam : String)
  | searchChannels (keyword : String)
  | getAllWebhooks (p : String)
  | getWebhook (idParam : String)
  | searchWebhooks (keyword : String)

/-- The handler of a request for the user with id `userId`. -/
def handleRead (dialect : Dialect) (settings : Settings) (userId : Int) (request : ReadRequest)
    (database : Database) : Reply ReadData :=
  match request with
  | .getUserMessages p => getUserMessages database.messages userId p
  | .getMessage idParam => getMessage database.messages userId idParam
  | .searchMessages keyword => searchMessagesReply dialect database.messages keyword
  | .getAllChannels brief p => getAllChannels database.channels userId brief p
  | .getChannel idParam => getChannel database.channels userId idParam
  | .searchChannels keyword => searchChannelsReply dialect database.channels userId keyword
  | .getAllWebhooks p => getAllWebhooks database.webhooks userId p
  | .getWebhook idParam => getWebhook database.webhooks userId idParam
  | .searchWebhooks keyword =>
      searchWebhooksReply dialect settings database.webhooks userId keyword

/-- All read routes are behind `UserAuth`. -/
def serveRead (dialect : Dialect) (settings : Settings) (session : Option Session)
    (request : ReadRequest) (database : Database) : Reply ReadData :=
  match userAuth session with
  | .error refusal => refusal
  | .ok actor => handleRead dialect settings actor.id request database

end MessagePusher.Controller
