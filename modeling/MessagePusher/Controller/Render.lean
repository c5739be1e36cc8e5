import MessagePusher.Channel.Senders

/-!
# The page of a message

`RenderMessage` of `controller/message.go`, reached under `/message/:link`. The link `unsaved`
stands for every message that was sent without being stored.
-/

namespace MessagePusher.Controller

open Common Model
open Channel (Library markdown2HTML)

/-- What `message.html` is filled with. The time is shown in the format of the page. -/
structure MessagePage where
  title : String
  time : Int
  description : String
  content : String
deriving DecidableEq

inductive PageReply where
  | notFound
  | page (page : MessagePage)
deriving DecidableEq

/-- The page for an instance whose administrator disabled rendering. -/
def renderDisabledNotice (now : Int) : MessagePage where
  title := "无法渲染"
  time := now
  description := "超级管理员禁用了消息渲染"
  content := "很抱歉，您所使用的消息推送服务的管理员禁用了消息渲染功能，因此您的消息无法渲染。"

/-- The page for a message that was not stored. -/
def unsavedNotice (now : Int) : MessagePage where
  title := "无法渲染"
  time := now
  description := "超级管理员禁用了消息持久化"
  content := "很抱歉，您所使用的消息推送服务的管理员禁用了消息持久化功能，您的消息并没有存储到数据库中，因此无法渲染。"

/-- The link of a message that was not stored. -/
def unsavedLink : String := "unsaved"

variable (lib : Library)

/-- The page of a loaded message. In mode `raw` nothing is converted, and the content is what
`html_content` holds. -/
def messagePage (message : Message) : MessagePage where
  title := message.title
  time := message.timestamp
  description :=
    if message.renderMode = "raw" then message.description
    else markdown2HTML lib message.description
  content :=
    if message.renderMode = "raw" ∨ message.content = "" then message.htmlContent
    else markdown2HTML lib message.content

/-- `RenderMessage`. -/
def renderMessage (settings : Settings) (now : Int) (messages : Messages) (link : String) :
    PageReply :=
  if settings.messageRenderEnabled = false then .page (renderDisabledNotice now)
  else if link = unsavedLink then .page (unsavedNotice now)
  else match getMessageByLink messages link with
    | .error _ => .notFound
    | .ok message => .page (messagePage lib message)

/-- The page of a stored message, whatever its status. -/
theorem renderMessage_rowAt {settings : Settings} {messages : Messages} {key : Int}
    {row : MessageRow} (now : Int) (enabled : settings.messageRenderEnabled = true)
    (found : messages.rowAt key = some row) (named : row.link ≠ "")
    (saved : row.link ≠ unsavedLink) :
    renderMessage lib settings now messages row.link =
      .page (messagePage lib (Message.ofRow row)) := by
  have on : ¬ settings.messageRenderEnabled = false := by simp [enabled]
  rw [renderMessage, if_neg on, if_neg saved, getMessageByLink_rowAt found named]

end MessagePusher.Controller
