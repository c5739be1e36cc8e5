import MessagePusher.Controller.Push
import MessagePusher.JsonText.Decode
import MessagePusher.Web.PushSetting

/-!
# The message editor

`web/src/pages/Message/EditMessage.jsx`: `loadMessage` puts the message that the server answers
into the form, `send` posts the form. `Browser` is what the page gets from the browser.
-/

namespace MessagePusher.Web

open Common Model Controller

/-- The text that a number of an answer is sent back as, the message of a failed `JSON.parse`,
and the path parameter that the push handler gets for `/push/${username}/`, if any. -/
structure Browser where
  numberText : Int → String
  parseError : String → String
  pathName : String → Option String

/-- What `String.prototype.trim` removes: white space and line terminators. -/
def isJsSpace (char : Char) : Bool :=
  [0x09, 0x0a, 0x0b, 0x0c, 0x0d, 0x20, 0xa0, 0x1680, 0x2028, 0x2029, 0x202f, 0x205f, 0x3000,
    0xfeff].contains char.toNat || (0x2000 ≤ char.toNat && char.toNat ≤ 0x200a)

/-- `String.prototype.trim`. -/
def jsTrim (text : String) : String :=
  String.ofList ((text.toList.dropWhile isJsSpace).reverse.dropWhile isJsSpace).reverse

/-- `JSON.parse`. A text is nested less deeply than it is long. -/
def jsonParse (text : String) : Option Json := JsonText.decode text.length text

/-- The form, and whether its content is JSON. -/
structure Editor where
  inputs : Message
  jsonMode : Bool

/-- `loadMessage`, on the message that the server answers. -/
def loadMessage (data : Message) : Editor where
  inputs := { data with id := 0 }
  jsonMode := data.msgType ≠ ""

/-- The fields of a message in an answer of the server, and in the data that the form posts.
`Extra` is not among them. -/
def messageData (browser : Browser) (message : Message) : Json :=
  .object
    [ ("id", .number (browser.numberText message.id)),
      ("user_id", .number (browser.numberText message.userId)),
      ("title", .string message.title), ("description", .string message.description),
      ("content", .string message.content), ("url", .string message.url),
      ("channel", .string message.channel), ("token", .string message.token),
      ("html_content", .string message.htmlContent),
      ("timestamp", .number (browser.numberText message.timestamp)),
      ("link", .string message.link), ("to", .string message.to_),
      ("status", .number (browser.numberText message.status)),
      ("openid", .string message.openId), ("desp", .string message.desp),
      ("short", .string message.short), ("async", .bool message.async),
      ("render_mode", .string message.renderMode), ("msg_type", .string message.msgType) ]

/-- The content that `send` posts, or the error that it shows. -/
def Editor.msgContent (browser : Browser) (editor : Editor) : Except String String :=
  let trimmed := jsTrim editor.inputs.content
  if editor.jsonMode = false then .ok editor.inputs.content
  else if trimmed = "" then .error "JSON 内容不能为空！"
  else match jsonParse trimmed with
    | none => .error ("JSON 解析失败：" ++ browser.parseError trimmed)
    | some (.object _) => .ok trimmed
    | some _ => .error "JSON 内容必须是一个对象，例如 \x7b\"image_key\":\"img_xxx\"\x7d"

/-- The data that `send` posts. Without description and content it returns at once. -/
def Editor.send (browser : Browser) (user : User) (editor : Editor) :
    Except String (Option Json) := do
  if editor.inputs.description = "" ∧ editor.inputs.content = "" then return none
  let content ← editor.msgContent browser
  return some (messageData browser { editor.inputs with content, token := user.token })

/-- The request that the data is posted with. -/
def postPush (browser : Browser) (user : User) (body : Json) : Option PushRequest :=
  (browser.pathName user.username).map fun username => { username, body := some body }

/-- The texts of the numbers of a message are read as 64-bit integers. -/
def NumbersRead (browser : Browser) (message : Message) : Prop :=
  (Text.parseInt (browser.numberText message.id)).2 = true ∧
    (Text.parseInt (browser.numberText message.userId)).2 = true ∧
    (Text.parseInt (browser.numberText message.timestamp)).2 = true ∧
    (Text.parseInt (browser.numberText message.status)).2 = true

/-- A number as the server reads it again. -/
def Browser.readBack (browser : Browser) (number : Int) : Int :=
  (Text.parseInt (browser.numberText number)).1

instance (browser : Browser) (message : Message) : Decidable (NumbersRead browser message) :=
  inferInstanceAs (Decidable (_ ∧ _))

/-- The message that the posted data is decoded into, unless a number does not fit. -/
theorem decodeInto_messageData (browser : Browser) (message : Message) :
    Json.decodeInto Message.jsonFields (some (messageData browser message)) {} =
      if NumbersRead browser message then
        some { message with
          id := browser.readBack message.id
          userId := browser.readBack message.userId
          timestamp := browser.readBack message.timestamp
          status := browser.readBack message.status
          extra := "" }
      else none := by
  simp only [messageData, Json.decodeInto, Json.decodeMember, Json.fieldFor, Message.jsonFields,
    Json.stringField, Json.intField, Json.boolField, List.find?, List.foldlM_cons, List.foldlM_nil,
    decide_true, decide_false, String.reduceEq, Option.some_or]
  by_cases read : NumbersRead browser message
  · rw [if_pos read]
    obtain ⟨id, userId, timestamp, status⟩ := read
    simp only [id, userId, timestamp, status, if_true]
    rfl
  rw [if_neg read]
  -- The first number that does not fit ends the decoding.
  by_cases id : (Text.parseInt (browser.numberText message.id)).2 = true
  swap
  · simp only [id]
    rfl
  by_cases userId : (Text.parseInt (browser.numberText message.userId)).2 = true
  swap
  · simp only [id, userId, if_true]
    rfl
  by_cases timestamp : (Text.parseInt (browser.numberText message.timestamp)).2 = true
  swap
  · simp only [id, userId, timestamp, if_true]
    rfl
  have status : ¬ (Text.parseInt (browser.numberText message.status)).2 = true :=
    fun status => read ⟨id, userId, timestamp, status⟩
  simp only [id, userId, timestamp, status, if_true]
  rfl

end MessagePusher.Web
