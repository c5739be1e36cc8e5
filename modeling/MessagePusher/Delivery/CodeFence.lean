import MessagePusher.Delivery.EditorResend
import MessagePusher.Markdown.Fences

/-!
# Render mode `code`

`processMessage` puts the content between two lines of three backticks. Whether a reader of
Markdown sees the content in one block depends on the lines of the content.
-/

namespace MessagePusher.Delivery

open Common Model Store Controller Markdown

/-- The content of a row that `processMessage` inserted. -/
theorem processMessage_content {env : Environment} {channels : Channels} {messages : Messages}
    {message : Message} {user : User} {needAuth : Bool} {key : Int} {row : MessageRow}
    (fresh : messages.rowAt key = none)
    (stored : (processMessage env channels messages message user needAuth).1.messages.rowAt key =
      some row) : row.content = renderedContent env message := by
  unfold processMessage at stored
  cases prepared : prepareMessage env channels message user needAuth with
  | error refusal =>
      rw [prepared] at stored
      dsimp only at stored
      rw [fresh] at stored
      cases stored
  | ok call =>
      obtain ⟨passed, channel⟩ := call
      rw [prepared] at stored
      obtain ⟨status, rfl⟩ := saveAndSendMessage_fresh fresh stored
      obtain ⟨-, -, -, rfl⟩ := prepareMessage_ok_iff.mp prepared
      rfl

/-- The fence of `processMessage`. -/
def codeMark : Fence := backticks 3

theorem toList_codeFence (content : String) :
    (codeFence content).toList = fenced codeMark content.toList := by
  unfold codeFence
  rw [String.toList_append, String.toList_append]
  simp [fenced, codeMark, backticks, Fence.marker, List.replicate]

/-- A stored content of mode `code` is one block of the original lines exactly when no line of
the original ends the block and it does not end in a carriage return. -/
theorem stored_code_shows_content_iff {env : Environment} {channels : Channels}
    {messages : Messages} {message : Message} {user : User} {needAuth : Bool}
    (mode : message.renderMode = "code") (plain : plainType env.toLower message.msgType)
    (filled : message.content ≠ "") {key : Int} {row : MessageRow}
    (fresh : messages.rowAt key = none)
    (stored : (processMessage env channels messages message user needAuth).1.messages.rowAt key =
      some row) :
    blocks row.content.toList = [.code [] (lines message.content.toList)] ↔
      (∀ line ∈ lines message.content.toList, codeMark.closes line = false) ∧
        endsInReturn false message.content.toList = false := by
  have rendered : renderedContent env message = codeFence message.content :=
    if_pos ⟨mode, plain, filled⟩
  rw [processMessage_content fresh stored, rendered, toList_codeFence]
  exact blocks_fenced_iff (Nat.le_refl 3) message.content.toList

/-! A content with a line of backticks, and one without. -/

def codeMessage (content : String) : Message where
  channel := "c"
  content := content
  renderMode := "code"

/-- What happens to the content when bob pushes it to an empty table. -/
def codePush (content : String) : Outcome :=
  (processMessage { uuid := firstUuid } forgerChannels .empty (codeMessage content) bob false).1

/-- The row of that content. -/
def storedCode (content : String) : MessageRow where
  id := 1
  userId := 2
  title := "消息推送服务"
  description := ""
  content := codeFence content
  url := "http://localhost:3000/message/0123456789abcdef0123456789abcdef"
  channel := "c"
  timestamp := 0
  link := firstUuid
  to_ := ""
  status := messageSendStatusSent
  renderMode := "code"
  msgType := ""
  extra := ""

theorem backticks_end_the_block :
    (codeMessage "a\n```\nb").renderMode = "code" ∧
      plainType id (codeMessage "a\n```\nb").msgType ∧
      (codePush "a\n```\nb").messages.rowAt 1 = some (storedCode "a\n```\nb") ∧
      blocks (storedCode "a\n```\nb").content.toList =
        [.code [] ["a".toList], .line "b".toList, .code [] []] ∧
      blocks (storedCode "a\n```\nb").content.toList ≠
        [.code [] (lines "a\n```\nb".toList)] := by
  refine ⟨rfl, by decide, by decide, by decide, by decide⟩

theorem stored_code_shows_content_iff_plain :
    blocks (storedCode "a\nb").content.toList = [.code [] (lines "a\nb".toList)] ↔
      (∀ line ∈ lines "a\nb".toList, codeMark.closes line = false) ∧
        endsInReturn false "a\nb".toList = false := by
  have stored : (codePush "a\nb").messages.rowAt 1 = some (storedCode "a\nb") := by decide
  have there : (codeMessage "a\nb").content ≠ "" := by decide
  exact @stored_code_shows_content_iff { uuid := firstUuid } forgerChannels .empty
    (codeMessage "a\nb") bob false rfl (by decide) there 1 _ (by decide) stored

end MessagePusher.Delivery
