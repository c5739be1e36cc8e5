import MessagePusher.Channel.Senders

/-!
# Posts to Telegram

`channel/telegram.go`: the loop of `SendTelegramMessage`, which cuts a text into chunks and posts
one after the other. A text is its bytes, as Go has it.
-/

namespace MessagePusher.Channel

open Common Model

/-- `TelegramMaxMessageLength`. -/
def telegramMaxMessageLength : Nat := 4096

abbrev Bytes := List UInt8

structure TelegramMessageRequest where
  chatId : String
  text : Bytes
  parseMode : String
deriving DecidableEq

structure TelegramMessageResponse where
  ok : Bool
  description : String
deriving DecidableEq

/-! ### Where a chunk ends -/

/-- `utf8.RuneStart`. -/
def runeStart (byte : UInt8) : Bool := byte &&& 0xc0 ≠ 0x80

def getPlainTextNearestValidSplit (s : Bytes) : Nat → Nat
  | 0 => 0
  | idx + 1 =>
      match s[idx + 1]? with
      | none => idx + 1
      | some byte => if runeStart byte then idx + 1 else getPlainTextNearestValidSplit s idx

/-- The loop of `getMarkdownNearestValidSplit`: the last newline up to `i`. -/
def newlineBack (s : Bytes) : Nat → Option Nat
  | 0 => if s[0]? = some 0x0a then some 0 else none
  | i + 1 => if s[i + 1]? = some 0x0a then some (i + 1) else newlineBack s i

def getMarkdownNearestValidSplit (s : Bytes) (idx : Nat) : Nat :=
  if s.length ≤ idx then idx
  else if idx = 0 then 0
  else match newlineBack s idx with
    | some i => i + 1
    | none => idx

def getNearestValidSplit (s : Bytes) (idx : Nat) (mode : String) : Nat :=
  if mode = "markdown" then getMarkdownNearestValidSplit s idx
  else getPlainTextNearestValidSplit s idx

/-- Where the chunk from `idx` on ends. -/
def nextIdx (text : Bytes) (mode : String) (idx : Nat) : Nat :=
  if text.length < idx + telegramMaxMessageLength then text.length
  else getNearestValidSplit text (idx + telegramMaxMessageLength) mode

/-- `text[low:high]`, unless it panics. -/
def slice? (text : Bytes) (low high : Nat) : Option Bytes :=
  if low ≤ high ∧ high ≤ text.length then some ((text.take high).drop low) else none

/-! ### The loop -/

/-- One post, with where it goes. -/
structure TelegramPost where
  url : String
  request : TelegramMessageRequest
deriving DecidableEq

/-- How a call ends: with its error, if it has one, or in a panic. -/
inductive TelegramOutcome where
  | returned (err : Option String)
  | panicked
deriving DecidableEq

/-- A call in the loop, or after it. -/
structure Sending where
  idx : Nat := 0
  posted : List TelegramPost := []
  outcome : Option TelegramOutcome := none
deriving DecidableEq

/-- What the call does about the reply to a post: it goes on when the reply is ok. The request may
fail, and so may reading the reply. -/
def replyOutcome : Except String TelegramMessageResponse → Option TelegramOutcome
  | .error err => some (.returned (some err))
  | .ok res => if res.ok then none else some (.returned (some res.description))

/-- `replies` has what comes back to each post, by its place. -/
abbrev Replies := Nat → Except String TelegramMessageResponse

/-- One pass of the loop over the text of `request`; a call that has ended rests. -/
def Sending.step (url : String) (request : TelegramMessageRequest) (replies : Replies)
    (sending : Sending) : Sending :=
  if sending.outcome ≠ none then sending
  else if request.text.length ≤ sending.idx then
    { sending with outcome := some (.returned none) }
  else
    let next := nextIdx request.text request.parseMode sending.idx
    match slice? request.text sending.idx next with
    | none => { sending with outcome := some .panicked }
    | some chunk =>
        { idx := next
          posted := sending.posted ++ [⟨url, { request with text := chunk }⟩]
          outcome := replyOutcome (replies sending.posted.length) }

/-- The call after some passes. -/
def sendPasses (url : String) (request : TelegramMessageRequest) (replies : Replies) :
    Nat → Sending
  | 0 => {}
  | passes + 1 => (sendPasses url request replies passes).step url request replies

/-- The address of a bot. -/
def telegramUrl (secret : String) : String :=
  "https://api.telegram.org/bot" ++ secret ++ "/sendMessage"

/-- The request whose text is split into posts. -/
def telegramRequest (chatId text parseMode : String) : TelegramMessageRequest :=
  ⟨chatId, text.toUTF8.toList, parseMode⟩

/-- `SendTelegramMessage` after some passes of its loop, on what it has decided to send. -/
def sendTelegramMessage (secret chatId text parseMode : String) (replies : Replies)
    (passes : Nat) : Sending :=
  sendPasses (telegramUrl secret) (telegramRequest chatId text parseMode) replies passes

end MessagePusher.Channel
