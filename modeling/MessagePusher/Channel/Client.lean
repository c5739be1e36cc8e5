import MessagePusher.Channel.Senders
import Mathlib.Logic.Function.Basic

/-!
# WebSocket clients

`channel/client.go`, as the pieces of its goroutines between which others run. A client has
the number of its registration's `newClient`. Its three channels have no buffer, so a send and
the receive in the `select` of `handleDataWriting` are one step, and a goroutine at a send
waits for that step.
-/

namespace MessagePusher.Channel

open Common Model

/-- `fmt.Sprintf("%s:%d", channelName, userId)`. -/
def clientKey (channelName : String) (userId : Int) : String :=
  channelName ++ ":" ++ Text.itoa userId

/-- What a writer puts on the connection. -/
inductive Frame where
  | message (message : Message)
  | pong
  | ping
  | close
deriving DecidableEq

/-- Where `handleDataWriting` is. -/
inductive Writer where
  | selecting
  /-- At the write of a frame, after which the loop goes on unless the write fails. -/
  | writing (frame : Frame)
  /-- At the write of the close frame, which ends the loop. -/
  | stopping
  /-- Before the critical section of the deferred function. -/
  | left
  /-- Before `conn.Close`. -/
  | cleaned
  | returned
deriving DecidableEq

namespace Writer

/-- The writer is in its loop, so that its `select` comes again. -/
def isRunning : Writer → Bool
  | .selecting | .writing _ => true
  | .stopping | .left | .cleaned | .returned => false

/-- The clean-up of the map is still to come. -/
def isUncleaned : Writer → Bool
  | .selecting | .writing _ | .stopping | .left => true
  | .cleaned | .returned => false

theorem isUncleaned_of_isRunning {writer : Writer} (running : writer.isRunning = true) :
    writer.isUncleaned = true := by
  cases writer with
  | selecting | writing frame => rfl
  | stopping | left | cleaned | returned => cases running

end Writer

/-- What `ReadMessage` answers. -/
inductive ReadOutcome where
  | failed
  | pingMessage
  | closeMessage
  | other
deriving DecidableEq

/-- Where `handleDataReading` is. -/
inductive Reader where
  | reading
  /-- At `c.pong <- true`. -/
  | ponging
  /-- At `c.stop <- true` in `close`. The `break` after a close message leaves only the
  `switch`, and the loop goes on. -/
  | closing (goesOn : Bool)
  | returned
deriving DecidableEq

/-- The reader after an answer of `ReadMessage`. -/
def Reader.after : ReadOutcome → Reader
  | .failed => .closing false
  | .pingMessage => .ponging
  | .closeMessage => .closing true
  | .other => .reading

/-- `webSocketClient`, with its two goroutines and the frames that were written. -/
structure WebSocketClient where
  key : String
  timestamp : Int
  writer : Writer := .selecting
  reader : Reader := .reading
  written : List Frame := []
deriving DecidableEq

/-- What goes over one of the three channels. -/
inductive Item where
  | message (message : Message)
  | pong
  | stop
deriving DecidableEq

/-- The case of the `select` that receives an item. -/
def Writer.receive : Item → Writer
  | .message message => .writing (.message message)
  | .pong => .writing .pong
  | .stop => .stopping

namespace WebSocketClient

variable (client : WebSocketClient)

def receive (item : Item) : WebSocketClient :=
  { client with writer := .receive item }

/-- The write of a frame in the loop. -/
def write (frame : Frame) (succeeds : Bool) : WebSocketClient :=
  if succeeds then { client with writer := .selecting, written := client.written ++ [frame] }
  else { client with writer := .left }

/-- The write of the close frame, whose failure is only logged. -/
def writeClose (succeeds : Bool) : WebSocketClient :=
  { client with
    writer := .left
    written := if succeeds then client.written ++ [.close] else client.written }

/-- The send at which the reader is. -/
def readerOffers : Option Item :=
  match client.reader with
  | .ponging => some .pong
  | .closing _ => some .stop
  | .reading | .returned => none

/-- The reader after its send. -/
def advanceReader : WebSocketClient :=
  { client with
    reader :=
      match client.reader with
      | .ponging | .closing true => .reading
      | .closing false => .returned
      | .reading => .reading
      | .returned => .returned }

end WebSocketClient

/-- `clientMap`. -/
abbrev ClientMap := String → Option Nat

/-- The critical section of the deferred function: `clients` are those that the map points to. -/
def cleanup (clients : Nat → Option WebSocketClient) (clientMap : ClientMap)
    (own : WebSocketClient) : ClientMap :=
  match clientMap own.key with
  | none => clientMap
  | some number =>
      if (clients number).map WebSocketClient.timestamp = some own.timestamp then
        Function.update clientMap own.key none
      else clientMap

def byeMessage (settings : Settings) : Message where
  title := settings.systemName
  description := "其他客户端已连接服务器，本客户端已被挤下线！"

def helloMessage (settings : Settings) : Message where
  title := settings.systemName
  description := "客户端连接成功！"

/-- Where a call of `RegisterClient` is. -/
inductive RegisterStage where
  | looking
  /-- At `oldClient.sendMessage(byeMessage)`. -/
  | warning (oldClient : Nat)
  /-- At `oldClient.close()`. -/
  | kicking (oldClient : Nat)
  | creating
  /-- With its client and the goroutines of it, before the map has it. -/
  | adding (newClient : Nat)
  /-- At the deferred `newClient.sendMessage(helloMessage)`. -/
  | greeting (newClient : Nat)
  | returned
deriving DecidableEq

structure RegisterCall where
  key : String
  stage : RegisterStage := .looking
deriving DecidableEq

namespace RegisterCall

variable (call : RegisterCall)

/-- The lookup in the map. -/
def lookup (clientMap : ClientMap) : RegisterCall :=
  match clientMap call.key with
  | some oldClient => { call with stage := .warning oldClient }
  | none => { call with stage := .creating }

/-- The send at which the call is. -/
def offers (settings : Settings) : Option (Nat × Item) :=
  match call.stage with
  | .warning oldClient => some (oldClient, .message (byeMessage settings))
  | .kicking oldClient => some (oldClient, .stop)
  | .greeting newClient => some (newClient, .message (helloMessage settings))
  | .looking | .creating | .adding _ | .returned => none

/-- The call after its send. -/
def advance : RegisterCall :=
  { call with
    stage :=
      match call.stage with
      | .warning oldClient => .kicking oldClient
      | .kicking _ => .creating
      | .greeting _ => .returned
      | stage => stage }

/-- The clients that the call has sends to ahead of it. -/
def holds : Option Nat :=
  match call.stage with
  | .warning client | .kicking client | .adding client | .greeting client => some client
  | .looking | .creating | .returned => none

end RegisterCall

/-- Where a call of `SendClientMessage` is. -/
inductive SendStage where
  | looking
  /-- At `client.sendMessage(message)`. -/
  | sending (client : Nat)
  | returned (error : Option String)
deriving DecidableEq

structure SendClientCall where
  key : String
  message : Message
  stage : SendStage := .looking
deriving DecidableEq

namespace SendClientCall

variable (call : SendClientCall)

/-- The lookup in the map. -/
def lookup (clientMap : ClientMap) : SendClientCall :=
  match clientMap call.key with
  | some client => { call with stage := .sending client }
  | none => { call with stage := .returned (some "客户端未连接") }

/-- The send at which the call is. -/
def offers : Option (Nat × Item) :=
  match call.stage with
  | .sending client => some (client, .message call.message)
  | .looking | .returned _ => none

/-- The call after its send. -/
def advance : SendClientCall := { call with stage := .returned none }

end SendClientCall

end MessagePusher.Channel
