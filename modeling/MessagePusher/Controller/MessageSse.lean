import MessagePusher.Model.Message
import Mathlib.Logic.Function.Basic

/-!
# Streams of new messages

`controller/message-sse.go`, as the pieces of `GetNewMessages` and of `syncMessageToUser`
between which other goroutines run. A channel has the number of the call of `GetNewMessages`
that made it. `c.Stream` looks for a client that is gone before each call of its function, and
a receive that has begun does not end when the client goes.
-/

namespace MessagePusher.Controller

open Model

def messageChanBufferSize : Nat := 10

/-- Where a call of `GetNewMessages` is. -/
inductive StreamPhase where
  /-- Before the map has its channel. -/
  | adding
  /-- At the head of the loop of `c.Stream`. -/
  | looping
  /-- At its receive from the channel. -/
  | receiving
  /-- After `c.Stream`, before the map is without its channel. -/
  | leaving
  /-- Before `close`. -/
  | removed
  | ended
deriving DecidableEq

/-- A call of `GetNewMessages` with its channel. `closes` counts the calls of `close`. -/
structure Stream where
  userId : Int
  phase : StreamPhase := .adding
  buffer : List Message := []
  clientGone : Bool := false
  events : List Message := []
  closes : Nat := 0

/-- `messageChanStore.Map`. -/
abbrev MessageChanStore := Int → Option Nat

def messageChanStoreAdd (store : MessageChanStore) (messageChan : Nat) (userId : Int) :
    MessageChanStore :=
  Function.update store userId (some messageChan)

def messageChanStoreRemove (store : MessageChanStore) (userId : Int) : MessageChanStore :=
  Function.update store userId none

section

variable {store : MessageChanStore} {messageChan : Nat} {userId other : Int}

@[simp] theorem messageChanStoreAdd_self :
    messageChanStoreAdd store messageChan userId userId = some messageChan :=
  Function.update_self ..

theorem messageChanStoreAdd_of_ne (apart : other ≠ userId) :
    messageChanStoreAdd store messageChan userId other = store other :=
  Function.update_of_ne apart ..

@[simp] theorem messageChanStoreRemove_self : messageChanStoreRemove store userId userId = none :=
  Function.update_self ..

theorem messageChanStoreRemove_of_ne (apart : other ≠ userId) :
    messageChanStoreRemove store userId other = store other :=
  Function.update_of_ne apart ..

end

namespace Stream

variable (stream : Stream)

/-- The `select` at the head of the loop. -/
def loop : Stream :=
  { stream with phase := if stream.clientGone then .leaving else .receiving }

/-- The receive from the channel and the event for the client. It blocks on an empty channel,
unless that is closed. -/
def receive : Option Stream :=
  match stream.buffer with
  | message :: rest =>
      some { stream with phase := .looping, buffer := rest, events := stream.events ++ [message] }
  | [] => if 0 < stream.closes then some { stream with phase := .leaving } else none

/-- The channel takes one message more. -/
def hasRoom : Prop :=
  stream.closes = 0 ∧ stream.buffer.length < messageChanBufferSize

instance : Decidable stream.hasRoom := inferInstanceAs (Decidable (_ ∧ _))

/-- A send on the channel. -/
def push (message : Message) : Stream :=
  { stream with buffer := stream.buffer ++ [message] }

/-- `close(messageChan)`. -/
def close : Stream :=
  { stream with phase := .ended, closes := stream.closes + 1 }

variable {stream}

@[simp] theorem loop_closes : stream.loop.closes = stream.closes := rfl

theorem loop_phase : stream.loop.phase = .leaving ∨ stream.loop.phase = .receiving := by
  rw [loop]
  cases stream.clientGone <;> simp

/-- As long as the channel is open, a receive takes the first message. -/
theorem receive_open {received : Stream} (closes : stream.closes = 0)
    (ready : stream.receive = some received) :
    ∃ message rest, stream.buffer = message :: rest ∧
      received = { stream with
        phase := .looping, buffer := rest, events := stream.events ++ [message] } := by
  unfold receive at ready
  cases queued : stream.buffer with
  | nil => simp [queued, closes] at ready
  | cons message rest =>
      rw [queued] at ready
      exact ⟨message, rest, rfl, (Option.some.inj ready).symm⟩

end Stream

/-- Where a call of `syncMessageToUser` is, once it has asked for the read lock. -/
inductive SyncStage where
  | looking
  | sending (messageChan : Nat)
  | returning
deriving DecidableEq

structure SyncCall where
  message : Message
  userId : Int
  stage : SyncStage := .looking

/-- The lookup in the map. -/
def SyncCall.lookup (call : SyncCall) (store : MessageChanStore) : SyncCall :=
  match store call.userId with
  | none => { call with stage := .returning }
  | some messageChan => { call with stage := .sending messageChan }

/-- A call sends on the channel that the map has for its user. -/
theorem SyncCall.lookup_sending_iff {call : SyncCall} {store : MessageChanStore}
    {messageChan : Nat} :
    (call.lookup store).stage = .sending messageChan ↔ store call.userId = some messageChan := by
  unfold lookup
  cases store call.userId with
  | none => simp
  | some other => simp

end MessagePusher.Controller
