import MessagePusher.Channel.Dispatch

/-!
# The asynchronous sender

What a worker of `channel/message-queue.go` does with an id from the queue: it
loads the message, its user and its channel again from the tables.
-/

namespace MessagePusher.Channel

open Common Model

def asyncMessageQueueSize : Nat := 128
def asyncMessageSenderNum : Nat := 2

/-- `asyncMessageSenderHelper` up to its call of `SendMessage`. -/
def asyncMessageSenderHelper (users : Users) (channels : Channels) (message : Message) :
    Except String SendCall := do
  let user ← getUserById users message.userId false
  let channel ← getChannelByName channels message.channel user.id
  return ⟨message, user, channel⟩

/-- One round of `asyncMessageSender` up to its call of `SendMessage`. -/
def asyncMessageCall (users : Users) (channels : Channels) (messages : Messages) (id : Int) :
    Except String SendCall := do
  let message ← getMessageById messages id
  asyncMessageSenderHelper users channels message

/-- The status that `asyncMessageSender` writes after the helper answered. -/
def asyncStatus (error : Option String) : Int :=
  if error.isNone then messageSendStatusSent else messageSendStatusFailed

end MessagePusher.Channel
