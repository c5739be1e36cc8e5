import MessagePusher.Telegram.Splits

/-!
# The posts of a call

A call that sends a text never panics, and what it has posted are the chunks of the text in their
order. While every reply is ok it posts one chunk with each pass until none is left.
-/

namespace MessagePusher.Telegram

open Channel Semantics.Cursor

/-- The chunk that one pass posts. -/
def chunk (text : Bytes) (mode : String) (pass : Nat) : Bytes :=
  (text.take (nextIdx text mode (chunkStart text mode pass))).drop (chunkStart text mode pass)

/-- The post of one pass. -/
def postOf (url : String) (request : TelegramMessageRequest) (pass : Nat) : TelegramPost :=
  ⟨url, { request with text := chunk request.text request.parseMode pass }⟩

/-- The text goes on at the start of this chunk. -/
def HasChunk (request : TelegramMessageRequest) (pass : Nat) : Prop :=
  chunkStart request.text request.parseMode pass < request.text.length

instance (request : TelegramMessageRequest) : DecidablePred (HasChunk request) :=
  fun _ => inferInstanceAs (Decidable (_ < _))

/-- Every reply says that the post was accepted. -/
def Answered (replies : Replies) : Prop := ∀ post, replyOutcome (replies post) = none

/-- A bot that accepts everything. -/
def accepting : Replies := fun _ => .ok ⟨true, ""⟩

theorem answered_accepting : Answered accepting := fun _ => rfl

variable {url : String} {request : TelegramMessageRequest} {replies : Replies} {passes : Nat}

theorem slice?_of_le {text : Bytes} {low high : Nat} (forward : low ≤ high)
    (within : high ≤ text.length) : slice? text low high = some ((text.take high).drop low) :=
  if_pos ⟨forward, within⟩

/-- A call that has ended rests. -/
theorem step_ended {sending : Sending} (ended : sending.outcome ≠ none) :
    sending.step url request replies = sending :=
  if_pos ended

theorem step_arrived {sending : Sending} (going : sending.outcome = none)
    (arrived : request.text.length ≤ sending.idx) :
    sending.step url request replies = { sending with outcome := some (.returned none) } := by
  rw [Sending.step, if_neg (not_not.mpr going), if_pos arrived]

/-- A pass at the start of a chunk posts it. -/
theorem step_posts {posted : List TelegramPost} (inside : HasChunk request passes) :
    Sending.step url request replies
        ⟨chunkStart request.text request.parseMode passes, posted, none⟩ =
      { idx := chunkStart request.text request.parseMode (passes + 1)
        posted := posted ++ [postOf url request passes]
        outcome := replyOutcome (replies posted.length) } := by
  have moved : chunkStart request.text request.parseMode (passes + 1) =
      nextIdx request.text request.parseMode (chunkStart request.text request.parseMode passes) :=
    position_succ_of_lt inside
  rw [Sending.step, if_neg (not_not.mpr rfl), if_neg (Nat.not_le.mpr inside), moved]
  simp only [slice?_of_le (chunkStart_le_nextIdx inside) (nextIdx_le _ _ _)]
  rfl

theorem replyOutcome_sound (reply : Except String TelegramMessageResponse) :
    replyOutcome reply ≠ some .panicked := by
  cases reply with
  | error err => exact fun panic => by cases panic
  | ok res =>
      simp only [replyOutcome]
      split_ifs
      · exact fun panic => by cases panic
      · exact fun panic => by cases panic

/-- A call in its loop, with a post for each pass. -/
def inLoop (url : String) (request : TelegramMessageRequest) (passes : Nat) : Sending :=
  ⟨chunkStart request.text request.parseMode passes, (List.range passes).map (postOf url request),
    none⟩

/-- What a call has done after some passes, whatever the replies are. -/
structure Posted (url : String) (request : TelegramMessageRequest) (passes : Nat)
    (sending : Sending) : Prop where
  sound : sending.outcome ≠ some .panicked
  posts : ∃ count, sending.posted = (List.range count).map (postOf url request) ∧
    ∀ pass < count, HasChunk request pass
  going : sending.outcome = none → sending = inLoop url request passes ∧
    ∀ pass < passes, HasChunk request pass

/-- A pass of a call in its loop posts a chunk or ends the call. -/
theorem step_inLoop (url : String) (request : TelegramMessageRequest) (replies : Replies)
    (passes : Nat) :
    (inLoop url request passes).step url request replies =
      if HasChunk request passes then
        { inLoop url request (passes + 1) with outcome := replyOutcome (replies passes) }
      else { inLoop url request passes with outcome := some (.returned none) } := by
  split_ifs with inside
  · rw [inLoop, step_posts inside, inLoop, List.range_succ, List.map_append, List.map_singleton]
    rw [List.length_map, List.length_range]
  · exact step_arrived rfl (Nat.not_lt.mp inside)

theorem posted_sendPasses (url : String) (request : TelegramMessageRequest) (replies : Replies)
    (passes : Nat) : Posted url request passes (sendPasses url request replies passes) := by
  induction passes with
  | zero =>
      have none_ : ∀ pass < 0, HasChunk request pass := fun _ before =>
        absurd before (Nat.not_lt_zero _)
      refine ⟨fun panic => ?_, ⟨0, rfl, none_⟩, fun _ => ⟨rfl, none_⟩⟩
      cases panic
  | succ passes ih =>
      rw [sendPasses]
      by_cases going : (sendPasses url request replies passes).outcome = none
      · obtain ⟨now, before⟩ := ih.going going
        rw [now, step_inLoop]
        split_ifs with inside
        · have whole : ∀ pass < passes + 1, HasChunk request pass := by
            intro pass within
            rcases Nat.lt_succ_iff_lt_or_eq.mp within with earlier | rfl
            · exact before pass earlier
            · exact inside
          refine ⟨replyOutcome_sound _, ⟨passes + 1, rfl, whole⟩, fun accepted => ⟨?_, whole⟩⟩
          rw [show replyOutcome (replies passes) = none from accepted]
          rfl
        · refine ⟨fun panic => ?_, ⟨passes, rfl, before⟩, fun ended => ?_⟩
          · cases Option.some.inj panic
          · cases ended
      · rw [step_ended going]
        exact ⟨ih.sound, ih.posts, fun still => absurd still going⟩

/-- While the replies are ok, each pass posts a chunk. -/
theorem sendPasses_of_answered (url : String) (answered : Answered replies)
    (before : ∀ pass < passes, HasChunk request pass) :
    sendPasses url request replies passes = inLoop url request passes := by
  induction passes with
  | zero => rfl
  | succ passes ih =>
      rw [sendPasses, ih fun pass earlier => before pass (Nat.lt_succ_of_lt earlier), step_inLoop,
        if_pos (before passes (Nat.lt_succ_self _)), answered passes]
      rfl

end MessagePusher.Telegram
