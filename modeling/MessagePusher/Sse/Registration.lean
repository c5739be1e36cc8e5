import MessagePusher.Sse.Streams

/-!
# Which stream is registered

The map has a channel for each user, and a stream that ends takes away the one of its user,
whatever it is. `RemovesNewest` is the condition on the ends of streams under which the map
has the newest stream of a user as long as that is open.
-/

namespace MessagePusher.Sse

open Model Controller Semantics

/-- A user whose newest stream is open is registered with it. -/
def FollowsNewest (state : SseState) : Prop :=
  ∀ userId newest, (state.opened userId).head? = some newest → state.IsOpen newest →
    state.store userId = some newest

/-- Whoever is registered is open. -/
def NoneClosed (state : SseState) : Prop :=
  ∀ userId channel, state.store userId = some channel → state.IsOpen channel

/-- The stream that ends is the newest of its user, or the newest is not open any more. -/
def RemovesNewest (state : SseState) : SseLabel → Prop
  | .remove channel => ∀ stream newest, state.streams channel = some stream →
      (state.opened stream.userId).head? = some newest → state.IsOpen newest → newest = channel
  | _ => True

variable {state next : SseState} {channel : Nat} {stream after : Stream}

/-- A stream that is open after a change of another, or was open before its own. -/
theorem isOpen_of_put (found : state.streams channel = some stream)
    (was : isOpenPhase after.phase = true → isOpenPhase stream.phase = true) {other : Nat}
    (open_ : (state.put channel after).IsOpen other) : state.IsOpen other := by
  by_cases own : other = channel
  · subst own
    exact (isOpen_iff found).mpr (was ((isOpen_iff put_streams_self).mp open_))
  · exact (isOpen_put_of_ne own).mp open_

namespace FollowsNewest

theorem put (follows : FollowsNewest state) (found : state.streams channel = some stream)
    (was : isOpenPhase after.phase = true → isOpenPhase stream.phase = true) :
    FollowsNewest (state.put channel after) := fun userId newest head open_ =>
  follows userId newest head (isOpen_of_put found was open_)

theorem getNewMessages (follows : FollowsNewest state) (userId : Int) :
    FollowsNewest (state.put channel { userId }) := by
  intro other newest head open_
  by_cases own : newest = channel
  · subst own
    cases (isOpen_iff put_streams_self).mp open_
  · exact follows other newest head ((isOpen_put_of_ne own).mp open_)

/-- The stream that the map gets is the newest of its user. -/
theorem add (inv : SseInv state) (follows : FollowsNewest state)
    (found : state.streams channel = some stream) (phase : stream.phase = .adding) :
    FollowsNewest (state.add channel stream) := by
  intro userId newest head open_
  by_cases own : userId = stream.userId
  · subst own
    have newer : (channel :: state.opened stream.userId).head? = some newest := by
      simpa [SseState.add] using head
    cases newer
    exact add_store_self ..
  · have older : (state.opened userId).head? = some newest := by
      simpa [SseState.add, Function.update_of_ne own] using head
    have apart : newest ≠ channel := by
      rintro rfl
      obtain ⟨shown, there, later⟩ := inv.opened userId newest (List.mem_of_mem_head? older)
      rw [found] at there
      cases there
      exact later phase
    rw [add_store_of_ne _ _ own]
    exact follows userId newest older ((isOpen_put_of_ne apart).mp open_)

/-- Without the channel of a user, the user follows the newest stream only if that is gone. -/
theorem remove_iff (follows : FollowsNewest state) (found : state.streams channel = some stream) :
    FollowsNewest (state.remove channel stream) ↔ RemovesNewest state (.remove channel) := by
  have apart : ∀ other, (state.remove channel stream).IsOpen other ↔
      other ≠ channel ∧ state.IsOpen other := by
    intro other
    by_cases own : other = channel
    · subst own
      simp [SseState.IsOpen, remove_streams, isOpenPhase]
    · simp only [own, not_false_eq_true, true_and, ne_eq]
      exact isOpen_put_of_ne own
  constructor
  · intro after shown newest there head open_
    rw [found] at there
    cases there
    by_contra other
    have registered := after stream.userId newest head ((apart newest).mpr ⟨other, open_⟩)
    rw [remove_store_self] at registered
    cases registered
  · intro permitted userId newest head open_
    obtain ⟨other, open_⟩ := (apart newest).mp open_
    by_cases own : userId = stream.userId
    · subst own
      exact absurd (permitted stream newest found head open_) other
    · rw [remove_store_of_ne _ _ own]
      exact follows userId newest head open_

end FollowsNewest

/-- In a state in which users follow their newest stream, the next one keeps it exactly when a
stream that ends is the newest. -/
theorem FollowsNewest.step_iff {label : SseLabel} (inv : SseInv state)
    (follows : FollowsNewest state) (step : sse.Step state label next) :
    FollowsNewest next ↔ RemovesNewest state label := by
  cases step with
  | getNewMessages fresh => exact iff_of_true (follows.getNewMessages _) trivial
  | callLock => exact iff_of_true follows trivial
  | add found phase granted => exact iff_of_true (FollowsNewest.add inv follows found phase) trivial
  | loop found phase =>
      exact iff_of_true (follows.put found fun _ => by rw [phase]; rfl) trivial
  | receive found phase ready =>
      exact iff_of_true (follows.put found fun _ => by rw [phase]; rfl) trivial
  | disconnect found => exact iff_of_true (follows.put found id) trivial
  | remove found phase granted => exact follows.remove_iff found
  | close found phase =>
      exact iff_of_true (follows.put found fun ended => by cases ended) trivial
  | sync => exact iff_of_true follows trivial
  | lookup => exact iff_of_true follows trivial
  | send running found room => exact iff_of_true (follows.put found id) trivial
  | sendClosed => exact iff_of_true follows trivial
  | unlock => exact iff_of_true follows trivial

/-- In every order the channel of a closed stream is not registered. -/
theorem noneClosed_of_reachable (reachable : sse.Reachable state) : NoneClosed state :=
  fun userId channel known => ((SseInv.reachable reachable).registered userId channel known).1

/-- In every run in which only the newest streams end while a newest one is open, users follow
their newest stream, and no closed one is registered. -/
theorem registration_follows (reachable : (sse.guard RemovesNewest).Reachable state) :
    FollowsNewest state ∧ NoneClosed state ∧
      ∀ label next, sse.Step state label next →
        (FollowsNewest next ↔ RemovesNewest state label) := by
  have initial : ∀ {state}, sse.Initial state → FollowsNewest state := by
    rintro state rfl userId newest head
    cases head
  have follows : FollowsNewest state :=
    reachable.guardInvariant SseInv.reachable initial
      fun inv follows permitted step => (follows.step_iff inv step).mpr permitted
  exact ⟨follows, noneClosed_of_reachable reachable.ofGuard,
    fun _ _ step => follows.step_iff (SseInv.reachable reachable.ofGuard) step⟩

/-- A user who has left comes back, and is registered with the second stream. -/
theorem registration_follows_return :
    ∃ state, FollowsNewest state ∧ NoneClosed state ∧
      (∃ stream, state.streams 0 = some stream ∧ stream.phase = .ended) ∧
      state.opened 1 = [1, 0] ∧ state.store 1 = some 1 := by
  have opened := listening_guarded RemovesNewest trivial trivial trivial
  have gone := opened.permit (@SseStep.disconnect _ 0 _ rfl) trivial
  have leaves := gone.permit (@SseStep.loop _ 0 _ rfl rfl) trivial
  have locks := leaves.permit (@SseStep.callLock _ 0 _ rfl (.inr rfl) rfl) trivial
  have removed := locks.permit (@SseStep.remove _ 0 _ rfl rfl ⟨rfl, rfl⟩)
    fun _ _ there head _ => by cases there; cases head; rfl
  have ended := removed.permit (@SseStep.close _ 0 _ rfl rfl) trivial
  have madeAgain := ended.permit (@SseStep.getNewMessages _ 1 1 rfl) trivial
  have locksAgain := madeAgain.permit (@SseStep.callLock _ 1 _ rfl (.inl rfl) rfl) trivial
  have openedAgain := locksAgain.permit (@SseStep.add _ 1 _ rfl rfl ⟨rfl, rfl⟩) trivial
  have result := registration_follows openedAgain
  exact ⟨_, result.1, result.2.1, ⟨_, rfl, rfl⟩, rfl, rfl⟩

/-! ### Two streams of one user -/

/-- The first stream of a user ends after the second one was opened. -/
theorem registration_lost : ¬ ∀ state, sse.Reachable state → FollowsNewest state ∧ NoneClosed state := by
  intro claimed
  have madeAgain := listening_reachable.step (@SseStep.getNewMessages _ 1 1 rfl)
  have locksAgain := madeAgain.step (@SseStep.callLock _ 1 _ rfl (.inl rfl) rfl)
  have openedAgain := locksAgain.step (@SseStep.add _ 1 _ rfl rfl ⟨rfl, rfl⟩)
  have gone := openedAgain.step (@SseStep.disconnect _ 0 _ rfl)
  have leaves := gone.step (@SseStep.loop _ 0 _ rfl rfl)
  have locksToo := leaves.step (@SseStep.callLock _ 0 _ rfl (.inr rfl) rfl)
  have removed := locksToo.step (@SseStep.remove _ 0 _ rfl rfl ⟨rfl, rfl⟩)
  have registered := (claimed _ removed).1 1 1 rfl ⟨_, rfl, rfl⟩
  cases registered

end MessagePusher.Sse
