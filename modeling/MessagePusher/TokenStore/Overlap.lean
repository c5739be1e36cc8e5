import MessagePusher.TokenStore.Refresh

/-!
# Which calls may overlap the refresh loop

A call of `TokenStoreAddItem` runs from its `Refresh` to its write, a round of the loop for
one key from the copy of the entry to the write-back of it. Where no two of these overlap
on one key, no write puts an older token over a newer one. The condition is on the step
that begins the second of the two, in the state before it.
-/

namespace MessagePusher.TokenStore

open Channel Semantics

/-- The item that the loop may yet write back under a key. -/
def Loop.pending (key : String) : Loop → Option Nat
  | .loading _ => none
  | .copying copied | .refreshing copied _ | .fetched copied _ _ _ => copied.lookup key
  | .writing copied visited => if key ∈ visited then none else copied.lookup key
  | .assigning copied visited current =>
      if key ∈ visited ∧ key ≠ current then none else copied.lookup key

/-- The caller is a `TokenStoreAddItem` of the key between its `Refresh` and its write. -/
def Caller.adds (key : String) : Caller → Bool
  | .ready _ => false
  | .publishing other _ _ => other = key

/-- Some caller is. -/
def StoreState.Adds (state : StoreState) (key : String) : Prop :=
  ∃ item calls, Caller.publishing key item calls ∈ state.callers

/-- What is under the key, if anything, has no fetch time. -/
def StoreState.Unfetched (state : StoreState) (key : String) : Prop :=
  ∀ held, state.map key = some held → state.stamps held = 0

/-- The condition on a step. A `TokenStoreAddItem` begins while no other of its key is under way
and the loop is done with the key, and its `Refresh` fails only where there is no token to
lose; the loop copies an entry while no `TokenStoreAddItem` of the key is under way, and loads
a channel only where there is no token to lose. -/
def MayOverlap (state : StoreState) : StoreLabel → Prop
  | .fetch key success => ¬ state.Adds key ∧ state.loop.pending key = none ∧
      (success = false → state.Unfetched key)
  | .copy key => ¬ state.Adds key
  | .load key => state.Unfetched key
  | _ => True

/-- The store whose steps all meet the condition. -/
def apartStore : System StoreState StoreLabel := tokenStore.guard MayOverlap

/-- A permitted step is one of the runs in question. -/
theorem StoreStep.separate {state next : StoreState} {label : StoreLabel}
    (transition : StoreStep state label next) (permitted : MayOverlap state label) :
    apartStore.Step state label next := ⟨permitted, transition⟩

/-! ### What a step can do -/

section Steps

variable {state next : StoreState} {label : StoreLabel} {key : String} {item : Nat}

/-- An entry is an old one, or what the step wrote. -/
theorem map_of_step (transition : StoreStep state label next) (found : next.map key = some item) :
    state.map key = some item ∨ label = .publish key item ∨ label = .assign key item ∨
      (label = .load key ∧ item = state.allocated) := by
  cases transition with
  | publish _ | assign _ _ | load _ =>
      simp only [Function.update_apply] at found
      split_ifs at found with same
      · obtain rfl := Option.some.inj found
        simp [same]
      · exact .inl found
  | remove _ =>
      simp only [Function.update_apply] at found
      split_ifs at found
      exact .inl found
  | _ => exact .inl found

/-- A call under way is an old one, or the one that begins with a new item. -/
theorem publishing_of_step {calls : List StoreCall} (transition : StoreStep state label next)
    (member : Caller.publishing key item calls ∈ next.callers) :
    Caller.publishing key item calls ∈ state.callers ∨
      ((∃ success, label = .fetch key success) ∧ item = state.allocated) := by
  have replaced : ∀ {before after : List Caller} {old new : Caller},
      state.callers = before ++ old :: after →
      Caller.publishing key item calls ∈ before ++ new :: after →
      Caller.publishing key item calls ∈ state.callers ∨ Caller.publishing key item calls = new := by
    intro before after old new at_ member
    rw [at_]
    simp only [List.mem_append, List.mem_cons] at member ⊢
    tauto
  cases transition with
  | call =>
      rcases List.mem_append.mp member with old | new
      · exact .inl old
      · cases List.mem_singleton.mp new
  | skip at_ _ | publish at_ | remove at_ =>
      rcases replaced at_ member with old | new
      · exact .inl old
      · cases new
  | fetchOk at_ _ | fetchFailed at_ _ =>
      rcases replaced at_ member with old | new
      · exact .inl old
      · cases new
        exact .inr ⟨⟨_, rfl⟩, rfl⟩
  | _ => exact .inl member

/-- What the loop may write back it could before, or has just copied. -/
theorem pending_of_step (transition : StoreStep state label next)
    (pending : next.loop.pending key = some item) :
    state.loop.pending key = some item ∨ (label = .copy key ∧ state.map key = some item) := by
  cases transition with
  | load _ | loaded _ | sleep _ => cases pending
  | @copy copied other held at_ new present =>
      simp only [Loop.pending, List.lookup_cons] at pending
      split at pending
      · next same =>
        rw [beq_iff_eq] at same
        obtain rfl := Option.some.inj pending
        rw [same]
        exact .inr ⟨rfl, present⟩
      · rw [at_]
        exact .inl pending
  | snapshot at_ | refreshOk at_ | refreshFailed at_ | store at_ =>
      rw [at_]
      exact .inl pending
  | refreshed at_ =>
      rw [at_]
      simp only [Loop.pending, List.not_mem_nil, if_false] at pending
      exact .inl pending
  | visit at_ new _ =>
      rw [at_]
      left
      simp only [Loop.pending, List.mem_cons] at pending ⊢
      split_ifs at pending with skipped
      split_ifs with seen
      · exact absurd ⟨.inr seen, fun same => new (same ▸ seen)⟩ skipped
      · exact pending
  | assign at_ _ | passOver at_ _ =>
      rw [at_]
      left
      simp only [Loop.pending] at pending ⊢
      split_ifs at pending with seen
      split_ifs with skipped
      · exact absurd skipped.1 seen
      · exact pending
  | _ => exact .inl pending

/-- A fetch time is an old one, or that of a new item, or the one in flight. -/
theorem stamps_of_step (transition : StoreStep state label next) (item : Nat) :
    next.stamps item = state.stamps item ∨
      ((∃ key, label = .fetch key true) ∧ item = state.allocated) ∨
      state.loop.inFlight = some (item, next.stamps item) := by
  cases transition with
  | fetchOk _ _ =>
      simp only [Function.update_apply]
      split_ifs with new
      · exact .inr (.inl ⟨⟨_, rfl⟩, new⟩)
      · exact .inl rfl
  | store at_ =>
      simp only [Function.update_apply]
      split_ifs with flying
      · rw [at_, flying]
        exact .inr (.inr rfl)
      · exact .inl rfl
  | _ => exact .inl rfl

/-- A write of `TokenStoreAddItem` ends its call. -/
theorem published_inv (transition : StoreStep state (.publish key item) next) :
    ∃ before after calls, state.callers = before ++ .publishing key item calls :: after ∧
      next.callers = before ++ .ready calls :: after := by
  cases transition with
  | publish at_ => exact ⟨_, _, _, at_, rfl⟩

/-- The loop writes back what was pending. -/
theorem assigned_inv (transition : StoreStep state (.assign key item) next) :
    state.loop.pending key = some item := by
  cases transition with
  | assign at_ found =>
      rw [at_]
      simp only [Loop.pending, ne_eq, not_true_eq_false, and_false, if_false]
      exact found

end Steps

/-! ### The invariant -/

/-- An item is known under a key: in the map, to a call, or to the loop. -/
def StoreState.Knows (state : StoreState) (key : String) (item : Nat) : Prop :=
  state.map key = some item ∨ (∃ calls, Caller.publishing key item calls ∈ state.callers) ∨
    state.loop.pending key = some item

/-- The entries that are still to be refreshed, or will be once the copy is complete. -/
def Loop.awaited : Loop → Entries
  | .copying copied => copied
  | .refreshing _ todo | .fetched _ todo _ _ => todo
  | .loading _ | .writing _ _ | .assigning _ _ _ => []

/-- What is refreshed is pending. -/
structure Loop.Coherent (loop : Loop) : Prop where
  awaited : ∀ entry ∈ loop.awaited, loop.pending entry.1 = some entry.2
  inFlight : ∀ item stamp, loop.inFlight = some (item, stamp) → ∃ key, loop.pending key = some item

/-- Calls and loop are apart: an item has one key, a key has one call or the loop at work on it,
and neither holds a token that is older than the one in the map. -/
structure Apart (state : StoreState) : Prop where
  owned : ∀ key other item, state.Knows key item → state.Knows other item → other = key
  coherent : state.loop.Coherent
  alone : ∀ key, state.callers.countP (Caller.adds key) ≤ 1
  apart : ∀ key, state.Adds key → state.loop.pending key = none
  unseen : ∀ key item calls, Caller.publishing key item calls ∈ state.callers →
    state.map key ≠ some item
  renews : ∀ key item calls, Caller.publishing key item calls ∈ state.callers →
    state.Renews key item
  same : ∀ key item, state.loop.pending key = some item → ∀ held, state.map key = some held →
    held = item

section Invariant

variable {state next : StoreState} {label : StoreLabel} {key : String} {item : Nat}

/-- At the start nobody writes. -/
theorem Apart.initial (start : tokenStore.Initial state) : Apart state := by
  obtain ⟨items, rfl⟩ := start
  constructor
  · rintro key other item (found | ⟨calls, member⟩ | pending)
    · cases found
    · cases member
    · cases pending
  · constructor
    · rintro entry member
      cases member
    · rintro item stamp flying
      cases flying
  · simp
  · exact fun _ _ => rfl
  · rintro key item calls member
    cases member
  · rintro key item calls member
    cases member
  · rintro key item pending
    cases pending

/-- A call that publishes an item adds to its key. -/
theorem adds_of_mem {calls : List StoreCall}
    (member : Caller.publishing key item calls ∈ state.callers) : state.Adds key :=
  ⟨item, calls, member⟩

theorem adds_iff_countP : state.Adds key ↔ 0 < state.callers.countP (Caller.adds key) := by
  rw [List.countP_pos_iff]
  constructor
  · rintro ⟨item, calls, member⟩
    exact ⟨_, member, by simp [Caller.adds]⟩
  · rintro ⟨caller, member, adds⟩
    cases caller with
    | ready calls => cases adds
    | publishing other item calls =>
        obtain rfl : other = key := by simpa [Caller.adds] using adds
        exact ⟨item, calls, member⟩

/-- Once a call has written, no call of the key is under way. -/
theorem Apart.published (apart : Apart state) (transition : StoreStep state (.publish key item) next) :
    ¬ next.Adds key := by
  obtain ⟨before, after, calls, at_, left⟩ := published_inv transition
  have alone := apart.alone key
  rw [at_] at alone
  rw [adds_iff_countP, left]
  simp only [List.countP_append, List.countP_cons, Caller.adds, decide_true, if_true] at alone ⊢
  simp only [Bool.false_eq_true, if_false]
  omega

/-- The item in flight is not the one a call is about to replace. -/
theorem Apart.flying_apart (apart : Apart state) {held stamp : Nat}
    (flying : state.loop.inFlight = some (held, stamp)) (found : state.map key = some held) :
    ¬ state.Adds key := by
  intro adds
  obtain ⟨other, pending⟩ := apart.coherent.inFlight held stamp flying
  obtain rfl := apart.owned key other held (.inl found) (.inr (.inr pending))
  rw [apart.apart other adds] at pending
  cases pending

/-- Every step of separate calls leads to fetch times that are no earlier. -/
theorem Apart.writesRenew (apart : Apart state) (transition : StoreStep state label next)
    (permitted : MayOverlap state label) : WritesRenew state label := by
  cases label with
  | publish key item =>
      obtain ⟨before, after, calls, at_, -⟩ := published_inv transition
      exact apart.renews key item calls (by rw [at_]; simp)
  | assign key item =>
      intro held found
      obtain rfl := apart.same key item (assigned_inv transition) held found
      exact Nat.le_refl _
  | load key => exact permitted
  | _ => trivial

/-- What is known after a step was known before it, or is the item that the step makes. -/
theorem knows_of_step (transition : StoreStep state label next) (knows : next.Knows key item) :
    state.Knows key item ∨
      (item = state.allocated ∧ ((∃ success, label = .fetch key success) ∨ label = .load key)) := by
  rcases knows with found | ⟨calls, member⟩ | pending
  · rcases map_of_step transition found with old | rfl | rfl | ⟨rfl, new⟩
    · exact .inl (.inl old)
    · obtain ⟨before, after, calls, at_, -⟩ := published_inv transition
      exact .inl (.inr (.inl ⟨calls, by rw [at_]; simp⟩))
    · exact .inl (.inr (.inr (assigned_inv transition)))
    · exact .inr ⟨new, .inr rfl⟩
  · rcases publishing_of_step transition member with old | ⟨began, new⟩
    · exact .inl (.inr (.inl ⟨calls, old⟩))
    · exact .inr ⟨new, .inl began⟩
  · rcases pending_of_step transition pending with old | ⟨-, found⟩
    · exact .inl (.inr (.inr old))
    · exact .inl (.inl found)

/-- What the loop has still to write is one of its items. -/
theorem mem_items_of_pending {loop : Loop} (pending : loop.pending key = some item) :
    item ∈ loop.items := by
  cases loop with
  | loading _ => cases pending
  | copying copied => exact mem_of_lookup pending
  | refreshing copied todo =>
      rw [Loop.items, List.map_append]
      exact List.mem_append_left _ (mem_of_lookup pending)
  | fetched copied todo current stamp =>
      rw [Loop.items, List.map_append]
      exact List.mem_cons_of_mem _ (List.mem_append_left _ (mem_of_lookup pending))
  | writing copied visited =>
      simp only [Loop.pending] at pending
      split_ifs at pending
      exact mem_of_lookup pending
  | assigning copied visited current =>
      simp only [Loop.pending] at pending
      split_ifs at pending
      exact mem_of_lookup pending

/-- What is known exists. -/
theorem Sound.knows_lt (sound : Sound state) (knows : state.Knows key item) :
    item < state.allocated := by
  rcases knows with found | ⟨calls, member⟩ | pending
  · exact sound.mapped key item found
  · exact sound.held _ member item (by simp [Caller.items])
  · exact sound.looped item (mem_items_of_pending pending)

theorem Apart.owned_step (apart : Apart state) (sound : Sound state)
    (transition : StoreStep state label next) :
    ∀ key other item, next.Knows key item → next.Knows other item → other = key := by
  intro key other item knows knowsToo
  rcases knows_of_step transition knows with old | ⟨new, made⟩
  · rcases knows_of_step transition knowsToo with oldToo | ⟨rfl, -⟩
    · exact apart.owned key other item old oldToo
    · exact absurd (sound.knows_lt old) (Nat.lt_irrefl _)
  · subst new
    rcases knows_of_step transition knowsToo with oldToo | ⟨-, madeToo⟩
    · exact absurd (sound.knows_lt oldToo) (Nat.lt_irrefl _)
    · rcases made with ⟨success, rfl⟩ | rfl
      · rcases madeToo with ⟨_, same⟩ | same
        · exact (StoreLabel.fetch.inj same).1.symm
        · cases same
      · rcases madeToo with ⟨_, same⟩ | same
        · cases same
        · exact (StoreLabel.load.inj same).symm

/-- A loop with nothing to refresh is coherent. -/
theorem Loop.Coherent.idle {loop : Loop} (nothing : loop.awaited = [])
    (landed : loop.inFlight = none) : loop.Coherent := by
  constructor
  · intro entry member
    rw [nothing] at member
    cases member
  · intro item stamp flying
    rw [landed] at flying
    cases flying

/-- The loop keeps its items in order. -/
theorem Loop.Coherent.step (coherent : state.loop.Coherent)
    (transition : StoreStep state label next) : next.loop.Coherent := by
  cases transition with
  | load _ | loaded _ | refreshed _ | visit _ _ _ | assign _ _ | passOver _ _ | sleep _ =>
      exact .idle rfl rfl
  | @copy copied key item at_ new present =>
      rw [at_] at coherent
      constructor
      · intro entry member
        rcases List.mem_cons.mp member with rfl | old
        · simp [Loop.pending]
        · have found := coherent.awaited entry old
          have other : (entry.1 == key) = false := by
            rw [beq_eq_false_iff_ne]
            rintro rfl
            rw [Loop.pending, new] at found
            cases found
          simp only [Loop.pending, List.lookup_cons, other]
          exact found
      · intro item stamp flying
        cases flying
  | @snapshot copied at_ =>
      rw [at_] at coherent
      exact ⟨coherent.awaited, fun item stamp flying => by cases flying⟩
  | @refreshOk copied before after key item at_ =>
      rw [at_] at coherent
      constructor
      · intro entry member
        refine coherent.awaited entry ?_
        simp only [Loop.awaited, List.mem_append, List.mem_cons] at member ⊢
        tauto
      · rintro other stamp ⟨⟩
        exact ⟨key, coherent.awaited (key, item) (by simp [Loop.awaited])⟩
  | @refreshFailed copied before after key item at_ =>
      rw [at_] at coherent
      constructor
      · intro entry member
        refine coherent.awaited entry ?_
        simp only [Loop.awaited, List.mem_append, List.mem_cons] at member ⊢
        tauto
      · intro item stamp flying
        cases flying
  | @store copied todo item stamp at_ =>
      rw [at_] at coherent
      exact ⟨coherent.awaited, fun item stamp flying => by cases flying⟩
  | _ => exact coherent

/-- The calls of a key under way are no more than before, unless one begins. -/
theorem countP_adds_step (transition : StoreStep state label next) (key : String) :
    next.callers.countP (Caller.adds key) ≤ state.callers.countP (Caller.adds key) ∨
      ((∃ success, label = .fetch key success) ∧
        next.callers.countP (Caller.adds key) ≤ state.callers.countP (Caller.adds key) + 1) := by
  cases transition with
  | call =>
      left
      simp [List.countP_append, Caller.adds]
  | skip at_ _ | remove at_ =>
      rw [at_]
      left
      simp [List.countP_append, Caller.adds]
  | publish at_ =>
      rw [at_]
      left
      simp only [List.countP_append, List.countP_cons, Caller.adds, Bool.false_eq_true, if_false]
      omega
  | @fetchOk before after item calls at_ _ | @fetchFailed before after item calls at_ _ =>
      rw [at_]
      simp only [List.countP_append, List.countP_cons, Caller.adds, Bool.false_eq_true, if_false]
      by_cases same : item.key = key
      · subst same
        refine .inr ⟨⟨_, rfl⟩, ?_⟩
        simp only [decide_true, if_true]
        omega
      · simp [same]
  | _ => exact .inl (Nat.le_refl _)

theorem Apart.alone_step (apart : Apart state) (transition : StoreStep state label next)
    (permitted : MayOverlap state label) : ∀ key, next.callers.countP (Caller.adds key) ≤ 1 := by
  intro key
  rcases countP_adds_step transition key with fewer | ⟨⟨success, rfl⟩, more⟩
  · exact Nat.le_trans fewer (apart.alone key)
  · have none_ : ¬ state.Adds key := permitted.1
    rw [adds_iff_countP] at none_
    omega

theorem Apart.apart_step (apart : Apart state) (transition : StoreStep state label next)
    (permitted : MayOverlap state label) : ∀ key, next.Adds key → next.loop.pending key = none := by
  rintro key ⟨item, calls, member⟩
  by_contra pending
  obtain ⟨held, pending⟩ := Option.ne_none_iff_exists'.mp pending
  rcases publishing_of_step transition member with old | ⟨⟨success, rfl⟩, -⟩
  · rcases pending_of_step transition pending with before | ⟨rfl, -⟩
    · rw [apart.apart key (adds_of_mem old)] at before
      cases before
    · exact permitted (adds_of_mem old)
  · rcases pending_of_step transition pending with before | ⟨copies, -⟩
    · rw [permitted.2.1] at before
      cases before
    · cases copies

theorem Apart.unseen_step (apart : Apart state) (sound : Sound state)
    (transition : StoreStep state label next) :
    ∀ key item calls, Caller.publishing key item calls ∈ next.callers →
      next.map key ≠ some item := by
  intro key item calls member found
  rcases publishing_of_step transition member with old | ⟨⟨success, rfl⟩, rfl⟩
  · have exists_ : item < state.allocated := sound.knows_lt (.inr (.inl ⟨calls, old⟩))
    rcases map_of_step transition found with before | rfl | rfl | ⟨rfl, rfl⟩
    · exact apart.unseen key item calls old before
    · exact apart.published transition (adds_of_mem member)
    · have pending := assigned_inv transition
      rw [apart.apart key (adds_of_mem old)] at pending
      cases pending
    · exact Nat.lt_irrefl _ exists_
  · rcases map_of_step transition found with before | same | same | ⟨same, -⟩
    · exact Nat.lt_irrefl _ (sound.mapped key _ before)
    all_goals cases same

theorem Apart.same_step (apart : Apart state) (transition : StoreStep state label next) :
    ∀ key item, next.loop.pending key = some item → ∀ held, next.map key = some held →
      held = item := by
  intro key item pending held found
  rcases pending_of_step transition pending with before | ⟨rfl, copied⟩
  · rcases map_of_step transition found with old | rfl | rfl | ⟨rfl, rfl⟩
    · exact apart.same key item before held old
    · obtain ⟨_, _, calls, at_, -⟩ := published_inv transition
      have adds : state.Adds key := ⟨held, calls, by rw [at_]; simp⟩
      rw [apart.apart key adds] at before
      cases before
    · exact Option.some.inj ((assigned_inv transition).symm.trans before)
    · cases transition with
      | load at_ =>
          rw [at_] at before
          cases before
  · rcases map_of_step transition found with old | same | same | ⟨same, -⟩
    · exact Option.some.inj (old.symm.trans copied)
    all_goals cases same

/-- The fetch time of an existing item never falls. -/
theorem Sound.stamps_le_step (sound : Sound state) (transition : StoreStep state label next)
    (exists_ : item < state.allocated) : state.stamps item ≤ next.stamps item := by
  rcases stamps_of_step transition item with same | ⟨-, rfl⟩ | flying
  · exact Nat.le_of_eq same.symm
  · exact absurd exists_ (Nat.lt_irrefl _)
  · exact (sound.inFlight item _ flying).1

/-- While a call of the key is under way, what is under the key is not refreshed. -/
theorem Apart.stamps_eq_step (apart : Apart state) (sound : Sound state)
    (transition : StoreStep state label next) (found : state.map key = some item)
    (adds : state.Adds key) : next.stamps item = state.stamps item := by
  rcases stamps_of_step transition item with same | ⟨-, rfl⟩ | flying
  · exact same
  · exact absurd (sound.mapped key _ found) (Nat.lt_irrefl _)
  · exact absurd adds (apart.flying_apart flying found)

theorem Apart.renews_step (apart : Apart state) (sound : Sound state)
    (transition : StoreStep state label next) (permitted : MayOverlap state label) :
    ∀ key item calls, Caller.publishing key item calls ∈ next.callers → next.Renews key item := by
  intro key item calls member held found
  rcases publishing_of_step transition member with old | ⟨⟨success, rfl⟩, rfl⟩
  · have adds : state.Adds key := adds_of_mem old
    rcases map_of_step transition found with before | rfl | rfl | ⟨rfl, rfl⟩
    · rw [apart.stamps_eq_step sound transition before adds]
      refine Nat.le_trans (apart.renews key item calls old held before) ?_
      exact sound.stamps_le_step transition (sound.knows_lt (.inr (.inl ⟨calls, old⟩)))
    · exact absurd (adds_of_mem member) (apart.published transition)
    · have pending := assigned_inv transition
      rw [apart.apart key adds] at pending
      cases pending
    · have blank : next.stamps state.allocated = 0 := by
        cases transition
        exact sound.unused _ (Nat.le_refl _)
      rw [blank]
      exact Nat.zero_le _
  · have before : state.map key = some held := by
      rcases map_of_step transition found with before | same | same | ⟨same, -⟩
      · exact before
      all_goals cases same
    have older : held ≠ state.allocated := Nat.ne_of_lt (sound.mapped key held before)
    cases transition with
    | fetchOk _ _ =>
        dsimp only
        rw [Function.update_of_ne older, Function.update_self]
        exact Nat.le_succ_of_le (sound.past held)
    | fetchFailed _ _ =>
        dsimp only
        rw [permitted.2.2 rfl held before]
        exact Nat.zero_le _

/-- `Apart` is kept by every step that meets the condition. -/
theorem Apart.step (apart : Apart state) (sound : Sound state)
    (transition : StoreStep state label next) (permitted : MayOverlap state label) :
    Apart next where
  owned := apart.owned_step sound transition
  coherent := apart.coherent.step transition
  alone := apart.alone_step transition permitted
  apart := apart.apart_step transition permitted
  unseen := apart.unseen_step sound transition
  renews := apart.renews_step sound transition permitted
  same := apart.same_step transition

end Invariant

/-! ### Whole runs -/

/-- What holds in every order holds in the runs in question. -/
theorem sound_of_apartStore {state : StoreState} (reachable : apartStore.Reachable state) :
    Sound state := by
  obtain ⟨start, labels, valid, runs⟩ := reachable
  exact sound_of_reachable ⟨start, labels, valid, runs.ofGuard⟩

theorem apart_of_reachable {state : StoreState} (reachable : apartStore.Reachable state) :
    Apart state := by
  let Inv (state : StoreState) : Prop := Sound state ∧ Apart state
  have initial : ∀ {state}, apartStore.Initial state → Inv state :=
    fun start => ⟨.initial start, .initial start⟩
  have preserved : ∀ {state label next}, Inv state → apartStore.Step state label next → Inv next :=
    fun holds transition => ⟨holds.1.step transition.2,
      holds.2.step holds.1 transition.2 transition.1⟩
  exact (reachable.invariant initial preserved).2

/-- In a run in which calls and loop are apart, the fetch time read under a key never decreases
while the key stays present. -/
theorem fetchTime_never_decreases {key : String} {first last : StoreState}
    {labels : List StoreLabel} (reachable : apartStore.Reachable first)
    (runs : (apartStore.guard fun state _ => (state.map key).isSome).Runs first labels last)
    {earlier later : Nat} (before : first.fetchTime key = some earlier)
    (after : last.fetchTime key = some later) : earlier ≤ later := by
  induction runs generalizing later with
  | refl => exact Nat.le_of_eq (Option.some.inj (before.symm.trans after))
  | @step _ current label next prior transition ih =>
      obtain ⟨present, permitted, step⟩ := transition
      obtain ⟨item, entry⟩ := Option.isSome_iff_exists.mp present
      have middle : current.fetchTime key = some (current.stamps item) :=
        fetchTime_eq_some_iff.mpr ⟨item, entry, rfl⟩
      have here : apartStore.Reachable current := reachable.runs prior.ofGuard
      have renews : WritesRenew current label := (apart_of_reachable here).writesRenew step permitted
      exact Nat.le_trans (ih middle)
        ((neverEarlier_iff (sound_of_apartStore here) step).mpr renews key _ _ middle after)

/-! ### The condition is no stronger than needed -/

section Reaches

variable {state next : StoreState} {key : String} {item : Nat}

/-- A run of separate steps leads to a step that is separate too and lowers a fetch time. -/
def LeadsToEarlier (state : StoreState) : Prop :=
  ∃ labels middle label last, apartStore.Runs state labels middle ∧
    apartStore.Step middle label last ∧ ¬ NeverEarlier middle last

theorem LeadsToEarlier.head {label : StoreLabel} (transition : StoreStep state label next)
    (permitted : MayOverlap state label) (leads : LeadsToEarlier next) : LeadsToEarlier state := by
  obtain ⟨labels, middle, last', last, runs, falls⟩ := leads
  exact ⟨_, middle, last', last, .head ⟨permitted, transition⟩ runs, falls⟩

/-- A write over an item that was fetched later. -/
theorem LeadsToEarlier.write {label : StoreLabel} {held : Nat}
    (transition : StoreStep state label next) (permitted : MayOverlap state label)
    (map : next.map = Function.update state.map key (some item)) (stamps : next.stamps = state.stamps)
    (present : state.map key = some held) (later : state.stamps item < state.stamps held) :
    LeadsToEarlier state := by
  refine ⟨[], state, label, next, .refl, ⟨permitted, transition⟩, fun never => ?_⟩
  have renews := (neverEarlier_written_iff map stamps).mp never held present
  exact absurd later (Nat.not_lt.mpr renews)

/-- The loop at a visited key puts the pending item over one that was fetched later. -/
theorem leads_of_assigning {copied : Entries} {visited : List String} {held : Nat}
    (at_ : state.loop = .assigning copied visited key) (found : copied.lookup key = some item)
    (present : state.map key = some held) (later : state.stamps item < state.stamps held) :
    LeadsToEarlier state :=
  .write (StoreStep.assign at_ found) trivial rfl rfl present later

theorem leads_of_writing {copied : Entries} {visited : List String} {held : Nat}
    (at_ : state.loop = .writing copied visited) (new : key ∉ visited)
    (found : copied.lookup key = some item) (present : state.map key = some held)
    (later : state.stamps item < state.stamps held) : LeadsToEarlier state :=
  .head (StoreStep.visit at_ new (by rw [present]; rfl)) trivial
    (leads_of_assigning rfl found present later)

/-- A round in which every other `Refresh` fails. -/
theorem leads_of_refreshing {copied todo : Entries} {held : Nat}
    (at_ : state.loop = .refreshing copied todo) (found : copied.lookup key = some item)
    (present : state.map key = some held) (later : state.stamps item < state.stamps held) :
    LeadsToEarlier state := by
  induction todo generalizing state with
  | nil =>
      exact .head (StoreStep.refreshed at_) trivial
        (leads_of_writing rfl List.not_mem_nil found present later)
  | cons entry rest ih =>
      obtain ⟨other, next⟩ := entry
      exact .head (@StoreStep.refreshFailed _ copied [] rest other next at_) trivial
        (ih rfl present later)

/-- From every place of the round, if the pending item cannot catch up. -/
theorem leads_of_pending {held : Nat} (pending : state.loop.pending key = some item)
    (present : state.map key = some held) (later : state.stamps item < state.stamps held)
    (flying : ∀ other stamp, state.loop.inFlight = some (other, stamp) →
      other ≠ held ∧ stamp < state.stamps held) : LeadsToEarlier state := by
  cases at_ : state.loop with
  | loading rest =>
      rw [at_] at pending
      cases pending
  | copying copied =>
      rw [at_] at pending
      exact .head (StoreStep.snapshot at_) trivial (leads_of_refreshing rfl pending present later)
  | refreshing copied todo =>
      rw [at_] at pending
      exact leads_of_refreshing at_ pending present later
  | fetched copied todo current stamp =>
      rw [at_] at pending
      obtain ⟨apart, earlier⟩ := flying current stamp (by rw [at_]; rfl)
      refine .head (StoreStep.store at_) trivial (leads_of_refreshing rfl pending present ?_)
      dsimp only
      rw [Function.update_of_ne apart.symm, Function.update_apply]
      split_ifs
      · exact earlier
      · exact later
  | writing copied visited =>
      rw [at_, Loop.pending] at pending
      split_ifs at pending with seen
      exact leads_of_writing at_ seen pending present later
  | assigning copied visited current =>
      rw [at_, Loop.pending] at pending
      split_ifs at pending with skipped
      by_cases same : key = current
      · subst same
        exact leads_of_assigning at_ pending present later
      · have unseen : key ∉ visited := fun seen => skipped ⟨seen, same⟩
        cases found : copied.lookup current with
        | none =>
            exact .head (StoreStep.passOver at_ found) trivial
              (leads_of_writing rfl unseen pending present later)
        | some other =>
            refine .head (StoreStep.assign at_ found) trivial
              (leads_of_writing rfl unseen pending ?_ later)
            dsimp only
            rw [Function.update_of_ne same]
            exact present

/-- A call that ends puts its item over one that was fetched later. -/
theorem leads_of_adds {held : Nat} {calls : List StoreCall}
    (member : Caller.publishing key item calls ∈ state.callers) (present : state.map key = some held)
    (later : state.stamps item < state.stamps held) : LeadsToEarlier state := by
  obtain ⟨before, after, at_⟩ := List.append_of_mem member
  exact .write (StoreStep.publish at_) trivial rfl rfl present later

/-- A successful `Refresh` that begins a call beside another one of its key, or while the loop
may yet write the key back, leads to an earlier fetch time. -/
theorem fetch_leads_to_earlier (sound : Sound state)
    (overlaps : state.Adds key ∨ state.loop.pending key ≠ none)
    (transition : StoreStep state (.fetch key true) next) : LeadsToEarlier next := by
  cases transition with
  | @fetchOk before after added calls at_ filled =>
      refine .head (StoreStep.publish rfl) trivial ?_
      have earlier : ∀ {item}, item < state.allocated →
          Function.update state.stamps state.allocated (state.clock + 1) item <
            Function.update state.stamps state.allocated (state.clock + 1) state.allocated := by
        intro item older
        rw [Function.update_of_ne (Nat.ne_of_lt older), Function.update_self]
        exact Nat.lt_succ_of_le (sound.past item)
      have present : Function.update state.map added.key (some state.allocated) added.key =
          some state.allocated := Function.update_self _ _ _
      rcases overlaps with ⟨item, others, member⟩ | pending
      · have older : item < state.allocated := sound.knows_lt (.inr (.inl ⟨others, member⟩))
        have waits : Caller.publishing added.key item others ∈ before ++ .ready calls :: after := by
          rw [at_] at member
          simp only [List.mem_append, List.mem_cons, reduceCtorEq, false_or] at member ⊢
          exact member
        exact leads_of_adds waits present (earlier older)
      · obtain ⟨item, pending⟩ := Option.ne_none_iff_exists'.mp pending
        have older : item < state.allocated := sound.knows_lt (.inr (.inr pending))
        refine leads_of_pending pending present (earlier older) ?_
        intro other stamp flying
        have known : other < state.allocated := sound.flying_lt flying
        refine ⟨Nat.ne_of_lt known, ?_⟩
        dsimp only
        rw [Function.update_self]
        exact Nat.lt_succ_of_le (sound.inFlight other stamp flying).2

/-- A copy of an entry beside a call of its key leads to an earlier fetch time. -/
theorem copy_leads_to_earlier (sound : Sound state) (apart : Apart state) (adds : state.Adds key)
    (transition : StoreStep state (.copy key) next) : LeadsToEarlier next := by
  obtain ⟨item, calls, member⟩ := adds
  cases transition with
  | @copy copied _ held at_ new present =>
      refine .head (StoreStep.snapshot rfl) trivial ?_
      refine .head (@StoreStep.refreshOk _ _ [] copied key held rfl) trivial ?_
      refine .head (StoreStep.store rfl) trivial ?_
      refine leads_of_adds member present ?_
      have apart : item ≠ held := by
        rintro rfl
        exact apart.unseen key item calls member present
      dsimp only
      rw [Function.update_of_ne apart, Function.update_self]
      exact Nat.lt_succ_of_le (sound.past item)

/-- A successful `Refresh` of a call, or a copy of an entry, that misses the condition can be
followed by separate steps alone and still leads to an earlier fetch time. -/
theorem overlap_leads_to_earlier {label : StoreLabel} (reachable : apartStore.Reachable state)
    (begins : label = .fetch key true ∨ label = .copy key) (overlaps : ¬ MayOverlap state label)
    (transition : StoreStep state label next) : LeadsToEarlier next := by
  have sound := sound_of_apartStore reachable
  rcases begins with rfl | rfl
  · refine fetch_leads_to_earlier sound ?_ transition
    by_contra apart
    rw [not_or, not_not] at apart
    exact overlaps ⟨apart.1, apart.2, fun failed => by cases failed⟩
  · exact copy_leads_to_earlier sound (apart_of_reachable reachable) (not_not.mp overlaps) transition

end Reaches

/-! ### Runs of one key -/

def testItem : TokenStoreItem := .weChatTestAccount "app" "secret"

/-- One item was added and fetched; the loop is about to take a snapshot. -/
def published : StoreState where
  map := Function.update (fun _ => none) testItem.key (some 0)
  stamps := Function.update (fun _ => 0) 0 1
  allocated := 1
  clock := 1
  loop := .copying []
  callers := [.ready []]

/-- The loop fetched a new token for the item. -/
def renewed : StoreState :=
  { published with
    stamps := Function.update published.stamps 0 2
    clock := 2
    loop := .refreshing [(testItem.key, 0)] [] }

/-- The loop wrote it back, and a second call put an item of its own in its place. -/
def replaced : StoreState :=
  { renewed with
    map := Function.update renewed.map testItem.key (some 1)
    stamps := Function.update renewed.stamps 1 3
    allocated := 2
    clock := 3
    loop := .writing [(testItem.key, 0)] [testItem.key]
    callers := [.ready [], .ready []] }

theorem published_reachable : apartStore.Reachable published := by
  have started : apartStore.Reachable { loop := .loading [] } := .initial ⟨[], rfl⟩
  have loaded : apartStore.Reachable { loop := .copying [] } :=
    started.step (StoreStep.loaded rfl |>.separate trivial)
  have called : apartStore.Reachable { loop := .copying [], callers := [.ready [.addItem testItem]] } :=
    loaded.step (StoreStep.call |>.separate trivial)
  have free : MayOverlap { loop := .copying [], callers := [.ready [.addItem testItem]] }
      (.fetch testItem.key true) := by
    refine ⟨?_, rfl, fun failed => by cases failed⟩
    rintro ⟨item, calls, member⟩
    cases List.mem_singleton.mp member
  have fetched := called.step ⟨free, @StoreStep.fetchOk _ [] [] testItem [] rfl rfl⟩
  exact fetched.step ((@StoreStep.publish _ [] [] testItem.key 0 [] rfl).separate trivial)

/-- The steps of the loop from the snapshot to the new token. -/
theorem published_runs_renewed :
    (apartStore.guard fun state _ => (state.map testItem.key).isSome).Runs published
      [.copy testItem.key, .snapshot, .refresh true, .store] renewed := by
  have free : MayOverlap published (.copy testItem.key) := by
    rintro ⟨item, calls, member⟩
    cases List.mem_singleton.mp member
  exact .head ⟨rfl, free, @StoreStep.copy published [] testItem.key 0 rfl rfl rfl⟩ <|
    .head ⟨rfl, trivial, StoreStep.snapshot rfl⟩ <|
    .head ⟨rfl, trivial, @StoreStep.refreshOk _ _ [] [] testItem.key 0 rfl⟩ <|
    .single ⟨rfl, trivial, StoreStep.store rfl⟩

/-- The write-back, and a second call that begins after it. -/
theorem renewed_runs_replaced :
    ∃ labels, (apartStore.guard fun state _ => (state.map testItem.key).isSome).Runs renewed labels
      replaced := by
  let written : StoreState :=
    { renewed with
      map := Function.update renewed.map testItem.key (some 0)
      loop := .writing [(testItem.key, 0)] [testItem.key]
      callers := [.ready [], .ready [.addItem testItem]] }
  have free : MayOverlap written (.fetch testItem.key true) := by
    refine ⟨?_, rfl, fun failed => by cases failed⟩
    rintro ⟨item, calls, member⟩
    simp [written] at member
  have same : Function.update written.map testItem.key (some 1) = replaced.map :=
    Function.update_idem _ _ _
  refine ⟨[.refreshed, .visit testItem.key, .assign testItem.key 0, .call [.addItem testItem],
    .fetch testItem.key true, .publish testItem.key 1], ?_⟩
  refine .head ⟨rfl, (StoreStep.refreshed rfl).separate trivial⟩ ?_
  refine .head ⟨rfl, (@StoreStep.visit _ _ [] testItem.key rfl List.not_mem_nil rfl).separate trivial⟩ ?_
  refine .head ⟨rfl, (@StoreStep.assign _ _ _ testItem.key 0 rfl rfl).separate trivial⟩ ?_
  refine .head ⟨rfl, StoreStep.call.separate trivial⟩ ?_
  refine .head ⟨rfl, (@StoreStep.fetchOk written [.ready []] [] testItem [] rfl rfl).separate free⟩ ?_
  have publish := @StoreStep.publish
    { written with
      stamps := Function.update written.stamps 1 3
      allocated := 2
      clock := 3
      callers := [.ready [], .publishing testItem.key 1 []] } [.ready []] [] testItem.key 1 [] rfl
  rw [same] at publish
  exact .single ⟨rfl, publish.separate trivial⟩

/-- A refresh in place raises the fetch time from 1 to 2, a second call after the write-back to 3. -/
theorem fetchTime_never_decreases_refresh :
    published.fetchTime testItem.key = some 1 ∧ replaced.fetchTime testItem.key = some 3 ∧ 1 ≤ 3 := by
  obtain ⟨labels, runs⟩ := renewed_runs_replaced
  exact ⟨rfl, rfl,
    fetchTime_never_decreases published_reachable (published_runs_renewed.trans runs) rfl rfl⟩

/-- The write-back puts the item of the snapshot over one that a request added and fetched
after it. -/
theorem writeBack_overwrites_fresher_item :
    ¬ ∀ (key : String) (first last : StoreState) (labels : List StoreLabel),
      tokenStore.Reachable first →
      (tokenStore.guard fun state _ => (state.map key).isSome).Runs first labels last →
      ∀ earlier later, first.fetchTime key = some earlier → last.fetchTime key = some later →
        earlier ≤ later := by
  intro claimed
  let added : StoreState :=
    { replaced with loop := .writing [(testItem.key, 0)] [] }
  have reachable : tokenStore.Reachable added := by
    obtain ⟨start, labels, valid, runs⟩ := published_reachable
    have prior : tokenStore.Reachable published := ⟨start, labels, valid, runs.ofGuard⟩
    have refreshed := (prior.runs published_runs_renewed.ofGuard.ofGuard).step
      (StoreStep.refreshed rfl)
    have called := refreshed.step (StoreStep.call : StoreStep _ (.call [.addItem testItem]) _)
    have fetched := called.step (@StoreStep.fetchOk _ [.ready []] [] testItem [] rfl rfl)
    exact fetched.step (@StoreStep.publish _ [.ready []] [] testItem.key 1 [] rfl)
  let overwritten : StoreState :=
    { added with
      map := Function.update added.map testItem.key (some 0)
      loop := .writing [(testItem.key, 0)] [testItem.key] }
  have runs : (tokenStore.guard fun state _ => (state.map testItem.key).isSome).Runs added
      [.visit testItem.key, .assign testItem.key 0] overwritten :=
    .head ⟨rfl, @StoreStep.visit added _ _ testItem.key rfl (by simp) rfl⟩
      (.single ⟨rfl, @StoreStep.assign _ _ _ testItem.key 0 rfl rfl⟩)
  exact absurd (claimed testItem.key added overwritten _ reachable runs 3 2 rfl rfl) (by decide)

end MessagePusher.TokenStore
