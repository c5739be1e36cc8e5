import MessagePusher.TokenStore.Refresh

/-!
# The refresh loop on its own

The goroutine of `TokenStoreInit` before any request touches the map. It loads the items
of all channels, copies the map, refreshes every item of the copy and writes the copy
back. `Refresh` succeeds.
-/

namespace MessagePusher.TokenStore

open Channel Semantics

/-- The entries of the copy. -/
def Loop.copied : Loop → Entries
  | .loading _ => []
  | .copying copied | .refreshing copied _ | .fetched copied _ _ _ | .writing copied _
  | .assigning copied _ _ => copied

/-- The copy of this round is complete. -/
def Loop.Taken : Loop → Prop
  | .loading _ | .copying _ => False
  | .refreshing _ _ | .fetched _ _ _ _ | .writing _ _ | .assigning _ _ _ => True

/-- The item of an entry is still to be refreshed in this round, or its token to be stored. -/
def Loop.Awaits (key : String) (item : Nat) : Loop → Prop
  | .loading _ | .copying _ => True
  | .refreshing _ todo => (key, item) ∈ todo
  | .fetched _ todo current _ => (key, item) ∈ todo ∨ current = item
  | .writing _ _ | .assigning _ _ _ => False

/-- The steps of the loop. As nobody else changes the map, a range over it meets every entry. -/
def Undisturbed (state : StoreState) : StoreLabel → Prop
  | .load _ | .loaded | .copy _ | .store | .refreshed | .visit _ | .assign _ _ | .passOver
  | .sleep => True
  | .refresh success => success = true
  | .snapshot => ∀ key, (state.map key).isSome → (state.loop.copied.lookup key).isSome
  | .call _ | .skip | .fetch _ _ | .publish _ _ | .remove _ => False

/-- The number of rounds that are over, after a step. -/
def roundsAfter (rounds : Nat) : StoreLabel → Nat
  | .sleep => rounds + 1
  | _ => rounds

/-- The loop has refreshed the item of a key: in an earlier round, or already in this one. -/
def HasRefreshed (state : StoreState) (rounds : Nat) (key : String) : Prop :=
  rounds ≠ 0 ∨
    (state.loop.Taken ∧ ∀ item, state.loop.copied.lookup key = some item →
      ¬ state.loop.Awaits key item)

/-- The token under a key is one of an item that was refreshed. -/
def Refreshed (state : StoreState) (key : String) : Prop :=
  ∃ time, state.fetchTime key = some time ∧ 0 < time

/-- What the loop keeps, from the items of the channels on. -/
structure Filled (items : List TokenStoreItem) (state : StoreState) (rounds : Nat) : Prop where
  known : ∀ item ∈ items, (∃ rest, state.loop = .loading rest ∧ item ∈ rest) ∨
    (state.map item.key).isSome
  blank : ∀ rest, state.loop = .loading rest → rounds = 0 ∧ ∀ item, state.stamps item = 0
  agree : ∀ key item, state.loop.copied.lookup key = some item → state.map key = some item
  whole : state.loop.Taken → ∀ key item, state.map key = some item →
    state.loop.copied.lookup key = some item
  pending : ∀ key item, state.loop.copied.lookup key = some item →
    state.loop.Awaits key item ∨ 0 < state.stamps item
  stamp : ∀ item stamp, state.loop.inFlight = some (item, stamp) → 0 < stamp
  earlier : rounds ≠ 0 → ∀ key item, state.map key = some item → 0 < state.stamps item

namespace Filled

variable {items : List TokenStoreItem} {state next : StoreState} {rounds : Nat}
  {label : StoreLabel} {key : String}

theorem initial (items : List TokenStoreItem) : Filled items { loop := .loading items } 0 where
  known item member := .inl ⟨items, rfl, member⟩
  blank _ _ := ⟨rfl, fun _ => rfl⟩
  agree _ _ found := by cases found
  whole taken := taken.elim
  pending _ _ found := by cases found
  stamp _ _ found := by cases found
  earlier later := absurd rfl later

theorem refreshed (filled : Filled items state rounds) {item : TokenStoreItem}
    (member : item ∈ items) (passed : HasRefreshed state rounds item.key) :
    Refreshed state item.key := by
  have present : (state.map item.key).isSome := by
    rcases filled.known item member with ⟨rest, at_, -⟩ | present
    · rcases passed with later | ⟨taken, -⟩
      · exact absurd (filled.blank rest at_).1 later
      · rw [at_] at taken
        exact taken.elim
    · exact present
  obtain ⟨held, found⟩ := Option.isSome_iff_exists.mp present
  refine ⟨state.stamps held, by rw [StoreState.fetchTime, found]; rfl, ?_⟩
  rcases passed with later | ⟨taken, stored⟩
  · exact filled.earlier later item.key held found
  · have copied := filled.whole taken item.key held found
    rcases filled.pending item.key held copied with awaits | positive
    · exact absurd awaits (stored held copied)
    · exact positive

/-- Once the items are loaded, each of them is in the map. -/
theorem present (filled : Filled items state rounds) (running : ∀ rest, state.loop ≠ .loading rest)
    {item : TokenStoreItem} (member : item ∈ items) : (state.map item.key).isSome := by
  rcases filled.known item member with ⟨rest, at_, -⟩ | present
  · exact absurd at_ (running rest)
  · exact present

/-- What is known of the copy at a place of the loop. -/
theorem at_loop (filled : Filled items state rounds) {loop : Loop} (at_ : state.loop = loop) :
    (∀ key item, loop.copied.lookup key = some item → state.map key = some item) ∧
      (loop.Taken → ∀ key item, state.map key = some item →
        loop.copied.lookup key = some item) ∧
      ∀ key item, loop.copied.lookup key = some item →
        loop.Awaits key item ∨ 0 < state.stamps item := by
  subst at_
  exact ⟨filled.agree, filled.whole, filled.pending⟩

/-- A step that changes neither map nor tokens. -/
theorem moves (filled : Filled items state rounds) {loop : Loop}
    (running : ∀ rest, state.loop ≠ .loading rest) (goesOn : ∀ rest, loop ≠ .loading rest)
    (agree : ∀ key item, loop.copied.lookup key = some item → state.map key = some item)
    (whole : loop.Taken → ∀ key item, state.map key = some item →
      loop.copied.lookup key = some item)
    (pending : ∀ key item, loop.copied.lookup key = some item →
      loop.Awaits key item ∨ 0 < state.stamps item)
    (landed : loop.inFlight = none) : Filled items { state with loop } rounds where
  known _ member := .inr (filled.present running member)
  blank rest at_ := absurd at_ (goesOn rest)
  agree := agree
  whole := whole
  pending := pending
  stamp _ _ found := by
    rw [landed] at found
    cases found
  earlier := filled.earlier

/-- An item of the list is put into the map. -/
theorem load (filled : Filled items state rounds) {item : TokenStoreItem}
    {rest : List TokenStoreItem} (at_ : state.loop = .loading (item :: rest)) :
    Filled items
      { state with
        map := Function.update state.map item.key (some state.allocated)
        allocated := state.allocated + 1
        loop := .loading rest } rounds := by
  obtain ⟨first, zero⟩ := filled.blank _ at_
  constructor
  · intro other member
    by_cases same : other.key = item.key
    · exact .inr (by simp [same])
    · rcases filled.known other member with ⟨rest', at', inRest⟩ | present
      · rw [at_] at at'
        obtain rfl := Loop.loading.inj at'
        rcases List.mem_cons.mp inRest with rfl | inRest
        · exact absurd rfl same
        · exact .inl ⟨rest, rfl, inRest⟩
      · exact .inr (by simpa [same] using present)
  · exact fun _ _ => ⟨first, zero⟩
  · rintro key held ⟨⟩
  · exact fun taken => taken.elim
  · rintro key held ⟨⟩
  · rintro held stamp ⟨⟩
  · exact fun later => absurd first later

/-- A token is fetched for an item of the copy, which then no longer waits for its turn. -/
theorem refreshOk (filled : Filled items state rounds) {copied before after : List (String × Nat)}
    {key : String} {item : Nat}
    (at_ : state.loop = .refreshing copied (before ++ (key, item) :: after)) :
    Filled items
      { state with
        clock := state.clock + 1
        loop := .fetched copied (before ++ after) item (state.clock + 1) } rounds := by
  obtain ⟨agree, base, pending⟩ := filled.at_loop at_
  constructor
  · exact fun _ member => .inr (filled.present (by simp [at_]) member)
  · rintro rest ⟨⟩
  · exact agree
  · exact fun _ => base trivial
  · intro other held found
    rcases pending other held found with awaits | positive
    · left
      rcases List.mem_append.mp awaits with early | late
      · exact .inl (List.mem_append_left _ early)
      · rcases List.mem_cons.mp late with same | late
        · exact .inr (Prod.mk.inj same).2.symm
        · exact .inl (List.mem_append_right _ late)
    · exact .inr positive
  · intro other stamp flying
    obtain ⟨-, rfl⟩ := Prod.mk.inj (Option.some.inj flying)
    exact Nat.succ_pos _
  · exact filled.earlier

/-- The fetched token becomes visible. -/
theorem store (filled : Filled items state rounds) {copied todo : List (String × Nat)}
    {item stamp : Nat} (at_ : state.loop = .fetched copied todo item stamp) :
    Filled items
      { state with
        stamps := Function.update state.stamps item stamp
        loop := .refreshing copied todo } rounds := by
  obtain ⟨agree, base, pending⟩ := filled.at_loop at_
  have positive : 0 < stamp := filled.stamp item stamp (by rw [at_]; rfl)
  have kept : ∀ held, 0 < state.stamps held →
      0 < Function.update state.stamps item stamp held := by
    intro held before
    rw [Function.update_apply]
    split_ifs
    · exact positive
    · exact before
  constructor
  · exact fun _ member => .inr (filled.present (by simp [at_]) member)
  · rintro rest ⟨⟩
  · exact agree
  · exact fun _ => base trivial
  · intro other held found
    rcases pending other held found with (awaits | rfl) | before
    · exact .inl awaits
    · right
      dsimp only
      rw [Function.update_self]
      exact positive
    · exact .inr (kept held before)
  · rintro other stamp ⟨⟩
  · exact fun later other held found => kept held (filled.earlier later other held found)

theorem step (filled : Filled items state rounds) (undisturbed : Undisturbed state label)
    (transition : StoreStep state label next) : Filled items next (roundsAfter rounds label) := by
  cases transition with
  | call | skip | fetchOk | fetchFailed | publish | remove => exact undisturbed.elim
  | refreshFailed => cases undisturbed
  | load at_ => exact filled.load at_
  | @loaded at_ =>
      obtain ⟨first, -⟩ := filled.blank _ at_
      constructor
      · intro item member
        rcases filled.known item member with ⟨rest, at', inRest⟩ | present
        · rw [at_] at at'
          obtain rfl := Loop.loading.inj at'
          cases inRest
        · exact .inr present
      · rintro rest ⟨⟩
      · rintro key held ⟨⟩
      · exact fun taken => taken.elim
      · rintro key held ⟨⟩
      · rintro held stamp ⟨⟩
      · exact fun later => absurd first later
  | @copy copied key item at_ new present =>
      refine filled.moves (by simp [at_]) (by simp) ?_ (fun taken => taken.elim)
        ?_ rfl
      swap
      · intro _ _ _
        exact .inl trivial
      intro other held found
      simp only [Loop.copied, List.lookup_cons] at found
      split at found
      · next same =>
        rw [beq_iff_eq] at same
        obtain rfl := Option.some.inj found
        rw [same]
        exact present
      · exact filled.agree other held (by rw [at_]; exact found)
  | @snapshot copied at_ =>
      obtain ⟨agree, -, -⟩ := filled.at_loop at_
      refine filled.moves (by simp [at_]) (by simp) agree ?_ ?_ rfl
      · intro _ key item found
        have listed := undisturbed key (by rw [found]; rfl)
        rw [at_] at listed
        obtain ⟨other, copiedOther⟩ := Option.isSome_iff_exists.mp listed
        obtain rfl := Option.some.inj (found.symm.trans (agree key other copiedOther))
        exact copiedOther
      · intro key item found
        obtain ⟨before, after, split, -⟩ := List.lookup_eq_some_iff.mp found
        have member : (key, item) ∈ (Loop.refreshing copied copied).copied := by
          rw [split]
          simp
        exact .inl member
  | refreshOk at_ => exact filled.refreshOk at_
  | store at_ => exact filled.store at_
  | @refreshed copied at_ =>
      obtain ⟨agree, base, pending⟩ := filled.at_loop at_
      refine filled.moves (by simp [at_]) (by simp) agree (fun _ => base trivial) ?_ rfl
      intro other held found
      rcases pending other held found with awaits | positive
      · cases awaits
      · exact .inr positive
  | @visit copied visited key at_ new present =>
      obtain ⟨agree, base, pending⟩ := filled.at_loop at_
      exact filled.moves (by simp [at_]) (by simp) agree (fun _ => base trivial) pending rfl
  | @assign copied visited key item at_ found =>
      obtain ⟨agree, base, pending⟩ := filled.at_loop at_
      have same : Function.update state.map key (some item) = state.map := by
        rw [← agree key item found]
        exact Function.update_eq_self key state.map
      rw [same]
      exact filled.moves (by simp [at_]) (by simp) agree (fun _ => base trivial) pending rfl
  | @passOver copied visited key at_ absent =>
      obtain ⟨agree, base, pending⟩ := filled.at_loop at_
      exact filled.moves (by simp [at_]) (by simp) agree (fun _ => base trivial) pending rfl
  | @sleep copied visited at_ =>
      obtain ⟨agree, base, pending⟩ := filled.at_loop at_
      have reached : ∀ key item, state.map key = some item → 0 < state.stamps item := by
        intro key item found
        rcases pending key item (base trivial key item found) with awaits | positive
        · exact awaits.elim
        · exact positive
      constructor
      · exact fun _ member => .inr (filled.present (by simp [at_]) member)
      · rintro rest ⟨⟩
      · rintro other held ⟨⟩
      · exact fun taken => taken.elim
      · rintro other held ⟨⟩
      · rintro other stamp ⟨⟩
      · exact fun _ => reached

/-- What was refreshed once stays so. -/
theorem keeps_refreshed (filled : Filled items state rounds) (undisturbed : Undisturbed state label)
    (transition : StoreStep state label next) (fresh : Refreshed state key) :
    Refreshed next key := by
  obtain ⟨time, fetched, positive⟩ := fresh
  obtain ⟨held, found, rfl⟩ := fetchTime_eq_some_iff.mp fetched
  cases transition with
  | call | skip | fetchOk | fetchFailed | publish | remove => exact undisturbed.elim
  | refreshFailed => cases undisturbed
  | @load item rest at_ =>
      rw [(filled.blank _ at_).2 held] at positive
      exact absurd positive (Nat.lt_irrefl 0)
  | @store copied todo item stamp at_ =>
      have landed : 0 < stamp := filled.stamp item stamp (by rw [at_]; rfl)
      refine ⟨_, fetchTime_eq_some_iff.mpr ⟨held, found, rfl⟩, ?_⟩
      dsimp only
      rw [Function.update_apply]
      split_ifs
      · exact landed
      · exact positive
  | @assign copied visited other item at_ copiedOther =>
      have same : Function.update state.map other (some item) = state.map := by
        rw [← filled.agree other item (by rw [at_]; exact copiedOther)]
        exact Function.update_eq_self other state.map
      exact ⟨_, fetchTime_eq_some_iff.mpr ⟨held, by dsimp only; rw [same]; exact found, rfl⟩,
        positive⟩
  | _ => exact ⟨_, fetchTime_eq_some_iff.mpr ⟨held, found, rfl⟩, positive⟩

end Filled

end MessagePusher.TokenStore
