import MessagePusher.Semantics.Transition
import MessagePusher.Channel.TokenStore

/-!
# The refresh loop beside concurrent requests

The goroutine of `TokenStoreInit` and any number of callers of the token store, one
step for each access of the map and for each `Refresh`. `RLock` excludes nobody, so
every access may fall between any two others. Entries are pointers to items, since
the loop refreshes items in place; an item is represented by the fetch time of its
token. A range over the map may miss entries that change under it; here it may end
at any time.
-/

namespace MessagePusher.TokenStore

open Channel Semantics

/-- A copy of entries of the map, as `tmpMap`. -/
abbrev Entries := List (String × Nat)

/-- How far the goroutine of `TokenStoreInit` is. -/
inductive Loop where
  | loading (items : List TokenStoreItem)
  | copying (copied : Entries)
  | refreshing (copied todo : Entries)
  | fetched (copied todo : Entries) (item stamp : Nat)
  | writing (copied : Entries) (visited : List String)
  | assigning (copied : Entries) (visited : List String) (key : String)

/-- How far a caller is: the calls left, and an item fetched but not yet in the map. -/
inductive Caller where
  | ready (calls : List StoreCall)
  | publishing (key : String) (item : Nat) (calls : List StoreCall)

/-- The map, the fetch time of every item (zero without a successful `Refresh`), the number
of items so far, and the parties. -/
structure StoreState where
  map : String → Option Nat := fun _ => none
  stamps : Nat → Nat := fun _ => 0
  allocated : Nat := 0
  clock : Nat := 0
  loop : Loop
  callers : List Caller := []

/-- What happens in a step. -/
inductive StoreLabel where
  | call (calls : List StoreCall)
  | skip
  | fetch (key : String) (success : Bool)
  | publish (key : String) (item : Nat)
  | remove (key : String)
  | load (key : String)
  | loaded
  | copy (key : String)
  | snapshot
  | refresh (success : Bool)
  | store
  | refreshed
  | visit (key : String)
  | assign (key : String) (item : Nat)
  | passOver
  | sleep

/-- One step of one party. -/
inductive StoreStep : StoreState → StoreLabel → StoreState → Prop where
  | call {state calls} :
      StoreStep state (.call calls) { state with callers := state.callers ++ [.ready calls] }
  /-- `TokenStoreAddItem` returns at once for an item that is not filled. -/
  | skip {state before after item calls}
      (at_ : state.callers = before ++ .ready (.addItem item :: calls) :: after)
      (unfilled : item.isFilled = false) :
      StoreStep state .skip { state with callers := before ++ .ready calls :: after }
  /-- `Refresh` of the new item of `TokenStoreAddItem`, which nobody else knows yet. -/
  | fetchOk {state before after item calls}
      (at_ : state.callers = before ++ .ready (.addItem item :: calls) :: after)
      (filled : item.isFilled = true) :
      StoreStep state (.fetch item.key true)
        { state with
          stamps := Function.update state.stamps state.allocated (state.clock + 1)
          allocated := state.allocated + 1
          clock := state.clock + 1
          callers := before ++ .publishing item.key state.allocated calls :: after }
  | fetchFailed {state before after item calls}
      (at_ : state.callers = before ++ .ready (.addItem item :: calls) :: after)
      (filled : item.isFilled = true) :
      StoreStep state (.fetch item.key false)
        { state with
          allocated := state.allocated + 1
          callers := before ++ .publishing item.key state.allocated calls :: after }
  | publish {state before after key item calls}
      (at_ : state.callers = before ++ .publishing key item calls :: after) :
      StoreStep state (.publish key item)
        { state with
          map := Function.update state.map key (some item)
          callers := before ++ .ready calls :: after }
  | remove {state before after item calls}
      (at_ : state.callers = before ++ .ready (.removeItem item :: calls) :: after) :
      StoreStep state (.remove item.key)
        { state with
          map := Function.update state.map item.key none
          callers := before ++ .ready calls :: after }
  /-- The items of the channels table are written without a `Refresh`. -/
  | load {state item items} (at_ : state.loop = .loading (item :: items)) :
      StoreStep state (.load item.key)
        { state with
          map := Function.update state.map item.key (some state.allocated)
          allocated := state.allocated + 1
          loop := .loading items }
  | loaded {state} (at_ : state.loop = .loading []) :
      StoreStep state .loaded { state with loop := .copying [] }
  | copy {state copied key item} (at_ : state.loop = .copying copied)
      (new : copied.lookup key = none) (present : state.map key = some item) :
      StoreStep state (.copy key) { state with loop := .copying ((key, item) :: copied) }
  | snapshot {state copied} (at_ : state.loop = .copying copied) :
      StoreStep state .snapshot { state with loop := .refreshing copied copied }
  | refreshOk {state copied before after key item}
      (at_ : state.loop = .refreshing copied (before ++ (key, item) :: after)) :
      StoreStep state (.refresh true)
        { state with
          clock := state.clock + 1
          loop := .fetched copied (before ++ after) item (state.clock + 1) }
  | refreshFailed {state copied before after key item}
      (at_ : state.loop = .refreshing copied (before ++ (key, item) :: after)) :
      StoreStep state (.refresh false)
        { state with loop := .refreshing copied (before ++ after) }
  /-- The fetched token becomes visible through every entry that points to the item. -/
  | store {state copied todo item stamp} (at_ : state.loop = .fetched copied todo item stamp) :
      StoreStep state .store
        { state with
          stamps := Function.update state.stamps item stamp
          loop := .refreshing copied todo }
  | refreshed {state copied} (at_ : state.loop = .refreshing copied []) :
      StoreStep state .refreshed { state with loop := .writing copied [] }
  | visit {state copied visited key} (at_ : state.loop = .writing copied visited)
      (new : key ∉ visited) (present : (state.map key).isSome) :
      StoreStep state (.visit key)
        { state with loop := .assigning copied (key :: visited) key }
  | assign {state copied visited key item} (at_ : state.loop = .assigning copied visited key)
      (found : copied.lookup key = some item) :
      StoreStep state (.assign key item)
        { state with
          map := Function.update state.map key (some item)
          loop := .writing copied visited }
  | passOver {state copied visited key} (at_ : state.loop = .assigning copied visited key)
      (absent : copied.lookup key = none) :
      StoreStep state .passOver { state with loop := .writing copied visited }
  | sleep {state copied visited} (at_ : state.loop = .writing copied visited) :
      StoreStep state .sleep { state with loop := .copying [] }

/-- The store at startup: an empty map, nobody calling, any channels to load. -/
def tokenStore : System StoreState StoreLabel where
  Initial state := ∃ items, state = { loop := .loading items }
  Step := StoreStep

/-- The fetch time of the item that `TokenStoreGetToken` reads under a key. -/
def StoreState.fetchTime (state : StoreState) (key : String) : Option Nat :=
  (state.map key).map state.stamps

/-- The item was fetched no earlier than the one under the key, if there is one. -/
def StoreState.Renews (state : StoreState) (key : String) (item : Nat) : Prop :=
  ∀ held, state.map key = some held → state.stamps held ≤ state.stamps item

/-- What a step writes under a key that is present was fetched no earlier than what it
overwrites. An item of the channels table was never fetched. -/
def WritesRenew (state : StoreState) : StoreLabel → Prop
  | .publish key item => state.Renews key item
  | .assign key item => state.Renews key item
  | .load key => ∀ held, state.map key = some held → state.stamps held = 0
  | _ => True

/-- No key that is present before and after the step reads an earlier fetch time. -/
def NeverEarlier (state next : StoreState) : Prop :=
  ∀ key earlier later, state.fetchTime key = some earlier → next.fetchTime key = some later →
    earlier ≤ later

/-! ### Items and fetch times -/

/-- The items that the loop may still read or write. -/
def Loop.items : Loop → List Nat
  | .loading _ => []
  | .copying copied => copied.map Prod.snd
  | .refreshing copied todo => (copied ++ todo).map Prod.snd
  | .fetched copied todo item _ => item :: (copied ++ todo).map Prod.snd
  | .writing copied _ => copied.map Prod.snd
  | .assigning copied _ _ => copied.map Prod.snd

/-- The item whose new token is not yet visible, with its fetch time. -/
def Loop.inFlight : Loop → Option (Nat × Nat)
  | .fetched _ _ item stamp => some (item, stamp)
  | _ => none

def Caller.items : Caller → List Nat
  | .ready _ => []
  | .publishing _ item _ => [item]

/-- Fetch times lie in the past, items in use exist, and a token in flight is no older than
the one it replaces. -/
structure Sound (state : StoreState) : Prop where
  past : ∀ item, state.stamps item ≤ state.clock
  unused : ∀ item, state.allocated ≤ item → state.stamps item = 0
  mapped : ∀ key item, state.map key = some item → item < state.allocated
  looped : ∀ item ∈ state.loop.items, item < state.allocated
  held : ∀ caller ∈ state.callers, ∀ item ∈ caller.items, item < state.allocated
  inFlight : ∀ item stamp, state.loop.inFlight = some (item, stamp) →
    state.stamps item ≤ stamp ∧ stamp ≤ state.clock

theorem Sound.initial {state : StoreState} (start : tokenStore.Initial state) : Sound state := by
  obtain ⟨items, rfl⟩ := start
  constructor <;> simp [Loop.items, Loop.inFlight]

/-- A caller that changes its phase holds the items of the new phase. -/
theorem held_of_replaced {bound : Nat} {callers before after : List Caller} {old new : Caller}
    (at_ : callers = before ++ old :: after)
    (held : ∀ caller ∈ callers, ∀ item ∈ caller.items, item < bound)
    (fresh : ∀ item ∈ new.items, item < bound) :
    ∀ caller ∈ before ++ new :: after, ∀ item ∈ caller.items, item < bound := by
  subst at_
  intro caller member
  rcases List.mem_append.mp member with early | late
  · exact held caller (List.mem_append.mpr (.inl early))
  · rcases List.mem_cons.mp late with rfl | late
    · exact fresh
    · exact held caller (List.mem_append.mpr (.inr (List.mem_cons_of_mem _ late)))

/-- An entry written with an existing item keeps the entries on existing items. -/
theorem mapped_of_written {map : String → Option Nat} {bound : Nat} {key : String}
    {value : Option Nat} (mapped : ∀ key item, map key = some item → item < bound)
    (exists_ : ∀ item, value = some item → item < bound) :
    ∀ other item, Function.update map key value other = some item → item < bound := by
  intro other item found
  rw [Function.update_apply] at found
  split_ifs at found
  · exact exists_ item found
  · exact mapped other item found

theorem mem_of_lookup {copied : Entries} {key : String} {item : Nat}
    (found : copied.lookup key = some item) : item ∈ copied.map Prod.snd := by
  induction copied with
  | nil => cases found
  | cons entry rest ih =>
      rw [List.lookup_cons] at found
      split at found
      · obtain rfl := Option.some.inj found
        simp
      · exact List.mem_cons_of_mem _ (ih found)

/-- A step that only moves the loop, with nothing in flight and no item taken up. -/
theorem Sound.loops {state : StoreState} (sound : Sound state) {loop : Loop}
    (items : ∀ item ∈ loop.items, item ∈ state.loop.items) (landed : loop.inFlight = none) :
    Sound { state with loop } :=
  { sound with
    looped := fun item member => sound.looped item (items item member)
    inFlight := by
      intro item stamp flying
      rw [landed] at flying
      cases flying }

/-- A caller that moves on, with items that exist. -/
theorem Sound.calls {state : StoreState} (sound : Sound state) {before after : List Caller}
    {old new : Caller} (at_ : state.callers = before ++ old :: after)
    (fresh : ∀ item ∈ new.items, item < state.allocated) :
    Sound { state with callers := before ++ new :: after } :=
  { sound with held := held_of_replaced at_ sound.held fresh }

/-- An entry that is written or removed. -/
theorem Sound.writes {state : StoreState} (sound : Sound state) (key : String)
    {value : Option Nat} (exists_ : ∀ item, value = some item → item < state.allocated) :
    Sound { state with map := Function.update state.map key value } :=
  { sound with mapped := mapped_of_written sound.mapped exists_ }

/-- A new item, which has never been refreshed. -/
theorem Sound.allocates {state : StoreState} (sound : Sound state) :
    Sound { state with allocated := state.allocated + 1 } where
  past := sound.past
  unused item fresh := sound.unused item (Nat.le_of_succ_le fresh)
  mapped key item found := Nat.lt_succ_of_lt (sound.mapped key item found)
  looped item member := Nat.lt_succ_of_lt (sound.looped item member)
  held caller member item holds := Nat.lt_succ_of_lt (sound.held caller member item holds)
  inFlight := sound.inFlight

/-- A token that is stored for an item of which no other is in flight. -/
theorem Sound.stamps {state : StoreState} (sound : Sound state) {item stamp clock : Nat}
    (existing : item < state.allocated) (later : state.clock ≤ clock) (past : stamp ≤ clock)
    (apart : ∀ other time, state.loop.inFlight = some (other, time) → other ≠ item) :
    Sound { state with stamps := Function.update state.stamps item stamp, clock } :=
  { sound with
    past := by
      intro other
      have pastOther := sound.past other
      simp only [Function.update_apply]
      split_ifs <;> omega
    unused := by
      intro other fresh
      have distinct : other ≠ item := by
        dsimp only at fresh
        omega
      simp only [Function.update_apply, distinct, if_false]
      exact sound.unused other fresh
    inFlight := by
      intro other time flying
      obtain ⟨above, bound⟩ := sound.inFlight other time flying
      simp only [Function.update_apply, apart other time flying, if_false]
      exact ⟨above, Nat.le_trans bound later⟩ }

/-- What is in flight belongs to an item of the loop. -/
theorem Sound.flying_lt {state : StoreState} (sound : Sound state) {item time : Nat}
    (flying : state.loop.inFlight = some (item, time)) : item < state.allocated := by
  apply sound.looped
  cases phase : state.loop <;> simp_all [Loop.inFlight, Loop.items]

/-- `Sound` is kept by every step. -/
theorem Sound.step {state next : StoreState} {label : StoreLabel} (sound : Sound state)
    (transition : StoreStep state label next) : Sound next := by
  cases transition with
  | call =>
      refine { sound with held := ?_ }
      intro caller member item holds
      rcases List.mem_append.mp member with old | new
      · exact sound.held caller old item holds
      · obtain rfl := List.mem_singleton.mp new
        cases holds
  | skip at_ _ => exact sound.calls at_ (by simp [Caller.items])
  | fetchOk at_ _ =>
      have apart : ∀ other time, state.loop.inFlight = some (other, time) →
          other ≠ state.allocated := fun _ _ flying => Nat.ne_of_lt (sound.flying_lt flying)
      exact (sound.allocates.stamps (Nat.lt_succ_self _) (Nat.le_succ _) (Nat.le_refl _) apart).calls
        at_ (by simp [Caller.items])
  | fetchFailed at_ _ => exact sound.allocates.calls at_ (by simp [Caller.items])
  | @publish before after key item calls at_ =>
      have existing : item < state.allocated :=
        sound.held (.publishing key item calls) (by rw [at_]; simp) item (by simp [Caller.items])
      refine (sound.writes key ?_).calls at_ (by simp [Caller.items])
      rintro _ ⟨⟩
      exact existing
  | remove at_ => exact (sound.writes _ (by simp)).calls at_ (by simp [Caller.items])
  | load at_ =>
      refine (sound.allocates.writes _ ?_).loops (by simp [Loop.items]) rfl
      rintro _ ⟨⟩
      exact Nat.lt_succ_self _
  | loaded _ => exact sound.loops (by simp [Loop.items]) rfl
  | copy at_ _ present =>
      refine { sound with
        looped := ?_
        inFlight := by simp [Loop.inFlight] }
      intro other member
      rcases List.mem_cons.mp member with rfl | old
      · exact sound.mapped _ _ present
      · exact sound.looped other (by rwa [at_])
  | snapshot at_ =>
      refine sound.loops ?_ rfl
      rw [at_]
      simp [Loop.items]
  | refreshOk at_ =>
      refine { sound with
        past := fun item => Nat.le_succ_of_le (sound.past item)
        looped := ?_
        inFlight := ?_ }
      · intro item member
        refine sound.looped item ?_
        rw [at_]
        simp only [Loop.items, List.map_append, List.map_cons, List.mem_append,
          List.mem_cons] at member ⊢
        tauto
      · rintro item stamp ⟨⟩
        exact ⟨Nat.le_succ_of_le (sound.past _), Nat.le_refl _⟩
  | refreshFailed at_ =>
      refine sound.loops (fun item member => ?_) rfl
      rw [at_]
      simp only [Loop.items, List.map_append, List.map_cons, List.mem_append,
        List.mem_cons] at member ⊢
      tauto
  | @store copied todo item stamp at_ =>
      have flying : state.loop.inFlight = some (item, stamp) := by rw [at_]; rfl
      have landed : Sound { state with loop := .refreshing copied todo } := by
        refine sound.loops (fun other member => ?_) rfl
        rw [at_]
        exact List.mem_cons_of_mem _ member
      exact landed.stamps (sound.flying_lt flying) (Nat.le_refl _) (sound.inFlight item stamp flying).2
        (fun other time again => by cases again)
  | refreshed at_ =>
      refine sound.loops ?_ rfl
      rw [at_]
      simp [Loop.items]
  | visit at_ _ _ => exact sound.loops (fun item member => at_ ▸ member) rfl
  | @assign copied visited key item at_ found =>
      refine (sound.writes key ?_).loops (fun item member => at_ ▸ member) rfl
      rintro _ ⟨⟩
      refine sound.looped item ?_
      rw [at_]
      exact mem_of_lookup found
  | passOver at_ _ => exact sound.loops (fun item member => at_ ▸ member) rfl
  | sleep _ => exact sound.loops (by simp [Loop.items]) rfl

/-! ### What a step does to the fetch times -/

theorem fetchTime_eq_some_iff {state : StoreState} {key : String} {time : Nat} :
    state.fetchTime key = some time ↔
      ∃ item, state.map key = some item ∧ state.stamps item = time := by
  simp [StoreState.fetchTime]

theorem neverEarlier_of_same {state next : StoreState} (map : next.map = state.map)
    (stamps : next.stamps = state.stamps) : NeverEarlier state next := by
  intro key earlier later before after
  have same : next.fetchTime key = state.fetchTime key := by
    simp only [StoreState.fetchTime, map, stamps]
  rw [same, before] at after
  exact Nat.le_of_eq (Option.some.inj after)

/-- An item stamped in place with a later time never lowers a fetch time. -/
theorem neverEarlier_of_stamped {state next : StoreState} {item stamp : Nat}
    (map : next.map = state.map) (stamps : next.stamps = Function.update state.stamps item stamp)
    (later : state.stamps item ≤ stamp) : NeverEarlier state next := by
  intro key earlier later' before after
  obtain ⟨held, entry, rfl⟩ := fetchTime_eq_some_iff.mp before
  obtain ⟨held', entry', rfl⟩ := fetchTime_eq_some_iff.mp after
  rw [map, entry] at entry'
  obtain rfl := Option.some.inj entry'
  rw [stamps, Function.update_apply]
  split_ifs with same
  · rwa [same]
  · exact Nat.le_refl _

theorem neverEarlier_of_removed {state next : StoreState} {key : String}
    (map : next.map = Function.update state.map key none) (stamps : next.stamps = state.stamps) :
    NeverEarlier state next := by
  intro other earlier later before after
  obtain ⟨held, entry, rfl⟩ := fetchTime_eq_some_iff.mp before
  obtain ⟨held', entry', rfl⟩ := fetchTime_eq_some_iff.mp after
  rw [map, Function.update_apply] at entry'
  split_ifs at entry'
  rw [entry] at entry'
  obtain rfl := Option.some.inj entry'
  exact Nat.le_of_eq (congrFun stamps _).symm

/-- An entry that is written lowers no fetch time exactly when its item renews the key. -/
theorem neverEarlier_written_iff {state next : StoreState} {key : String} {item : Nat}
    (map : next.map = Function.update state.map key (some item))
    (stamps : next.stamps = state.stamps) : NeverEarlier state next ↔ state.Renews key item := by
  have written : next.fetchTime key = some (state.stamps item) := by
    simp [StoreState.fetchTime, map, stamps]
  constructor
  · intro never held entry
    have before : state.fetchTime key = some (state.stamps held) :=
      fetchTime_eq_some_iff.mpr ⟨held, entry, rfl⟩
    exact never key _ _ before written
  · intro renews other earlier later before after
    by_cases same : other = key
    · subst same
      obtain ⟨held, entry, rfl⟩ := fetchTime_eq_some_iff.mp before
      obtain rfl := Option.some.inj (written.symm.trans after)
      exact renews held entry
    · have unchanged : next.fetchTime other = state.fetchTime other := by
        simp [StoreState.fetchTime, map, stamps, same]
      rw [unchanged, before] at after
      exact Nat.le_of_eq (Option.some.inj after)

/-- A step lowers no fetch time exactly when it overwrites an entry only by an item fetched
no earlier. -/
theorem neverEarlier_iff {state next : StoreState} {label : StoreLabel} (sound : Sound state)
    (transition : StoreStep state label next) :
    NeverEarlier state next ↔ WritesRenew state label := by
  cases transition with
  | publish _ => exact neverEarlier_written_iff rfl rfl
  | assign _ _ => exact neverEarlier_written_iff rfl rfl
  | @load item items _ =>
      have written := @neverEarlier_written_iff state
        { state with
          map := Function.update state.map item.key (some state.allocated)
          allocated := state.allocated + 1
          loop := .loading items } item.key state.allocated rfl rfl
      refine written.trans ?_
      simp only [StoreState.Renews, sound.unused _ (Nat.le_refl _), Nat.le_zero, WritesRenew]
  | remove _ => exact iff_of_true (neverEarlier_of_removed rfl rfl) trivial
  | fetchOk _ _ =>
      refine iff_of_true (neverEarlier_of_stamped rfl rfl ?_) trivial
      rw [sound.unused _ (Nat.le_refl _)]
      exact Nat.zero_le _
  | store at_ =>
      refine iff_of_true (neverEarlier_of_stamped rfl rfl ?_) trivial
      exact (sound.inFlight _ _ (by rw [at_]; rfl)).1
  | _ => exact iff_of_true (neverEarlier_of_same rfl rfl) trivial

/-! ### Whole runs -/

theorem sound_of_reachable {state : StoreState} (reachable : tokenStore.Reachable state) :
    Sound state := by
  have initial : ∀ {state}, tokenStore.Initial state → Sound state := Sound.initial
  have preserved : ∀ {state label next}, Sound state → tokenStore.Step state label next →
      Sound next := Sound.step
  exact reachable.invariant initial preserved

end MessagePusher.TokenStore
