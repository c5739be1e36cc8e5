import MessagePusher.Semantics.Transition
import MessagePusher.Store.Coverage
import MessagePusher.Controller.Channel
import MessagePusher.Controller.UserEffects

/-!
# The credentials in the token store

The store beside the tables of users and channels, one request at a time. `Covered`
says that the store holds the credentials of exactly the channels that need them:
those of enabled owners with complete credentials. For each request there is an exact
condition on the state before it; what the store does wrong is what these exclude.
-/

namespace MessagePusher.TokenStore

open Common Model Store Channel Controller Semantics

/-- The tables, and the item under each key of the store. -/
structure CredentialState where
  users : Users
  channels : Channels
  store : String → Option TokenStoreItem

def applyCall (store : String → Option TokenStoreItem) :
    StoreCall → String → Option TokenStoreItem
  | .addItem item =>
      if item.isFilled then Function.update store item.key (some item) else store
  | .removeItem item => Function.update store item.key none

def runCalls (store : String → Option TokenStoreItem) (calls : List StoreCall) :
    String → Option TokenStoreItem :=
  calls.foldl applyCall store

/-- The calls that a user handler asks for. -/
def userCalls (channels : Channels) : Option TokenStoreCall → List StoreCall
  | none => []
  | some (.addUser userId) => tokenStoreAddUser channels userId
  | some (.removeUser userId) =>
      tokenStoreRemoveUser (TokenStoreItem.isShared channels) channels userId

/-- The requests that change what the store should hold. -/
inductive CredentialLabel where
  | addChannel (env : ChannelEnvironment) (userId : Int) (body : Option Json)
  | updateChannel (env : ChannelEnvironment) (userId : Int) (statusOnly : String)
      (body : Option Json)
  | deleteChannel (userId : Int) (idParam : String)
  | manageUser (env : UserEnvironment) (myRole : Int) (body : Option Json)
  | deleteUser (myRole : Int) (idParam : String)
  | deleteSelf (userId : Int)

def CredentialState.afterChannel (state : CredentialState) (handled : ChannelHandled) :
    CredentialState :=
  { state with channels := handled.channels, store := runCalls state.store handled.calls }

def CredentialState.afterUser (state : CredentialState) (handled : Handled) : CredentialState :=
  { state with
    users := handled.users
    store := runCalls state.store (userCalls state.channels handled.tokenStore) }

def CredentialState.serve (state : CredentialState) : CredentialLabel → CredentialState
  | .addChannel env userId body =>
      state.afterChannel (addChannel env userId body state.channels)
  | .updateChannel env userId statusOnly body =>
      state.afterChannel (updateChannel env userId statusOnly body state.channels)
  | .deleteChannel userId idParam =>
      state.afterChannel (deleteChannel userId idParam state.channels)
  | .manageUser env myRole body => state.afterUser (manageUser env myRole body state.users)
  | .deleteUser myRole idParam => state.afterUser (deleteUser myRole idParam state.users)
  | .deleteSelf userId => state.afterUser (deleteSelf userId state.users)

/-- Any tables, and the store as `TokenStoreInit` fills it. -/
def credentials : System CredentialState CredentialLabel where
  Initial state :=
    state.store = putAll TokenStoreItem.key (fun _ => none) (tokenStoreInitItems state.channels)
  Step state label next := next = state.serve label

/-! ### What the store should hold -/

def OwnerEnabled (users : Users) (row : Model.Channel) : Prop :=
  ∃ owner, users.rowAt row.userId = some owner ∧ owner.status = userStatusEnabled

/-- The channel is of a token store type, its owner is enabled and `item` are its complete
credentials. -/
def Needs (users : Users) (row : Model.Channel) (item : TokenStoreItem) : Prop :=
  OwnerEnabled users row ∧ channel2item row = some item ∧ item.isFilled = true

/-- Every channel that needs its credentials finds them in the store, and every key of the
store is the key of such a channel. -/
structure Covered (state : CredentialState) : Prop where
  stored : ∀ row ∈ state.channels.rows, ∀ item, Needs state.users row item →
    state.store item.key = some item
  needed : ∀ key, (state.store key).isSome → ∃ row ∈ state.channels.rows, ∃ item,
    Needs state.users row item ∧ item.key = key

/-- Some channel needs the item. -/
def Live (users : Users) (channels : Channels) (item : TokenStoreItem) : Prop :=
  ∃ row ∈ channels.rows, Needs users row item

theorem covered_iff {state : CredentialState} :
    Covered state ↔ Covers TokenStoreItem.key state.store (Live state.users state.channels) := by
  constructor
  · intro covered at_ item
    constructor
    · intro found
      obtain ⟨row, member, other, needs, same⟩ := covered.needed at_ (by simp [found])
      have stored := covered.stored row member other needs
      rw [same, found] at stored
      obtain rfl := Option.some.inj stored
      exact ⟨⟨row, member, needs⟩, same⟩
    · rintro ⟨⟨row, member, needs⟩, rfl⟩
      exact covered.stored row member item needs
  · intro covers
    constructor
    · intro row member item needs
      exact (covers item.key item).mpr ⟨⟨row, member, needs⟩, rfl⟩
    · intro at_ present
      obtain ⟨item, found⟩ := Option.isSome_iff_exists.mp present
      obtain ⟨⟨row, member, needs⟩, same⟩ := (covers at_ item).mp found
      exact ⟨row, member, item, needs, same⟩

/-- `channel2item` answers an item for the two token store types only. -/
theorem checkType_of_channel2item {row : Model.Channel} {item : TokenStoreItem}
    (found : channel2item row = some item) : checkTokenStoreChannelType row.type = true := by
  unfold channel2item at found
  split_ifs at found with test corp
  · simp [checkTokenStoreChannelType, test]
  · simp [checkTokenStoreChannelType, corp]

/-! ### The calls as drops and puts -/

theorem runCalls_eq (store : String → Option TokenStoreItem) (drops adds : List TokenStoreItem) :
    runCalls store (drops.map .removeItem ++ adds.map .addItem) =
      putAll TokenStoreItem.key (dropAll TokenStoreItem.key store drops)
        (adds.filter TokenStoreItem.isFilled) := by
  have adding : ∀ (store : String → Option TokenStoreItem),
      runCalls store (adds.map .addItem) =
        putAll TokenStoreItem.key store (adds.filter TokenStoreItem.isFilled) := by
    induction adds with
    | nil => exact fun _ => rfl
    | cons item rest ih =>
        intro store
        refine (ih _).trans ?_
        by_cases filled : item.isFilled = true
        · simp [applyCall, putAll, filled]
        · simp [applyCall, putAll, filled]
  induction drops generalizing store with
  | nil => exact adding store
  | cons item rest ih => exact ih _

/-- A store after at most one drop and at most one put. -/
def oneCall (store : String → Option TokenStoreItem) (drop put : Option TokenStoreItem) :
    String → Option TokenStoreItem :=
  putAll TokenStoreItem.key (dropAll TokenStoreItem.key store drop.toList) put.toList

theorem runCalls_addChannel (store : String → Option TokenStoreItem) (row : Model.Channel) :
    runCalls store (tokenStoreAddChannel row) =
      oneCall store none ((channel2item row).filter TokenStoreItem.isFilled) := by
  have calls : tokenStoreAddChannel row = ([] : List TokenStoreItem).map .removeItem ++
      (channel2item row).toList.map .addItem := by
    unfold tokenStoreAddChannel
    cases found : channel2item row with
    | none => simp
    | some item => simp [checkType_of_channel2item found]
  rw [calls, runCalls_eq, oneCall, Option.toList_filter]
  rfl

theorem runCalls_removeChannel (store : String → Option TokenStoreItem)
    (shared : TokenStoreItem → Bool) (row : Model.Channel) :
    runCalls store (tokenStoreRemoveChannel shared row) =
      oneCall store ((channel2item row).filter fun item => !shared item) none := by
  have calls : tokenStoreRemoveChannel shared row =
      ((channel2item row).toList.filter fun item => !shared item).map .removeItem ++
        ([] : List TokenStoreItem).map .addItem := by
    unfold tokenStoreRemoveChannel
    cases found : channel2item row with
    | none => simp
    | some item => simp [checkType_of_channel2item found]
  rw [calls, runCalls_eq, oneCall, Option.toList_filter]
  rfl

theorem runCalls_updateChannel (store : String → Option TokenStoreItem)
    (shared : TokenStoreItem → Bool) {row oldRow : Model.Channel} {oldItem newItem : TokenStoreItem}
    (items : updatedItems row oldRow = some (oldItem, newItem)) :
    runCalls store (tokenStoreUpdateChannel shared row oldRow) =
      oneCall store (if shared oldItem then none else some oldItem)
        (if newItem.isFilled then some newItem else none) := by
  have calls : tokenStoreUpdateChannel shared row oldRow =
      (if shared oldItem then none else some oldItem).toList.map .removeItem ++
        [newItem].map .addItem := by
    simp only [tokenStoreUpdateChannel, items]
    split_ifs <;> rfl
  rw [calls, runCalls_eq, oneCall]
  congr 1
  by_cases filled : newItem.isFilled = true <;> simp [filled]

end MessagePusher.TokenStore
