import MessagePusher.Controller.DatabaseFaults
import MessagePusher.Store.Coverage

/-!
# Answers and effects

Whether an answer tells what became of the request when database steps fail. `Truthful` compares
the answer with the statements that went through and with the tables and the token store, and
`TellsTruth` is the condition on the state and the failures under which it holds.
-/

namespace MessagePusher.Controller.Failing

open Common Model Store Middleware
open Channel (StoreCall TokenStoreItem channels2items)

/-- A request to one of the nine handlers, as it comes to it. -/
inductive MutatingRequest where
  | deleteUser (myRole : Int) (idParam : String)
  | deleteSelf (id : Int)
  | manageUser (env : UserEnvironment) (myRole : Int) (body : Option Json)
  | updateUser (env : UserEnvironment) (myRole : Int) (body : Option Json)
  | emailBind (env : UserEnvironment) (id : Int) (email code : String) (timestamp : Int)
  | updateOption (body : Option Json)
  | addChannel (env : ChannelEnvironment) (userId : Int) (body : Option Json)
  | updateChannel (env : ChannelEnvironment) (userId : Int) (statusOnly : String)
      (body : Option Json)
  | deleteChannel (userId : Int) (idParam : String)

/-- What is looked at of a served request; `success` is missing for an empty body. -/
structure Outcome where
  server : Server
  wrote : List Write
  success : Option Bool

/-- The answer of a handler without its data. -/
def Served.outcome {α : Type} (done : Served α) : Outcome where
  server := done.server
  wrote := done.wrote
  success := done.reply.map Reply.success

/-- A request served while database steps fail. -/
def serve (fetch : TokenStoreItem → String) (faults : Faults) (server : Server) :
    MutatingRequest → Outcome
  | .deleteUser myRole idParam => (deleteUser fetch faults myRole idParam server).outcome
  | .deleteSelf id => (deleteSelf fetch faults id server).outcome
  | .manageUser env myRole body => (manageUser fetch faults env myRole body server).outcome
  | .updateUser env myRole body => (updateUser faults env myRole body server).outcome
  | .emailBind env id email code timestamp =>
      (emailBind faults env id email code timestamp server).outcome
  | .updateOption body => (updateOption faults body server).outcome
  | .addChannel env userId body => (addChannel fetch faults env userId body server).outcome
  | .updateChannel env userId statusOnly body =>
      (updateChannel fetch faults env userId statusOnly body server).outcome
  | .deleteChannel userId idParam => (deleteChannel fetch faults userId idParam server).outcome

/-- A channel named `email` of the user. -/
def HasEmailChannel (channels : Channels) (id : Int) : Prop :=
  ∃ row ∈ channels.rows, row.userId = id ∧ row.name = "email"

/-- The change that a request asks for has been committed. To bind an email asks for the email in
the row of the user and for a channel of that name. -/
def Committed (before : Server) (done : Outcome) : MutatingRequest → Prop
  | .deleteUser _ idParam => .deleteUser (Text.parseInt idParam).1 ∈ done.wrote
  | .deleteSelf id => .deleteUser id ∈ done.wrote
  | .manageUser _ _ body => ∃ request row,
      Json.decodeInto ManageRequest.jsonFields body {} = some request ∧
        managedRow request before.users = some row ∧
        (if request.action = "delete" then .deleteUser row.id else .updateUser row.id) ∈ done.wrote
  | .updateUser _ _ body => ∃ form, Json.decodeInto UserForm.jsonFields body {} = some form ∧
      .updateUser form.id ∈ done.wrote
  | .emailBind _ id email _ _ => .updateUser id ∈ done.wrote ∧
      (∃ row, done.server.users.rowAt id = some row ∧ row.email = email) ∧
        HasEmailChannel done.server.channels id
  | .updateOption body => ∃ key value,
      Json.decodeInto optionFields body ("", "") = some (key, value) ∧
        .saveOption key value ∈ done.wrote
  | .addChannel _ userId body => ∃ channel,
      Json.decodeInto Channel.jsonFields body {} = some channel ∧
        .insertChannel userId channel.name ∈ done.wrote
  | .updateChannel _ _ _ body => ∃ channel,
      Json.decodeInto Channel.jsonFields body {} = some channel ∧
        .updateChannel channel.id ∈ done.wrote
  | .deleteChannel _ idParam => .deleteChannel (Text.parseInt idParam).1 ∈ done.wrote

/-- The tables and the token store are as before. -/
structure Unchanged (before after : Server) : Prop where
  users : after.users = before.users
  channels : after.channels = before.channels
  options : after.options.table = before.options.table
  store : after.store = before.store

/-- A success is answered exactly for a committed change, and a failure only if nothing changed. -/
structure Truthful (before : Server) (request : MutatingRequest) (done : Outcome) : Prop where
  success_iff : done.success = some true ↔ Committed before done request
  unchanged : done.success = some false → Unchanged before done.server

/-- The items of the user that the token store functions go through, none if their query fails. -/
def storeItems (faults : Faults) (channels : Channels) (userId : Int) : List TokenStoreItem :=
  match faults .storeChannels with
  | some _ => []
  | none => channels2items (getTokenStoreChannelsByUserId channels userId)

/-- The token store needs no change. To add a user, the last filled item of the user with each key
is stored already, with the token that a fetch would get. To remove one, no item of the user is both
stored and counted as unshared. -/
def StoreReady (fetch : TokenStoreItem → String) (faults : Faults) (before : Server) :
    Option TokenStoreCall → Prop
  | none => True
  | some (.addUser userId) => ∀ key item,
      lastAt TokenStoreItem.key
          ((storeItems faults before.channels userId).filter TokenStoreItem.isFilled) key =
        some item →
      before.store key = some (item, fetch item)
  | some (.removeUser userId) =>
      ∀ entry ∈ (storeItems faults before.channels userId).zipIdx,
        isShared faults before.channels entry.1 entry.2 = false →
          before.store entry.1.key = none

/-- The condition under which an answer is truthful. A deletion of another user has to be refused.
Where a later step fails, the token store must have had nothing to do, and no deletion may have
gone through. An email is bound to a row that is there, with a channel. An option is saved, and
under its own key. -/
def TellsTruth (fetch : TokenStoreItem → String) (faults : Faults) (before : Server) :
    MutatingRequest → Prop
  | .deleteUser myRole idParam => ∀ user,
      admitDelete faults myRole idParam before.users ≠ .ok user
  | .deleteSelf id => id ≠ 0 → (faults .deleteUser).isSome →
      StoreReady fetch faults before (some (.removeUser id))
  | .manageUser _ myRole body => ∀ action row managed,
      admitManage faults myRole body before.users = .ok (action, row, managed) →
        (faults .updateUser).isSome →
          if action = "delete" then (faults .deleteUser).isSome
          else StoreReady fetch faults before managed.tokenStore
  | .emailBind env id email code _ => env.verifyCode email code = true → id ≠ 0 →
      faults .updateUser = none →
        (∃ row, before.users.rowAt id = some row ∧ (email ≠ "" ∨ row.email = "")) ∧
          (faults .insertChannel = none ∨ HasEmailChannel before.channels id)
  | .updateOption body => ∀ key value,
      Json.decodeInto optionFields body ("", "") = some (key, value) →
        refuseOption before.options.options.settings key value = none →
          faults .saveOption = none ∧
            (key = "" → "" ∉ before.options.table.keys ∧
              ((faults .firstOption).isSome ∨
                before.options.table.rows = [] ∧ (faults .createOption).isSome))
  | _ => True

/-! ### Answers -/

section Answers

variable {before : Server} {request : MutatingRequest}

/-- Without a write nothing was committed. -/
theorem not_committed_of_nothing {done : Outcome} (nothing : done.wrote = []) :
    ¬ Committed before done request := by
  cases request with
  | deleteUser => simp [Committed, nothing]
  | deleteSelf => simp [Committed, nothing]
  | manageUser => simp [Committed, nothing]
  | updateUser => simp [Committed, nothing]
  | emailBind => simp [Committed, nothing]
  | updateOption => simp [Committed, nothing]
  | addChannel => simp [Committed, nothing]
  | updateChannel => simp [Committed, nothing]
  | deleteChannel => simp [Committed, nothing]

/-- A failure before any write is truthful exactly when the server is as before. -/
theorem truthful_failed_iff {done : Outcome} (failed : done.success = some false)
    (nothing : done.wrote = []) :
    Truthful before request done ↔ Unchanged before done.server := by
  constructor
  · exact fun truthful => truthful.unchanged failed
  · intro unchanged
    refine ⟨iff_of_false ?_ (not_committed_of_nothing nothing), fun _ => unchanged⟩
    rw [failed]
    simp

/-- A success is truthful exactly when the change was committed. -/
theorem truthful_done_iff {done : Outcome} (succeeded : done.success = some true) :
    Truthful before request done ↔ Committed before done request := by
  constructor
  · exact fun truthful => truthful.success_iff.mp succeeded
  · intro committed
    refine ⟨iff_of_true succeeded committed, fun failed => ?_⟩
    rw [succeeded] at failed
    cases failed

/-- A server is unchanged while nothing is done. -/
theorem Unchanged.refl (server : Server) : Unchanged server server := ⟨rfl, rfl, rfl, rfl⟩

/-- A refusal is always truthful. -/
theorem truthful_refused {α : Type} (text : String) :
    Truthful before request (Served.refuse before text : Served α).outcome :=
  (truthful_failed_iff rfl rfl).mpr (.refl before)

/-- Only the store changed. -/
theorem unchanged_store_iff {store : String → Option (TokenStoreItem × String)} :
    Unchanged before { before with store } ↔ store = before.store :=
  ⟨Unchanged.store, fun same => ⟨rfl, rfl, rfl, same⟩⟩

end Answers

/-! ### The token store -/

section TokenStore

variable {fetch : TokenStoreItem → String} {faults : Faults} {before : Server}

/-- The key of what the store holds. -/
def entryKey (entry : TokenStoreItem × String) : String := entry.1.key

/-- What is stored for an item. -/
def entryOf (fetch : TokenStoreItem → String) (item : TokenStoreItem) : TokenStoreItem × String :=
  (item, fetch item)

/-- Removals drop the keys of their items. -/
theorem runCalls_removeItems (store : String → Option (TokenStoreItem × String))
    (items : List TokenStoreItem) :
    runCalls fetch store (items.map .removeItem) =
      dropAll entryKey store (items.map (entryOf fetch)) := by
  induction items generalizing store with
  | nil => rfl
  | cons item rest ih => exact ih _

/-- Additions put the filled items, each with its token. -/
theorem runCalls_addItems (store : String → Option (TokenStoreItem × String))
    (items : List TokenStoreItem) :
    runCalls fetch store (items.map .addItem) =
      putAll entryKey store ((items.filter TokenStoreItem.isFilled).map (entryOf fetch)) := by
  induction items generalizing store with
  | nil => rfl
  | cons item rest ih =>
      refine (ih _).trans ?_
      by_cases filled : item.isFilled = true
      · simp [applyCall, putAll, filled, entryKey, entryOf]
      · simp [applyCall, putAll, filled]

/-- A user is added by one call for each item. -/
theorem addUserCalls_eq (channels : Channels) (userId : Int) :
    addUserCalls faults channels userId = (storeItems faults channels userId).map .addItem := by
  unfold addUserCalls storeItems
  cases faults .storeChannels with
  | some text => rfl
  | none => rfl

/-- A user is removed by one call for each item that counts as unshared. -/
theorem removeUserCalls_eq (channels : Channels) (userId : Int) :
    removeUserCalls faults channels userId =
      (((storeItems faults channels userId).zipIdx.filter fun entry =>
        !isShared faults channels entry.1 entry.2).map Prod.fst).map .removeItem := by
  unfold removeUserCalls storeItems
  cases faults .storeChannels with
  | some text => rfl
  | none => rw [List.map_map]; rfl

/-- The calls of an action leave the store as it is exactly when it needs no change. -/
theorem runCalls_userCalls_iff (call : Option TokenStoreCall) :
    runCalls fetch before.store (userCalls faults before.channels call) = before.store ↔
      StoreReady fetch faults before call := by
  cases call with
  | none => exact iff_of_true rfl trivial
  | some call =>
      cases call with
      | addUser userId =>
          rw [userCalls, addUserCalls_eq, runCalls_addItems, putAll_eq_self_iff]
          refine forall_congr' fun key => ?_
          rw [lastAt_map]
          constructor
          · exact fun stored item last => stored _ (congrArg (Option.map (entryOf fetch)) last)
          · intro stored entry put
            obtain ⟨item, last, rfl⟩ := Option.map_eq_some_iff.mp put
            exact stored item last
      | removeUser userId =>
          rw [userCalls, removeUserCalls_eq, runCalls_removeItems, dropAll_eq_self_iff]
          constructor
          · intro missing entry member alone
            refine missing (entryOf fetch entry.1) (List.mem_map_of_mem (List.mem_map_of_mem ?_))
            exact List.mem_filter.mpr ⟨member, by rw [alone]; rfl⟩
          · intro missing stored put
            obtain ⟨item, dropped, rfl⟩ := List.mem_map.mp put
            obtain ⟨entry, kept, rfl⟩ := List.mem_map.mp dropped
            obtain ⟨member, alone⟩ := List.mem_filter.mp kept
            exact missing entry member (by simpa using alone)

end TokenStore

/-! ### Steps -/

section Steps

variable {faults : Faults}

/-- An update fails and changes nothing, finds no row, or writes one. -/
theorem update_spec (faults : Faults) (passwords : Passwords) (user : User)
    (updatePassword : Bool) (users : Users) :
    (∃ text, update faults passwords user updatePassword users = (users, [], some text)) ∨
      (faults .updateUser = none ∧ users.rowAt user.id = none ∧
        update faults passwords user updatePassword users = (users, [], none)) ∨
      ∃ next row hash, faults .updateUser = none ∧ users.rowAt user.id = some row ∧
        update faults passwords user updatePassword users =
          (next, [.updateUser user.id], none) ∧
        users.Rewrites next user.id (some ({ user with password := hash }.applyNonZero row)) := by
  unfold update
  cases fault : faults .updateUser with
  | some text => exact .inl ⟨_, rfl⟩
  | none =>
      have outcome := user.update_result passwords updatePassword users
      cases result : user.update passwords updatePassword users with
      | mk next failure =>
          rw [result] at outcome
          rcases outcome with ⟨same, missing⟩ | ⟨row, hash, done, found, writes⟩
          · obtain rfl : next = users := same
            cases failure with
            | some text => exact .inl ⟨text, rfl⟩
            | none =>
                have absent := missing rfl
                exact .inr (.inl ⟨rfl, absent, by simp [absent]⟩)
          · obtain rfl : failure = none := done
            exact .inr (.inr ⟨next, row, hash, rfl, found, by simp [found], writes⟩)

/-- A failing statement is an error. -/
theorem update_failed {failure : String} (fault : faults .updateUser = some failure)
    (passwords : Passwords) (user : User) (updatePassword : Bool) (users : Users) :
    ∃ text, update faults passwords user updatePassword users = (users, [], some text) := by
  unfold update
  rw [fault]
  exact ⟨_, rfl⟩

/-- The update of a struct that keeps the name goes through where the statement does. -/
theorem update_accepted (passwords : Passwords) {user : User} (users : Users)
    (sound : faults .updateUser = none) (identified : user.id ≠ 0)
    (named : ∀ row, users.rowAt user.id = some row →
      user.username = "" ∨ user.username = row.username) :
    (users.rowAt user.id = none ∧ update faults passwords user false users = (users, [], none)) ∨
      ∃ next row hash, users.rowAt user.id = some row ∧
        update faults passwords user false users = (next, [.updateUser user.id], none) ∧
        users.Rewrites next user.id (some ({ user with password := hash }.applyNonZero row)) := by
  rcases update_spec faults passwords user false users with
    ⟨text, failed⟩ | ⟨-, absent, done⟩ | ⟨next, row, hash, -, found, done, writes⟩
  · have accepted := User.update_accepted passwords identified named
    unfold update at failed
    rw [sound] at failed
    cases result : user.update passwords false users with
    | mk next failure =>
        rw [result] at failed accepted
        obtain rfl : failure = none := accepted
        cases congrArg (fun outcome => outcome.2.2) failed
  · exact .inl ⟨absent, done⟩
  · exact .inr ⟨next, row, hash, found, done, writes⟩

/-- Loading a user goes through for a row that is there. -/
theorem getUserById_row {users : Users} {id : Int} {user : User}
    (loaded : getUserById faults users id false = .ok user) :
    id ≠ 0 ∧ user.id = id ∧ ∃ row, users.rowAt id = some row := by
  have model : Model.getUserById users id false = .ok user := by
    unfold getUserById query at loaded
    split_ifs at loaded with early
    · exact loaded
    · cases fault : faults .firstUser with
      | some text =>
          rw [fault] at loaded
          cases loaded
      | none =>
          rw [fault] at loaded
          exact loaded
  obtain ⟨identified, row, found, -⟩ := getUserById_ok model
  exact ⟨identified, getUserById_id model, row, found⟩

/-- The user that a request without errors is about. An ignored failure leaves all but the id
blank. -/
theorem fillUserById_visible (faults : Faults) {id : Int} (identified : id ≠ 0) (users : Users) :
    ∃ user, fillUserById (visible faults .firstUser users) { id } = .ok user ∧ user.id = id ∧
      ∀ row, users.rowAt id = some row → user.username = "" ∨ user.username = row.username := by
  have filled : fillUserById (visible faults .firstUser users) { id } =
      .ok (((visible faults .firstUser users).rowAt id).getD { id }) := if_neg identified
  refine ⟨_, filled, fillUserById_id filled, ?_⟩
  intro row found
  unfold visible
  cases faults .firstUser with
  | some text => exact .inl rfl
  | none =>
      dsimp only
      rw [found]
      exact .inr rfl

/-- The user to delete has the id of the request. -/
theorem admitDelete_row {myRole : Int} {idParam : String} {users : Users} {user : User}
    (admitted : admitDelete faults myRole idParam users = .ok user) :
    user.id = (Text.parseInt idParam).1 ∧ user.id ≠ 0 := by
  unfold admitDelete at admitted
  cases parsed : Text.atoi idParam with
  | error text => simp [parsed, bind, Except.bind] at admitted
  | ok id =>
      have value := Text.atoi_ok parsed
      cases loaded : getUserById faults users id false with
      | error text => simp [parsed, loaded, bind, Except.bind] at admitted
      | ok origin =>
          simp only [parsed, loaded, bind, Except.bind, pure, Except.pure] at admitted
          split_ifs at admitted
          obtain rfl := Except.ok.inj admitted
          obtain ⟨identified, key, -⟩ := getUserById_row loaded
          rw [value, key]
          exact ⟨rfl, identified⟩

/-- The row that `ManageUser` is applied to, and the request. -/
theorem admitManage_row {users : Users} {myRole : Int} {body : Option Json} {action : String}
    {row : User} {managed : Managed}
    (admitted : admitManage faults myRole body users = .ok (action, row, managed)) :
    (∃ request, Json.decodeInto ManageRequest.jsonFields body {} = some request ∧
        request.action = action ∧ managedRow request users = some row) ∧
      row.id ≠ 0 ∧ users.rowAt row.id = some row ∧ ManageEffect myRole row action managed := by
  unfold admitManage visible at admitted
  cases fault : faults .firstUser with
  | some text =>
      rw [fault] at admitted
      obtain ⟨-, -, found, -⟩ := admitManage_ok admitted
      cases found
  | none =>
      rw [fault] at admitted
      obtain ⟨asked, identified, found, -, effect⟩ := admitManage_ok admitted
      exact ⟨asked, identified, found, effect⟩

/-- The struct that `UpdateUser` writes has the id of the request, and its row is there. -/
theorem admitUpdate_row {myRole : Int} {body : Option Json} {users : Users} {user : User}
    (admitted : admitUpdate faults myRole body users = .ok user) :
    ∃ form, Json.decodeInto UserForm.jsonFields body {} = some form ∧ user.id = form.id ∧
      ∃ row, users.rowAt user.id = some row := by
  unfold admitUpdate at admitted
  cases decoded : Json.decodeInto UserForm.jsonFields body {} with
  | none => simp [decoded, bind, Except.bind] at admitted
  | some form =>
      simp only [decoded, bind, Except.bind, pure, Except.pure] at admitted
      by_cases unset : form.id = 0
      · simp [unset] at admitted
      · simp only [unset, if_false] at admitted
        cases invalid : (withPlaceholder form).validate with
        | some text => simp [invalid] at admitted
        | none =>
            simp only [invalid] at admitted
            cases loaded : getUserById faults users (withPlaceholder form).id false with
            | error text => simp [loaded] at admitted
            | ok origin =>
                simp only [loaded] at admitted
                split_ifs at admitted
                obtain rfl := Except.ok.inj admitted
                exact ⟨form, rfl, rfl, (getUserById_row loaded).2.2⟩

/-- A deletion fails with its statement, or goes through whether a row is there or not. -/
theorem deleteUserById_spec (faults : Faults) {id : Int} (identified : id ≠ 0) (users : Users) :
    (∃ text, faults .deleteUser = some text ∧
        deleteUserById faults id users = (users, [], some text)) ∨
      (faults .deleteUser = none ∧
        deleteUserById faults id users = (users.delete id, [.deleteUser id], none)) := by
  unfold deleteUserById
  rw [if_neg identified]
  cases faults .deleteUser with
  | some text => exact .inl ⟨text, rfl, rfl⟩
  | none => exact .inr ⟨rfl, rfl⟩

/-- After an insertion that does not fail the user has a channel of that name, a new one or the one
that was in the way. -/
theorem insertChannel_email (timestamp : Int) (user : User) (channels : Channels) :
    HasEmailChannel (insertChannel faults (emailChannel user timestamp) channels).1 user.id ↔
      faults .insertChannel = none ∨ HasEmailChannel channels user.id := by
  unfold insertChannel
  cases fault : faults .insertChannel with
  | some text => simp
  | none =>
      refine iff_of_true ?_ (.inl rfl)
      dsimp only
      have cases := (emailChannel user timestamp).insert_cases channels
      cases result : (emailChannel user timestamp).insert channels with
      | mk next outcome =>
          rw [result] at cases
          have present : HasEmailChannel next user.id := by
            rcases cases with ⟨same, refused⟩ | ⟨stored, fields, writes, -, -⟩
            · obtain rfl : next = channels := same
              rw [Table.insertable_iff_of_unset (by rfl)] at refused
              push Not at refused
              obtain ⟨row, member, clashes⟩ := refused
              have both : "email" = row.name ∧ user.id = row.userId :=
                of_decide_eq_true (eq_true_of_ne_false clashes)
              exact ⟨row, member, both.2.symm, both.1.symm⟩
            · refine ⟨stored, Table.rowAt_mem writes.at_key, ?_⟩
              rw [fields]
              exact ⟨rfl, rfl⟩
          cases outcome with
          | error text => exact present
          | ok stored => exact present

/-- An insertion fails and changes nothing, or writes the row that it answers. -/
theorem insertChannel_spec (faults : Faults) (channel : Model.Channel) (channels : Channels) :
    (∃ text, insertChannel faults channel channels = (channels, [], .error text)) ∨
      ∃ next stored, insertChannel faults channel channels =
          (next, [.insertChannel channel.userId channel.name], .ok stored) ∧
        channels.Rewrites next stored.id (some stored) := by
  unfold insertChannel Channel.insert
  cases faults .insertChannel with
  | some text => exact .inl ⟨text, rfl⟩
  | none =>
      cases inserted : Table.insert channels channel.withDefaults with
      | none => exact .inl ⟨_, rfl⟩
      | some pair => exact .inr ⟨pair.1, pair.2, rfl, Table.rewrites_insert inserted⟩

/-- An insertion of a channel writes no user. -/
theorem not_updateUser_insertChannel {channel : Model.Channel} {channels : Channels} {id : Int} :
    .updateUser id ∉ (insertChannel faults channel channels).2.1 := by
  rcases insertChannel_spec faults channel channels with
    ⟨text, failed⟩ | ⟨next, stored, done, -⟩
  · rw [failed]
    exact List.not_mem_nil
  · rw [done]
    simp

/-- An update of a channel fails and changes nothing, or writes its row. -/
theorem updateChannelRow_spec (faults : Faults) (channel : Model.Channel) (channels : Channels) :
    (∃ text, updateChannelRow faults channel channels = (channels, [], some text)) ∨
      ∃ next, updateChannelRow faults channel channels =
          (next, [.updateChannel channel.id], none) ∧
        Table.update channels channel.id channel.applySelected = some next := by
  unfold updateChannelRow Channel.update
  cases faults .updateChannel with
  | some text => exact .inl ⟨text, rfl⟩
  | none =>
      by_cases unset : channel.id = 0
      · exact .inl ⟨missingWhereClause, by rw [if_pos unset]⟩
      · rw [if_neg unset]
        cases Table.update channels channel.id channel.applySelected with
        | none => exact .inl ⟨_, rfl⟩
        | some next => exact .inr ⟨next, rfl, rfl⟩

/-- Loading a channel goes through for one that is there. -/
theorem getChannelById_loaded {channels : Channels} {id userId : Int} {selectAll : Bool}
    {channel : Model.Channel}
    (loaded : getChannelById faults channels id userId selectAll = .ok channel) :
    Model.getChannelById channels id userId selectAll = .ok channel := by
  unfold getChannelById query at loaded
  split_ifs at loaded
  · exact loaded
  · cases fault : faults .firstChannel with
    | some text =>
        rw [fault] at loaded
        cases loaded
    | none =>
        rw [fault] at loaded
        exact loaded

/-- The row that is added is made of the body. -/
theorem admitAddChannel_form {env : ChannelEnvironment} {userId : Int} {body : Option Json}
    {channels : Channels} {row : Model.Channel}
    (admitted : admitAddChannel faults env userId body channels = .ok row) :
    ∃ channel, Json.decodeInto Channel.jsonFields body {} = some channel ∧
      row = addedChannel env userId channel := by
  unfold admitAddChannel at admitted
  cases decoded : Json.decodeInto Channel.jsonFields body {} with
  | none => simp [decoded, bind, Except.bind] at admitted
  | some channel =>
      simp only [decoded, bind, Except.bind, pure, Except.pure] at admitted
      split_ifs at admitted
      cases counted : channelNameExists faults channels channel.name userId with
      | error text => simp [counted, Except.mapError] at admitted
      | ok taken =>
          cases taken with
          | true => simp [counted, Except.mapError] at admitted
          | false =>
              simp only [counted, Except.mapError, Bool.false_eq_true, if_false,
                Except.ok.injEq] at admitted
              exact ⟨channel, rfl, admitted.symm⟩

/-- The row that is updated has the id of the body. -/
theorem admitUpdateChannel_id {env : ChannelEnvironment} {userId : Int} {statusOnly : String}
    {body : Option Json} {channels : Channels} {row oldRow : Model.Channel}
    (admitted : admitUpdateChannel faults env userId statusOnly body channels =
      .ok (row, oldRow)) :
    ∃ channel, Json.decodeInto Channel.jsonFields body {} = some channel ∧
      row.id = channel.id := by
  unfold admitUpdateChannel at admitted
  cases decoded : Json.decodeInto Channel.jsonFields body {} with
  | none => simp [decoded, bind, Except.bind] at admitted
  | some channel =>
      simp only [decoded, bind, Except.bind, pure, Except.pure] at admitted
      cases loaded : getChannelById faults channels channel.id userId true with
      | error text => simp [loaded] at admitted
      | ok old =>
          have key : old.id = channel.id := getChannelById_id (getChannelById_loaded loaded)
          refine ⟨channel, rfl, ?_⟩
          simp only [loaded] at admitted
          split_ifs at admitted
          · cases admitted
            exact key
          · cases counted : channelNameExists faults channels channel.name userId with
            | error text => simp [counted, Except.mapError] at admitted
            | ok taken =>
                cases taken with
                | true => simp [counted, Except.mapError] at admitted
                | false =>
                    simp only [counted, Except.mapError, Bool.false_eq_true, if_false,
                      Except.ok.injEq, Prod.mk.injEq] at admitted
                    rw [← admitted.1]
                    exact key
          · cases admitted
            exact key

/-- A deletion of a channel fails and changes nothing, or takes its row away. -/
theorem deleteChannelById_spec (faults : Faults) (channels : Channels) (id userId : Int) :
    (∃ text, deleteChannelById faults channels id userId = (channels, [], .error text)) ∨
      ∃ row, deleteChannelById faults channels id userId =
        (channels.delete id, [.deleteChannel id], .ok row) := by
  unfold deleteChannelById
  cases loaded : getChannelById faults channels id userId true with
  | error text => exact .inl ⟨text, rfl⟩
  | ok row =>
      have key : row.id = id := getChannelById_id (getChannelById_loaded loaded)
      cases faults .deleteChannel with
      | some text => exact .inl ⟨text, rfl⟩
      | none =>
          rw [← key]
          exact .inr ⟨row, rfl⟩

end Steps

/-! ### The user handlers -/

section Users

variable (fetch : TokenStoreItem → String) (faults : Faults) (before : Server)

/-- The branches of `DeleteUser` are the wrong way round, so only a refusal is truthful. -/
theorem truthful_deleteUser_iff (myRole : Int) (idParam : String) :
    Truthful before (.deleteUser myRole idParam)
        (serve fetch faults before (.deleteUser myRole idParam)) ↔
      TellsTruth fetch faults before (.deleteUser myRole idParam) := by
  rw [serve, deleteUser]
  cases admitted : admitDelete faults myRole idParam before.users with
  | error text =>
      refine iff_of_true (truthful_refused text) fun user there => ?_
      rw [admitted] at there
      cases there
  | ok user =>
      obtain ⟨key, identified⟩ := admitDelete_row admitted
      refine iff_of_false ?_ fun refused => refused user admitted
      dsimp only
      rcases deleteUserById_spec faults identified before.users with
        ⟨text, -, failed⟩ | ⟨-, deleted⟩
      · rw [failed]
        intro truthful
        exact not_committed_of_nothing rfl (truthful.success_iff.mp rfl)
      · rw [deleted]
        intro truthful
        have committed : Write.deleteUser (Text.parseInt idParam).1 ∈ [Write.deleteUser user.id] := by
          rw [key]
          exact List.mem_singleton_self _
        exact absurd (truthful.success_iff.mpr committed) (by simp [Served.outcome])

/-- The token store of `DeleteSelf` has been called when the deletion fails. -/
theorem truthful_deleteSelf_iff (id : Int) :
    Truthful before (.deleteSelf id) (serve fetch faults before (.deleteSelf id)) ↔
      TellsTruth fetch faults before (.deleteSelf id) := by
  rw [serve, deleteSelf]
  by_cases unset : id = 0
  · have refused : fillUserById (visible faults .firstUser before.users) { id } =
        .error "id 为空！" := if_pos unset
    rw [refused]
    exact iff_of_true (truthful_refused _) fun identified => absurd unset identified
  · cases filled : fillUserById (visible faults .firstUser before.users) { id } with
    | error text =>
        unfold fillUserById at filled
        rw [if_neg unset] at filled
        cases filled
    | ok user =>
        have key : user.id = id := fillUserById_id filled
        dsimp only
        rw [key]
        rcases deleteUserById_spec faults unset before.users with
          ⟨text, fault, failed⟩ | ⟨sound, deleted⟩
        · rw [failed]
          refine (truthful_failed_iff rfl rfl).trans (unchanged_store_iff.trans ?_)
          refine (runCalls_userCalls_iff (some (.removeUser id))).trans ?_
          exact ⟨fun ready _ _ => ready, fun holds => holds unset (by rw [fault]; rfl)⟩
        · rw [deleted]
          refine iff_of_true ((truthful_done_iff rfl).mpr (List.mem_singleton_self _)) ?_
          intro _ fault
          rw [sound] at fault
          cases fault

section ManageUser

variable {fetch faults before} {env : UserEnvironment} {myRole : Int} {body : Option Json}
  {action : String} {row : User} {managed : Managed}

/-- The condition on `ManageUser` is about the one row that it is applied to. -/
theorem tellsTruth_manageUser_iff
    (admitted : admitManage faults myRole body before.users = .ok (action, row, managed)) :
    TellsTruth fetch faults before (.manageUser env myRole body) ↔
      ((faults .updateUser).isSome → if action = "delete" then (faults .deleteUser).isSome
        else StoreReady fetch faults before managed.tokenStore) := by
  refine ⟨fun holds => holds _ _ _ admitted, fun holds action row managed there => ?_⟩
  rw [admitted] at there
  cases there
  exact holds

/-- The row that the request names is deleted or updated. -/
theorem committed_manageUser_iff
    (admitted : admitManage faults myRole body before.users = .ok (action, row, managed))
    (done : Outcome) :
    Committed before done (.manageUser env myRole body) ↔
      (if action = "delete" then .deleteUser row.id else .updateUser row.id) ∈ done.wrote := by
  obtain ⟨⟨request, decoded, rfl, named⟩, -⟩ := admitManage_row admitted
  refine ⟨?_, fun wrote => ⟨request, row, decoded, named, wrote⟩⟩
  rintro ⟨_, _, again, also, wrote⟩
  rw [decoded] at again
  cases again
  rw [named] at also
  cases also
  exact wrote

/-- After a deletion the update finds no row, and an error of it hides the deletion. -/
theorem truthful_manageUser_deletes_iff
    (admitted : admitManage faults myRole body before.users = .ok (action, row, managed))
    (deletes : managed.deletes = true) :
    Truthful before (.manageUser env myRole body)
        (serve fetch faults before (.manageUser env myRole body)) ↔
      ((faults .updateUser).isSome → (faults .deleteUser).isSome) := by
  obtain ⟨-, identified, -, effect⟩ := admitManage_row admitted
  obtain ⟨key, -⟩ := effect.written
  have committed := @committed_manageUser_iff _ _ env _ _ _ _ _ admitted
  rw [if_pos (effect.deletes_iff.mp deletes)] at committed
  rw [serve, manageUser, admitted]
  dsimp only
  rw [if_pos deletes, key]
  rcases deleteUserById_spec faults identified before.users with
    ⟨text, fault, failed⟩ | ⟨sound, deleted⟩
  · rw [failed]
    refine iff_of_true ((truthful_failed_iff rfl rfl).mpr ⟨rfl, rfl, rfl, rfl⟩) fun _ => ?_
    rw [fault]
    rfl
  · rw [deleted, sound]
    have gone : (before.users.delete row.id).rowAt row.id = none := by
      rw [Table.rowAt_delete, if_pos rfl]
    dsimp only
    unfold updateManaged
    cases fault : faults .updateUser with
    | some text =>
        obtain ⟨text, failed⟩ := update_failed fault env.passwords managed.user false
          (before.users.delete row.id)
        rw [failed]
        refine iff_of_false (fun truthful => ?_) fun holds => by cases holds rfl
        have wrote := truthful.success_iff.mpr ((committed _).mpr (List.mem_singleton_self _))
        cases wrote
    | none =>
        have accepted := update_accepted env.passwords (before.users.delete row.id) fault
          (key ▸ identified) fun other there => by
            rw [key, gone] at there
            cases there
        rcases accepted with ⟨-, done⟩ | ⟨_, other, _, there, -⟩
        · rw [done]
          exact iff_of_true
            ((truthful_done_iff rfl).mpr ((committed _).mpr (List.mem_singleton_self _)))
            fun failed => by cases failed
        · rw [key, gone] at there
          cases there

/-- Any other action updates the row, after the token store is called. -/
theorem truthful_manageUser_updates_iff
    (admitted : admitManage faults myRole body before.users = .ok (action, row, managed))
    (keeps : ¬ managed.deletes = true) :
    Truthful before (.manageUser env myRole body)
        (serve fetch faults before (.manageUser env myRole body)) ↔
      ((faults .updateUser).isSome → StoreReady fetch faults before managed.tokenStore) := by
  obtain ⟨-, identified, found, effect⟩ := admitManage_row admitted
  obtain ⟨key, name, -⟩ := effect.written
  have committed := @committed_manageUser_iff _ _ env _ _ _ _ _ admitted
  rw [if_neg fun same => keeps (effect.deletes_iff.mpr same)] at committed
  rw [serve, manageUser, admitted]
  dsimp only
  rw [if_neg keeps]
  unfold updateManaged
  cases fault : faults .updateUser with
  | some text =>
      obtain ⟨text, failed⟩ := update_failed fault env.passwords managed.user false before.users
      rw [failed]
      refine (truthful_failed_iff rfl rfl).trans (unchanged_store_iff.trans ?_)
      exact (runCalls_userCalls_iff _).trans ⟨fun ready _ => ready, fun holds => holds rfl⟩
  | none =>
      have accepted := update_accepted env.passwords before.users fault
        (key ▸ identified) fun other there => by
          rw [key, found] at there
          cases there
          exact .inr name
      rcases accepted with ⟨absent, -⟩ | ⟨next, _, _, -, done, -⟩
      · rw [key, found] at absent
        cases absent
      · rw [done]
        refine iff_of_true ((truthful_done_iff rfl).mpr ((committed _).mpr ?_))
          fun failed => by cases failed
        rw [key]
        exact List.mem_singleton_self _

end ManageUser

/-- `ManageUser` is truthful exactly under its condition, for each action. -/
theorem truthful_manageUser_iff (env : UserEnvironment) (myRole : Int) (body : Option Json) :
    Truthful before (.manageUser env myRole body)
        (serve fetch faults before (.manageUser env myRole body)) ↔
      TellsTruth fetch faults before (.manageUser env myRole body) := by
  cases admitted : admitManage faults myRole body before.users with
  | error text =>
      rw [serve, manageUser, admitted]
      refine iff_of_true (truthful_refused text) fun action row managed there => ?_
      rw [admitted] at there
      cases there
  | ok result =>
      obtain ⟨action, row, managed⟩ := result
      obtain ⟨-, -, -, effect⟩ := admitManage_row admitted
      rw [tellsTruth_manageUser_iff admitted]
      by_cases deletes : managed.deletes = true
      · rw [if_pos (effect.deletes_iff.mp deletes)]
        exact truthful_manageUser_deletes_iff admitted deletes
      · rw [if_neg fun same => deletes (effect.deletes_iff.mpr same)]
        exact truthful_manageUser_updates_iff admitted deletes

/-- `UpdateUser` has one write, and answers what became of it. -/
theorem truthful_updateUser (env : UserEnvironment) (myRole : Int) (body : Option Json) :
    Truthful before (.updateUser env myRole body)
      (serve fetch faults before (.updateUser env myRole body)) := by
  rw [serve, updateUser]
  cases admitted : admitUpdate faults myRole body before.users with
  | error text => exact truthful_refused text
  | ok user =>
      obtain ⟨form, decoded, key, row, found⟩ := admitUpdate_row admitted
      dsimp only
      rcases update_spec faults env.passwords user (user.password ≠ "") before.users with
        ⟨text, failed⟩ | ⟨-, absent, -⟩ | ⟨next, row, hash, -, -, done, -⟩
      · rw [failed]
        exact (truthful_failed_iff rfl rfl).mpr ⟨rfl, rfl, rfl, rfl⟩
      · rw [found] at absent
        cases absent
      · rw [done, key]
        exact (truthful_done_iff rfl).mpr ⟨form, decoded, List.mem_singleton_self _⟩

/-- The email in the row after the update of `EmailBind`. -/
theorem email_applyNonZero (user row : User) (email password : String) :
    (({ user with email, password } : User).applyNonZero row).email = email ↔
      email ≠ "" ∨ row.email = "" := by
  show keepString email row.email = email ↔ _
  unfold keepString
  split_ifs with blank
  · rw [blank]
    simp
  · exact iff_of_true rfl (.inl blank)

/-- `EmailBind` ignores the error of its second write, and an update that finds no row. -/
theorem truthful_emailBind_iff (env : UserEnvironment) (id : Int) (email code : String)
    (timestamp : Int) :
    Truthful before (.emailBind env id email code timestamp)
        (serve fetch faults before (.emailBind env id email code timestamp)) ↔
      TellsTruth fetch faults before (.emailBind env id email code timestamp) := by
  rw [serve, emailBind]
  cases verified : env.verifyCode email code with
  | false =>
      refine iff_of_true (truthful_refused _) fun there => ?_
      rw [verified] at there
      cases there
  | true =>
      by_cases unset : id = 0
      · have refused : fillUserById (visible faults .firstUser before.users) { id } =
            .error "id 为空！" := if_pos unset
        rw [refused]
        exact iff_of_true (truthful_refused _) fun _ identified => absurd unset identified
      · obtain ⟨user, filled, rfl, named⟩ := fillUserById_visible faults unset before.users
        have asked : TellsTruth fetch faults before (.emailBind env user.id email code timestamp) ↔
            (faults .updateUser = none →
              (∃ row, before.users.rowAt user.id = some row ∧ (email ≠ "" ∨ row.email = "")) ∧
                (faults .insertChannel = none ∨ HasEmailChannel before.channels user.id)) :=
          ⟨fun holds => holds verified unset, fun holds _ _ => holds⟩
        rw [filled, asked]
        simp only [Bool.not_true, Bool.false_eq_true, if_false]
        cases fault : faults .updateUser with
        | some text =>
            obtain ⟨text, failed⟩ := update_failed fault env.passwords { user with email } false
              before.users
            rw [failed]
            exact iff_of_true ((truthful_failed_iff rfl rfl).mpr ⟨rfl, rfl, rfl, rfl⟩)
              fun none => by cases none
        | none =>
            rcases @update_accepted _ env.passwords { user with email } before.users fault unset named
              with ⟨absent, done⟩ | ⟨next, row, hash, found, done, writes⟩
            · rw [done]
              refine (truthful_done_iff rfl).trans (iff_of_false ?_ ?_)
              · rintro ⟨wrote, -⟩
                exact not_updateUser_insertChannel wrote
              · intro holds
                obtain ⟨⟨row, there, -⟩, -⟩ := holds rfl
                exact absurd (absent.symm.trans there) (by simp)
            · rw [done]
              refine (truthful_done_iff rfl).trans (Iff.trans ?_ (forall_prop_of_true rfl).symm)
              have stored : next.rowAt user.id =
                  some (({ user with email, password := hash } : User).applyNonZero row) :=
                writes.at_key
              have email_iff := email_applyNonZero user row email hash
              constructor
              · rintro ⟨-, ⟨_, there, same⟩, channel⟩
                have row_eq := Option.some.inj (stored.symm.trans there)
                rw [← row_eq] at same
                exact ⟨⟨row, found, email_iff.mp same⟩,
                  (insertChannel_email timestamp user before.channels).mp channel⟩
              · rintro ⟨⟨other, there, kept⟩, channel⟩
                have row_eq := Option.some.inj (found.symm.trans there)
                rw [← row_eq] at kept
                exact ⟨List.mem_cons_self .., ⟨_, stored, email_iff.mpr kept⟩,
                  (insertChannel_email timestamp user before.channels).mpr channel⟩

end Users

/-! ### The options -/

section Options

variable {faults : Faults}

/-- `Save` writes the row of the key that the query left in the struct. -/
theorem saveOption_mem_iff {table : OptionTable} {found key value : String} :
    .saveOption key value ∈ (saveOption faults table found value).2 ↔
      faults .saveOption = none ∧ found = key ∧ (table.save found value).isSome := by
  unfold saveOption
  cases fault : faults .saveOption with
  | some text => simp
  | none =>
      cases saved : table.save found value with
      | none => simp
      | some next => simp [eq_comm]

/-- With a key the row of the key is found or made, unless a step fails. -/
theorem firstOrCreate_named (table : OptionTable) {key : String} (named : key ≠ "") :
    (firstOrCreate faults table key).2.1 = key := by
  unfold firstOrCreate
  cases faults .firstOption with
  | some text => rfl
  | none =>
      dsimp only
      cases queried : table.first key with
      | some row =>
          rw [OptionTable.first, if_neg named] at queried
          simpa using List.find?_some queried
      | none =>
          cases faults .createOption with
          | some text => rfl
          | none =>
              cases table.create key "" with
              | none => rfl
              | some made => rfl

/-- `FirstOrCreate` writes nothing but the row that it creates. -/
theorem firstOrCreate_writes {table : OptionTable} {key : String} {write : Write}
    (wrote : write ∈ (firstOrCreate faults table key).2.2) : write = .createOption key := by
  unfold firstOrCreate at wrote
  cases found : faults .firstOption with
  | some text =>
      rw [found] at wrote
      cases wrote
  | none =>
      rw [found] at wrote
      dsimp only at wrote
      cases queried : table.first key with
      | some row =>
          rw [queried] at wrote
          cases wrote
      | none =>
          rw [queried] at wrote
          cases fault : faults .createOption with
          | some text =>
              rw [fault] at wrote
              cases wrote
          | none =>
              rw [fault] at wrote
              cases created : table.create key "" with
              | none =>
                  simp only [created] at wrote
                  cases wrote
              | some made =>
                  simp only [created] at wrote
                  exact List.mem_singleton.mp wrote

/-- `Save` with a key updates the row or creates it. -/
theorem save_named_isSome (table : OptionTable) {key : String} (named : key ≠ "")
    (value : String) : (table.save key value).isSome := by
  unfold OptionTable.save
  rw [if_neg named]
  split_ifs with present
  · rfl
  · rw [OptionTable.create, dif_pos present]
    rfl

/-- `Save` without a key creates a row, which only works if no step before it did. -/
theorem save_blank_iff (table : OptionTable) (value : String) :
    ((firstOrCreate faults table "").2.1 = "" ∧
        ((firstOrCreate faults table "").1.save (firstOrCreate faults table "").2.1 value).isSome) ↔
      "" ∉ table.keys ∧
        ((faults .firstOption).isSome ∨ table.rows = [] ∧ (faults .createOption).isSome) := by
  have saves (table : OptionTable) : (table.save "" value).isSome ↔ "" ∉ table.keys := by
    rw [OptionTable.save, if_pos rfl, Option.isSome_iff_ne_none, ne_eq,
      OptionTable.create_eq_none_iff]
  unfold firstOrCreate
  cases faults .firstOption with
  | some text => simp [saves]
  | none =>
      dsimp only
      cases queried : table.first "" with
      | some row =>
          have listed := OptionTable.first_mem queried
          have rows : table.rows ≠ [] := List.ne_nil_of_mem listed
          refine iff_of_false ?_ (by simp [rows])
          rintro ⟨blank, saved⟩
          dsimp only at blank saved
          rw [blank, saves] at saved
          exact saved (blank ▸ OptionTable.mem_keys_of_mem listed)
      | none =>
          have rows : table.rows = [] := OptionTable.first_blank_eq_none_iff.mp queried
          have keys : table.keys = [] := by rw [OptionTable.keys, rows, List.map_nil]
          cases faults .createOption with
          | some text => simp [saves, rows]
          | none =>
              cases created : table.create "" "" with
              | none =>
                  rw [OptionTable.create_eq_none_iff, keys] at created
                  cases created
              | some made =>
                  have present := (OptionTable.writes_create _ created).present
                  simp [saves, present]

end Options

section

variable (fetch : TokenStoreItem → String) (faults : Faults) (before : Server)

/-- `UpdateOption` answers a success whatever its statements do. -/
theorem truthful_updateOption_iff (body : Option Json) :
    Truthful before (.updateOption body) (serve fetch faults before (.updateOption body)) ↔
      TellsTruth fetch faults before (.updateOption body) := by
  rw [serve, updateOption]
  cases decoded : Json.decodeInto optionFields body ("", "") with
  | none =>
      refine iff_of_true ((truthful_failed_iff rfl rfl).mpr (.refl before)) fun key value there => ?_
      rw [decoded] at there
      cases there
  | some option =>
      obtain ⟨key, value⟩ := option
      dsimp only
      cases refused : refuseOption before.options.options.settings key value with
      | some text =>
          refine iff_of_true (truthful_refused text) fun _ _ there passed => ?_
          rw [decoded] at there
          cases there
          rw [refused] at passed
          cases passed
      | none =>
          have asked : TellsTruth fetch faults before (.updateOption body) ↔
              faults .saveOption = none ∧ (key = "" → "" ∉ before.options.table.keys ∧
                ((faults .firstOption).isSome ∨
                  before.options.table.rows = [] ∧ (faults .createOption).isSome)) := by
            refine ⟨fun holds => holds key value decoded refused, fun holds _ _ there _ => ?_⟩
            rw [decoded] at there
            cases there
            exact holds
          have created : .saveOption key value ∉
              (firstOrCreate faults before.options.table key).2.2 := fun there => by
            cases firstOrCreate_writes there
          refine (truthful_done_iff rfl).trans (Iff.trans ?_ asked.symm)
          have committed (done : Outcome) : Committed before done (.updateOption body) ↔
              .saveOption key value ∈ done.wrote := by
            refine ⟨?_, fun wrote => ⟨key, value, decoded, wrote⟩⟩
            rintro ⟨_, _, there, wrote⟩
            rw [decoded] at there
            cases there
            exact wrote
          rw [committed]
          show Write.saveOption key value ∈ _ ++ _ ↔ _
          rw [List.mem_append, or_iff_right created, saveOption_mem_iff]
          by_cases blank : key = ""
          · subst blank
            rw [save_blank_iff]
            simp
          · simp [blank, firstOrCreate_named, save_named_isSome]

/-! ### The channel handlers -/

/-- `AddChannel` calls the token store after its write. -/
theorem truthful_addChannel (env : ChannelEnvironment) (userId : Int) (body : Option Json) :
    Truthful before (.addChannel env userId body)
      (serve fetch faults before (.addChannel env userId body)) := by
  rw [serve, addChannel]
  cases admitted : admitAddChannel faults env userId body before.channels with
  | error text => exact truthful_refused text
  | ok row =>
      obtain ⟨channel, decoded, rfl⟩ := admitAddChannel_form admitted
      dsimp only
      rcases insertChannel_spec faults (addedChannel env userId channel) before.channels with
        ⟨text, failed⟩ | ⟨next, stored, done, -⟩
      · rw [failed]
        exact (truthful_failed_iff rfl rfl).mpr ⟨rfl, rfl, rfl, rfl⟩
      · rw [done]
        exact (truthful_done_iff rfl).mpr ⟨channel, decoded, List.mem_singleton_self _⟩

/-- `UpdateChannel` calls the token store after its write. -/
theorem truthful_updateChannel (env : ChannelEnvironment) (userId : Int) (statusOnly : String)
    (body : Option Json) :
    Truthful before (.updateChannel env userId statusOnly body)
      (serve fetch faults before (.updateChannel env userId statusOnly body)) := by
  rw [serve, updateChannel]
  cases admitted : admitUpdateChannel faults env userId statusOnly body before.channels with
  | error text => exact truthful_refused text
  | ok pair =>
      obtain ⟨row, oldRow⟩ := pair
      obtain ⟨channel, decoded, key⟩ := admitUpdateChannel_id admitted
      dsimp only
      rcases updateChannelRow_spec faults row before.channels with
        ⟨text, failed⟩ | ⟨next, done, -⟩
      · rw [failed]
        exact (truthful_failed_iff rfl rfl).mpr ⟨rfl, rfl, rfl, rfl⟩
      · rw [done, key]
        exact (truthful_done_iff rfl).mpr ⟨channel, decoded, List.mem_singleton_self _⟩

/-- `DeleteChannel` calls the token store after its write. -/
theorem truthful_deleteChannel (userId : Int) (idParam : String) :
    Truthful before (.deleteChannel userId idParam)
      (serve fetch faults before (.deleteChannel userId idParam)) := by
  rw [serve, deleteChannel]
  rcases deleteChannelById_spec faults before.channels (Text.parseInt idParam).1 userId with
    ⟨text, failed⟩ | ⟨row, done⟩
  · rw [failed]
    exact (truthful_failed_iff rfl rfl).mpr ⟨rfl, rfl, rfl, rfl⟩
  · rw [done]
    exact (truthful_done_iff rfl).mpr (List.mem_singleton_self _)

/-! ### Any request -/

/-- An answer tells what became of the request exactly under the condition. -/
theorem answers_tell_effects (request : MutatingRequest) :
    Truthful before request (serve fetch faults before request) ↔
      TellsTruth fetch faults before request := by
  cases request with
  | deleteUser myRole idParam => exact truthful_deleteUser_iff fetch faults before myRole idParam
  | deleteSelf id => exact truthful_deleteSelf_iff fetch faults before id
  | manageUser env myRole body => exact truthful_manageUser_iff fetch faults before env myRole body
  | updateUser env myRole body =>
      exact iff_of_true (truthful_updateUser fetch faults before env myRole body) trivial
  | emailBind env id email code timestamp =>
      exact truthful_emailBind_iff fetch faults before env id email code timestamp
  | updateOption body => exact truthful_updateOption_iff fetch faults before body
  | addChannel env userId body =>
      exact iff_of_true (truthful_addChannel fetch faults before env userId body) trivial
  | updateChannel env userId statusOnly body =>
      exact iff_of_true (truthful_updateChannel fetch faults before env userId statusOnly body) trivial
  | deleteChannel userId idParam =>
      exact iff_of_true (truthful_deleteChannel fetch faults before userId idParam) trivial

end

/-! ### A failed deletion -/

/-- Root and one more user. -/
def twoUsers : Users where
  rows :=
    [ { id := 1, username := "root", role := roleRootUser, status := userStatusEnabled },
      { id := 2, username := "bob", role := roleCommonUser, status := userStatusEnabled } ]
  counter := 2
  sorted := by decide
  unique := by decide
  counterNonneg := Store.Table.two_nonneg
  bounded := by decide

/-- Nothing but the two users. -/
def twoUserServer : Server where
  users := twoUsers
  channels := .empty
  options := { table := { rows := [], unique := .nil }, options := {} }
  store := fun _ => none

/-- Every deletion fails. -/
def deletionFails : Faults := fun step =>
  if step = .deleteUser then some "database is locked" else none

/-- Root deletes the other user, whose row stays, and is answered a success. -/
theorem failed_deletion_succeeds :
    ¬ Truthful twoUserServer (.deleteUser roleRootUser "2")
      (serve (fun _ => "") deletionFails twoUserServer (.deleteUser roleRootUser "2")) := by
  intro truthful
  have succeeded : (serve (fun _ => "") deletionFails twoUserServer
      (.deleteUser roleRootUser "2")).success = some true := by decide
  have wrote : (serve (fun _ => "") deletionFails twoUserServer
      (.deleteUser roleRootUser "2")).wrote = [] := by decide
  exact not_committed_of_nothing wrote (truthful.success_iff.mp succeeded)

end MessagePusher.Controller.Failing
