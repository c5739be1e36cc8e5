import MessagePusher.TokenStore.ChannelChanges
import MessagePusher.TokenStore.UserChanges

/-!
# Coverage over whole runs

`StepKeeps` collects the conditions on the requests. A step from a covered state leads
to a covered state exactly when it meets its condition, so runs of such steps stay
covered from the first request on.
-/

namespace MessagePusher.TokenStore

open Common Model Store Channel Controller Semantics

/-- The actions that touch the store. -/
def ActionKeeps (state : CredentialState) (action : String) (userId : Int) : Prop :=
  (action = "enable" → OnKeeps state.users state.channels userId) ∧
    (action = "disable" ∨ action = "delete" → OffKeeps state.users state.channels userId)

/-- The condition on a request in the state before it, for the request that is let through. -/
def StepKeeps (state : CredentialState) : CredentialLabel → Prop
  | .addChannel env userId body =>
      ∀ row, admitAddChannel env userId body state.channels = .ok row →
        Table.Insertable state.channels row.withDefaults → AddKeeps state.users state.channels row
  | .updateChannel env userId statusOnly body =>
      ∀ row oldRow, admitUpdateChannel env userId statusOnly body state.channels =
        .ok (row, oldRow) → (row.update state.channels).2 = none →
          UpdateKeeps state.users state.channels row oldRow
  | .deleteChannel userId idParam =>
      ∀ row, (deleteChannelById state.channels (Text.parseInt idParam).1 userId).2 = .ok row →
        DeleteKeeps state.users state.channels row
  | .manageUser _ myRole body =>
      ∀ action row managed, admitManage myRole body state.users = .ok (action, row, managed) →
        ActionKeeps state action row.id
  | .deleteUser myRole idParam =>
      ∀ user, admitDelete myRole idParam state.users = .ok user →
        OffKeeps state.users state.channels user.id
  | .deleteSelf userId => userId ≠ 0 → OffKeeps state.users state.channels userId

/-! ### The channel handlers -/

section Steps

variable {state : CredentialState}

theorem covered_addChannel_iff (covered : Covered state) (env : ChannelEnvironment) (userId : Int)
    (body : Option Json) :
    Covered (state.serve (.addChannel env userId body)) ↔
      StepKeeps state (.addChannel env userId body) := by
  simp only [CredentialState.serve, StepKeeps, addChannel]
  cases admitted : admitAddChannel env userId body state.channels with
  | error text => exact iff_of_true covered (by simp)
  | ok row =>
      simp only [Except.ok.injEq, forall_eq', Channel.insert]
      cases inserted : Table.insert state.channels row.withDefaults with
      | none =>
          have refused := Table.insert_eq_none_iff.mp inserted
          exact iff_of_true covered fun accepted => absurd accepted refused
      | some result =>
          obtain ⟨next, stored⟩ := result
          have fresh := Table.insert_fresh inserted
          have writes := Table.rewrites_insert inserted
          obtain ⟨accepted, rfl, -⟩ := Table.insert_spec inserted
          rw [covered_iff]
          refine (addChannel_keeps_iff (covered_iff.mp covered) fresh writes).trans ?_
          exact ⟨fun keeps _ => keeps, fun keeps => keeps accepted⟩

theorem covered_updateChannel_iff (covered : Covered state) (env : ChannelEnvironment)
    (userId : Int) (statusOnly : String) (body : Option Json) :
    Covered (state.serve (.updateChannel env userId statusOnly body)) ↔
      StepKeeps state (.updateChannel env userId statusOnly body) := by
  simp only [CredentialState.serve, StepKeeps, updateChannel]
  cases admitted : admitUpdateChannel env userId statusOnly body state.channels with
  | error text => exact iff_of_true covered (by simp)
  | ok pair =>
      obtain ⟨row, oldRow⟩ := pair
      obtain ⟨same, found, selected⟩ := admitUpdateChannel_ok admitted
      rw [← same] at found
      have rewrites := Model.Channel.update_rewrites found selected
      dsimp only
      cases result : row.update state.channels with
      | mk next failure =>
          rw [result] at rewrites
          cases failure with
          | some text =>
              obtain rfl := Channel.update_failed result
              refine iff_of_true covered ?_
              rintro _ _ ⟨⟩ done
              rw [result] at done
              cases done
          | none =>
              rw [covered_iff]
              refine (updateChannel_keeps_iff (covered_iff.mp covered) found (rewrites rfl)
                (by rw [result])).trans ?_
              constructor
              · rintro keeps _ _ ⟨⟩ -
                exact keeps
              · intro keeps
                exact keeps row oldRow rfl (by rw [result])

theorem covered_deleteChannel_iff (covered : Covered state) (userId : Int) (idParam : String) :
    Covered (state.serve (.deleteChannel userId idParam)) ↔
      StepKeeps state (.deleteChannel userId idParam) := by
  simp only [CredentialState.serve, StepKeeps, deleteChannel]
  cases deleted : deleteChannelById state.channels (Text.parseInt idParam).1 userId with
  | mk next outcome =>
      cases outcome with
      | error text =>
          have unchanged : next = state.channels := by
            unfold deleteChannelById at deleted
            split_ifs at deleted
            · cases deleted
              rfl
            · split at deleted <;> cases deleted
              rfl
          subst unchanged
          exact iff_of_true covered (by simp)
      | ok row =>
          obtain ⟨found, -, table⟩ := deleteChannelById_ok (congrArg Prod.snd deleted)
          rw [deleted] at table
          obtain rfl : next = state.channels.delete row.id := table
          rw [covered_iff]
          refine (deleteChannel_keeps_iff (covered_iff.mp covered) found).trans ?_
          simp

/-! ### The user handlers -/

theorem manageUser_tokenStore (env : UserEnvironment) {myRole : Int} {body : Option Json}
    {users : Users} {action : String} {row : User} {managed : Managed}
    (admitted : admitManage myRole body users = .ok (action, row, managed)) :
    (manageUser env myRole body users).tokenStore = managed.tokenStore := by
  unfold manageUser
  rw [admitted]
  dsimp only
  split <;> rfl

theorem covered_manageUser_iff (covered : Covered state) (env : UserEnvironment) (myRole : Int)
    (body : Option Json) :
    Covered (state.serve (.manageUser env myRole body)) ↔
      StepKeeps state (.manageUser env myRole body) := by
  have covers := covered_iff.mp covered
  rw [covered_iff]
  simp only [CredentialState.serve, CredentialState.afterUser, StepKeeps]
  cases admitted : admitManage myRole body state.users with
  | error text =>
      refine iff_of_true ?_ (by simp)
      simpa [manageUser, admitted, refuse, userCalls, runCalls] using covers
  | ok result =>
      obtain ⟨action, row, managed⟩ := result
      obtain ⟨-, -, found, -, effect⟩ := admitManage_ok admitted
      have writes := manageUser_effect env admitted
      rw [manageUser_tokenStore env admitted]
      have target : (∀ other otherRow otherManaged,
          (Except.ok (action, row, managed) : Except String (String × User × Managed)) =
            .ok (other, otherRow, otherManaged) → ActionKeeps state other otherRow.id) ↔
          ActionKeeps state action row.id := by
        constructor
        · exact fun keeps => keeps action row managed rfl
        · rintro keeps _ _ _ ⟨⟩
          exact keeps
      rw [target]
      have statusKept : ∀ changed : User, changed.status = row.status →
          (EnabledAs (some changed) ↔ EnabledAs (state.users.rowAt row.id)) := by
        intro changed same
        simp [EnabledAs, found, same]
      cases effect with
      | disable active notRoot =>
          refine (userOff_keeps_iff covers writes ?_).trans (by simp [ActionKeeps])
          simp [EnabledAs, userStatusDisabled, userStatusEnabled]
      | enable inactive =>
          refine (userOn_keeps_iff covers writes ?_ ?_).trans (by simp [ActionKeeps])
          · simpa [EnabledAs, found] using inactive
          · simp [EnabledAs]
      | delete notRoot =>
          refine (userOff_keeps_iff covers writes ?_).trans (by simp [ActionKeeps])
          simp [EnabledAs]
      | promote byRoot low =>
          refine iff_of_true (userSame_keeps covers writes ?_) (by simp [ActionKeeps])
          exact statusKept _ rfl
      | demote notRoot notCommon =>
          refine iff_of_true (userSame_keeps covers writes ?_) (by simp [ActionKeeps])
          exact statusKept _ rfl
      | permission other _ _ _ status _ =>
          refine iff_of_true (userSame_keeps covers writes (statusKept _ status)) ?_
          simp only [rightsActions, List.mem_cons, not_or] at other
          simp [ActionKeeps, other]

theorem covered_deleteUser_iff (covered : Covered state) (myRole : Int) (idParam : String) :
    Covered (state.serve (.deleteUser myRole idParam)) ↔
      StepKeeps state (.deleteUser myRole idParam) := by
  have covers := covered_iff.mp covered
  rw [covered_iff]
  simp only [CredentialState.serve, CredentialState.afterUser, StepKeeps]
  cases admitted : admitDelete myRole idParam state.users with
  | error text =>
      refine iff_of_true ?_ (by simp)
      simpa [deleteUser, admitted, refuse, userCalls, runCalls] using covers
  | ok user =>
      have writes := deleteUser_effect admitted
      have called : (deleteUser myRole idParam state.users).tokenStore =
          some (.removeUser user.id) := by
        unfold deleteUser
        rw [admitted]
        dsimp only
        split <;> rfl
      rw [called]
      refine (userOff_keeps_iff covers writes (by simp [EnabledAs])).trans ?_
      simp

theorem covered_deleteSelf_iff (covered : Covered state) (userId : Int) :
    Covered (state.serve (.deleteSelf userId)) ↔ StepKeeps state (.deleteSelf userId) := by
  have covers := covered_iff.mp covered
  rw [covered_iff]
  simp only [CredentialState.serve, CredentialState.afterUser, StepKeeps]
  by_cases unset : userId = 0
  · refine iff_of_true ?_ (fun identified => absurd unset identified)
    simpa [deleteSelf, fillUserById, unset, refuse, userCalls, runCalls] using covers
  · have sameId : ((state.users.rowAt userId).getD { id := userId }).id = userId := by
      cases found : state.users.rowAt userId with
      | none => rfl
      | some row => exact Table.rowAt_id found
    have writes : state.users.Rewrites _ userId none := deleteSelf_effect unset
    have called : (deleteSelf userId state.users).tokenStore = some (.removeUser userId) := by
      simp [deleteSelf, fillUserById, deleteUserById, unset, sameId]
    rw [called]
    refine (userOff_keeps_iff covers writes (by simp [EnabledAs])).trans ?_
    simp [unset]

end Steps

/-! ### Whole runs -/

/-- A step from a covered state leads to a covered state exactly when it meets its condition. -/
theorem covered_step_iff {state next : CredentialState} {label : CredentialLabel}
    (covered : Covered state) (transition : credentials.Step state label next) :
    Covered next ↔ StepKeeps state label := by
  obtain rfl : next = state.serve label := transition
  cases label with
  | addChannel env userId body => exact covered_addChannel_iff covered env userId body
  | updateChannel env userId statusOnly body =>
      exact covered_updateChannel_iff covered env userId statusOnly body
  | deleteChannel userId idParam => exact covered_deleteChannel_iff covered userId idParam
  | manageUser env myRole body => exact covered_manageUser_iff covered env myRole body
  | deleteUser myRole idParam => exact covered_deleteUser_iff covered myRole idParam
  | deleteSelf userId => exact covered_deleteSelf_iff covered userId

/-- The exact condition on the tables for the load, which overwrites earlier items under a
key: the last item under it is needed, and no other item with the key is. -/
def LoadKeeps (users : Users) (channels : Channels) : Prop :=
  ∀ at_ item, lastAt TokenStoreItem.key (tokenStoreInitItems channels) at_ = some item →
    Live users channels item ∧ ∀ other, Live users channels other → other.key = at_ → other = item

theorem covered_initial_iff {start : CredentialState} (loaded : credentials.Initial start) :
    Covered start ↔ LoadKeeps start.users start.channels := by
  have empty : Covers TokenStoreItem.key (fun _ => none) fun _ => False := by simp [Covers]
  have store : start.store =
      putAll TokenStoreItem.key (fun _ => none) (tokenStoreInitItems start.channels) := loaded
  rw [covered_iff, store]
  refine (covers_iff_fits empty).trans ((fits_puts_iff fun _ => False.elim).trans ?_)
  constructor
  · exact fun fits => fits.1
  · intro keeps
    refine ⟨keeps, fun item live => .inr ?_⟩
    obtain ⟨row, member, -, found, -⟩ := id live
    have listed : item ∈ tokenStoreInitItems start.channels := by
      have type := checkType_of_channel2item found
      refine List.mem_filterMap.mpr ⟨row, Table.mem_select.mpr ⟨member, ?_⟩, found⟩
      simpa [checkTokenStoreChannelType, or_comm] using type
    cases last : lastAt TokenStoreItem.key (tokenStoreInitItems start.channels) item.key with
    | none => exact absurd rfl (lastAt_eq_none_iff.mp last item listed)
    | some put => rw [(keeps item.key put last).2 item live rfl]

/-- In every run whose load and steps meet their conditions, the store holds the credentials
of exactly the channels that need them. -/
theorem covered_of_keeping_steps {start state : CredentialState} {labels : List CredentialLabel}
    (loaded : credentials.Initial start) (keeps : LoadKeeps start.users start.channels)
    (runs : (credentials.guard StepKeeps).Runs start labels state) : Covered state := by
  have preserved : ∀ {state label next}, Covered state →
      (credentials.guard StepKeeps).Step state label next → Covered next :=
    fun covered transition => (covered_step_iff covered transition.2).mpr transition.1
  exact runs.invariant preserved ((covered_initial_iff loaded).mpr keeps)

/-- The first step that misses its condition uncovers the state. -/
theorem not_covered_of_other_step {start state next : CredentialState}
    {labels : List CredentialLabel} {label : CredentialLabel} (loaded : credentials.Initial start)
    (keeps : LoadKeeps start.users start.channels)
    (runs : (credentials.guard StepKeeps).Runs start labels state)
    (transition : credentials.Step state label next) (misses : ¬ StepKeeps state label) :
    ¬ Covered next := by
  rw [covered_step_iff (covered_of_keeping_steps loaded keeps runs) transition]
  exact misses

/-- One enabled user. -/
def oneUser : Users where
  rows := [{ id := 1, username := "bob", role := roleCommonUser, status := userStatusEnabled }]
  counter := 1
  sorted := by decide
  unique := by decide
  counterNonneg := Int.one_nonneg
  bounded := by decide

/-- A corporate account of that user. -/
def corpChannel : Model.Channel where
  id := 1
  type := typeWeChatCorpAccount
  userId := 1
  name := "corp"
  status := channelStatusEnabled
  appId := "a|b"
  secret := "s"

def noChannels : Channels := .empty

def oneChannel : Channels where
  rows := [corpChannel]
  counter := 1
  sorted := by decide
  unique := by decide
  counterNonneg := Int.one_nonneg
  bounded := by decide

def loadedState (channels : Channels) : CredentialState where
  users := oneUser
  channels := channels
  store := putAll TokenStoreItem.key (fun _ => none) (tokenStoreInitItems channels)

def corpBody (appId secret : String) : Option Json :=
  some (.object [("id", .number "1"), ("type", .string typeWeChatCorpAccount),
    ("name", .string "corp"), ("app_id", .string appId), ("secret", .string secret)])

/-- After the first channel of an enabled user was added the state is covered. -/
theorem covered_after_addChannel :
    Covered ((loadedState noChannels).serve (.addChannel {} 1 (corpBody "a|b" "s"))) := by
  have keeps : StepKeeps (loadedState noChannels) (.addChannel {} 1 (corpBody "a|b" "s")) := by
    intro row admitted _ item _ _
    have owner : row.userId = 1 := by
      have added : (admitAddChannel {} 1 (corpBody "a|b" "s") noChannels).toOption.map
          Channel.userId = some 1 := by decide
      have answered : admitAddChannel {} 1 (corpBody "a|b" "s") noChannels = .ok row := admitted
      rw [answered] at added
      exact Option.some.inj added
    refine ⟨.inl ?_, ?_⟩
    · rw [OwnerEnabled, owner]
      exact ⟨_, rfl, rfl⟩
    · rintro other ⟨_, member, -⟩
      cases member
  have load : LoadKeeps (loadedState noChannels).users (loadedState noChannels).channels := by
    intro at_ item last
    cases last
  exact @covered_of_keeping_steps (loadedState noChannels) _ _ rfl load (.single ⟨keeps, rfl⟩)

/-- An update of the `AppId` of a corporate account leaves the store with the old one. -/
theorem update_keeps_old_appId :
    ¬ ∀ (start state : CredentialState) (labels : List CredentialLabel),
      credentials.Initial start → credentials.Runs start labels state → Covered state := by
  intro claimed
  let start := loadedState oneChannel
  let update : CredentialLabel := .updateChannel {} 1 "" (corpBody "c|d" "")
  let changed : Model.Channel := { corpChannel with appId := "c|d" }
  let item : TokenStoreItem := .weChatCorpAccount "c" "d" "s"
  have covered : Covered (start.serve update) := claimed start _ [update] rfl (.single rfl)
  have member : changed ∈ (start.serve update).channels.rows := by decide
  have needs : Needs (start.serve update).users changed item := ⟨⟨_, rfl, rfl⟩, by decide, rfl⟩
  have stored : (start.serve update).store item.key = some item :=
    covered.stored changed member item needs
  have missing : (start.serve update).store item.key = none := by decide
  rw [missing] at stored
  cases stored

end MessagePusher.TokenStore
