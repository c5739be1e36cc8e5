import MessagePusher.Controller.Login

/-!
# What the user handlers do to the table

`UserEffect` lists, per request, the one row it may write and the guard under which
it does; `LoginEffect` does so for logins. Everything proved about whole runs goes
through these two relations and not back to the handlers.
-/

namespace MessagePusher.Controller

open Common Model Store Middleware

/-! ### The management switch -/

/-- The actions of `ManageUser` that change role, status or existence. -/
def rightsActions : List String := ["disable", "enable", "delete", "promote", "demote"]

/-- The outcome of the switch of `ManageUser` for a user whom it does not refuse. -/
inductive ManageEffect (myRole : Int) (row : User) : String → Managed → Prop where
  | disable (active : row.status ≠ userStatusDisabled) (notRoot : row.role ≠ roleRootUser) :
      ManageEffect myRole row "disable"
        { user := { row with status := userStatusDisabled }
          tokenStore := some (.removeUser row.id) }
  | enable (inactive : row.status ≠ userStatusEnabled) :
      ManageEffect myRole row "enable"
        { user := { row with status := userStatusEnabled }
          tokenStore := some (.addUser row.id) }
  | delete (notRoot : row.role ≠ roleRootUser) :
      ManageEffect myRole row "delete"
        { user := row, deletes := true, tokenStore := some (.removeUser row.id) }
  | promote (byRoot : myRole = roleRootUser) (low : row.role < roleAdminUser) :
      ManageEffect myRole row "promote" { user := { row with role := roleAdminUser } }
  | demote (notRoot : row.role ≠ roleRootUser) (notCommon : row.role ≠ roleCommonUser) :
      ManageEffect myRole row "demote" { user := { row with role := roleCommonUser } }
  /-- The permissions, and every unknown action. -/
  | permission {action changed} (other : action ∉ rightsActions) (id : changed.id = row.id)
      (username : changed.username = row.username) (role : changed.role = row.role)
      (status : changed.status = row.status) (written : changed.applyNonZero row = changed) :
      ManageEffect myRole row action { user := changed }

/-- What an action makes of the row it is applied to. -/
theorem manageAction_effect {myRole : Int} {action : String} {row : User} {managed : Managed}
    (done : manageAction myRole action row = .ok managed) :
    ManageEffect myRole row action managed := by
  unfold manageAction at done
  by_cases disable : action = "disable"
  · subst disable
    simp only [if_true] at done
    split_ifs at done with disabled root
    cases done
    exact .disable disabled root
  by_cases enable : action = "enable"
  · subst enable
    simp only [disable, if_false, if_true] at done
    split_ifs at done with enabled
    cases done
    exact .enable enabled
  by_cases delete : action = "delete"
  · subst delete
    simp only [disable, enable, if_false, if_true] at done
    split_ifs at done with root
    cases done
    exact .delete root
  by_cases promote : action = "promote"
  · subst promote
    simp only [disable, enable, delete, if_false, if_true] at done
    split_ifs at done with notRoot high
    cases done
    exact .promote (by simpa using notRoot) (by omega)
  by_cases demote : action = "demote"
  · subst demote
    simp only [disable, enable, delete, promote, if_false, if_true] at done
    split_ifs at done with root common
    cases done
    exact .demote root common
  have other : action ∉ rightsActions := by
    simp [rightsActions, disable, enable, delete, promote, demote]
  simp only [disable, enable, delete, promote, demote, if_false] at done
  split_ifs at done <;> cases done <;>
    exact .permission other rfl rfl rfl rfl (by simp [User.applyNonZero, keepInt,
      sendEmailToOthersAllowed, sendEmailToOthersDisallowed, saveMessageToDatabaseAllowed,
      saveMessageToDatabaseDisallowed])

/-- The switch changes rights and permissions and nothing else. -/
theorem manageAction_columns {myRole : Int} {action : String} {row : User} {managed : Managed}
    (done : manageAction myRole action row = .ok managed) :
    managed.user =
      { row with
        role := managed.user.role
        status := managed.user.status
        sendEmailToOthers := managed.user.sendEmailToOthers
        saveMessageToDatabase := managed.user.saveMessageToDatabase } := by
  unfold manageAction at done
  repeat' split at done
  all_goals cases done
  all_goals rfl

/-- The switch keeps id and name, and the whole struct is what gets written. -/
theorem ManageEffect.written {myRole : Int} {action : String} {row : User} {managed : Managed}
    (effect : ManageEffect myRole row action managed) :
    managed.user.id = row.id ∧ managed.user.username = row.username ∧
      managed.user.applyNonZero row = managed.user := by
  cases effect with
  | permission _ id username _ _ written => exact ⟨id, username, written⟩
  | _ => exact ⟨rfl, rfl, by simp [User.applyNonZero, keepInt, userStatusDisabled,
      userStatusEnabled, roleAdminUser, roleCommonUser]⟩

/-- Only the action `delete` deletes. -/
theorem ManageEffect.deletes_iff {myRole : Int} {action : String} {row : User} {managed : Managed}
    (effect : ManageEffect myRole row action managed) :
    managed.deletes = true ↔ action = "delete" := by
  cases effect with
  | delete => exact iff_of_true rfl rfl
  | permission other =>
      refine iff_of_false Bool.false_ne_true fun same => other ?_
      rw [same]
      simp only [rightsActions, List.mem_cons, true_or, or_true]
  | _ => exact iff_of_false Bool.false_ne_true (by decide)

/-- What `ManageUser` admits: a row of the table that the actor may manage, and what the switch
answers for it. -/
theorem admitManage_passed {myRole : Int} {body : Option Json} {users : Users} {action : String}
    {row : User} {managed : Managed}
    (admitted : admitManage myRole body users = .ok (action, row, managed)) :
    (∃ request, Json.decodeInto ManageRequest.jsonFields body {} = some request ∧
        request.action = action ∧ managedRow request users = some row) ∧
      row.id ≠ 0 ∧ ¬ (myRole ≤ row.role ∧ myRole ≠ roleRootUser) ∧
      manageAction myRole action row = .ok managed := by
  unfold admitManage at admitted
  cases decoded : Json.decodeInto ManageRequest.jsonFields body {} with
  | none => simp [decoded, bind, Except.bind] at admitted
  | some request =>
      simp only [decoded, bind, Except.bind, pure, Except.pure] at admitted
      cases found : managedRow request users with
      | none => simp [found] at admitted
      | some user =>
          simp only [found, Option.getD_some] at admitted
          split_ifs at admitted with unset entitled
          cases done : manageAction myRole request.action user with
          | error text => simp [done] at admitted
          | ok result =>
              simp only [done, Except.ok.injEq, Prod.mk.injEq] at admitted
              obtain ⟨rfl, rfl, rfl⟩ := admitted
              exact ⟨⟨request, rfl, rfl, found⟩, unset, entitled, done⟩

/-- `ManageUser` works on a row of the table that ranks below the actor, unless the actor
is root. -/
theorem admitManage_ok {myRole : Int} {body : Option Json} {users : Users} {action : String}
    {row : User} {managed : Managed}
    (admitted : admitManage myRole body users = .ok (action, row, managed)) :
    (∃ request, Json.decodeInto ManageRequest.jsonFields body {} = some request ∧
        request.action = action ∧ managedRow request users = some row) ∧
      row.id ≠ 0 ∧ users.rowAt row.id = some row ∧
      (row.role < myRole ∨ myRole = roleRootUser) ∧ ManageEffect myRole row action managed := by
  obtain ⟨⟨request, decoded, named, found⟩, identified, entitled, done⟩ :=
    admitManage_passed admitted
  refine ⟨⟨request, decoded, named, found⟩, identified,
    Table.rowAt_of_mem (Table.first_mem found), ?_, manageAction_effect done⟩
  by_cases root : myRole = roleRootUser
  · exact .inr root
  · exact .inl (Int.not_le.mp fun low => entitled ⟨low, root⟩)

/-- What `ManageUser` writes is what the switch answers. -/
theorem admitManage_action {myRole : Int} {body : Option Json} {users : Users} {action : String}
    {row : User} {managed : Managed}
    (admitted : admitManage myRole body users = .ok (action, row, managed)) :
    manageAction myRole action row = .ok managed :=
  (admitManage_passed admitted).2.2.2

/-- `DeleteUser` works on a row that ranks below the actor. -/
theorem admitDelete_ok {myRole : Int} {idParam : String} {users : Users} {user : User}
    (admitted : admitDelete myRole idParam users = .ok user) :
    user.id ≠ 0 ∧ user.role < myRole ∧ ∃ row, users.rowAt user.id = some row ∧ user = row.brief := by
  unfold admitDelete at admitted
  cases parsed : Text.atoi idParam with
  | error text => simp [parsed, bind, Except.bind] at admitted
  | ok id =>
      cases loaded : getUserById users id false with
      | error text => simp [parsed, loaded, bind, Except.bind] at admitted
      | ok user =>
          simp only [parsed, loaded, bind, Except.bind, pure, Except.pure] at admitted
          split_ifs at admitted with low
          cases admitted
          obtain ⟨identified, row, found, rfl⟩ := getUserById_ok loaded
          have sameId : row.brief.id = id := Table.rowAt_id found
          rw [sameId]
          exact ⟨identified, by omega, row, found, rfl⟩

/-! ### Requests -/

/-- The requests that change users, as the router hands them over. -/
inductive UserRequest where
  | register (body : Option Json)
  | createUser (body : Option Json)
  | updateUser (body : Option Json)
  | manageUser (body : Option Json)
  | deleteUser (idParam : String)
  | deleteSelf

/-- A handler behind an authentication middleware. -/
def withSession (passed : Except (Reply User) Session) (users : Users)
    (handler : Session → Handled) : Handled :=
  match passed with
  | .error refusal => { users, reply := some refusal }
  | .ok actor => handler actor

/-- The routes of `SetApiRouter` for these requests. -/
def serveUser (env : UserEnvironment) (session : Option Session) (request : UserRequest)
    (users : Users) : Handled :=
  match request with
  | .register body => register env body users
  | .createUser body =>
      withSession (adminAuth session) users fun actor => createUser env actor.role body users
  | .updateUser body =>
      withSession (adminAuth session) users fun actor => updateUser env actor.role body users
  | .manageUser body =>
      withSession (adminAuth session) users fun actor => manageUser env actor.role body users
  | .deleteUser idParam =>
      withSession (adminAuth session) users fun actor => deleteUser actor.role idParam users
  | .deleteSelf => withSession (userAuth session) users fun actor => deleteSelf actor.id users

/-- A new user: a fresh row with the common role, enabled. -/
def Creates (users next : Users) (row : User) : Prop :=
  users.rowAt row.id = none ∧ row.role = roleCommonUser ∧ row.status = userStatusEnabled ∧
    users.Rewrites next row.id (some row)

/-- A row whose role and status stay as they are. -/
def Edits (users next : Users) (row : User) : Prop :=
  users.rowAt row.id = some row ∧
    ∃ changed, changed.role = row.role ∧ changed.status = row.status ∧
      users.Rewrites next row.id (some changed)

/-- What a request does to the table, by request and guard. -/
inductive UserEffect (session : Option Session) (users next : Users) : UserRequest → Prop where
  | nothing {request} (same : next = users) : UserEffect session users next request
  | registered {body row} (creates : Creates users next row) :
      UserEffect session users next (.register body)
  | created {body actor row} (passed : @adminAuth User session = .ok actor)
      (creates : Creates users next row) : UserEffect session users next (.createUser body)
  | edited {body actor row} (passed : @adminAuth User session = .ok actor)
      (below : row.role < actor.role) (edits : Edits users next row) :
      UserEffect session users next (.updateUser body)
  | managed {body actor action row managed} (passed : @adminAuth User session = .ok actor)
      (admitted : admitManage actor.role body users = .ok (action, row, managed))
      (writes : users.Rewrites next row.id
        (if managed.deletes then none else some managed.user)) :
      UserEffect session users next (.manageUser body)
  | deleted {idParam actor user} (passed : @adminAuth User session = .ok actor)
      (admitted : admitDelete actor.role idParam users = .ok user)
      (writes : users.Rewrites next user.id none) :
      UserEffect session users next (.deleteUser idParam)
  | deletedSelf {actor} (passed : @userAuth User session = .ok actor)
      (identified : actor.id ≠ 0) (writes : users.Rewrites next actor.id none) :
      UserEffect session users next .deleteSelf

/-- `UpdateUser` writes into a row that ranks below the actor, and neither role nor status. -/
theorem admitUpdate_ok {myRole : Int} {body : Option Json} {users : Users} {user : User}
    (admitted : admitUpdate myRole body users = .ok user) :
    ∃ row, users.rowAt user.id = some row ∧ row.role < myRole ∧ user.role = 0 ∧
      user.status = 0 := by
  obtain ⟨form, origin, -, loaded, below, rfl⟩ := admitUpdate_passed admitted
  obtain ⟨-, row, found, rfl⟩ := getUserById_ok loaded
  exact ⟨row, found, below, rfl, rfl⟩

@[simp] theorem users_refuse (users : Users) (text : String) : (refuse users text).users = users :=
  rfl

@[simp] theorem users_succeed (users : Users) : (succeed users).users = users := rfl

@[simp] theorem users_answerInsert (result : Users × Except String User) :
    (answerInsert result).users = result.1 := by
  obtain ⟨users, outcome⟩ := result
  cases outcome with
  | error text => rfl
  | ok value => rfl

@[simp] theorem users_answerUpdate (result : Users × Option String) :
    (answerUpdate result).users = result.1 := by
  obtain ⟨users, failure⟩ := result
  cases failure with
  | none => rfl
  | some text => rfl

/-- An inserted user without role and status is a new user. -/
theorem insert_creates (passwords : Passwords) {user : User} (users : Users)
    (role : user.role = 0 ∨ user.role = roleCommonUser)
    (status : user.status = 0 ∨ user.status = userStatusEnabled) :
    ((user.insert passwords users).1 = users ∧
        ∃ text, (user.insert passwords users).2 = .error text) ∨
      ∃ row, (user.insert passwords users).2 = .ok row ∧
        Creates users (user.insert passwords users).1 row := by
  have defaultRole : user.withDefaults.role = roleCommonUser := by
    rcases role with role | role <;> simp [User.withDefaults, role, roleCommonUser]
  have defaultStatus : user.withDefaults.status = userStatusEnabled := by
    rcases status with status | status <;> simp [User.withDefaults, status, userStatusEnabled]
  rcases user.insert_cases passwords users with refused | ⟨row, stored, fresh, writes, rest⟩
  · exact .inl refused
  · exact .inr ⟨row, stored, fresh, rest.1.trans defaultRole, rest.2.trans defaultStatus, writes⟩

/-- `Register` changes nothing or creates a user. -/
theorem register_effect (env : UserEnvironment) (body : Option Json) (users : Users) :
    (register env body users).users = users ∨
      ∃ row, Creates users (register env body users).users row := by
  unfold register
  split_ifs
  · exact .inl rfl
  · exact .inl rfl
  split
  · exact .inl rfl
  · split
    · exact .inl rfl
    · split_ifs
      · exact .inl rfl
      · exact .inl rfl
      · next form _ _ _ _ _ =>
        rw [users_answerInsert]
        have unset : (registeredUser env form).role = 0 ∧ (registeredUser env form).status = 0 :=
          ⟨rfl, rfl⟩
        rcases insert_creates env.passwords users (.inl unset.1) (.inl unset.2) with
          ⟨same, -⟩ | ⟨row, -, creates⟩
        · exact .inl same
        · exact .inr ⟨row, creates⟩

/-- `CreateUser` changes nothing or creates a user. -/
theorem createUser_effect (env : UserEnvironment) (myRole : Int) (body : Option Json)
    (users : Users) :
    (createUser env myRole body users).users = users ∨
      ∃ row, Creates users (createUser env myRole body users).users row := by
  unfold createUser
  split
  · exact .inl rfl
  · next form _ =>
    split_ifs
    · exact .inl rfl
    · exact .inl rfl
    · rw [users_answerInsert]
      have unset : (createdUser form).role = 0 ∧ (createdUser form).status = 0 := ⟨rfl, rfl⟩
      rcases insert_creates env.passwords users (.inl unset.1) (.inl unset.2) with
        ⟨same, -⟩ | ⟨row, -, creates⟩
      · exact .inl same
      · exact .inr ⟨row, creates⟩

/-- `UpdateUser` changes nothing or edits a user of a lower role. -/
theorem updateUser_effect (env : UserEnvironment) (myRole : Int) (body : Option Json)
    (users : Users) :
    (updateUser env myRole body users).users = users ∨
      ∃ row, row.role < myRole ∧ Edits users (updateUser env myRole body users).users row := by
  unfold updateUser
  cases admitted : admitUpdate myRole body users with
  | error text => exact .inl rfl
  | ok cleanUser =>
      obtain ⟨row, found, below, role, status⟩ := admitUpdate_ok admitted
      dsimp only
      rw [users_answerUpdate]
      rcases cleanUser.update_cases env.passwords (cleanUser.password ≠ "") users with
        same | ⟨origin, hash, foundAgain, writes⟩
      · exact .inl same
      · obtain rfl : row = origin := Option.some.inj (found.symm.trans foundAgain)
        have id : row.id = cleanUser.id := Table.rowAt_id found
        refine .inr ⟨row, below, ?_⟩
        rw [← id] at found writes
        exact ⟨found, _, by simp [User.applyNonZero, role, keepInt],
          by simp [User.applyNonZero, status, keepInt], writes⟩

/-- `ManageUser` writes or deletes the row of its user. -/
theorem manageUser_effect (env : UserEnvironment) {myRole : Int} {body : Option Json}
    {users : Users} {action : String} {row : User} {managed : Managed}
    (admitted : admitManage myRole body users = .ok (action, row, managed)) :
    users.Rewrites (manageUser env myRole body users).users row.id
      (if managed.deletes then none else some managed.user) := by
  obtain ⟨-, identified, found, -, effect⟩ := admitManage_ok admitted
  obtain ⟨id, username, written⟩ := effect.written
  unfold manageUser
  rw [admitted]
  dsimp only
  rw [id]
  have identified' : managed.user.id ≠ 0 := by rwa [id]
  cases managed.deletes with
  | true =>
      have missing : (users.delete row.id).rowAt managed.user.id = none := by simp [id]
      rw [if_pos rfl, User.update_missing env.passwords identified' missing]
      exact Table.rewrites_delete users row.id
  | false =>
      have found' : users.rowAt managed.user.id = some row := by rwa [id]
      obtain ⟨done, writes⟩ := User.update_row env.passwords identified' found' username
      rw [written, id] at writes
      simp only [Bool.false_eq_true, if_false]
      cases result : managed.user.update env.passwords false users with
      | mk next failure =>
          rw [result] at done writes
          obtain rfl : failure = none := done
          exact writes

/-- `DeleteUser` deletes the row of its user. -/
theorem deleteUser_effect {myRole : Int} {idParam : String} {users : Users} {user : User}
    (admitted : admitDelete myRole idParam users = .ok user) :
    users.Rewrites (deleteUser myRole idParam users).users user.id none := by
  obtain ⟨identified, -, -⟩ := admitDelete_ok admitted
  simpa [deleteUser, admitted, deleteUserById, identified] using
    Table.rewrites_delete users user.id

/-- `DeleteSelf` deletes the row of the session. -/
theorem deleteSelf_effect {id : Int} {users : Users} (identified : id ≠ 0) :
    users.Rewrites (deleteSelf id users).users id none := by
  simpa [deleteSelf, fillUserById, deleteUserById, identified, succeed] using
    Table.rewrites_delete users id

/-- Every request has one of the listed effects. -/
theorem serveUser_effect (env : UserEnvironment) (session : Option Session)
    (request : UserRequest) (users : Users) :
    UserEffect session users (serveUser env session request users).users request := by
  cases request with
  | register body =>
      rcases register_effect env body users with same | ⟨row, creates⟩
      · exact .nothing same
      · exact .registered creates
  | createUser body =>
      cases passed : @adminAuth User session with
      | error refusal => exact .nothing (by simp [serveUser, passed, withSession])
      | ok actor =>
          simp only [serveUser, passed, withSession]
          rcases createUser_effect env actor.role body users with same | ⟨row, creates⟩
          · exact .nothing same
          · exact .created passed creates
  | updateUser body =>
      cases passed : @adminAuth User session with
      | error refusal => exact .nothing (by simp [serveUser, passed, withSession])
      | ok actor =>
          simp only [serveUser, passed, withSession]
          rcases updateUser_effect env actor.role body users with same | ⟨row, below, edits⟩
          · exact .nothing same
          · exact .edited passed below edits
  | manageUser body =>
      cases passed : @adminAuth User session with
      | error refusal => exact .nothing (by simp [serveUser, passed, withSession])
      | ok actor =>
          simp only [serveUser, passed, withSession]
          cases admitted : admitManage actor.role body users with
          | error text => exact .nothing (by simp [manageUser, admitted])
          | ok result =>
              obtain ⟨action, row, managed⟩ := result
              exact .managed passed admitted (manageUser_effect env admitted)
  | deleteUser idParam =>
      cases passed : @adminAuth User session with
      | error refusal => exact .nothing (by simp [serveUser, passed, withSession])
      | ok actor =>
          simp only [serveUser, passed, withSession]
          cases admitted : admitDelete actor.role idParam users with
          | error text => exact .nothing (by simp [deleteUser, admitted])
          | ok user => exact .deleted passed admitted (deleteUser_effect admitted)
  | deleteSelf =>
      cases passed : @userAuth User session with
      | error refusal => exact .nothing (by simp [serveUser, passed, withSession])
      | ok actor =>
          simp only [serveUser, passed, withSession]
          by_cases unset : actor.id = 0
          · exact .nothing (by simp [deleteSelf, fillUserById, unset])
          · exact .deletedSelf passed unset (deleteSelf_effect unset)

/-! ### Logins -/

/-- What a login does: it is rejected, binds an account to a row, registers a row, or opens
a session for an enabled row. -/
inductive LoginEffect (users : Users) (outcome : LoginOutcome) : Prop where
  | rejected (same : outcome.users = users) (closed : outcome.session = none)
  | bound {row} (edits : Edits users outcome.users row) (closed : outcome.session = none)
  | registered {row} (creates : Creates users outcome.users row)
      (opened : ∀ session, outcome.session = some session → session = sessionOf row)
  | entered {row} (same : outcome.users = users) (found : users.rowAt row.id = some row)
      (enabled : row.status = userStatusEnabled)
      (opened : ∀ session, outcome.session = some session → session = sessionOf row)

@[simp] theorem users_setupLogin (saved : Bool) (user : User) (users : Users) :
    (setupLogin saved user users).users = users := by
  cases saved with
  | true => rfl
  | false => rfl

/-- A login opens the session of its user. -/
theorem session_setupLogin {saved : Bool} {user : User} {users : Users} {session : Session}
    (opened : (setupLogin saved user users).session = some session) :
    session = sessionOf user := by
  cases saved with
  | true => exact (Option.some.inj opened).symm
  | false => cases opened

/-- A user that passes `ValidateAndFill` is an enabled row; the zero struct of an unknown
name has no status. -/
theorem validateAndFill_ok {passwords : Passwords} {users : Users} {name password : String}
    {filled : User}
    (validated : validateAndFill passwords users { username := name, password } = .ok filled) :
    users.rowAt filled.id = some filled ∧ filled.status = userStatusEnabled := by
  unfold validateAndFill at validated
  split_ifs at validated
  dsimp only at validated
  split_ifs at validated with passes
  cases validated
  cases found : users.first fun row => row.username = name with
  | none =>
      have enabled := passes.2
      simp [found, userStatusEnabled] at enabled
  | some row =>
      simp only [found, Option.getD_some] at passes ⊢
      exact ⟨Table.rowAt_of_mem (Table.first_mem found), passes.2⟩

/-- What `Login` does is one of these. -/
theorem login_effect (env : UserEnvironment) (saved : Bool) (body : Option Json)
    (users : Users) : LoginEffect users (login env saved body users) := by
  unfold login
  split_ifs
  · exact .rejected rfl rfl
  split
  · exact .rejected rfl rfl
  · next request _ =>
    split_ifs
    · exact .rejected rfl rfl
    dsimp only
    cases validated : validateAndFill env.passwords users
        { username := request.username, password := request.password } with
    | error text => exact .rejected rfl rfl
    | ok user =>
        obtain ⟨found, enabled⟩ := validateAndFill_ok validated
        exact .entered (users_setupLogin _ _ _) found enabled fun _ => session_setupLogin

/-- A third-party login with an account that is not blank. -/
theorem thirdPartyLogin_effect (env : UserEnvironment) (saved : Bool) (account : User → String)
    (blank : String) (user newUser : User) (users : Users) (unset : user.status = 0)
    (role : newUser.role = roleCommonUser) (status : newUser.status = userStatusEnabled) :
    LoginEffect users
      (thirdPartyLogin saved (thirdPartyUser env account blank user newUser users)) := by
  unfold thirdPartyUser
  dsimp only
  split_ifs with taken empty register
  · exact .rejected rfl rfl
  · simp only [thirdPartyLogin]
    split_ifs with disabled
    · exact .rejected rfl rfl
    · have enabled := not_not.mp disabled
      cases found : users.first fun row => decide (account row = account user) with
      | none => simp [found, unset, userStatusEnabled] at enabled
      | some row =>
          simp only [found, Option.getD_some] at enabled ⊢
          exact .entered (users_setupLogin _ _ _) (Table.rowAt_of_mem (Table.first_mem found))
            enabled fun _ => session_setupLogin
  · rcases insert_creates env.passwords users (.inr role) (.inr status) with
      ⟨same, text, refused⟩ | ⟨row, stored, creates⟩
    · cases result : newUser.insert env.passwords users with
      | mk next outcome =>
          rw [result] at same refused
          obtain rfl : outcome = .error text := refused
          exact .rejected same rfl
    · cases result : newUser.insert env.passwords users with
      | mk next outcome =>
          rw [result] at creates stored
          obtain rfl : outcome = .ok row := stored
          have enabled : ¬ row.status ≠ userStatusEnabled := not_not.mpr creates.2.2.1
          simp only [thirdPartyLogin, enabled, if_false]
          exact .registered (by rwa [users_setupLogin]) fun _ => session_setupLogin
  · exact .rejected rfl rfl

/-- A third-party login writes the table only to register a user. -/
theorem users_thirdPartyLogin (env : UserEnvironment) (saved : Bool) (account : User → String)
    (blank : String) (user newUser : User) (users : Users) :
    (thirdPartyLogin saved (thirdPartyUser env account blank user newUser users)).users =
      if alreadyTaken account users (account user) = false ∧ env.settings.registerEnabled = true then
        (newUser.insert env.passwords users).1
      else users := by
  have finish : ∀ found, (thirdPartyLogin saved found).users = found.1 := by
    rintro ⟨next, outcome⟩
    cases outcome with
    | error text => rfl
    | ok user =>
        simp only [thirdPartyLogin]
        split_ifs
        · rfl
        · exact users_setupLogin saved user next
  rw [finish]
  by_cases taken : alreadyTaken account users (account user) = true
  · simp [thirdPartyUser, taken]
  · by_cases open_ : env.settings.registerEnabled = true
    · simp [thirdPartyUser, taken, open_]
    · simp [thirdPartyUser, taken, open_]

/-- A login by GitHub inserts the user that it registers, if any. -/
theorem users_gitHubOAuth (env : UserEnvironment) (saved : Bool)
    (account : Except String GitHubUser) (users : Users) :
    (gitHubOAuth env saved none account users).users =
      match gitHubRegistration env account users with
      | none => users
      | some user => (user.insert env.passwords users).1 := by
  unfold gitHubOAuth gitHubRegistration
  cases account with
  | error text =>
      dsimp only
      split_ifs <;> rfl
  | ok account =>
      by_cases enabled : env.settings.gitHubOAuthEnabled = true
      · simp only [enabled, Bool.not_true, Bool.false_eq_true, if_false, users_thirdPartyLogin,
          isGitHubIdAlreadyTaken, Bool.not_eq_true', true_and]
        split_ifs <;> rfl
      · simp [enabled, rejectLogin]

/-- A login by WeChat inserts the user that it registers, if any. -/
theorem users_weChatAuth (env : UserEnvironment) (saved : Bool) (account : Except String String)
    (users : Users) :
    (weChatAuth env saved account users).users =
      match weChatRegistration env account users with
      | none => users
      | some user => (user.insert env.passwords users).1 := by
  unfold weChatAuth weChatRegistration
  cases account with
  | error text =>
      dsimp only
      split_ifs <;> rfl
  | ok weChatId =>
      by_cases enabled : env.settings.weChatAuthEnabled = true
      · simp only [enabled, Bool.not_true, Bool.false_eq_true, if_false, users_thirdPartyLogin,
          isWeChatIdAlreadyTaken, Bool.not_eq_true', true_and]
        split_ifs <;> rfl
      · simp [enabled, rejectLogin]

/-- `GitHubBind` is rejected or binds. -/
theorem gitHubBind_effect (env : UserEnvironment) (id : Int)
    (account : Except String GitHubUser) (users : Users) :
    LoginEffect users (gitHubBind env id account users) := by
  unfold gitHubBind
  split_ifs
  · exact .rejected rfl rfl
  cases account with
  | error text => exact .rejected rfl rfl
  | ok account =>
      dsimp only
      split_ifs
      · exact .rejected rfl rfl
      by_cases unset : id = 0
      · simp only [fillUserById, unset, if_true]
        exact .rejected rfl rfl
      simp only [fillUserById, unset, if_false]
      cases found : users.rowAt id with
      | none =>
          have same : User.update env.passwords { id, gitHubId := account.login } false users =
              (users, none) :=
            User.update_missing env.passwords unset found
          simp only [Option.getD_none, same]
          exact .rejected rfl rfl
      | some row =>
          simp only [Option.getD_some]
          have written := User.update_cases env.passwords { row with gitHubId := account.login }
            false users
          cases result : User.update env.passwords { row with gitHubId := account.login } false
              users with
          | mk next failure =>
              rw [result] at written
              have effect : next = users ∨ Edits users next row := by
                rcases written with same | ⟨origin, hash, foundAgain, writes⟩
                · exact .inl same
                · have foundRow : users.rowAt row.id = some row := by
                    rwa [show row.id = id from Table.rowAt_id found]
                  obtain rfl : row = origin := Option.some.inj (foundRow.symm.trans foundAgain)
                  exact .inr ⟨foundRow, _, by simp [User.applyNonZero],
                    by simp [User.applyNonZero], writes⟩
              cases failure with
              | none =>
                  rcases effect with same | edits
                  · exact .rejected same rfl
                  · exact .bound edits rfl
              | some text =>
                  rcases effect with same | edits
                  · exact .rejected same rfl
                  · exact .bound edits rfl

/-- `GitHubOAuth` may do any of these, as it binds when there is a session. -/
theorem gitHubOAuth_effect (env : UserEnvironment) (saved : Bool) (session : Option Session)
    (account : Except String GitHubUser) (users : Users) :
    LoginEffect users (gitHubOAuth env saved session account users) := by
  unfold gitHubOAuth
  cases session with
  | some session => exact gitHubBind_effect env session.id account users
  | none =>
      dsimp only
      split_ifs
      · exact .rejected rfl rfl
      cases account with
      | error text => exact .rejected rfl rfl
      | ok account => exact thirdPartyLogin_effect env saved _ _ _ _ users rfl rfl rfl

/-- `WeChatAuth` registers, enters or is rejected. -/
theorem weChatAuth_effect (env : UserEnvironment) (saved : Bool)
    (account : Except String String) (users : Users) :
    LoginEffect users (weChatAuth env saved account users) := by
  unfold weChatAuth
  split_ifs
  · exact .rejected rfl rfl
  cases account with
  | error text => exact .rejected rfl rfl
  | ok weChatId => exact thirdPartyLogin_effect env saved _ _ _ _ users rfl rfl rfl

end MessagePusher.Controller
