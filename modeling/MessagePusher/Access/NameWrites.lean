import MessagePusher.Controller.UserEffects
import MessagePusher.Model.Main
import MessagePusher.Semantics.Transition

/-!
# The requests that name users

`namings` runs the handlers that insert, rename or delete rows of the users table, starting from
the table that the first start of the program leaves. `NameEffect` lists the statements that they
end in.
-/

namespace MessagePusher.Access

open Common Model Store Middleware Controller Semantics

inductive NamingRequest where
  | register (env : UserEnvironment) (body : Option Json)
  | createUser (env : UserEnvironment) (myRole : Int) (body : Option Json)
  | updateUser (env : UserEnvironment) (myRole : Int) (body : Option Json)
  | updateSelf (env : UserEnvironment) (id : Int) (body : Option Json)
  | gitHubOAuth (env : UserEnvironment) (saved : Bool) (session : Option Session)
      (account : Except String GitHubUser)
  | weChatAuth (env : UserEnvironment) (saved : Bool) (account : Except String String)
  | weChatBind (env : UserEnvironment) (id : Int) (account : Except String String)
  | manageUser (env : UserEnvironment) (myRole : Int) (body : Option Json)
  | deleteUser (myRole : Int) (idParam : String)
  | deleteSelf (id : Int)

/-- The table after a request. -/
def serveNaming (users : Users) : NamingRequest → Users
  | .register env body => (register env body users).users
  | .createUser env myRole body => (createUser env myRole body users).users
  | .updateUser env myRole body => (updateUser env myRole body users).users
  | .updateSelf env id body => (updateSelf env id body users).users
  | .gitHubOAuth env saved session account => (gitHubOAuth env saved session account users).users
  | .weChatAuth env saved account => (weChatAuth env saved account users).users
  | .weChatBind env id account => (weChatBind env id account users).users
  | .manageUser env myRole body => (manageUser env myRole body users).users
  | .deleteUser myRole idParam => (deleteUser myRole idParam users).users
  | .deleteSelf id => (deleteSelf id users).users

/-- One request at a time, from an empty table or one with the root account alone. -/
def namings : System Users NamingRequest where
  Initial users := ∃ passwords blank, blank.rows = [] ∧
    users = (createRootAccountIfNeed passwords blank).1
  Step users request next := next = serveNaming users request

/-- The user that a request is about to insert, if any. -/
def insertion (users : Users) : NamingRequest → Option (Passwords × User)
  | .register env body => (admitRegister env body).toOption.map (env.passwords, ·)
  | .createUser env myRole body => (admitCreate myRole body).toOption.map (env.passwords, ·)
  | .gitHubOAuth env _ none account =>
      (gitHubRegistration env account users).map (env.passwords, ·)
  | .weChatAuth env _ account => (weChatRegistration env account users).map (env.passwords, ·)
  | _ => none

/-- The struct with which a request is about to write a profile, if any. -/
def profileWrite (users : Users) : NamingRequest → Option (Passwords × User)
  | .updateUser env myRole body => (admitUpdate myRole body users).toOption.map (env.passwords, ·)
  | .updateSelf env id body => (admitUpdateSelf id body).toOption.map (env.passwords, ·)
  | _ => none

/-- The statement in which a request ends. -/
inductive NameEffect (users : Users) (request : NamingRequest) : Users → Prop where
  | nothing (inserts : insertion users request = none)
      (renames : profileWrite users request = none) : NameEffect users request users
  | inserted {passwords : Passwords} {user : User}
      (inserts : insertion users request = some (passwords, user)) :
      NameEffect users request (user.insert passwords users).1
  | renamed {passwords : Passwords} {user : User}
      (renames : profileWrite users request = some (passwords, user)) (mailless : user.email = "") :
      NameEffect users request (user.update passwords (user.password ≠ "") users).1
  /-- The struct has the names and the email of the row that it is written to. -/
  | touched {passwords : Passwords} {user : User} (inserts : insertion users request = none)
      (renames : profileWrite users request = none)
      (named : ∀ row, users.rowAt user.id = some row → user.username = row.username ∧
        user.displayName = row.displayName ∧ user.email = row.email) :
      NameEffect users request (user.update passwords false users).1
  | deleted (key : Int) (inserts : insertion users request = none)
      (renames : profileWrite users request = none) : NameEffect users request (users.delete key)

section Requests

variable {users : Users}

/-- A bind writes the row that it read. -/
theorem fillUserById_named {id : Int} {blank user : User} (unnamed : blank.id = id)
    (filled : fillUserById users blank = .ok user) :
    user.id = id ∧ ∀ row, users.rowAt user.id = some row → user.username = row.username ∧
      user.displayName = row.displayName ∧ user.email = row.email := by
  have key : user.id = id := (fillUserById_id filled).trans unnamed
  refine ⟨key, fun row found => ?_⟩
  unfold fillUserById at filled
  split_ifs at filled
  rw [unnamed, ← key, found] at filled
  obtain rfl := Except.ok.inj filled
  exact ⟨rfl, rfl, rfl⟩

theorem nameEffect_gitHubBind (env : UserEnvironment) (saved : Bool) (session : Session)
    (account : Except String GitHubUser) :
    NameEffect users (.gitHubOAuth env saved (some session) account)
      (gitHubBind env session.id account users).users := by
  unfold gitHubBind
  split_ifs
  · exact .nothing rfl rfl
  cases account with
  | error text => exact .nothing rfl rfl
  | ok account =>
      dsimp only
      split_ifs
      · exact .nothing rfl rfl
      cases filled : fillUserById users { id := session.id, gitHubId := account.login } with
      | error text => exact .nothing rfl rfl
      | ok user =>
          have named := (fillUserById_named rfl filled).2
          have effect : NameEffect users (.gitHubOAuth env saved (some session) (.ok account))
              (({ user with gitHubId := account.login } : User).update env.passwords false
                users).1 := .touched rfl rfl named
          dsimp only
          cases result : ({ user with gitHubId := account.login } : User).update env.passwords
              false users with
          | mk next failure =>
              rw [result] at effect
              cases failure with
              | none => exact effect
              | some text => exact effect

theorem nameEffect_weChatBind (env : UserEnvironment) (id : Int)
    (account : Except String String) :
    NameEffect users (.weChatBind env id account) (weChatBind env id account users).users := by
  unfold weChatBind
  split_ifs
  · exact .nothing rfl rfl
  cases account with
  | error text => exact .nothing rfl rfl
  | ok weChatId =>
      dsimp only
      split_ifs
      · exact .nothing rfl rfl
      cases filled : fillUserById users { id } with
      | error text => exact .nothing rfl rfl
      | ok user =>
          have named := (fillUserById_named rfl filled).2
          have effect : NameEffect users (.weChatBind env id (.ok weChatId))
              (({ user with weChatId } : User).update env.passwords false users).1 :=
            .touched rfl rfl named
          dsimp only
          cases result : ({ user with weChatId } : User).update env.passwords false users with
          | mk next failure =>
              rw [result] at effect
              cases failure with
              | none => exact effect
              | some text => exact effect

theorem nameEffect_manageUser (env : UserEnvironment) (myRole : Int) (body : Option Json) :
    NameEffect users (.manageUser env myRole body) (manageUser env myRole body users).users := by
  unfold manageUser
  cases admitted : admitManage myRole body users with
  | error text => exact .nothing rfl rfl
  | ok result =>
      obtain ⟨action, row, managed⟩ := result
      obtain ⟨-, identified, found, -, effect⟩ := admitManage_ok admitted
      have columns := manageAction_columns (admitManage_action admitted)
      have id : managed.user.id = row.id := by rw [columns]
      dsimp only
      rw [id]
      cases managed.deletes with
      | true =>
          have identified' : managed.user.id ≠ 0 := by rwa [id]
          have missing : (users.delete row.id).rowAt managed.user.id = none := by simp [id]
          rw [if_pos rfl, User.update_missing env.passwords identified' missing]
          exact .deleted row.id rfl rfl
      | false =>
          have named : ∀ other, users.rowAt managed.user.id = some other →
              managed.user.username = other.username ∧
                managed.user.displayName = other.displayName ∧ managed.user.email = other.email := by
            intro other foundOther
            rw [id, found] at foundOther
            obtain rfl := Option.some.inj foundOther
            rw [columns]
            exact ⟨rfl, rfl, rfl⟩
          have written : NameEffect users (.manageUser env myRole body)
              (managed.user.update env.passwords false users).1 := .touched rfl rfl named
          simp only [Bool.false_eq_true, if_false]
          cases result : managed.user.update env.passwords false users with
          | mk next failure =>
              rw [result] at written
              cases failure with
              | none => exact written
              | some text => exact written

/-- Every request ends in one of the listed statements. -/
theorem serveNaming_effect (users : Users) (request : NamingRequest) :
    NameEffect users request (serveNaming users request) := by
  cases request with
  | register env body =>
      rw [serveNaming, register_eq]
      cases admitted : admitRegister env body with
      | error text => exact .nothing (by rw [insertion, admitted]; rfl) rfl
      | ok user =>
          dsimp only
          rw [users_answerInsert]
          exact .inserted (by rw [insertion, admitted]; rfl)
  | createUser env myRole body =>
      rw [serveNaming, createUser_eq]
      cases admitted : admitCreate myRole body with
      | error text => exact .nothing (by rw [insertion, admitted]; rfl) rfl
      | ok user =>
          dsimp only
          rw [users_answerInsert]
          exact .inserted (by rw [insertion, admitted]; rfl)
  | updateUser env myRole body =>
      rw [serveNaming, updateUser]
      cases admitted : admitUpdate myRole body users with
      | error text => exact .nothing rfl (by rw [profileWrite, admitted]; rfl)
      | ok user =>
          dsimp only
          rw [users_answerUpdate]
          obtain ⟨form, -, rfl⟩ := admitUpdate_form admitted
          exact .renamed (by rw [profileWrite, admitted]; rfl) rfl
  | updateSelf env id body =>
      rw [serveNaming, updateSelf]
      cases admitted : admitUpdateSelf id body with
      | error text => exact .nothing rfl (by rw [profileWrite, admitted]; rfl)
      | ok user =>
          dsimp only
          rw [users_answerUpdate]
          obtain ⟨form, -, rfl⟩ := admitUpdateSelf_form admitted
          exact .renamed (by rw [profileWrite, admitted]; rfl) rfl
  | gitHubOAuth env saved session account =>
      cases session with
      | some session => exact nameEffect_gitHubBind env saved session account
      | none =>
          rw [serveNaming, users_gitHubOAuth]
          cases registers : gitHubRegistration env account users with
          | none => exact .nothing (by rw [insertion, registers]; rfl) rfl
          | some user => exact .inserted (by rw [insertion, registers]; rfl)
  | weChatAuth env saved account =>
      rw [serveNaming, users_weChatAuth]
      cases registers : weChatRegistration env account users with
      | none => exact .nothing (by rw [insertion, registers]; rfl) rfl
      | some user => exact .inserted (by rw [insertion, registers]; rfl)
  | weChatBind env id account => exact nameEffect_weChatBind env id account
  | manageUser env myRole body => exact nameEffect_manageUser env myRole body
  | deleteUser myRole idParam =>
      rw [serveNaming, deleteUser]
      cases admitted : admitDelete myRole idParam users with
      | error text => exact .nothing rfl rfl
      | ok user =>
          simp only [deleteUserById, (admitDelete_ok admitted).1, if_false]
          exact .deleted user.id rfl rfl
  | deleteSelf id =>
      rw [serveNaming, deleteSelf]
      by_cases unset : id = 0
      · simp only [fillUserById, unset, if_true]
        exact .nothing rfl rfl
      · simp only [fillUserById, deleteUserById, unset, if_false]
        exact .deleted id rfl rfl

/-! ### The names that a request writes -/

/-- A row whose names a request writes. -/
inductive NameWritten (users : Users) (request : NamingRequest) : User → Prop where
  | inserted {passwords : Passwords} {user row : User}
      (inserts : insertion users request = some (passwords, user))
      (done : (user.insert passwords users).2 = .ok row) : NameWritten users request row
  | renamed {passwords : Passwords} {user old : User}
      (renames : profileWrite users request = some (passwords, user))
      (done : (user.update passwords (user.password ≠ "") users).2 = none)
      (found : users.rowAt user.id = some old) :
      NameWritten users request
        { old with
          username := keepString user.username old.username
          displayName := keepString user.displayName old.displayName }

theorem profileWrite_eq_none {request : NamingRequest} {written : Passwords × User}
    (inserts : insertion users request = some written) : profileWrite users request = none := by
  cases request with
  | updateUser => cases inserts
  | updateSelf => cases inserts
  | _ => rfl

/-- Where a request inserts, it writes the names of the new row only. -/
theorem NameWritten.stored {request : NamingRequest} {passwords : Passwords} {user row : User}
    (written : NameWritten users request row)
    (inserts : insertion users request = some (passwords, user)) :
    (user.insert passwords users).2 = .ok row := by
  cases written with
  | inserted there done =>
      obtain ⟨rfl, rfl⟩ := Prod.mk.inj (Option.some.inj (inserts.symm.trans there))
      exact done
  | renamed there =>
      rw [profileWrite_eq_none inserts] at there
      cases there

/-- Where a request changes a profile, it writes the names of that row only. -/
theorem NameWritten.edited {request : NamingRequest} {passwords : Passwords} {user row : User}
    (written : NameWritten users request row)
    (renames : profileWrite users request = some (passwords, user)) :
    (user.update passwords (user.password ≠ "") users).2 = none ∧
      ∃ old, users.rowAt user.id = some old ∧ row = { old with
        username := keepString user.username old.username
        displayName := keepString user.displayName old.displayName } := by
  cases written with
  | inserted there =>
      rw [profileWrite_eq_none there] at renames
      cases renames
  | renamed there done found =>
      obtain ⟨rfl, rfl⟩ := Prod.mk.inj (Option.some.inj (renames.symm.trans there))
      exact ⟨done, _, found, rfl⟩

theorem not_nameWritten {request : NamingRequest} (inserts : insertion users request = none)
    (renames : profileWrite users request = none) (row : User) :
    ¬ NameWritten users request row := by
  intro written
  cases written with
  | inserted there => exact absurd (inserts.symm.trans there) (by simp)
  | renamed there => exact absurd (renames.symm.trans there) (by simp)

/-- What every row has, every row has after a request exactly when the row whose names it writes
has it. -/
theorem forall_rows_serveNaming_iff {property : Int → String → String → String → Prop}
    (each : ∀ row ∈ users.rows, property row.id row.username row.displayName row.email)
    (request : NamingRequest) :
    (∀ row ∈ (serveNaming users request).rows,
        property row.id row.username row.displayName row.email) ↔
      ∀ row, NameWritten users request row →
        property row.id row.username row.displayName row.email := by
  have effect := serveNaming_effect users request
  generalize serveNaming users request = next at effect ⊢
  cases effect with
  | nothing inserts renames =>
      exact iff_of_true each fun row written => absurd written (not_nameWritten inserts renames row)
  | @inserted passwords user inserts =>
      rcases user.insert_cases passwords users with
        ⟨same, text, refused⟩ | ⟨stored, done, -, writes, -⟩
      · rw [same]
        refine iff_of_true each fun row written => ?_
        have done := written.stored inserts
        rw [refused] at done
        cases done
      · refine (writes.forall_rows_iff each).trans ⟨fun holds row written => ?_, ?_⟩
        · have stored_eq := written.stored inserts
          rw [done] at stored_eq
          obtain rfl := Except.ok.inj stored_eq
          exact holds stored rfl
        · rintro holds _ ⟨⟩
          exact holds stored (.inserted inserts done)
  | @renamed passwords user renames mailless =>
      rcases user.update_result passwords (user.password ≠ "") users with
        ⟨same, absent⟩ | ⟨old, hash, done, found, writes⟩
      · rw [same]
        refine iff_of_true each fun row written => ?_
        obtain ⟨done, old, found, -⟩ := written.edited renames
        rw [absent done] at found
        cases found
      · refine (writes.forall_rows_iff each).trans ⟨fun holds row written => ?_, ?_⟩
        · obtain ⟨-, other, foundOther, rfl⟩ := written.edited renames
          obtain rfl := Option.some.inj (found.symm.trans foundOther)
          have kept := holds _ rfl
          rw [mailless] at kept
          exact kept
        · rintro holds _ ⟨⟩
          have kept := holds _ (.renamed renames done found)
          rw [mailless]
          exact kept
  | @touched passwords user inserts renames named =>
      refine iff_of_true ?_ fun row written => absurd written (not_nameWritten inserts renames row)
      rcases user.update_result passwords false users with ⟨same, -⟩ | ⟨old, hash, -, found, writes⟩
      · rw [same]
        exact each
      · refine (writes.forall_rows_iff each).mpr ?_
        rintro _ ⟨⟩
        obtain ⟨username, displayName, email⟩ := named old found
        have kept := each old (Table.rowAt_mem found)
        simpa [User.applyNonZero, username, displayName, email] using kept
  | deleted key inserts renames =>
      refine iff_of_true ?_ fun row written => absurd written (not_nameWritten inserts renames row)
      exact fun row member => each row (Table.mem_delete.mp member).1

/-- No struct that is inserted has an id. -/
theorem insertion_unset {request : NamingRequest} {passwords : Passwords} {user : User}
    (inserts : insertion users request = some (passwords, user)) : user.id = 0 := by
  have admitted {result : Except String User} {other : Passwords}
      (unset : ∀ user, result = .ok user → user.id = 0)
      (inserts : result.toOption.map (other, ·) = some (passwords, user)) : user.id = 0 := by
    cases result with
    | error text => cases inserts
    | ok admitted =>
        obtain ⟨rfl, rfl⟩ := Prod.mk.inj (Option.some.inj inserts)
        exact unset admitted rfl
  cases request with
  | register env body =>
      refine admitted (fun user done => ?_) inserts
      obtain ⟨form, -, -, rfl⟩ := admitRegister_ok done
      rfl
  | createUser env myRole body =>
      refine admitted (fun user done => ?_) inserts
      obtain ⟨form, -, -, rfl⟩ := admitCreate_ok done
      rfl
  | gitHubOAuth env saved session account =>
      cases session with
      | some session => cases inserts
      | none =>
          obtain ⟨user, registers, same⟩ := Option.map_eq_some_iff.mp inserts
          obtain ⟨rfl, rfl⟩ := Prod.mk.inj same
          obtain ⟨profile, -, rfl⟩ := gitHubRegistration_some registers
          rfl
  | weChatAuth env saved account =>
      obtain ⟨user, registers, same⟩ := Option.map_eq_some_iff.mp inserts
      obtain ⟨rfl, rfl⟩ := Prod.mk.inj same
      obtain ⟨weChatId, -, rfl⟩ := weChatRegistration_some registers
      rfl
  | _ => cases inserts

/-- What is asked of the names of a request that inserts is asked of the inserted user. -/
theorem forall_nameWritten_iff {request : NamingRequest} {passwords : Passwords} {user : User}
    (inserts : insertion users request = some (passwords, user))
    {property : Int → String → String → String → Prop} :
    (∀ row, NameWritten users request row →
        property row.id row.username row.displayName row.email) ↔
      ((user.insert passwords users).2.isOk →
        property (users.counter + 1) user.username user.displayName user.email) := by
  have unset := insertion_unset inserts
  constructor
  · intro holds accepted
    cases done : (user.insert passwords users).2 with
    | error text =>
        rw [done] at accepted
        cases accepted
    | ok stored =>
        obtain ⟨hash, rfl, -, -⟩ := User.insert_ok unset done
        exact holds _ (.inserted inserts done)
  · intro holds row written
    cases written with
    | inserted there done =>
        obtain ⟨rfl, rfl⟩ := Prod.mk.inj (Option.some.inj (inserts.symm.trans there))
        obtain ⟨hash, rfl, -, -⟩ := User.insert_ok unset done
        exact holds (by rw [done]; rfl)
    | renamed there =>
        rw [profileWrite_eq_none inserts] at there
        cases there

/-- The counter never goes down. -/
theorem counter_serveNaming (users : Users) (request : NamingRequest) :
    users.counter ≤ (serveNaming users request).counter := by
  have effect := serveNaming_effect users request
  generalize serveNaming users request = next at effect ⊢
  cases effect with
  | nothing => exact Int.le_refl _
  | inserted => exact User.counter_insert _ _ _
  | renamed => exact Int.le_of_eq (User.counter_update _ _ _ _).symm
  | touched => exact Int.le_of_eq (User.counter_update _ _ _ _).symm
  | deleted => exact Int.le_refl _

/-- A key that is not above the counter stays free. -/
theorem rowAt_serveNaming_eq_none {request : NamingRequest} {key : Int}
    (free : users.rowAt key = none) (passed : key ≤ users.counter) :
    (serveNaming users request).rowAt key = none := by
  have updated (passwords : Passwords) (user : User) (updatePassword : Bool) :
      (user.update passwords updatePassword users).1.rowAt key = none := by
    rcases user.update_result passwords updatePassword users with
      ⟨same, -⟩ | ⟨old, hash, -, found, writes⟩
    · rw [same]
      exact free
    · have apart : key ≠ user.id := by
        rintro rfl
        rw [free] at found
        cases found
      rw [writes.elsewhere apart]
      exact free
  have effect := serveNaming_effect users request
  generalize serveNaming users request = next at effect ⊢
  cases effect with
  | nothing => exact free
  | @inserted passwords user inserts =>
      rcases user.insert_cases passwords users with ⟨same, -⟩ | ⟨stored, done, -⟩
      · rw [same]
        exact free
      · obtain ⟨hash, -, writes, -⟩ := User.insert_ok (insertion_unset inserts) done
        rw [writes.elsewhere (by omega)]
        exact free
  | renamed => exact updated _ _ _
  | touched => exact updated _ _ _
  | deleted other =>
      rw [Table.rowAt_delete, free]
      split_ifs <;> rfl

end Requests

/-- The only account that is there at the start is root. -/
theorem namings_initial {users : Users} (initial : namings.Initial users) :
    ∀ row ∈ users.rows, 0 < row.id ∧ row.username = "root" ∧ row.displayName = "Root User" ∧
      row.email = "" := by
  obtain ⟨passwords, blank, empty, rfl⟩ := initial
  have nobody : (blank.first fun _ => true) = none := by simp [Table.first, empty]
  unfold createRootAccountIfNeed
  rw [nobody]
  cases passwords.hash "123456" with
  | error text => simp [empty]
  | ok hash =>
      dsimp only
      cases inserted : Table.insert blank (rootAccount hash).withDefaults with
      | none => simp [empty]
      | some result =>
          obtain ⟨next, stored⟩ := result
          have positive : 0 < stored.id := by
            have nonneg := blank.counterNonneg
            have key : stored.id = blank.counter + 1 := (Table.insert_id_of_unset inserted rfl).1
            omega
          obtain ⟨-, rfl, -, -⟩ := Table.insert_spec inserted
          intro row member
          have origin := (Table.mem_insert inserted).mp member
          rw [empty] at origin
          obtain rfl : row = _ := by simpa using origin
          exact ⟨positive, rfl, rfl, rfl⟩

/-- Ids are positive, as the database hands them out. -/
theorem ids_positive {users : Users} (reachable : namings.Reachable users) :
    ∀ row ∈ users.rows, 0 < row.id := by
  apply reachable.invariant
  · exact fun initial row member => (namings_initial initial row member).1
  · rintro before request _ positive rfl
    have nonneg := before.counterNonneg
    refine (@forall_rows_serveNaming_iff _ (fun id _ _ _ => 0 < id) positive request).mpr ?_
    intro row written
    cases written with
    | inserted inserts done =>
        obtain ⟨hash, rfl, -, -⟩ := User.insert_ok (insertion_unset inserts) done
        show 0 < before.counter + 1
        omega
    | @renamed _ _ old _ _ found => exact positive old (Table.rowAt_mem found)

/-- The table after the first start. -/
def rootTable : Users :=
  (createRootAccountIfNeed { hash := .ok, validate := fun _ _ => false } .empty).1

theorem rootTable_initial : namings.Initial rootTable := ⟨_, _, rfl, rfl⟩

/-- Everything that the administrators can switch on is on. -/
def openEnvironment : UserEnvironment where
  settings :=
    { registerEnabled := true, passwordRegisterEnabled := true, gitHubOAuthEnabled := true
      weChatAuthEnabled := true }
  passwords := { hash := .ok, validate := fun _ _ => false }

end MessagePusher.Access
