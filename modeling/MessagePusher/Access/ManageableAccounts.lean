import MessagePusher.Access.NameWrites

/-!
# Manageable accounts

Whether every row can be saved by the page for users, logged in to and pushed to. That is a matter
of the username, the display name and the email, which the page sends along. `Register` checks no
least length, `CreateUser` checks nothing, a third-party login takes the display name and the email
from the profile and numbers the username, and nothing keeps a slash out of a username.
-/

namespace MessagePusher.Access

open Common Model Store Middleware Controller Semantics

/-- A username of 1 to 12 characters, and a display name of at most 20. -/
def ManageableNames (username displayName : String) : Prop :=
  (1 ≤ username.length ∧ username.length ≤ 12) ∧ displayName.length ≤ 20

instance (username displayName : String) : Decidable (ManageableNames username displayName) :=
  inferInstanceAs (Decidable (_ ∧ _))

/-- What the page sends to save a user as it is: the data of `GetUser`, and no new password. -/
def savedForm (row : User) : UserForm := { toUser := row.brief }

/-- `:username` of the route `/push/:username`, in a path that has been decoded: the rest of it, if
that is one segment. -/
def pushParam (path : String) : Option String :=
  if Text.hasPrefix path "/push/" then
    let name := path.toList.drop 6
    if name = [] ∨ '/' ∈ name then none else some (String.ofList name)
  else none

/-- The row can be managed: its names are within the bounds, the page can save it, a log-in with its
username finds it, and so does a push. -/
structure Manageable (users : Users) (row : User) : Prop where
  names : ManageableNames row.username row.displayName
  valid : (withPlaceholder (savedForm row)).validate = none
  login : ∀ passwords password, password ≠ "" → row.status = userStatusEnabled →
    passwords.validate password row.password = true →
      validateAndFill passwords users { username := row.username, password } = .ok row
  push : ∃ path username, pushParam path = some username ∧
    fillUserByUsername users { username } = .ok row

/-- What that comes to: names within the bounds, no slash in the username, and an email that the
validator takes. -/
def ManageableFields (username displayName email : String) : Prop :=
  ManageableNames username displayName ∧ '/' ∉ username.toList ∧ email.length ≤ 50

instance (username displayName email : String) :
    Decidable (ManageableFields username displayName email) :=
  inferInstanceAs (Decidable (_ ∧ _))

/-- The columns of the row meet that. -/
def ManageableRow (row : User) : Prop := ManageableFields row.username row.displayName row.email

instance (row : User) : Decidable (ManageableRow row) := inferInstanceAs (Decidable (_ ∧ _))

/-! ### The validator -/

theorem lengthError_eq_none_iff {field value : String} {least greatest : Nat} :
    lengthError (field, value, least, greatest) = none ↔
      least ≤ value.length ∧ value.length ≤ greatest := by
  unfold lengthError
  dsimp only
  split_ifs with short long
  · exact iff_of_false (fun claim => by cases claim) (by omega)
  · exact iff_of_false (fun claim => by cases claim) (by omega)
  · exact iff_of_true rfl (by omega)

theorem validate_eq_none_iff {form : UserForm} :
    form.validate = none ↔
      form.username.length ≤ 12 ∧ (8 ≤ form.password.length ∧ form.password.length ≤ 20) ∧
        form.displayName.length ≤ 20 ∧ form.email.length ≤ 50 := by
  have noErrors : form.validate = none ↔ ∀ bounds ∈ form.lengths, lengthError bounds = none := by
    unfold UserForm.validate
    rw [← List.filterMap_eq_nil_iff]
    cases form.lengths.filterMap lengthError with
    | nil => exact iff_of_true rfl rfl
    | cons first rest => exact iff_of_false (fun claim => by cases claim) (by simp)
  rw [noErrors]
  simp [UserForm.lengths, lengthError_eq_none_iff]

/-- A row passes the validator exactly when its names and its email are not too long. -/
theorem validate_savedForm_iff {row : User} :
    (withPlaceholder (savedForm row)).validate = none ↔
      row.username.length ≤ 12 ∧ row.displayName.length ≤ 20 ∧ row.email.length ≤ 50 := by
  have placeholder : placeholderPassword.length = 9 := rfl
  rw [validate_eq_none_iff]
  simp [withPlaceholder, savedForm, User.brief, placeholder]

/-! ### Finding a row by its username -/

theorem username_ne_empty_iff {username : String} : username ≠ "" ↔ 1 ≤ username.length := by
  rw [ne_eq, ← String.length_eq_zero_iff, Nat.one_le_iff_ne_zero]

/-- A username is the parameter of a path exactly if it is a segment. -/
theorem exists_pushParam_iff {username : String} :
    (∃ path, pushParam path = some username) ↔ username ≠ "" ∧ '/' ∉ username.toList := by
  constructor
  · rintro ⟨path, found⟩
    unfold pushParam at found
    dsimp only at found
    split_ifs at found with begins segment
    obtain rfl := Option.some.inj found
    rw [not_or] at segment
    refine ⟨fun empty => segment.1 ?_, by rw [String.toList_ofList]; exact segment.2⟩
    simpa using congrArg String.toList empty
  · rintro ⟨named, segment⟩
    refine ⟨"/push/" ++ username, ?_⟩
    have chars : ("/push/" ++ username).toList = "/push/".toList ++ username.toList :=
      String.toList_append
    have begins : Text.hasPrefix ("/push/" ++ username) "/push/" = true := by
      rw [Text.hasPrefix, chars]
      exact List.isPrefixOf_iff_prefix.mpr (List.prefix_append _ _)
    have rest : ("/push/" ++ username).toList.drop 6 = username.toList := by
      rw [chars]
      rfl
    have one : ¬ (username.toList = [] ∨ '/' ∈ username.toList) := by
      rintro (empty | slash)
      · exact named (String.toList_eq_nil_iff.mp empty)
      · exact segment slash
    unfold pushParam
    rw [if_pos begins, rest]
    dsimp only
    rw [if_neg one, String.ofList_toList]

section Rows

variable {users : Users} {row : User}

/-- Usernames are unique, so the first row of a name is the only one. -/
theorem first_username (member : row ∈ users.rows) :
    (users.first fun other => other.username = row.username) = some row := by
  have accepted : decide (row.username = row.username) = true := decide_eq_true rfl
  have named : (users.first fun other => other.username = row.username).isSome :=
    Table.first_isSome_iff.mpr ⟨row, member, accepted⟩
  obtain ⟨found, first⟩ := Option.isSome_iff_exists.mp named
  have found_accepted := Table.first_accepts first
  have same : found.username = row.username := of_decide_eq_true found_accepted
  have one : found = row :=
    Table.eq_of_clash users (Table.first_mem first) member (decide_eq_true same)
  rw [first, one]

/-- A row can be managed exactly when its columns meet the bounds. -/
theorem manageable_iff (member : row ∈ users.rows) : Manageable users row ↔ ManageableRow row := by
  have first := first_username member
  constructor
  · intro manageable
    obtain ⟨path, username, param, found⟩ := manageable.push
    obtain ⟨named, segment⟩ := exists_pushParam_iff.mp ⟨path, param⟩
    have own : username = row.username := by
      unfold fillUserByUsername at found
      rw [if_neg named] at found
      cases lookup : users.first fun other => other.username = username with
      | none =>
          rw [lookup] at found
          rw [← Except.ok.inj found]
          rfl
      | some other =>
          rw [lookup] at found
          have accepted := Table.first_accepts lookup
          have same : other.username = username := of_decide_eq_true accepted
          rw [← same]
          exact congrArg User.username (Except.ok.inj found)
    rw [own] at segment
    exact ⟨manageable.names, segment, (validate_savedForm_iff.mp manageable.valid).2.2⟩
  · rintro ⟨names, segment, email⟩
    have named : row.username ≠ "" := username_ne_empty_iff.mpr names.1.1
    obtain ⟨path, param⟩ := exists_pushParam_iff.mpr ⟨named, segment⟩
    refine ⟨names, validate_savedForm_iff.mpr ⟨names.1.2, names.2, email⟩, ?_,
      path, row.username, param, ?_⟩
    · intro passwords password given enabled matches_
      have both : ¬ (row.username = "" ∨ password = "") := by
        rintro (empty | empty)
        · exact named empty
        · exact given empty
      unfold validateAndFill
      dsimp only
      rw [if_neg both, first, Option.getD_some, if_pos ⟨matches_, enabled⟩]
    · unfold fillUserByUsername
      rw [if_neg named, first]
      rfl

end Rows

/-! ### Saving a row -/

/-- An administrator who ranks above a user saves it unchanged. -/
def Savable (users : Users) (row : User) : Prop :=
  ∀ env myRole body, row.role < myRole →
    Json.decodeInto UserForm.jsonFields body {} = some (savedForm row) →
      ∃ next, updateUser env myRole body users = succeed next ∧
        users.Rewrites next row.id (some row)

section Rows

variable {users : Users} {row : User}

theorem admitUpdate_savedForm (member : row ∈ users.rows) (identified : row.id ≠ 0)
    (valid : (withPlaceholder (savedForm row)).validate = none) {myRole : Int}
    (outranks : row.role < myRole) {body : Option Json}
    (decoded : Json.decodeInto UserForm.jsonFields body {} = some (savedForm row)) :
    admitUpdate myRole body users =
      .ok { id := row.id, username := row.username, displayName := row.displayName } := by
  have found : users.rowAt row.id = some row := Table.rowAt_of_mem member
  have loaded : getUserById users row.id false = .ok row.brief := by
    simp [getUserById, identified, found]
  have notBelow : ¬ myRole ≤ row.brief.role := Int.not_le.mpr outranks
  have notRaised : ¬ myRole ≤ (withPlaceholder (savedForm row)).role := Int.not_le.mpr outranks
  have sameId : (withPlaceholder (savedForm row)).id = row.id := rfl
  have withId : ¬ (savedForm row).id = 0 := identified
  unfold admitUpdate
  rw [decoded]
  dsimp only
  rw [if_neg withId]
  simp only [bind, Except.bind, pure, Except.pure, valid, sameId, loaded, if_neg notBelow,
    if_neg notRaised]
  rfl

/-- A row that passes the validator can be saved. -/
theorem savable_of_valid (valid : (withPlaceholder (savedForm row)).validate = none)
    (member : row ∈ users.rows) (identified : row.id ≠ 0) : Savable users row := by
  intro env myRole body outranks decoded
  have found : users.rowAt row.id = some row := Table.rowAt_of_mem member
  have unchanged : User.applyNonZero
      { id := row.id, username := row.username, displayName := row.displayName } row = row := by
    simp [User.applyNonZero, keepString, keepInt]
  obtain ⟨done, writes⟩ := @User.update_row env.passwords
    { id := row.id, username := row.username, displayName := row.displayName } row users identified
    found rfl
  rw [unchanged] at writes
  refine ⟨_, ?_, writes⟩
  rw [updateUser, admitUpdate_savedForm member identified valid outranks decoded]
  simp only [ne_eq, not_true_eq_false, decide_false]
  cases result : User.update env.passwords
      { id := row.id, username := row.username, displayName := row.displayName } false users with
  | mk next failure =>
      rw [result] at done
      obtain rfl : failure = none := done
      rfl

end Rows

/-! ### The names that the requests write -/

/-- A numbered username of seven more characters has room for five digits. -/
theorem length_numbered_le_iff {stem : String} {number : Int} (seven : stem.length = 7)
    (nonneg : 0 ≤ number) :
    (1 ≤ (stem ++ Text.itoa number).length ∧ (stem ++ Text.itoa number).length ≤ 12) ↔
      number < 100000 := by
  have room := @Text.length_itoa_le_iff number nonneg 5 (by decide)
  rw [String.length_append, seven]
  omega

/-- A number is written without slashes. -/
theorem no_slash_numbered {stem : String} (plain : '/' ∉ stem.toList) {number : Int}
    (nonneg : 0 ≤ number) : '/' ∉ (stem ++ Text.itoa number).toList := by
  rw [String.toList_append, List.mem_append, not_or]
  refine ⟨plain, fun member => ?_⟩
  rw [Text.itoa_of_nonneg nonneg] at member
  have written : '/' ∈ Nat.toDigits 10 number.toNat := by simpa using member
  have digit := Nat.isDigit_of_mem_toDigits (by decide) (by decide) written
  exact absurd digit (by decide)

/-- The condition on a request. A username that is given with an insertion or a change of a profile
has no slash; `Register` is given one, `CreateUser` names that are not too long; and a third-party
login registers a user below the number 100000, with a short name and email. -/
def KeepsManageable (users : Users) : NamingRequest → Prop
  | .register env body => ∀ user, admitRegister env body = .ok user →
      (user.insert env.passwords users).2.isOk →
        user.username ≠ "" ∧ '/' ∉ user.username.toList
  | .createUser env myRole body => ∀ user, admitCreate myRole body = .ok user →
      (user.insert env.passwords users).2.isOk →
        user.username.length ≤ 12 ∧ '/' ∉ user.username.toList ∧ user.displayName.length ≤ 20
  | .gitHubOAuth env _ none (.ok account) =>
      ∀ user, gitHubRegistration env (.ok account) users = some user →
        (user.insert env.passwords users).2.isOk →
          getMaxUserId users + 1 < 100000 ∧ account.name.length ≤ 20 ∧ account.email.length ≤ 50
  | .weChatAuth env _ account => ∀ user, weChatRegistration env account users = some user →
      (user.insert env.passwords users).2.isOk → getMaxUserId users + 1 < 100000
  | request => ∀ passwords user, profileWrite users request = some (passwords, user) →
      (user.update passwords (user.password ≠ "") users).2 = none →
        (users.rowAt user.id).isSome → '/' ∉ user.username.toList

section Requests

variable {users : Users}

/-- The rows that a request writes can be managed. -/
def WritesManageable (users : Users) (request : NamingRequest) : Prop :=
  ∀ row, NameWritten users request row → ManageableRow row

theorem writesManageable_of_none {request : NamingRequest}
    (inserts : insertion users request = none) (renames : profileWrite users request = none) :
    WritesManageable users request :=
  fun row written => absurd written (not_nameWritten inserts renames row)

theorem writesManageable_iff {request : NamingRequest} {passwords : Passwords} {user : User}
    (inserts : insertion users request = some (passwords, user)) :
    WritesManageable users request ↔
      ((user.insert passwords users).2.isOk → ManageableRow user) :=
  @forall_nameWritten_iff _ _ _ _ inserts fun _ => ManageableFields

/-- `Register` checks the lengths from above; what is left is that the username is none or has a
slash. -/
theorem keepsManageable_register (env : UserEnvironment) (body : Option Json) :
    WritesManageable users (.register env body) ↔ KeepsManageable users (.register env body) := by
  cases admitted : admitRegister env body with
  | error text =>
      refine iff_of_true (writesManageable_of_none (by rw [insertion, admitted]; rfl) rfl) ?_
      intro user there
      rw [admitted] at there
      cases there
  | ok user =>
      refine (writesManageable_iff (by rw [insertion, admitted]; rfl)).trans ?_
      obtain ⟨form, -, valid, rfl⟩ := admitRegister_ok admitted
      obtain ⟨short, -, -, email⟩ := validate_eq_none_iff.mp valid
      constructor
      · intro holds other there accepted
        obtain rfl := Except.ok.inj (admitted.symm.trans there)
        obtain ⟨names, segment, -⟩ := holds accepted
        exact ⟨username_ne_empty_iff.mpr names.1.1, segment⟩
      · intro keeps accepted
        obtain ⟨given, segment⟩ := keeps _ admitted accepted
        have named := username_ne_empty_iff.mp given
        have noEmail : ("" : String).length ≤ 50 := Nat.zero_le _
        refine ⟨⟨⟨named, short⟩, Nat.le_trans short (by decide)⟩, segment, ?_⟩
        unfold registeredUser
        dsimp only
        split_ifs
        · exact email
        · exact noEmail

/-- `CreateUser` checks that there is a username, and no lengths. -/
theorem keepsManageable_createUser (env : UserEnvironment) (myRole : Int) (body : Option Json) :
    WritesManageable users (.createUser env myRole body) ↔
      KeepsManageable users (.createUser env myRole body) := by
  cases admitted : admitCreate myRole body with
  | error text =>
      refine iff_of_true (writesManageable_of_none (by rw [insertion, admitted]; rfl) rfl) ?_
      intro user there
      rw [admitted] at there
      cases there
  | ok user =>
      refine (writesManageable_iff (by rw [insertion, admitted]; rfl)).trans ?_
      obtain ⟨form, -, named, rfl⟩ := admitCreate_ok admitted
      constructor
      · intro holds other there accepted
        obtain rfl := Except.ok.inj (admitted.symm.trans there)
        obtain ⟨names, segment, -⟩ := holds accepted
        exact ⟨names.1.2, segment, names.2⟩
      · intro keeps accepted
        obtain ⟨short, segment, display⟩ := keeps _ admitted accepted
        exact ⟨⟨⟨username_ne_empty_iff.mp named, short⟩, display⟩, segment, Nat.zero_le _⟩

/-- An account of a third party without a name gets a short one. -/
theorem length_gitHubDisplayName_le_iff (account : GitHubUser) :
    (gitHubNewUser account users).displayName.length ≤ 20 ↔ account.name.length ≤ 20 := by
  unfold gitHubNewUser
  dsimp only
  split_ifs with blank
  · rw [blank]
    exact iff_of_true (by decide) (by decide)
  · rfl

/-- The first login through GitHub takes the display name and the email from the profile. -/
theorem keepsManageable_gitHubOAuth (positive : ∀ row ∈ users.rows, 0 < row.id)
    (env : UserEnvironment) (saved : Bool) (session : Option Session)
    (account : Except String GitHubUser) :
    WritesManageable users (.gitHubOAuth env saved session account) ↔
      KeepsManageable users (.gitHubOAuth env saved session account) := by
  cases session with
  | some session =>
      exact iff_of_true (writesManageable_of_none rfl rfl) fun _ _ there => by cases there
  | none =>
      cases account with
      | error text =>
          exact iff_of_true (writesManageable_of_none rfl rfl) fun _ _ there => by cases there
      | ok account =>
          cases registers : gitHubRegistration env (.ok account) users with
          | none =>
              refine iff_of_true
                (writesManageable_of_none (by rw [insertion, registers]; rfl) rfl) ?_
              intro user there
              rw [registers] at there
              cases there
          | some user =>
              refine (writesManageable_iff (by rw [insertion, registers]; rfl)).trans ?_
              obtain ⟨profile, same, rfl⟩ := gitHubRegistration_some registers
              obtain rfl := Except.ok.inj same
              have nonneg := getMaxUserId_nonneg positive
              have segment := no_slash_numbered (show '/' ∉ "github_".toList by decide)
                (show 0 ≤ getMaxUserId users + 1 by omega)
              have manageable : ManageableRow (gitHubNewUser account users) ↔
                  getMaxUserId users + 1 < 100000 ∧ account.name.length ≤ 20 ∧
                    account.email.length ≤ 50 := by
                refine (and_congr (and_congr (length_numbered_le_iff rfl (by omega))
                  (length_gitHubDisplayName_le_iff account)) (and_iff_right segment)).trans ?_
                exact and_assoc
              rw [manageable]
              constructor
              · intro holds other there accepted
                obtain rfl := Option.some.inj (registers.symm.trans there)
                exact holds accepted
              · exact fun keeps => keeps _ registers

theorem keepsManageable_weChatAuth (positive : ∀ row ∈ users.rows, 0 < row.id)
    (env : UserEnvironment) (saved : Bool) (account : Except String String) :
    WritesManageable users (.weChatAuth env saved account) ↔
      KeepsManageable users (.weChatAuth env saved account) := by
  cases registers : weChatRegistration env account users with
  | none =>
      refine iff_of_true (writesManageable_of_none (by rw [insertion, registers]; rfl) rfl) ?_
      intro user there
      rw [registers] at there
      cases there
  | some user =>
      refine (writesManageable_iff (by rw [insertion, registers]; rfl)).trans ?_
      obtain ⟨weChatId, -, rfl⟩ := weChatRegistration_some registers
      have nonneg := getMaxUserId_nonneg positive
      have displayName : "WeChat User".length ≤ 20 := by decide
      have noEmail : ("" : String).length ≤ 50 := Nat.zero_le _
      have segment := no_slash_numbered (show '/' ∉ "wechat_".toList by decide)
        (show 0 ≤ getMaxUserId users + 1 by omega)
      have manageable : ManageableRow (weChatNewUser weChatId users) ↔
          getMaxUserId users + 1 < 100000 :=
        (and_iff_left ⟨segment, noEmail⟩).trans
          ((and_iff_left displayName).trans (length_numbered_le_iff rfl (by omega)))
      rw [manageable]
      constructor
      · intro holds other there accepted
        obtain rfl := Option.some.inj (registers.symm.trans there)
        exact holds accepted
      · exact fun keeps => keeps _ registers

/-- A profile that passed the validator, written over a row that can be managed, leaves nothing but
the slash to check. -/
theorem manageable_keepString {form : UserForm} {old : User} (valid : form.validate = none)
    (manageable : ManageableRow old) :
    ManageableFields (keepString form.username old.username)
        (keepString form.displayName old.displayName) old.email ↔ '/' ∉ form.username.toList := by
  obtain ⟨username, -, displayName, -⟩ := validate_eq_none_iff.mp valid
  obtain ⟨⟨oldUsername, oldDisplayName⟩, segment, email⟩ := manageable
  have names : ManageableNames (keepString form.username old.username)
      (keepString form.displayName old.displayName) := by
    refine ⟨?_, ?_⟩
    · unfold keepString
      split_ifs with blank
      · exact oldUsername
      · exact ⟨username_ne_empty_iff.mp blank, username⟩
    · unfold keepString
      split_ifs
      · exact oldDisplayName
      · exact displayName
  refine (and_iff_right names).trans ((and_iff_left email).trans ?_)
  unfold keepString
  split_ifs with blank
  · rw [blank]
    exact iff_of_true segment (by simp)
  · rfl

/-- A change of a profile keeps the rows manageable exactly when the username that it writes has no
slash. -/
theorem keepsManageable_profile (each : ∀ row ∈ users.rows, ManageableRow row)
    {request : NamingRequest} (inserts : insertion users request = none)
    (valid : ∀ passwords user, profileWrite users request = some (passwords, user) →
      ∃ form : UserForm, form.validate = none ∧ user.username = form.username ∧
        user.displayName = form.displayName) :
    WritesManageable users request ↔ ∀ passwords user,
      profileWrite users request = some (passwords, user) →
        (user.update passwords (user.password ≠ "") users).2 = none →
          (users.rowAt user.id).isSome → '/' ∉ user.username.toList := by
  constructor
  · intro holds passwords user there done found
    obtain ⟨old, found⟩ := Option.isSome_iff_exists.mp found
    obtain ⟨form, passes, username, displayName⟩ := valid passwords user there
    have written := holds _ (.renamed there done found)
    unfold ManageableRow at written
    dsimp only at written
    rw [username, displayName] at written
    rw [username]
    exact (manageable_keepString passes (each old (Table.rowAt_mem found))).mp written
  · intro keeps row written
    cases written with
    | inserted there =>
        rw [inserts] at there
        cases there
    | @renamed passwords user old there done found =>
        obtain ⟨form, passes, username, displayName⟩ := valid passwords user there
        have segment := keeps passwords user there done (by rw [found]; rfl)
        rw [username] at segment
        unfold ManageableRow
        dsimp only
        rw [username, displayName]
        exact (manageable_keepString passes (each old (Table.rowAt_mem found))).mpr segment

/-- A request keeps all users manageable exactly when it meets its condition. -/
theorem serveNaming_manageable_iff (positive : ∀ row ∈ users.rows, 0 < row.id)
    (each : ∀ row ∈ users.rows, ManageableRow row) (request : NamingRequest) :
    (∀ row ∈ (serveNaming users request).rows, ManageableRow row) ↔
      KeepsManageable users request := by
  refine (@forall_rows_serveNaming_iff _ (fun _ => ManageableFields) each request).trans ?_
  change WritesManageable users request ↔ _
  cases request with
  | register env body => exact keepsManageable_register env body
  | createUser env myRole body => exact keepsManageable_createUser env myRole body
  | updateUser env myRole body =>
      refine keepsManageable_profile each rfl fun passwords user there => ?_
      cases admitted : admitUpdate myRole body users with
      | error text =>
          rw [profileWrite, admitted] at there
          cases there
      | ok admittedUser =>
          rw [profileWrite, admitted] at there
          obtain ⟨-, rfl⟩ := Prod.mk.inj (Option.some.inj there)
          obtain ⟨form, valid, rfl⟩ := admitUpdate_form admitted
          exact ⟨_, valid, rfl, rfl⟩
  | updateSelf env id body =>
      refine keepsManageable_profile each rfl fun passwords user there => ?_
      cases admitted : admitUpdateSelf id body with
      | error text =>
          rw [profileWrite, admitted] at there
          cases there
      | ok admittedUser =>
          rw [profileWrite, admitted] at there
          obtain ⟨-, rfl⟩ := Prod.mk.inj (Option.some.inj there)
          obtain ⟨form, valid, rfl⟩ := admitUpdateSelf_form admitted
          exact ⟨_, valid, rfl, rfl⟩
  | gitHubOAuth env saved session account =>
      exact keepsManageable_gitHubOAuth positive env saved session account
  | weChatAuth env saved account => exact keepsManageable_weChatAuth positive env saved account
  | _ => exact iff_of_true (writesManageable_of_none rfl rfl) fun _ _ there => by cases there

end Requests

/-! ### Runs -/

/-- In every run whose requests meet their condition every row can be managed, and an administrator
can save it as it is; and a request that does not meet it ends that. -/
theorem accounts_stay_manageable {users : Users}
    (reachable : (namings.guard KeepsManageable).Reachable users) :
    (∀ row ∈ users.rows, Manageable users row ∧ Savable users row) ∧
    ∀ request, (∀ row ∈ (serveNaming users request).rows,
        Manageable (serveNaming users request) row) ↔ KeepsManageable users request := by
  have positive : ∀ {users}, namings.Reachable users → ∀ row ∈ users.rows, 0 < row.id :=
    ids_positive
  have each : ∀ row ∈ users.rows, ManageableRow row := by
    refine @System.Reachable.guardInvariant _ _ namings KeepsManageable
      (fun users => ∀ row ∈ users.rows, 0 < row.id)
      (fun users => ∀ row ∈ users.rows, ManageableRow row) positive ?_ ?_ _ reachable
    · intro start initial row member
      obtain ⟨-, username, displayName, email⟩ := namings_initial initial row member
      rw [ManageableRow, username, displayName, email]
      decide
    · rintro before request _ ids each permitted rfl
      exact (serveNaming_manageable_iff ids each request).mpr permitted
  refine ⟨fun row member => ?_, fun request => ?_⟩
  · have manageable := (manageable_iff member).mpr (each row member)
    have identified : row.id ≠ 0 := Int.ne_of_gt (positive reachable.ofGuard row member)
    exact ⟨manageable, savable_of_valid manageable.valid member identified⟩
  · refine Iff.trans (forall₂_congr fun row member => manageable_iff member) ?_
    exact serveNaming_manageable_iff (positive reachable.ofGuard) each request

/-! ### Two runs -/

/-- After a first login through WeChat the administrators and the pushes find the new user. -/
theorem accounts_stay_manageable_weChat :
    let users := serveNaming rootTable (.weChatAuth openEnvironment true (.ok "wx"))
    (∃ row ∈ users.rows, row.username = "wechat_2") ∧
      ∀ row ∈ users.rows, Manageable users row ∧ Savable users row := by
  have started : (namings.guard KeepsManageable).Reachable rootTable := .initial rootTable_initial
  have numbered : KeepsManageable rootTable (.weChatAuth openEnvironment true (.ok "wx")) :=
    fun _ _ _ => by decide
  have registered := started.permit rfl numbered
  exact ⟨by decide, (accounts_stay_manageable registered).1⟩

/-- A visitor registers without a name. -/
theorem register_without_name :
    ¬ ∀ users, namings.Reachable users → ∀ row ∈ users.rows, Manageable users row := by
  intro claimed
  let body : Option Json := some (.object [("password", .string "12345678")])
  have registered : namings.Reachable (serveNaming rootTable (.register openEnvironment body)) :=
    (System.Reachable.initial rootTable_initial).step rfl
  have nameless : ∃ row ∈ (serveNaming rootTable (.register openEnvironment body)).rows,
      ¬ ManageableNames row.username row.displayName := by decide
  obtain ⟨row, member, unmanageable⟩ := nameless
  exact unmanageable (claimed _ registered row member).names

end MessagePusher.Access
