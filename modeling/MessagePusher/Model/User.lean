import MessagePusher.Common.Json
import MessagePusher.Common.Constants
import MessagePusher.Model.Message

/-!
# Users

`User` holds the stored columns of the struct of `model/user.go`; `UserForm` adds
the verification code, which requests carry and the table does not. The
password functions come from `Passwords`, since bcrypt is not part of the program.
-/

namespace MessagePusher.Model

open Common Store

/-- The columns of the table `users`. -/
structure User where
  id : Int := 0
  username : String := ""
  password : String := ""
  displayName : String := ""
  role : Int := 0
  status : Int := 0
  token : String := ""
  email : String := ""
  gitHubId : String := ""
  weChatId : String := ""
  channel : String := ""
  sendEmailToOthers : Int := 0
  saveMessageToDatabase : Int := 0
deriving DecidableEq

/-- The Go struct `User` as a request decodes it. -/
structure UserForm extends User where
  verificationCode : String := ""
deriving DecidableEq

instance : Record User where
  id := User.id
  withId key row := { row with id := key }
  clash left right := left.username = right.username
  id_withId _ _ := rfl
  withId_id _ := rfl
  clash_comm left right := by simp only [eq_comm]

@[simp] theorem User.record_id (user : User) : Record.id user = user.id := rfl

@[simp] theorem User.record_withId (key : Int) (user : User) :
    Record.withId key user = { user with id := key } := rfl

/-- The table of users. -/
abbrev Users := Table User

/-- The JSON names of the fields of the Go struct. -/
def UserForm.jsonFields : List (Json.Field UserForm) :=
  [ Json.intField "id" fun value user => { user with id := value },
    Json.stringField "username" fun value user => { user with username := value },
    Json.stringField "password" fun value user => { user with password := value },
    Json.stringField "display_name" fun value user => { user with displayName := value },
    Json.intField "role" fun value user => { user with role := value },
    Json.intField "status" fun value user => { user with status := value },
    Json.stringField "token" fun value user => { user with token := value },
    Json.stringField "email" fun value user => { user with email := value },
    Json.stringField "github_id" fun value user => { user with gitHubId := value },
    Json.stringField "wechat_id" fun value user => { user with weChatId := value },
    Json.stringField "verification_code" fun value user => { user with verificationCode := value },
    Json.stringField "channel" fun value user => { user with channel := value },
    Json.intField "send_email_to_others" fun value user => { user with sendEmailToOthers := value },
    Json.intField "save_message_to_database" fun value user =>
      { user with saveMessageToDatabase := value } ]

/-- The length bounds of the `validate` tags: field, least and greatest number of characters. -/
def UserForm.lengths (form : UserForm) : List (String × String × Nat × Nat) :=
  [ ("Username", form.username, 0, 12),
    ("Password", form.password, 8, 20),
    ("DisplayName", form.displayName, 0, 20),
    ("Email", form.email, 0, 50) ]

/-- The line that the validator reports for a field, if its length is out of bounds. -/
def lengthError (bounds : String × String × Nat × Nat) : Option String :=
  let (field, value, least, greatest) := bounds
  let report (tag : String) : String :=
    "Key: 'User." ++ field ++ "' Error:Field validation for '" ++ field ++ "' failed on the '" ++
      tag ++ "' tag"
  if value.length < least then some (report "min")
  else if greatest < value.length then some (report "max")
  else none

/-- `Validate.Struct`: the error text, or nothing for a valid form. -/
def UserForm.validate (form : UserForm) : Option String :=
  match form.lengths.filterMap lengthError with
  | [] => none
  | errors => some (Text.join errors "\n")

/-- `Password2Hash` and `ValidatePasswordAndHash`. -/
structure Passwords where
  hash : String → Except String String
  validate : String → String → Bool

/-- The columns that `GetUserById` selects when it is not asked for all of them. -/
def User.brief (user : User) : User where
  id := user.id
  username := user.username
  displayName := user.displayName
  role := user.role
  status := user.status
  email := user.email
  weChatId := user.weChatId
  gitHubId := user.gitHubId
  channel := user.channel
  token := user.token
  saveMessageToDatabase := user.saveMessageToDatabase

/-- `GetUserById`; without `selectAll` some columns only. -/
def getUserById (users : Users) (id : Int) (selectAll : Bool) : Except String User :=
  if id = 0 then .error "id 为空！"
  else match users.rowAt id with
    | some row => .ok (if selectAll then row else row.brief)
    | none => .error recordNotFound

/-- A user loaded without the columns left out is the brief form of the row. -/
theorem getUserById_ok {users : Users} {id : Int} {user : User}
    (loaded : getUserById users id false = .ok user) :
    id ≠ 0 ∧ ∃ row, users.rowAt id = some row ∧ user = row.brief := by
  unfold getUserById at loaded
  by_cases unset : id = 0
  · simp [unset] at loaded
  · simp only [unset, if_false, Bool.false_eq_true] at loaded
    cases found : users.rowAt id with
    | none => simp [found] at loaded
    | some row =>
        simp only [found, Except.ok.injEq] at loaded
        exact ⟨unset, row, rfl, loaded.symm⟩

/-- The user that is loaded has the id that was asked for. -/
theorem getUserById_id {users : Users} {id : Int} {selectAll : Bool} {user : User}
    (loaded : getUserById users id selectAll = .ok user) : user.id = id := by
  unfold getUserById at loaded
  by_cases unset : id = 0
  · rw [if_pos unset] at loaded
    cases loaded
  · rw [if_neg unset] at loaded
    cases found : users.rowAt id with
    | none =>
        rw [found] at loaded
        cases loaded
    | some row =>
        rw [found] at loaded
        obtain rfl := Except.ok.inj loaded
        have key : row.id = id := Table.rowAt_id found
        split_ifs
        · exact key
        · exact key

/-- `GetMaxUserId`, zero for an empty table. -/
def getMaxUserId (users : Users) : Int :=
  (users.rows.getLast?.map User.id).getD 0

/-- No id is beyond the counter. -/
theorem getMaxUserId_le_counter (users : Users) : getMaxUserId users ≤ users.counter := by
  unfold getMaxUserId
  cases last : users.rows.getLast? with
  | none => exact users.counterNonneg
  | some row => exact users.bounded row (List.mem_of_getLast? last)

/-- No id is beyond the greatest one. -/
theorem id_le_getMaxUserId {users : Users} {row : User} (member : row ∈ users.rows) :
    row.id ≤ getMaxUserId users := by
  unfold getMaxUserId
  cases last : users.rows.getLast? with
  | none =>
      rw [List.getLast?_eq_none_iff.mp last] at member
      cases member
  | some greatest => exact Table.id_le_last last member

/-- The greatest id of a table with rows is the id of one. -/
theorem exists_getMaxUserId {users : Users} (filled : users.rows ≠ []) :
    ∃ row ∈ users.rows, row.id = getMaxUserId users := by
  unfold getMaxUserId
  cases last : users.rows.getLast? with
  | none => exact absurd (List.getLast?_eq_none_iff.mp last) filled
  | some row => exact ⟨row, List.mem_of_getLast? last, rfl⟩

theorem getMaxUserId_nonneg {users : Users} (positive : ∀ row ∈ users.rows, 0 < row.id) :
    0 ≤ getMaxUserId users := by
  by_cases filled : users.rows = []
  · rw [getMaxUserId, filled]
    exact Int.le_refl 0
  · obtain ⟨row, member, greatest⟩ := exists_getMaxUserId filled
    rw [← greatest]
    exact Int.le_of_lt (positive row member)

/-- `FillUserByUsername`; an absent user leaves the struct as it was. -/
def fillUserByUsername (users : Users) (user : User) : Except String User :=
  if user.username = "" then .error "username 为空！"
  else .ok ((users.first fun row => row.username = user.username).getD user)

/-- `FillUserById`; an absent user leaves the struct as it was. -/
def fillUserById (users : Users) (user : User) : Except String User :=
  if user.id = 0 then .error "id 为空！"
  else .ok ((users.rowAt user.id).getD user)

/-- The struct keeps its id. -/
theorem fillUserById_id {users : Users} {user filled : User}
    (loaded : fillUserById users user = .ok filled) : filled.id = user.id := by
  unfold fillUserById at loaded
  split_ifs at loaded
  obtain rfl := Except.ok.inj loaded
  cases found : users.rowAt user.id with
  | none => rfl
  | some row => exact Table.rowAt_id found

/-- `Find` into one struct scans the first row with the value, and counts that one. -/
def alreadyTaken (column : User → String) (users : Users) (value : String) : Bool :=
  (users.first fun row => column row = value).isSome

/-- `IsEmailAlreadyTaken`. -/
def isEmailAlreadyTaken (users : Users) (email : String) : Bool :=
  alreadyTaken User.email users email

/-- `IsWeChatIdAlreadyTaken`. -/
def isWeChatIdAlreadyTaken (users : Users) (weChatId : String) : Bool :=
  alreadyTaken User.weChatId users weChatId

/-- `IsGitHubIdAlreadyTaken`. -/
def isGitHubIdAlreadyTaken (users : Users) (gitHubId : String) : Bool :=
  alreadyTaken User.gitHubId users gitHubId

/-- A value is taken when some row has it. -/
theorem alreadyTaken_iff {column : User → String} {users : Users} {value : String} :
    alreadyTaken column users value = true ↔ ∃ row ∈ users.rows, column row = value := by
  simp only [alreadyTaken, Table.first_isSome_iff, decide_eq_true_eq]

/-- `ValidateAndFill`, answering the filled struct. -/
def validateAndFill (passwords : Passwords) (users : Users) (user : User) : Except String User :=
  if user.username = "" ∨ user.password = "" then .error "用户名或密码为空"
  else
    let filled := (users.first fun row => row.username = user.username).getD user
    if passwords.validate user.password filled.password ∧ filled.status = userStatusEnabled then
      .ok filled
    else .error "用户名或密码错误，或用户已被封禁"

/-- `Create` writes the declared default of a column whose field is zero. -/
def User.withDefaults (user : User) : User :=
  { user with
    role := if user.role = 0 then roleCommonUser else user.role
    status := if user.status = 0 then userStatusEnabled else user.status }

/-- `User.Insert`, answering the stored row, which `Create` leaves in the struct. -/
def User.insert (passwords : Passwords) (user : User) (users : Users) :
    Users × Except String User :=
  let hashed := if user.password = "" then .ok user.password else passwords.hash user.password
  match hashed with
  | .error text => (users, .error text)
  | .ok hash =>
      match Table.insert users { user with password := hash }.withDefaults with
      | some (next, stored) => (next, .ok stored)
      | none => (users, .error uniqueViolation)

/-- A string field of `Updates(struct)`: only a non-zero one is written. -/
def keepString (new old : String) : String := if new = "" then old else new

/-- An integer field of `Updates(struct)`. -/
def keepInt (new old : Int) : Int := if new = 0 then old else new

/-- The row after `Updates(struct)` wrote the non-zero fields of `user`. -/
def User.applyNonZero (user row : User) : User where
  id := row.id
  username := keepString user.username row.username
  password := keepString user.password row.password
  displayName := keepString user.displayName row.displayName
  role := keepInt user.role row.role
  status := keepInt user.status row.status
  token := keepString user.token row.token
  email := keepString user.email row.email
  gitHubId := keepString user.gitHubId row.gitHubId
  weChatId := keepString user.weChatId row.weChatId
  channel := keepString user.channel row.channel
  sendEmailToOthers := keepInt user.sendEmailToOthers row.sendEmailToOthers
  saveMessageToDatabase := keepInt user.saveMessageToDatabase row.saveMessageToDatabase

/-- `User.Update`. -/
def User.update (passwords : Passwords) (user : User) (updatePassword : Bool) (users : Users) :
    Users × Option String :=
  let hashed := if updatePassword then passwords.hash user.password else .ok user.password
  match hashed with
  | .error text => (users, some text)
  | .ok hash =>
      if user.id = 0 then (users, some missingWhereClause)
      else match Table.update users user.id ({ user with password := hash }.applyNonZero ·) with
        | some next => (next, none)
        | none => (users, some uniqueViolation)

/-- `DeleteUserById` and `User.Delete`. -/
def deleteUserById (users : Users) (id : Int) : Users × Option String :=
  if id = 0 then (users, some "id 为空！") else (users.delete id, none)

/-- The statement of `ResetUserPasswordByEmail`. -/
def setPasswordByEmail (users : Users) (email hash : String) : Users × Option String :=
  match users.updateWhere (fun row => row.email = email) ({ · with password := hash }) with
  | some next => (next, none)
  | none => (users, some uniqueViolation)

/-- `ResetUserPasswordByEmail`, which updates every row with the email. -/
def resetUserPasswordByEmail (passwords : Passwords) (users : Users) (email password : String) :
    Users × Option String :=
  if email = "" ∨ password = "" then (users, some "邮箱地址或密码为空！")
  else match passwords.hash password with
    | .error text => (users, some text)
    | .ok hash => setPasswordByEmail users email hash

@[simp] theorem keepString_self (value : String) : keepString value value = value := by
  simp [keepString]

@[simp] theorem keepInt_self (value : Int) : keepInt value value = value := by
  simp [keepInt]

/-- Writing a row's own values back changes nothing. -/
@[simp] theorem User.applyNonZero_self (row : User) : row.applyNonZero row = row := by
  simp [User.applyNonZero]

/-- Fields that are not blank are written, and the key stays. -/
theorem User.withId_applyNonZero {users : Users} {key : Int} {user row : User}
    (found : users.rowAt key = some row) :
    Record.withId key (user.applyNonZero row) = user.applyNonZero row := by
  obtain rfl : row.id = key := Table.rowAt_id found
  rfl

/-- An insertion leaves the table alone or stores the user with the declared defaults. -/
theorem User.insert_cases (passwords : Passwords) (user : User) (users : Users) :
    ((user.insert passwords users).1 = users ∧
        ∃ text, (user.insert passwords users).2 = .error text) ∨
      ∃ stored, (user.insert passwords users).2 = .ok stored ∧
        users.rowAt stored.id = none ∧
        users.Rewrites (user.insert passwords users).1 stored.id (some stored) ∧
        stored.role = user.withDefaults.role ∧ stored.status = user.withDefaults.status := by
  unfold User.insert
  cases (if user.password = "" then .ok user.password else passwords.hash user.password :
      Except String String) with
  | error text => exact .inl ⟨rfl, text, rfl⟩
  | ok hash =>
      cases inserted : Table.insert users { user with password := hash }.withDefaults with
      | none => exact .inl ⟨by simp [inserted], uniqueViolation, by simp [inserted]⟩
      | some result =>
          obtain ⟨next, stored⟩ := result
          refine .inr ⟨stored, by simp [inserted], Table.insert_fresh inserted, ?_, ?_, ?_⟩
          · simpa [inserted] using Table.rewrites_insert inserted
          · obtain ⟨-, rfl, -, -⟩ := Table.insert_spec inserted
            rfl
          · obtain ⟨-, rfl, -, -⟩ := Table.insert_spec inserted
            rfl

/-- An insertion leaves the table alone or writes the user, its password hashed, into a fresh
row. -/
theorem User.insert_writes (passwords : Passwords) (user : User) (users : Users) :
    (user.insert passwords users).1 = users ∨
      ∃ key hash, users.Insertable user ∧ users.rowAt key = none ∧
        users.Rewrites (user.insert passwords users).1 key
          (some { user with id := key, password := hash }.withDefaults) := by
  unfold User.insert
  cases (if user.password = "" then .ok user.password else passwords.hash user.password :
      Except String String) with
  | error text => exact .inl rfl
  | ok hash =>
      cases inserted : Table.insert users { user with password := hash }.withDefaults with
      | none => exact .inl (by simp [inserted])
      | some result =>
          obtain ⟨next, stored⟩ := result
          have fresh := Table.insert_fresh inserted
          have writes := Table.rewrites_insert inserted
          obtain ⟨accepted, rfl, -, -⟩ := Table.insert_spec inserted
          dsimp only
          rw [inserted]
          exact .inr ⟨_, hash, accepted, fresh, writes⟩

/-- An insertion without an id that is answered without an error. -/
theorem User.insert_ok {passwords : Passwords} {user stored : User} {users : Users}
    (unset : user.id = 0) (done : (user.insert passwords users).2 = .ok stored) :
    ∃ hash, stored = { user with id := users.counter + 1, password := hash }.withDefaults ∧
      users.Rewrites (user.insert passwords users).1 (users.counter + 1) (some stored) ∧
      (user.insert passwords users).1.counter = users.counter + 1 ∧
      (user.password = "" → hash = "") := by
  unfold User.insert at done ⊢
  revert done
  cases hashed : (if user.password = "" then .ok user.password else passwords.hash user.password :
      Except String String) with
  | error text => rintro ⟨⟩
  | ok hash =>
      dsimp only
      cases inserted : Table.insert users { user with password := hash }.withDefaults with
      | none => rintro ⟨⟩
      | some result =>
          obtain ⟨next, row⟩ := result
          rintro ⟨⟩
          obtain ⟨key, counter⟩ := Table.insert_id_of_unset inserted unset
          obtain ⟨-, rfl, -, -⟩ := Table.insert_spec inserted
          have writes := Table.rewrites_insert inserted
          rw [key] at writes
          refine ⟨hash, ?_, writes, counter, fun blank => ?_⟩
          · rw [← key]
            rfl
          · rw [if_pos blank, blank] at hashed
            exact (Except.ok.inj hashed).symm

/-- An insertion never sets the counter back. -/
theorem User.counter_insert (passwords : Passwords) (user : User) (users : Users) :
    users.counter ≤ (user.insert passwords users).1.counter := by
  unfold User.insert
  cases (if user.password = "" then .ok user.password else passwords.hash user.password :
      Except String String) with
  | error text => exact Int.le_refl _
  | ok hash =>
      dsimp only
      cases inserted : Table.insert users { user with password := hash }.withDefaults with
      | none => exact Int.le_refl _
      | some result =>
          obtain ⟨-, -, counter, -⟩ := Table.insert_spec inserted
          rw [counter]
          exact Int.le_max_left _ _

/-- A user without id and password is inserted exactly when no row has its name. -/
theorem User.insert_isOk_iff {user : User} (passwords : Passwords) (users : Users)
    (unset : user.id = 0) (blank : user.password = "") :
    (user.insert passwords users).2.isOk ↔ ∀ row ∈ users.rows, row.username ≠ user.username := by
  have accepted : users.Insertable user.withDefaults ↔
      ∀ row ∈ users.rows, row.username ≠ user.username := by
    refine (Table.insertable_iff_of_unset unset).trans (forall₂_congr fun row _ => ?_)
    exact decide_eq_false_iff_not.trans (not_congr eq_comm)
  have same : { user with password := user.password } = user := rfl
  rw [← accepted, User.insert, if_pos blank]
  dsimp only
  rw [same]
  cases inserted : Table.insert users user.withDefaults with
  | none => exact iff_of_false Bool.false_ne_true (Table.insert_eq_none_iff.mp inserted)
  | some result => exact iff_of_true rfl (Table.insert_spec inserted).1

/-- An update leaves the table alone or writes the non-zero fields into the row of that id. -/
theorem User.update_cases (passwords : Passwords) (user : User) (updatePassword : Bool)
    (users : Users) :
    (user.update passwords updatePassword users).1 = users ∨
      ∃ row hash, users.rowAt user.id = some row ∧
        users.Rewrites (user.update passwords updatePassword users).1 user.id
          (some ({ user with password := hash }.applyNonZero row)) := by
  unfold User.update
  cases (if updatePassword then passwords.hash user.password else .ok user.password) with
  | error text => exact .inl rfl
  | ok hash =>
      by_cases unset : user.id = 0
      · exact .inl (by simp [unset])
      · cases updated : Table.update users user.id ({ user with password := hash }.applyNonZero ·)
          with
        | none => exact .inl (by simp [unset, updated])
        | some next =>
            cases found : users.rowAt user.id with
            | none => exact .inl (by simp [unset, updated, Table.update_missing updated found])
            | some row =>
                refine .inr ⟨row, hash, rfl, ?_⟩
                have writes := Table.rewrites_update updated found
                rw [User.withId_applyNonZero found] at writes
                simpa only [unset, if_false, updated] using writes

/-- An update of a row that is answered without an error wrote its non-zero fields. -/
theorem User.update_done {passwords : Passwords} {user row : User} {updatePassword : Bool}
    {users : Users} (done : (user.update passwords updatePassword users).2 = none)
    (found : users.rowAt user.id = some row) :
    ∃ hash, users.Rewrites (user.update passwords updatePassword users).1 user.id
      (some ({ user with password := hash }.applyNonZero row)) := by
  unfold User.update at done ⊢
  revert done
  cases (if updatePassword then passwords.hash user.password else .ok user.password) with
  | error text =>
      intro done
      cases done
  | ok hash =>
      by_cases unset : user.id = 0
      · simp [unset]
      · cases updated : Table.update users user.id ({ user with password := hash }.applyNonZero ·)
          with
        | none => simp [unset, updated]
        | some next =>
            have writes := Table.rewrites_update updated found
            rw [User.withId_applyNonZero found] at writes
            intro _
            exact ⟨hash, by simpa only [unset, if_false, updated] using writes⟩

/-- An update fails, finds no row, or writes the non-zero fields. -/
theorem User.update_result (passwords : Passwords) (user : User) (updatePassword : Bool)
    (users : Users) :
    ((user.update passwords updatePassword users).1 = users ∧
        ((user.update passwords updatePassword users).2 = none → users.rowAt user.id = none)) ∨
      ∃ row hash, (user.update passwords updatePassword users).2 = none ∧
        users.rowAt user.id = some row ∧
        users.Rewrites (user.update passwords updatePassword users).1 user.id
          (some ({ user with password := hash }.applyNonZero row)) := by
  cases failure : (user.update passwords updatePassword users).2 with
  | some text =>
      refine .inl ⟨?_, fun done => by cases done⟩
      revert failure
      unfold User.update
      cases (if updatePassword then passwords.hash user.password else .ok user.password) with
      | error text => exact fun _ => rfl
      | ok hash =>
          dsimp only
          split_ifs with unset
          · exact fun _ => rfl
          · cases Table.update users user.id ({ user with password := hash }.applyNonZero ·) with
            | none => exact fun _ => rfl
            | some next => rintro ⟨⟩
  | none =>
      cases found : users.rowAt user.id with
      | none =>
          refine .inl ⟨?_, fun _ => rfl⟩
          rcases user.update_cases passwords updatePassword users with same | ⟨row, -, there, -⟩
          · exact same
          · rw [found] at there
            cases there
      | some row =>
          obtain ⟨hash, writes⟩ := User.update_done failure found
          exact .inr ⟨row, hash, rfl, rfl, writes⟩

/-- An update leaves the counter. -/
theorem User.counter_update (passwords : Passwords) (user : User) (updatePassword : Bool)
    (users : Users) : (user.update passwords updatePassword users).1.counter = users.counter := by
  unfold User.update
  cases (if updatePassword then passwords.hash user.password else .ok user.password) with
  | error text => rfl
  | ok hash =>
      dsimp only
      split_ifs
      · rfl
      · cases updated : Table.update users user.id
            ({ user with password := hash }.applyNonZero ·) with
        | none => rfl
        | some next => exact (Table.update_rows updated).2

/-- The statement of `Update`: it fails, finds no row, or writes the non-zero fields. -/
theorem User.update_statement (passwords : Passwords) (user : User) (users : Users) :
    (∃ text, user.update passwords false users = (users, some text)) ∨
      (users.rowAt user.id = none ∧ user.update passwords false users = (users, none)) ∨
      ∃ row next, users.rowAt user.id = some row ∧
        user.update passwords false users = (next, none) ∧
        users.Rewrites next user.id (some (user.applyNonZero row)) := by
  by_cases unset : user.id = 0
  · exact .inl ⟨missingWhereClause, by simp [User.update, unset]⟩
  · cases updated : Table.update users user.id (user.applyNonZero ·) with
    | none => exact .inl ⟨uniqueViolation, by simp [User.update, unset, updated]⟩
    | some next =>
        have result : user.update passwords false users = (next, none) := by
          simp [User.update, unset, updated]
        cases found : users.rowAt user.id with
        | none =>
            obtain rfl := Table.update_missing updated found
            exact .inr (.inl ⟨rfl, result⟩)
        | some row =>
            have writes := Table.rewrites_update updated found
            rw [User.withId_applyNonZero found] at writes
            exact .inr (.inr ⟨row, next, rfl, result, writes⟩)

/-- A whole row written back with its own name is always accepted. -/
theorem User.update_row (passwords : Passwords) {user row : User} {users : Users}
    (identified : user.id ≠ 0) (found : users.rowAt user.id = some row)
    (username : user.username = row.username) :
    (user.update passwords false users).2 = none ∧
      users.Rewrites (user.update passwords false users).1 user.id
        (some (user.applyNonZero row)) := by
  have keeps : ∀ other ∈ users.rows, Record.id other = user.id → ∀ third,
      Record.clash (Record.withId user.id (user.applyNonZero other)) third =
        Record.clash other third := by
    intro other member same third
    have row_eq : other = row :=
      users.eq_of_id_eq member (Table.rowAt_mem found) (same.trans (Table.rowAt_id found).symm)
    subst row_eq
    simp [Record.clash, User.applyNonZero, username]
  obtain ⟨next, updated⟩ := Table.update_isSome keeps
  have result : user.update passwords false users = (next, none) := by
    simp [User.update, identified, updated]
  have writes := Table.rewrites_update updated found
  rw [User.withId_applyNonZero found] at writes
  rw [result]
  exact ⟨rfl, writes⟩

/-- A struct without a name, or with that of its row, is always accepted. -/
theorem User.update_accepted (passwords : Passwords) {user : User} {users : Users}
    (identified : user.id ≠ 0) (named : ∀ row, users.rowAt user.id = some row →
      user.username = "" ∨ user.username = row.username) :
    (user.update passwords false users).2 = none := by
  have keeps : ∀ other ∈ users.rows, Record.id other = user.id → ∀ third,
      Record.clash (Record.withId user.id (user.applyNonZero other)) third =
        Record.clash other third := by
    intro other member same third
    have found : users.rowAt user.id = some other := by
      rw [← same]
      exact Table.rowAt_of_mem member
    rcases named other found with blank | own
    · simp [Record.clash, User.applyNonZero, keepString, blank]
    · simp [Record.clash, User.applyNonZero, own]
  obtain ⟨next, updated⟩ := Table.update_isSome keeps
  simp [User.update, identified, updated]

/-- An update of a missing row is no error and changes nothing. -/
theorem User.update_missing (passwords : Passwords) {user : User} {users : Users}
    (identified : user.id ≠ 0) (missing : users.rowAt user.id = none) :
    user.update passwords false users = (users, none) := by
  have vacuous : ∀ other ∈ users.rows, Record.id other = user.id → ∀ third,
      Record.clash (Record.withId user.id (user.applyNonZero other)) third =
        Record.clash other third :=
    fun other member same => absurd same (Table.rowAt_eq_none_iff.mp missing other member)
  obtain ⟨next, updated⟩ := Table.update_isSome vacuous
  simp [User.update, identified, updated, Table.update_missing updated missing]

/-- A reset is always accepted and writes the password of every row with the email. -/
theorem setPasswordByEmail_spec (users : Users) (email hash : String) :
    (setPasswordByEmail users email hash).2 = none ∧
      ∀ key, (setPasswordByEmail users email hash).1.rowAt key = (users.rowAt key).map fun row =>
        if row.email = email then { row with password := hash } else row := by
  have keeps : ∀ row other : User,
      clash (Record.withId (Record.id row) { row with password := hash }) other =
        clash row other :=
    fun _ _ => rfl
  obtain ⟨next, updated⟩ := @Table.updateWhere_isSome _ _ users (fun row => row.email = email)
    ({ · with password := hash }) keeps
  unfold setPasswordByEmail
  rw [updated]
  refine ⟨rfl, fun key => ?_⟩
  rw [Table.rowAt_updateWhere updated key]
  cases found : users.rowAt key with
  | none => rfl
  | some row =>
      obtain rfl : row.id = key := Table.rowAt_id found
      simp

end MessagePusher.Model
