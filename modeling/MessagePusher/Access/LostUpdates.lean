import MessagePusher.Controller.UserCalls
import MessagePusher.Controller.UserEffects

/-!
# Two requests that change one user at once

Some requests write back the whole row that they read, others a few columns. A column that
one request changed keeps its new value unless the other, which is not meant to change it,
writes back an older one.
-/

namespace MessagePusher.Access

open Common Model Store Controller Semantics

/-- A request on the user with a key: the row that it looks up or is about is that one. -/
def OnUser (env : CallEnvironment) (key : Int) (users : Users) : CallRequest → Prop
  | .gitHubBind id _ | .weChatBind id _ | .generateToken id _ | .updateSelf id _
  | .emailBind id _ _ => id = key
  | .manageUser myRole body => ∀ action row managed,
      admitManage myRole body users = .ok (action, row, managed) → row.id = key
  | .updateUser myRole body => ∀ user, admitUpdate myRole body users = .ok user → user.id = key
  | .resetPassword body _ => ∀ email, admitReset env.verifyReset body = .ok email →
      ∀ row, users.rowAt key = some row → row.email = email
  | .gitHubOAuth _ _ | .weChatAuth _ => False

/-- Two requests on one user that have not run a statement yet. -/
def requestsOn (env : CallEnvironment) (key : Int) : System CallState Nat where
  Initial state := ∃ left right, state.calls = [.start left, .start right]
  Step state turn next :=
    (∀ request, state.calls[turn]? = some (.start request) → OnUser env key state.users request) ∧
      CallStep env state turn next

/-- The columns that a call has changed. -/
def changed : UserCall → List Column
  | .done outcome => outcome.columns
  | _ => []

/-- The condition on the statement of one call beside another. What it writes back without being
meant to is, where the other has changed it, blank or as it is now, and a reset finds the email
still in the row. -/
def KeepsChanges (key : Int) (users : Users) (other : UserCall) : UserCall → Prop
  | .writing columns user => ∀ row, users.rowAt key = some row → ∀ column ∈ changed other,
      column ∉ columns → (user.get column).blank = true ∨ user.get column = row.get column
  | .resetting email _ => ∀ row, users.rowAt key = some row → row.email = email
  | _ => True

/-- The condition for the call whose turn it is, beside the other one. -/
def TurnKeepsChanges (key : Int) (state : CallState) (turn : Nat) : Prop :=
  ∀ call other, state.calls[turn]? = some call → state.calls[1 - turn]? = some other →
    KeepsChanges key state.users other call

/-- What a call has changed and the other has not stands in the row, as long as there is one. -/
def Kept (key : Int) (users : Users) (call other : UserCall) : Prop :=
  ∀ row, users.rowAt key = some row → ∀ outcome, call = .done outcome →
    ∀ column ∈ outcome.columns, column ∉ changed other →
      row.get column = outcome.values.get column

/-- No change of either request is lost. -/
def NoneLost (key : Int) (state : CallState) : Prop :=
  ∀ turn call other, state.calls[turn]? = some call → state.calls[1 - turn]? = some other →
    Kept key state.users call other

/-- The rows a call is about are the one of the key. -/
def Aimed (key : Int) : UserCall → Prop
  | .loading id _ => id = key
  | .checkingToken user | .deleting user | .writing _ user => user.id = key
  | .start _ | .resetting _ _ | .done _ => True
  | .filling _ | .naming _ | .inserting _ => False

/-- A call that has changed nothing yet and is about the key. -/
structure Pending (key : Int) (call : UserCall) : Prop where
  aimed : Aimed key call
  unchanged : changed call = []

section Calls

variable {env : CallEnvironment} {key : Int} {users after : Users}
  {call other following : UserCall}

theorem pending_refused (text : String) : Pending key (UserCall.refused text) :=
  ⟨trivial, rfl⟩

theorem pending_writing {columns : List Column} {user : User} (aimed : user.id = key) :
    Pending key (.writing columns user) :=
  ⟨aimed, rfl⟩

theorem pending_updating {columns : List Column} {user : User} (aimed : user.id = key) :
    Pending key (UserCall.updating env columns user) := by
  unfold UserCall.updating
  dsimp only
  split
  · exact pending_refused _
  · exact pending_writing aimed

theorem pending_bind {id : Int} {account : ThirdPartyAccount} (aimed : id = key) :
    Pending key (UserCall.bind id account users) := by
  unfold UserCall.bind
  split_ifs
  · exact pending_refused _
  · exact ⟨aimed, rfl⟩

theorem pending_withAccount {α : Type} {enabled : Bool} {closed : String}
    {account : Except String α} {goOn : α → UserCall} (goesOn : ∀ value, Pending key (goOn value)) :
    Pending key (UserCall.withAccount enabled closed account goOn) := by
  unfold UserCall.withAccount
  split_ifs
  · exact pending_refused _
  · cases account with
    | error text => exact pending_refused text
    | ok value => exact goesOn value

/-- After its first look at the table a request on the user is about that user. -/
theorem pending_begin {request : CallRequest} (on : OnUser env key users request) :
    Pending key (UserCall.begin env users request) := by
  cases request with
  | gitHubOAuth session account => exact absurd on id
  | weChatAuth account => exact absurd on id
  | gitHubBind id account => exact pending_withAccount fun _ => pending_bind on
  | weChatBind id account => exact pending_withAccount fun _ => pending_bind on
  | manageUser myRole body =>
      simp only [UserCall.begin]
      cases admitted : admitManage myRole body users with
      | error text => exact pending_refused text
      | ok result =>
          obtain ⟨action, row, managed⟩ := result
          obtain ⟨-, -, -, -, effect⟩ := admitManage_ok admitted
          have aimed : managed.user.id = key :=
            effect.written.1.trans (on action row managed admitted)
          dsimp only
          split_ifs
          · exact ⟨aimed, rfl⟩
          · exact pending_writing aimed
  | generateToken id token =>
      simp only [UserCall.begin]
      cases loaded : getUserById users id true with
      | error text => exact pending_refused text
      | ok user =>
          exact ⟨(getUserById_id loaded).trans on, rfl⟩
  | updateSelf id body =>
      simp only [UserCall.begin]
      cases admitted : admitUpdateSelf id body with
      | error text => exact pending_refused text
      | ok user =>
          have aimed : user.id = id := by
            unfold admitUpdateSelf at admitted
            split at admitted
            · cases admitted
            · split at admitted
              · cases admitted
              · obtain rfl := Except.ok.inj admitted
                rfl
          exact pending_updating (aimed.trans on)
  | updateUser myRole body =>
      simp only [UserCall.begin]
      cases admitted : admitUpdate myRole body users with
      | error text => exact pending_refused text
      | ok user => exact pending_updating (on user admitted)
  | emailBind id email code =>
      simp only [UserCall.begin]
      split_ifs
      · exact pending_refused _
      · cases filled : fillUserById users { id } with
        | error text => exact pending_refused text
        | ok user =>
            exact @pending_writing _ _ { user with email } ((fillUserById_id filled).trans on)
  | resetPassword body password =>
      simp only [UserCall.begin]
      split
      · exact pending_refused _
      · split_ifs
        · exact pending_refused _
        · split
          · exact pending_refused _
          · exact ⟨trivial, rfl⟩

/-- A statement after which the call has changed nothing and the table is as it was. -/
theorem Kept.of_pending (kept : Kept key users other call) (idle : changed call = [])
    (pending : Pending key following) :
    Kept key users other following ∧ Kept key users following other ∧ Aimed key following := by
  refine ⟨?_, ?_, pending.aimed⟩
  · intro row found outcome done column member _
    exact kept row found outcome done column member (by simp [idle])
  · rintro row found outcome rfl column member
    have none_ : outcome.columns = [] := pending.unchanged
    rw [none_] at member
    cases member

/-- An `Update` that writes no stale value over a change of the other call. -/
theorem Kept.writing {columns : List Column} {user : User} (aimed : user.id = key)
    (keeps : KeepsChanges key users other (.writing columns user))
    (taken : (UserCall.writing columns user).next env users = some (after, following))
    (kept : Kept key users other (.writing columns user)) :
    Kept key after other following ∧ Kept key after following other ∧ Aimed key following := by
  subst aimed
  rw [UserCall.next] at taken
  rcases User.update_statement env.passwords user users with
    ⟨text, result⟩ | ⟨missing, result⟩ | ⟨row, next, found, result, writes⟩
  · rw [result] at taken
    cases taken
    exact kept.of_pending rfl (pending_refused text)
  · rw [result] at taken
    cases taken
    refine ⟨?_, ?_, trivial⟩
    · intro row found
      rw [missing] at found
      cases found
    · intro row found
      rw [missing] at found
      cases found
  · rw [result] at taken
    cases taken
    refine ⟨?_, ?_, trivial⟩
    · intro written foundWritten outcome done column member outside
      obtain rfl := Option.some.inj (writes.at_key.symm.trans foundWritten)
      have before := kept row found outcome done column member (by simp [changed])
      subst done
      rw [User.get_applyNonZero, ← before]
      split_ifs with blank
      · rfl
      · have unmeant : column ∉ columns := fun meant =>
          outside (List.mem_filter.mpr ⟨meant, by simp [blank]⟩)
        rcases keeps row found column member unmeant with isBlank | same
        · exact absurd isBlank blank
        · exact same
    · rintro written foundWritten outcome ⟨⟩ column member _
      obtain rfl := Option.some.inj (writes.at_key.symm.trans foundWritten)
      have named := (List.mem_filter.mp member).2
      rw [User.get_applyNonZero, if_neg (by simpa using named)]

/-- A password reset of a row that still has its email. -/
theorem Kept.resetting {email hash : String}
    (keeps : KeepsChanges key users other (.resetting email hash))
    (taken : (UserCall.resetting email hash).next env users = some (after, following))
    (kept : Kept key users other (.resetting email hash)) :
    Kept key after other following ∧ Kept key after following other ∧ Aimed key following := by
  obtain ⟨accepted, reads⟩ := setPasswordByEmail_spec users email hash
  rw [UserCall.next] at taken
  cases result : setPasswordByEmail users email hash with
  | mk next failure =>
      rw [result] at taken accepted reads
      obtain rfl : failure = none := accepted
      cases taken
      have reset : ∀ written, after.rowAt key = some written →
          ∃ row, users.rowAt key = some row ∧ written = { row with password := hash } := by
        intro written foundWritten
        rw [reads, Option.map_eq_some_iff] at foundWritten
        obtain ⟨row, found, rfl⟩ := foundWritten
        exact ⟨row, found, if_pos (keeps row found)⟩
      refine ⟨?_, ?_, trivial⟩
      · intro written foundWritten outcome done column member outside
        obtain ⟨row, found, rfl⟩ := reset written foundWritten
        have apart : column ≠ .password := fun same => outside (by simp [changed, same])
        rw [User.get_password_update row hash apart]
        exact kept row found outcome done column member (by simp [changed])
      · rintro written foundWritten outcome ⟨⟩ column member _
        obtain ⟨row, -, rfl⟩ := reset written foundWritten
        obtain rfl := List.mem_singleton.mp member
        rfl

/-- A statement keeps what the other call has changed, and what it changes itself. -/
theorem Kept.next (aimed : Aimed key call)
    (on : ∀ request, call = .start request → OnUser env key users request)
    (keeps : KeepsChanges key users other call)
    (taken : call.next env users = some (after, following)) (kept : Kept key users other call) :
    Kept key after other following ∧ Kept key after following other ∧ Aimed key following := by
  cases call with
  | start request =>
      cases taken
      exact kept.of_pending rfl (pending_begin (on request rfl))
  | filling account => exact absurd aimed id
  | naming account => exact absurd aimed id
  | inserting user => exact absurd aimed id
  | loading id account =>
      rw [UserCall.next] at taken
      cases filled : fillUserById users (account.asBinding id) with
      | error text =>
          rw [filled] at taken
          cases taken
          exact kept.of_pending rfl (pending_refused text)
      | ok user =>
          rw [filled] at taken
          cases taken
          have same : user.id = id := by
            rw [fillUserById_id filled]
            cases account <;> rfl
          have bound : (account.bindTo user).id = key := by
            cases account <;> exact same.trans aimed
          exact kept.of_pending rfl (pending_writing bound)
  | checkingToken user =>
      cases taken
      refine kept.of_pending rfl ?_
      split_ifs
      · exact pending_refused _
      · exact pending_writing aimed
  | deleting user =>
      cases taken
      have gone : (users.delete user.id).rowAt key = none := by
        rw [show user.id = key from aimed]
        simp
      refine ⟨?_, ?_, aimed⟩
      · intro row found
        rw [gone] at found
        cases found
      · intro row found
        rw [gone] at found
        cases found
  | writing columns user => exact Kept.writing aimed keeps taken kept
  | resetting email hash => exact Kept.resetting keeps taken kept
  | done outcome => cases taken

end Calls

/-! ### Whole runs -/

/-- Two calls on the user, and no change of either is lost. -/
structure TwoCalls (key : Int) (state : CallState) : Prop where
  two : state.calls.length = 2
  aimed : ∀ (turn : Nat) call, state.calls[turn]? = some call → Aimed key call
  noneLost : NoneLost key state

section Steps

variable {env : CallEnvironment} {key : Int} {state next : CallState} {turn : Nat}

theorem TwoCalls.initial (valid : (requestsOn env key).Initial state) : TwoCalls key state := by
  obtain ⟨left, right, calls⟩ := valid
  have starts : ∀ (turn : Nat) call, state.calls[turn]? = some call →
      ∃ request, call = .start request := by
    intro turn call at_
    have member := List.mem_of_getElem? at_
    rw [calls] at member
    rcases List.mem_cons.mp member with rfl | member
    · exact ⟨left, rfl⟩
    · exact ⟨right, List.mem_singleton.mp member⟩
  constructor
  · rw [calls]
    rfl
  · intro turn call at_
    obtain ⟨request, rfl⟩ := starts turn call at_
    trivial
  · intro turn call other at_ _ row _ outcome done
    obtain ⟨request, rfl⟩ := starts turn call at_
    cases done

theorem TwoCalls.step (holds : TwoCalls key state) (keeps : TurnKeepsChanges key state turn)
    (transition : (requestsOn env key).Step state turn next) : TwoCalls key next := by
  obtain ⟨on, moves⟩ := transition
  cases moves with
  | @mk call after following at_ taken =>
      have inside : turn < 2 := by
        have below := (List.getElem?_eq_some_iff.mp at_).1
        rw [holds.two] at below
        exact below
      obtain ⟨other, atOther⟩ : ∃ other, state.calls[1 - turn]? = some other :=
        ⟨_, List.getElem?_eq_getElem (by rw [holds.two]; omega)⟩
      have back : 1 - (1 - turn) = turn := by omega
      have keptOther : Kept key state.users other call :=
        holds.noneLost (1 - turn) other call atOther (by rw [back]; exact at_)
      obtain ⟨otherKept, ownKept, aimed⟩ := keptOther.next (holds.aimed turn call at_)
        (fun request same => on request (same ▸ at_)) (keeps call other at_ atOther) taken
      have atTurn : (state.calls.set turn following)[turn]? = some following :=
        List.getElem?_set_self (by rw [holds.two]; exact inside)
      have atBack : (state.calls.set turn following)[1 - turn]? = some other := by
        rw [List.getElem?_set_ne (by omega)]
        exact atOther
      constructor
      · rw [List.length_set]
        exact holds.two
      · intro place held atPlace
        by_cases same : place = turn
        · subst same
          obtain rfl := Option.some.inj (atTurn.symm.trans atPlace)
          exact aimed
        · rw [List.getElem?_set_ne (Ne.symm same)] at atPlace
          exact holds.aimed place held atPlace
      · intro place held beside atPlace atBeside
        have below : place < 2 := by
          have bound := (List.getElem?_eq_some_iff.mp atPlace).1
          rw [List.length_set, holds.two] at bound
          exact bound
        rcases (by omega : place = turn ∨ place = 1 - turn) with rfl | rfl
        · obtain rfl := Option.some.inj (atTurn.symm.trans atPlace)
          obtain rfl := Option.some.inj (atBack.symm.trans atBeside)
          exact ownKept
        · rw [back] at atBeside
          obtain rfl := Option.some.inj (atBack.symm.trans atPlace)
          obtain rfl := Option.some.inj (atTurn.symm.trans atBeside)
          exact otherKept

end Steps

/-- Another old value written back is what the row has afterwards. -/
theorem not_kept_of_stale_write {env : CallEnvironment} {key : Int} {users after : Users}
    {columns : List Column} {user row : User} {outcome ended : CallOutcome} {column : Column}
    (aimed : user.id = key) (found : users.rowAt key = some row)
    (taken : (UserCall.writing columns user).next env users = some (after, .done ended))
    (accepted : ended.refusal = none) (kept : Kept key users (.done outcome) (.writing columns user))
    (member : column ∈ outcome.columns) (unmeant : column ∉ columns)
    (named : (user.get column).blank = false) (stale : user.get column ≠ row.get column) :
    ¬ Kept key after (.done outcome) (.done ended) := by
  subst aimed
  rw [UserCall.next] at taken
  rcases User.update_statement env.passwords user users with
    ⟨text, result⟩ | ⟨missing, -⟩ | ⟨before, next, foundBefore, result, writes⟩
  · rw [result] at taken
    cases taken
    cases accepted
  · rw [missing] at found
    cases found
  · rw [result] at taken
    cases taken
    obtain rfl := Option.some.inj (foundBefore.symm.trans found)
    intro still
    have outside : column ∉ changed (.done
        { columns := columns.filter fun column => !(user.get column).blank, values := user }) :=
      fun inside => unmeant (List.mem_filter.mp inside).1
    have now := still _ writes.at_key outcome rfl column member outside
    have then_ := kept before found outcome rfl column member (by simp [changed])
    rw [User.get_applyNonZero, named, if_neg (by simp)] at now
    exact stale (now.trans then_.symm)

/-! ### A token and a ban -/

def quietEnvironment : CallEnvironment where
  passwords := { hash := .ok, validate := fun password hash => password = hash }

/-- One enabled user. -/
def oneUser : Users where
  rows := [{ id := 2, username := "bob", role := 1, status := 1 }]
  counter := 2
  sorted := by decide
  unique := by decide
  counterNonneg := Store.Table.two_nonneg
  bounded := by decide

def newToken : CallRequest := .generateToken 2 "5f0c"

def ban : CallRequest :=
  .manageUser 100 (some (.object [("username", .string "bob"), ("action", .string "disable")]))

def tokenAndBan : CallState where
  users := oneUser
  calls := [.start newToken, .start ban]

/-- `ban` works on the row of the user, whatever its other columns. -/
theorem ban_onUser {users : Users} (only : ∀ row ∈ users.rows, row.id = 2) :
    OnUser quietEnvironment 2 users ban := by
  intro action row managed admitted
  obtain ⟨-, -, found, -⟩ := admitManage_ok admitted
  exact only row (Table.rowAt_mem found)

end MessagePusher.Access
