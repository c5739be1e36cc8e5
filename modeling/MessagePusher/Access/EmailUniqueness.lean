import MessagePusher.Controller.Misc
import MessagePusher.Controller.UserEffects
import MessagePusher.Semantics.Transition
import MessagePusher.Store.UniqueColumn

/-!
# Emails and password resets

Whether an email is taken is asked when a code for it is mailed. The code stays valid for
ten minutes and for any number of uses, and a registration through GitHub asks nothing.
The emails stay unique as long as what is written is carried by no other row at that
moment.
-/

namespace MessagePusher.Access

open Common Model Store Middleware Controller Semantics

structure EmailState where
  users : Users
  channels : Channels
  codes : VerificationMap
  clock : Int

inductive EmailRequest where
  | sendEmailVerification (env : MailEnvironment) (email code : String)
  | sendPasswordResetEmail (env : MailEnvironment) (email code : String)
  | register (env : UserEnvironment) (body : Option Json)
  | emailBind (env : UserEnvironment) (id : Int) (email code : String) (timestamp : Int)
  | gitHubOAuth (env : UserEnvironment) (saved : Bool) (account : Except String GitHubUser)
  | manageUser (env : UserEnvironment) (myRole : Int) (body : Option Json)
  | deleteUser (myRole : Int) (idParam : String)
  | deleteSelf (id : Int)
  | resetPassword (passwords : Passwords) (body : Option Json) (password : String)

/-- A request at a clock reading in nanoseconds. -/
structure EmailLabel where
  now : Int
  request : EmailRequest

/-- The environment in which codes are checked against the map. -/
def checked (env : UserEnvironment) (codes : VerificationMap) (now : Int) : UserEnvironment :=
  { env with verifyCode := fun email code => codes.verify now email code emailVerificationPurpose }

/-- The check of a token for a reset. -/
def verifyReset (codes : VerificationMap) (now : Int) (email token : String) : Bool :=
  codes.verify now email token passwordResetPurpose

/-- The state after a request. -/
def EmailState.serve (state : EmailState) (label : EmailLabel) : EmailState :=
  let arrived := { state with clock := label.now }
  match label.request with
  | .sendEmailVerification env email code =>
      { arrived with
        codes := (sendEmailVerification env email code label.now state.users state.codes).codes }
  | .sendPasswordResetEmail env email code =>
      { arrived with
        codes := (sendPasswordResetEmail env email code label.now state.users state.codes).codes }
  | .register env body =>
      { arrived with users := (register (checked env state.codes label.now) body state.users).users }
  | .emailBind env id email code timestamp =>
      let bound := emailBind (checked env state.codes label.now) id email code timestamp state.users
        state.channels
      { arrived with users := bound.users, channels := bound.channels }
  | .gitHubOAuth env saved account =>
      { arrived with users := (gitHubOAuth env saved none account state.users).users }
  | .manageUser env myRole body =>
      { arrived with users := (manageUser env myRole body state.users).users }
  | .deleteUser myRole idParam =>
      { arrived with users := (deleteUser myRole idParam state.users).users }
  | .deleteSelf id => { arrived with users := (deleteSelf id state.users).users }
  | .resetPassword passwords body password =>
      let reset := resetPassword passwords body password label.now state.users state.codes
      { arrived with users := reset.users, codes := reset.codes }

abbrev EmailsUnique (users : Users) : Prop := UniqueColumn User.email "" users

/-- Any table without duplicate emails, and any codes. -/
def emailSystem : System EmailState EmailLabel where
  Initial state := EmailsUnique state.users
  Step state label next := state.clock ≤ label.now ∧ next = state.serve label

/-- No row has the email of a user whom the database is about to accept. -/
def InsertsFresh (users : Users) (user : User) : Prop :=
  users.Insertable user → user.email ≠ "" → ∀ row ∈ users.rows, row.email ≠ user.email

/-- The condition on a request. A row gets an email only while no other row carries it, and a
password is reset only while some row carries the email. -/
def WritesInTime (state : EmailState) (label : EmailLabel) : Prop :=
  match label.request with
  | .register env body =>
      ∀ user, admitRegister (checked env state.codes label.now) body = .ok user →
        InsertsFresh state.users user
  | .emailBind _ id email code _ =>
      state.codes.verify label.now email code emailVerificationPurpose = true →
        Unclaimed User.email "" state.users id email
  | .gitHubOAuth env _ account =>
      ∀ user, gitHubRegistration env account state.users = some user → InsertsFresh state.users user
  | .resetPassword _ body _ =>
      ∀ email, admitReset (verifyReset state.codes label.now) body = .ok email →
        ∃ row ∈ state.users.rows, row.email = email
  | _ => True

/-- Exactly one row has the email, and only its password changes. -/
def ResetsOneRow (passwords : Passwords) (email password : String) (users next : Users) : Prop :=
  ∃ key row hash, (users.select fun other => other.email = email) = [row] ∧
    passwords.hash password = .ok hash ∧ users.rowAt key = some row ∧
    users.Rewrites next key (some { row with password := hash })

/-! ### What the handlers do to the emails -/

theorem insert_keeps_emailsUnique {users : Users} (unique : EmailsUnique users)
    (passwords : Passwords) {user : User} (fresh : InsertsFresh users user) :
    EmailsUnique (user.insert passwords users).1 := by
  rcases user.insert_writes passwords users with same | ⟨key, hash, accepted, -, writes⟩
  · rw [same]
    exact unique
  · exact unique.write writes (.of_none key (fresh accepted))

/-- A bound email is written into the row of the id, if that exists. -/
theorem emailBind_keeps_emailsUnique {users : Users} (unique : EmailsUnique users)
    (env : UserEnvironment) (id : Int) (email code : String) (timestamp : Int) (channels : Channels)
    (unclaimed : env.verifyCode email code = true → Unclaimed User.email "" users id email) :
    EmailsUnique (emailBind env id email code timestamp users channels).users := by
  unfold emailBind
  cases verified : env.verifyCode email code with
  | false => exact unique
  | true =>
      simp only [Bool.not_true, Bool.false_eq_true, if_false]
      cases filled : fillUserById users { id } with
      | error text => exact unique
      | ok user =>
          have key : user.id = id := fillUserById_id filled
          have written : EmailsUnique
              (({ user with email } : User).update env.passwords false users).1 := by
            rcases User.update_cases env.passwords { user with email } false users with
              same | ⟨row, hash, found, writes⟩
            · rw [same]
              exact unique
            · refine unique.write writes ?_
              by_cases blank : email = ""
              · simpa [User.applyNonZero, keepString, blank] using unique.unclaimed found
              · simpa [User.applyNonZero, keepString, blank, key] using unclaimed verified
          dsimp only
          cases result : ({ user with email } : User).update env.passwords false users with
          | mk next failure =>
              rw [result] at written
              cases failure with
              | none => exact written
              | some text => exact written

theorem manageUser_keeps_emailsUnique {users : Users} (unique : EmailsUnique users)
    (env : UserEnvironment) (myRole : Int) (body : Option Json) :
    EmailsUnique (manageUser env myRole body users).users := by
  cases admitted : admitManage myRole body users with
  | error text => simpa [manageUser, admitted] using unique
  | ok result =>
      obtain ⟨action, row, managed⟩ := result
      obtain ⟨-, -, found, -, -⟩ := admitManage_ok admitted
      have writes := manageUser_effect env admitted
      have columns := manageAction_columns (admitManage_action admitted)
      split_ifs at writes with deletes
      · exact unique.delete writes
      · refine unique.write writes ?_
        have kept : managed.user.email = row.email := by rw [columns]
        rw [kept]
        exact unique.unclaimed found

theorem deleteUser_keeps_emailsUnique {users : Users} (unique : EmailsUnique users) (myRole : Int)
    (idParam : String) : EmailsUnique (deleteUser myRole idParam users).users := by
  cases admitted : admitDelete myRole idParam users with
  | error text => simpa [deleteUser, admitted] using unique
  | ok user => exact unique.delete (deleteUser_effect admitted)

theorem deleteSelf_keeps_emailsUnique {users : Users} (unique : EmailsUnique users) (id : Int) :
    EmailsUnique (deleteSelf id users).users := by
  by_cases unset : id = 0
  · simpa [deleteSelf, fillUserById, unset] using unique
  · exact unique.delete (deleteSelf_effect unset)

/-- A reset that succeeds was admitted and wrote the rows with the email; another changes
nothing. -/
theorem resetPassword_cases (passwords : Passwords) (body : Option Json) (password : String)
    (now : Int) (users : Users) (codes : VerificationMap) :
    ((resetPassword passwords body password now users codes).users = users ∧
      (resetPassword passwords body password now users codes).reply.success = false) ∨
    ∃ email hash, admitReset (verifyReset codes now) body = .ok email ∧ email ≠ "" ∧
      passwords.hash password = .ok hash ∧
      (resetPassword passwords body password now users codes).users =
        (setPasswordByEmail users email hash).1 := by
  unfold resetPassword
  have same : admitReset (fun email token => codes.verify now email token passwordResetPurpose)
      body = admitReset (verifyReset codes now) body := rfl
  rw [same]
  cases admitted : admitReset (verifyReset codes now) body with
  | error text => exact .inl ⟨rfl, rfl⟩
  | ok email =>
      dsimp only
      unfold resetUserPasswordByEmail
      by_cases blank : email = "" ∨ password = ""
      · rw [if_pos blank]
        exact .inl ⟨rfl, rfl⟩
      · rw [if_neg blank]
        cases hashed : passwords.hash password with
        | error text => exact .inl ⟨rfl, rfl⟩
        | ok hash =>
            have done := (setPasswordByEmail_spec users email hash).1
            dsimp only
            cases result : setPasswordByEmail users email hash with
            | mk next failure =>
                rw [result] at done
                obtain rfl : failure = none := done
                exact .inr ⟨email, hash, rfl, fun empty => blank (.inl empty), rfl, by rw [result]⟩

theorem setPasswordByEmail_keeps_emailsUnique {users : Users} (unique : EmailsUnique users)
    (email hash : String) : EmailsUnique (setPasswordByEmail users email hash).1 := by
  apply unique.congr
  intro key row found
  rw [(setPasswordByEmail_spec users email hash).2, Option.map_eq_some_iff] at found
  obtain ⟨before, held, rfl⟩ := found
  refine ⟨before, held, ?_⟩
  split_ifs <;> rfl

/-- Under unique emails a reset with an email that is carried writes one row. -/
theorem setPasswordByEmail_one {users : Users} (unique : EmailsUnique users) {email hash : String}
    (named : email ≠ "") (carried : ∃ row ∈ users.rows, row.email = email) :
    ∃ row, (users.select fun other => other.email = email) = [row] ∧
      users.rowAt row.id = some row ∧
      users.Rewrites (setPasswordByEmail users email hash).1 row.id
        (some { row with password := hash }) := by
  obtain ⟨row, selected⟩ := List.length_eq_one_iff.mp
    ((unique.length_select_eq_one_iff named).mpr carried)
  have member : row ∈ users.select fun other => other.email = email := by
    rw [selected]
    exact List.mem_singleton_self row
  obtain ⟨inTable, carries⟩ : row ∈ users.rows ∧ row.email = email := by simpa using member
  have found := Table.rowAt_of_mem inTable
  refine ⟨row, selected, found, fun key => ?_⟩
  rw [(setPasswordByEmail_spec users email hash).2]
  split_ifs with same
  · subst same
    have held : users.rowAt row.id = some row := found
    simp [held, carries]
  · cases heldOther : users.rowAt key with
    | none => rfl
    | some other =>
        have apart : other.email ≠ email := by
          intro also
          have otherKey : other.id = key := Table.rowAt_id heldOther
          obtain rfl := unique other (Table.rowAt_mem heldOther) row inTable (also ▸ named)
            (also.trans carries.symm)
          exact same otherKey.symm
        simp [apart]

/-! ### Whole runs -/

section Steps

variable {state next : EmailState} {label : EmailLabel}

theorem serve_keeps_emailsUnique (unique : EmailsUnique state.users)
    (inTime : WritesInTime state label) : EmailsUnique (state.serve label).users := by
  obtain ⟨now, request⟩ := label
  cases request with
  | sendEmailVerification env email code => exact unique
  | sendPasswordResetEmail env email code => exact unique
  | register env body =>
      dsimp only [EmailState.serve]
      rw [register_eq]
      cases admitted : admitRegister (checked env state.codes now) body with
      | error text => exact unique
      | ok user =>
          dsimp only
          rw [users_answerInsert]
          exact insert_keeps_emailsUnique unique _ (inTime user admitted)
  | emailBind env id email code timestamp =>
      exact emailBind_keeps_emailsUnique unique _ id email code timestamp state.channels inTime
  | gitHubOAuth env saved account =>
      dsimp only [EmailState.serve]
      rw [users_gitHubOAuth]
      cases registers : gitHubRegistration env account state.users with
      | none => exact unique
      | some user => exact insert_keeps_emailsUnique unique _ (inTime user registers)
  | manageUser env myRole body => exact manageUser_keeps_emailsUnique unique env myRole body
  | deleteUser myRole idParam => exact deleteUser_keeps_emailsUnique unique myRole idParam
  | deleteSelf id => exact deleteSelf_keeps_emailsUnique unique id
  | resetPassword passwords body password =>
      dsimp only [EmailState.serve]
      rcases resetPassword_cases passwords body password now state.users state.codes with
        ⟨same, -⟩ | ⟨email, hash, -, -, -, written⟩
      · rw [same]
        exact unique
      · rw [written]
        exact setPasswordByEmail_keeps_emailsUnique unique email hash

/-- A reset in time that succeeds changes one row. -/
theorem reset_changes_one_row (unique : EmailsUnique state.users) {now : Int}
    {passwords : Passwords} {body : Option Json} {password : String}
    (inTime : WritesInTime state ⟨now, .resetPassword passwords body password⟩)
    (succeeded : (resetPassword passwords body password now state.users
      state.codes).reply.success = true) :
    ResetsOneRow passwords (resetRequest body).email password state.users
      (resetPassword passwords body password now state.users state.codes).users := by
  rcases resetPassword_cases passwords body password now state.users state.codes with
    ⟨-, failed⟩ | ⟨email, hash, admitted, named, hashed, written⟩
  · rw [failed] at succeeded
    cases succeeded
  · obtain ⟨row, selected, found, writes⟩ :=
      @setPasswordByEmail_one _ unique email hash named (inTime email admitted)
    have requested : (resetRequest body).email = email := by
      unfold admitReset at admitted
      dsimp only at admitted
      split_ifs at admitted
      exact Except.ok.inj admitted
    rw [written, requested]
    exact ⟨row.id, row, hash, selected, hashed, found, writes⟩

end Steps

/-- Two users without an email. -/
def twoUsers : Users where
  rows := [{ id := 1, username := "ann", status := 1 }, { id := 2, username := "bob", status := 1 }]
  counter := 2
  sorted := by decide
  unique := by decide
  counterNonneg := Store.Table.two_nonneg
  bounded := by decide

def beforeMail : EmailState where
  users := twoUsers
  channels := Table.empty
  codes := []
  clock := 0

def mailAccepted : MailEnvironment where
  isEmail _ := true

def plainEnvironment : UserEnvironment where
  passwords := { hash := .ok, validate := fun password hash => password = hash }

def mailing : EmailLabel := ⟨0, .sendEmailVerification mailAccepted "a@b.c" "123456"⟩

def binding (id : Int) : EmailLabel := ⟨0, .emailBind plainEnvironment id "a@b.c" "123456" 0⟩

end MessagePusher.Access
