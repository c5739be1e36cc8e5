import MessagePusher.Controller.UserCalls

/-!
# Requests that nothing interrupts

A request whose statements run one after the other leaves the table, and refuses or not,
as its handler does.
-/

namespace MessagePusher.Controller

open Common Model Store Middleware

namespace UserCall

/-- The call, run alone, ends with this table and this refusal. -/
inductive Ends (env : CallEnvironment) : Users → UserCall → Users → Option String → Prop where
  | done {users outcome} : Ends env users (.done outcome) users outcome.refusal
  | step {users middle after call following refusal}
      (taken : call.next env users = some (middle, following))
      (rest : Ends env middle following after refusal) : Ends env users call after refusal

/-- The text of a reply that reports no success. -/
def refusalOf {α : Type} (reply : Reply α) : Option String :=
  if reply.success then none else some reply.message

variable {env : CallEnvironment} {users : Users}

theorem ends_refused (text : String) : Ends env users (refused text) users (some text) := .done

/-- The end of a login. -/
theorem ends_enter (user : User) :
    Ends env users (enter env user) (thirdPartyLogin env.saved (users, .ok user)).users
      (refusalOf (thirdPartyLogin env.saved (users, .ok user)).reply) := by
  unfold enter thirdPartyLogin setupLogin
  dsimp only
  split_ifs
  · exact ends_refused _
  · exact .done
  · exact ends_refused _

/-- The statement of an update. -/
theorem ends_writing (columns : List Column) (user : User) {after : Users}
    {failure : Option String}
    (updated : user.update env.passwords false users = (after, failure)) :
    Ends env users (.writing columns user) after failure := by
  cases failure with
  | some text => exact .step (by rw [next, updated]) (ends_refused text)
  | none => exact .step (by rw [next, updated]) .done

/-- An update with its hash function. -/
theorem ends_updating (columns : List Column) (user : User) {after : Users}
    {failure : Option String}
    (updated : user.update env.passwords (user.password ≠ "") users = (after, failure)) :
    Ends env users (updating env columns user) after failure := by
  unfold updating
  by_cases blank : user.password = ""
  · rw [if_neg (not_not_intro blank)]
    apply ends_writing
    rwa [decide_eq_false (not_not_intro blank)] at updated
  · rw [if_pos blank]
    unfold User.update at updated
    rw [decide_eq_true blank, if_pos rfl] at updated
    cases hashed : env.passwords.hash user.password with
    | error text =>
        rw [hashed] at updated
        obtain ⟨rfl, rfl⟩ := Prod.mk.inj updated
        exact ends_refused text
    | ok hash =>
        rw [hashed] at updated
        apply ends_writing
        exact updated

/-! ### Third parties -/

theorem ends_login (account : ThirdPartyAccount) :
    Ends env users (login env account users)
      (thirdPartyLogin env.saved (thirdPartyUser env.toUserEnvironment account.field
        account.blankError account.asUser (account.newUser users) users)).users
      (refusalOf (thirdPartyLogin env.saved (thirdPartyUser env.toUserEnvironment account.field
        account.blankError account.asUser (account.newUser users) users)).reply) := by
  have asked : account.isTaken users = alreadyTaken account.field users account.name := by
    cases account with
    | gitHub account => rfl
    | weChat weChatId => rfl
  have named : account.field account.asUser = account.name := by
    cases account with
    | gitHub account => rfl
    | weChat weChatId => rfl
  unfold login thirdPartyUser
  rw [asked, named]
  dsimp only
  by_cases taken : alreadyTaken account.field users account.name = true
  · rw [if_pos taken, if_pos taken]
    by_cases blank : account.name = ""
    · rw [if_pos blank]
      exact .step (by rw [next, if_pos blank]; rfl) (ends_refused _)
    · rw [if_neg blank]
      exact .step (by rw [next, if_neg blank]) (ends_enter _)
  · rw [if_neg taken, if_neg taken]
    by_cases open_ : env.settings.registerEnabled = true
    · rw [if_pos open_, if_pos open_]
      refine .step rfl ?_
      cases result : (account.newUser users).insert env.passwords users with
      | mk after outcome =>
          cases outcome with
          | error text => exact .step (by rw [next, result]; rfl) (ends_refused text)
          | ok stored => exact .step (by rw [next, result]) (ends_enter stored)
    · rw [if_neg open_, if_neg open_]
      exact ends_refused _

theorem ends_bind (id : Int) (account : ThirdPartyAccount) (success : Reply User)
    (succeeds : success.success = true) :
    let outcome : LoginOutcome :=
      if account.isTaken users then rejectLogin users account.boundError
      else match fillUserById users (account.asBinding id) with
        | .error text => rejectLogin users text
        | .ok user =>
            match (account.bindTo user).update env.passwords false users with
            | (after, some text) => rejectLogin after text
            | (after, none) => { users := after, reply := success }
    Ends env users (bind id account users) outcome.users (refusalOf outcome.reply) := by
  unfold bind
  split_ifs with taken
  · exact ends_refused _
  · cases filled : fillUserById users (account.asBinding id) with
    | error text => exact .step (by rw [next, filled]; rfl) (ends_refused text)
    | ok user =>
        refine .step (by rw [next, filled]) ?_
        dsimp only
        cases result : (account.bindTo user).update env.passwords false users with
        | mk after failure =>
            have writes := ends_writing [account.column] _ result
            cases failure with
            | some text => exact writes
            | none =>
                rw [refusalOf, if_pos succeeds]
                exact writes

/-- `GitHubOAuth`, with a session or without. -/
theorem ends_gitHubOAuth (session : Option Session) (account : Except String GitHubUser) :
    Ends env users (.start (.gitHubOAuth session account))
      (gitHubOAuth env.toUserEnvironment env.saved session account users).users
      (refusalOf (gitHubOAuth env.toUserEnvironment env.saved session account users).reply) := by
  refine .step rfl ?_
  unfold gitHubOAuth gitHubBind
  cases session with
  | none =>
      simp only [begin, withGitHub, withAccount]
      split_ifs with closed
      · exact ends_refused _
      · cases account with
        | error text => exact ends_refused text
        | ok account => exact ends_login (.gitHub account)
  | some session =>
      simp only [begin, withGitHub, withAccount]
      split_ifs with closed
      · exact ends_refused _
      · cases account with
        | error text => exact ends_refused text
        | ok account =>
            exact @ends_bind env users session.id (.gitHub account)
              { success := true, message := "bind" } rfl

theorem ends_gitHubBind (id : Int) (account : Except String GitHubUser) :
    Ends env users (.start (.gitHubBind id account))
      (gitHubBind env.toUserEnvironment id account users).users
      (refusalOf (gitHubBind env.toUserEnvironment id account users).reply) := by
  have ends := @ends_gitHubOAuth env users (some { id, username := "", role := 0, status := 0 })
    account
  cases ends with
  | step taken rest =>
      obtain ⟨rfl, rfl⟩ := Prod.mk.inj (Option.some.inj taken)
      exact .step rfl rest

theorem ends_weChatAuth (account : Except String String) :
    Ends env users (.start (.weChatAuth account))
      (weChatAuth env.toUserEnvironment env.saved account users).users
      (refusalOf (weChatAuth env.toUserEnvironment env.saved account users).reply) := by
  refine .step rfl ?_
  unfold weChatAuth
  simp only [begin, withWeChat, withAccount]
  split_ifs with closed
  · exact ends_refused _
  · cases account with
    | error text => exact ends_refused text
    | ok weChatId => exact ends_login (.weChat weChatId)

theorem ends_weChatBind (id : Int) (account : Except String String) :
    Ends env users (.start (.weChatBind id account))
      (weChatBind env.toUserEnvironment id account users).users
      (refusalOf (weChatBind env.toUserEnvironment id account users).reply) := by
  refine .step rfl ?_
  unfold weChatBind
  simp only [begin, withWeChat, withAccount]
  split_ifs with closed
  · exact ends_refused _
  · cases account with
    | error text => exact ends_refused text
    | ok weChatId => exact @ends_bind env users id (.weChat weChatId) { success := true } rfl

/-! ### The other requests -/

theorem ends_manageUser (myRole : Int) (body : Option Json) :
    ∃ reply, (manageUser env.toUserEnvironment myRole body users).reply = some reply ∧
      Ends env users (.start (.manageUser myRole body))
        (manageUser env.toUserEnvironment myRole body users).users (refusalOf reply) := by
  unfold manageUser
  cases admitted : admitManage myRole body users with
  | error text =>
      exact ⟨_, rfl, .step rfl (by simp only [begin, admitted]; exact ends_refused text)⟩
  | ok result =>
      obtain ⟨action, row, managed⟩ := result
      dsimp only
      cases updated : managed.user.update env.passwords false
          (if managed.deletes then users.delete managed.user.id else users) with
      | mk after failure =>
          have ends : Ends env users (.start (.manageUser myRole body)) after failure := by
            refine .step rfl ?_
            simp only [begin, admitted]
            split_ifs at updated ⊢ with deletes
            · exact .step rfl (ends_writing [] managed.user updated)
            · exact ends_writing _ managed.user updated
          cases failure with
          | some text => exact ⟨_, rfl, ends⟩
          | none => exact ⟨_, rfl, ends⟩

theorem ends_generateToken (id : Int) (token : String) :
    Ends env users (.start (.generateToken id token))
      (generateToken env.toUserEnvironment id token users).users
      (refusalOf (generateToken env.toUserEnvironment id token users).reply) := by
  refine .step rfl ?_
  unfold generateToken
  simp only [begin]
  cases loaded : getUserById users id true with
  | error text => exact ends_refused text
  | ok user =>
      dsimp only
      by_cases repeated : tokenRepeated { user with token } users = true
      · rw [if_pos repeated]
        exact .step (by rw [next, if_pos repeated]) (ends_refused _)
      · rw [if_neg repeated]
        refine .step (by rw [next, if_neg repeated]) ?_
        cases updated : ({ user with token } : User).update env.passwords false users with
        | mk after failure =>
            have ends := ends_writing [.token] _ updated
            cases failure with
            | some text => exact ends
            | none => exact ends

/-- An update of a struct ends with the answer of its handler. -/
theorem ends_answerUpdate {call : UserCall} {result : Users × Option String}
    (ends : Ends env users call result.1 result.2) :
    ∃ reply, (answerUpdate result).reply = some reply ∧
      Ends env users call (answerUpdate result).users (refusalOf reply) := by
  obtain ⟨after, failure⟩ := result
  cases failure with
  | some text => exact ⟨_, rfl, ends⟩
  | none => exact ⟨_, rfl, ends⟩

theorem ends_updateSelf (id : Int) (body : Option Json) :
    ∃ reply, (updateSelf env.toUserEnvironment id body users).reply = some reply ∧
      Ends env users (.start (.updateSelf id body))
        (updateSelf env.toUserEnvironment id body users).users (refusalOf reply) := by
  unfold updateSelf
  cases admitted : admitUpdateSelf id body with
  | error text =>
      exact ⟨_, rfl, .step rfl (by simp only [begin, admitted]; exact ends_refused text)⟩
  | ok user =>
      exact ends_answerUpdate
        (.step rfl (by simp only [begin, admitted]; exact ends_updating _ user rfl))

theorem ends_updateUser (myRole : Int) (body : Option Json) :
    ∃ reply, (updateUser env.toUserEnvironment myRole body users).reply = some reply ∧
      Ends env users (.start (.updateUser myRole body))
        (updateUser env.toUserEnvironment myRole body users).users (refusalOf reply) := by
  unfold updateUser
  cases admitted : admitUpdate myRole body users with
  | error text =>
      exact ⟨_, rfl, .step rfl (by simp only [begin, admitted]; exact ends_refused text)⟩
  | ok user =>
      exact ends_answerUpdate
        (.step rfl (by simp only [begin, admitted]; exact ends_updating _ user rfl))

theorem ends_emailBind (id : Int) (email code : String) (timestamp : Int) (channels : Channels) :
    Ends env users (.start (.emailBind id email code))
      (emailBind env.toUserEnvironment id email code timestamp users channels).users
      (refusalOf (emailBind env.toUserEnvironment id email code timestamp users channels).reply) := by
  refine .step rfl ?_
  unfold emailBind
  simp only [begin]
  split_ifs with wrong
  · exact ends_refused _
  · cases filled : fillUserById users { id } with
    | error text => exact ends_refused text
    | ok user =>
        dsimp only
        cases updated : ({ user with email } : User).update env.passwords false users with
        | mk after failure =>
            have ends := ends_writing [.email] _ updated
            cases failure with
            | some text => exact ends
            | none => exact ends

theorem ends_resetPassword (body : Option Json) (password : String) {now : Int}
    {codes : VerificationMap}
    (verifies : env.verifyReset = fun email token =>
      codes.verify now email token passwordResetPurpose) :
    Ends env users (.start (.resetPassword body password))
      (resetPassword env.passwords body password now users codes).users
      (refusalOf (resetPassword env.passwords body password now users codes).reply) := by
  refine .step rfl ?_
  unfold resetPassword resetUserPasswordByEmail
  simp only [begin, verifies]
  cases admitReset (fun email token => codes.verify now email token passwordResetPurpose) body with
  | error text => exact ends_refused text
  | ok email =>
      dsimp only
      by_cases blank : email = "" ∨ password = ""
      · rw [if_pos blank, if_pos blank]
        exact ends_refused _
      · rw [if_neg blank, if_neg blank]
        cases env.passwords.hash password with
        | error text => exact ends_refused text
        | ok hash =>
            dsimp only
            cases reset : setPasswordByEmail users email hash with
            | mk after failure =>
                cases failure with
                | some text => exact .step (by rw [next, reset]) (ends_refused text)
                | none => exact .step (by rw [next, reset]) .done

end UserCall

end MessagePusher.Controller
