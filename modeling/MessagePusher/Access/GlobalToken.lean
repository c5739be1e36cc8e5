import MessagePusher.Controller.Push
import MessagePusher.Semantics.Transition
import MessagePusher.Web.PushSetting

/-!
# What the global token means

The settings page shows a single space as an empty token and stores an empty token as a
single space. The server knows no such token: for `authMessage` only the empty string is
none. The two agree on a stored token exactly when it is not the single space.
-/

namespace MessagePusher.Access

open Common Model Store Controller Semantics Web

/-- A change of the own settings. -/
inductive SettingsChange where
  | pushSetting (channel token : String)
  | updateSelf (body : Option Json)
  | generateToken (token : String)

namespace SettingsChange

/-- The table after a change, and whether it was answered with success. -/
def apply (env : UserEnvironment) (id : Int) (users : Users) : SettingsChange → Users × Bool
  | .pushSetting channel token =>
      let handled := Controller.updateSelf env id (some (submit channel token)) users
      (handled.users, handled.reply.any (·.success))
  | .updateSelf body =>
      let handled := Controller.updateSelf env id body users
      (handled.users, handled.reply.any (·.success))
  | .generateToken token =>
      let generated := Controller.generateToken env id token users
      (generated.users, generated.reply.success)

/-- The token that a change carries, empty for one that leaves the token alone. -/
def token (id : Int) : SettingsChange → String
  | .pushSetting _ token => if token = "" then blankToken else token
  | .updateSelf body =>
      match admitUpdateSelf id body with
      | .ok user => user.token
      | .error _ => ""
  | .generateToken token => token

end SettingsChange

/-- The changes of a user, each answered with success. -/
def settingsChanges (env : UserEnvironment) (id : Int) : System Users SettingsChange where
  Initial _ := True
  Step users change next := change.apply env id users = (next, true)

/-- The token after changes to a user who had `token` before: `Updates` writes only non-zero
fields. -/
def tokenAfter (id : Int) (token : String) (changes : List SettingsChange) : String :=
  changes.foldl (fun stored change => keepString (change.token id) stored) token

/-- The server asks for the token of the user: a push without one, on a channel without one, is
refused. -/
def asksForToken (user : User) : Prop := authMessage "" user.token none = false

/-- The last change was the page saving an empty token. -/
def ClearedLast (changes : List SettingsChange) : Prop :=
  ∃ channel, changes.getLast? = some (.pushSetting channel "")

/-- Server and page agree on the stored token, and pushing without a token works again once it
was cleared. -/
structure TokenAgrees (user : User) (changes : List SettingsChange) : Prop where
  shown : asksForToken user ↔ shownToken user ≠ ""
  cleared : ClearedLast changes → ∀ channel : Model.Channel, channel.userId = user.id →
    channel.status = channelStatusEnabled → (channel.token = none ∨ channel.token = some "") →
      authMessage "" user.token channel.token = true

theorem asksForToken_iff (user : User) : asksForToken user ↔ user.token ≠ "" := by
  unfold asksForToken authMessage
  by_cases blank : user.token = ""
  · simp [blank]
  · simp [blank, Ne.symm blank]

theorem admitUpdateSelf_id {id : Int} {body : Option Json} {user : User}
    (admitted : admitUpdateSelf id body = .ok user) : user.id = id := by
  unfold admitUpdateSelf at admitted
  split at admitted
  · cases admitted
  · split at admitted
    · cases admitted
    · cases admitted
      rfl

/-- An update that goes through puts the token of the struct into the row, unless it is empty. -/
theorem update_stores {env : UserEnvironment} {users : Users} {user row : User}
    {updatePassword : Bool} (found : users.rowAt user.id = some row)
    (done : (user.update env.passwords updatePassword users).2 = none) :
    ∃ after, (user.update env.passwords updatePassword users).1.rowAt user.id = some after ∧
      after.id = row.id ∧ after.token = keepString user.token row.token := by
  obtain ⟨hash, writes⟩ := User.update_done done found
  exact ⟨_, writes.at_key, rfl, rfl⟩

theorem updateSelf_stores {env : UserEnvironment} {id : Int} {users : Users} {row : User}
    {body : Option Json} (found : users.rowAt id = some row)
    (success : (updateSelf env id body users).reply.any (·.success) = true) :
    ∃ user, admitUpdateSelf id body = .ok user ∧
      ∃ after, (updateSelf env id body users).users.rowAt id = some after ∧ after.id = row.id ∧
        after.token = keepString user.token row.token := by
  unfold updateSelf at success ⊢
  cases admitted : admitUpdateSelf id body with
  | error text => simp [admitted, refuse] at success
  | ok user =>
      obtain rfl := admitUpdateSelf_id admitted
      simp only [admitted] at success ⊢
      cases updated : user.update env.passwords (user.password ≠ "") users with
      | mk next failure =>
          rw [updated] at success
          cases failure with
          | some text => simp [answerUpdate, refuse] at success
          | none =>
              have done : (user.update env.passwords (user.password ≠ "") users).2 = none := by
                rw [updated]
              obtain ⟨after, there, same, token⟩ := update_stores found done
              rw [updated] at there
              exact ⟨user, rfl, after, there, same, token⟩

theorem generateToken_stores {env : UserEnvironment} {id : Int} {users : Users} {row : User}
    {token : String} (found : users.rowAt id = some row)
    (success : (generateToken env id token users).reply.success = true) :
    ∃ after, (generateToken env id token users).users.rowAt id = some after ∧
      after.id = row.id ∧ after.token = keepString token row.token := by
  unfold generateToken at success ⊢
  cases loaded : getUserById users id true with
  | error text => simp [loaded] at success
  | ok user =>
      have own : user.id = id := getUserById_id loaded
      subst own
      simp only [loaded] at success ⊢
      by_cases repeated : tokenRepeated { user with token } users = true
      · simp [repeated] at success
      · simp only [repeated, Bool.false_eq_true, if_false] at success ⊢
        cases updated : ({ user with token } : User).update env.passwords false users with
        | mk next failure =>
            rw [updated] at success
            cases failure with
            | some text => simp at success
            | none =>
                have done : (({ user with token } : User).update env.passwords false users).2 =
                    none := by
                  rw [updated]
                obtain ⟨after, there, same, kept⟩ :=
                  @update_stores env users { user with token } row false found done
                rw [updated] at there
                exact ⟨after, there, same, kept⟩

/-- A change that is answered with success puts the token it carries into the row. -/
theorem SettingsChange.stores {env : UserEnvironment} {id : Int} {users next : Users} {row : User}
    {change : SettingsChange} (found : users.rowAt id = some row)
    (applied : change.apply env id users = (next, true)) :
    ∃ after, next.rowAt id = some after ∧ after.id = row.id ∧
      after.token = keepString (change.token id) row.token := by
  cases change with
  | pushSetting channel token =>
      obtain ⟨rfl, success⟩ := Prod.mk.inj applied
      obtain ⟨user, admitted, stored⟩ := updateSelf_stores found success
      rw [admitUpdateSelf_submit, Except.ok.injEq] at admitted
      subst admitted
      exact stored
  | updateSelf body =>
      obtain ⟨rfl, success⟩ := Prod.mk.inj applied
      obtain ⟨user, admitted, stored⟩ := updateSelf_stores found success
      simp only [SettingsChange.token, admitted]
      exact stored
  | generateToken token =>
      obtain ⟨rfl, success⟩ := Prod.mk.inj applied
      exact generateToken_stores found success

/-- After any history the row holds the last token that was not left out. -/
theorem settingsChanges_token {env : UserEnvironment} {id : Int} {start users : Users}
    {changes : List SettingsChange} {row : User} (found : start.rowAt id = some row)
    (runs : (settingsChanges env id).Runs start changes users) :
    ∃ user, users.rowAt id = some user ∧ user.token = tokenAfter id row.token changes := by
  induction runs with
  | refl => exact ⟨row, found, rfl⟩
  | step _ transition ih =>
      obtain ⟨user, there, token⟩ := ih
      obtain ⟨after, thereAfter, -, stored⟩ := SettingsChange.stores there transition
      refine ⟨after, thereAfter, ?_⟩
      rw [stored, token]
      simp [tokenAfter]

theorem tokenAfter_of_clearedLast {id : Int} {token : String} {changes : List SettingsChange}
    (cleared : ClearedLast changes) : tokenAfter id token changes = blankToken := by
  obtain ⟨channel, last⟩ := cleared
  obtain ⟨before, rfl⟩ := List.getLast?_eq_some_iff.mp last
  rw [tokenAfter, List.foldl_append]
  rfl

/-- After any history, server and page agree on what the token means exactly when the last token
that was stored is not the single space. -/
theorem globalToken_agrees_iff (env : UserEnvironment) (id : Int) {start users : Users}
    {changes : List SettingsChange} {row : User} (found : start.rowAt id = some row)
    (runs : (settingsChanges env id).Runs start changes users) :
    (∀ user, users.rowAt id = some user → TokenAgrees user changes) ↔
      tokenAfter id row.token changes ≠ blankToken := by
  obtain ⟨user, there, token⟩ := settingsChanges_token found runs
  rw [← token]
  constructor
  · intro agrees blank
    have shown := (agrees user there).shown
    rw [asksForToken_iff, shownToken_eq, blank] at shown
    simp [blankToken] at shown
  · intro notBlank other thereOther
    rw [there] at thereOther
    obtain rfl := Option.some.inj thereOther
    refine ⟨?_, ?_⟩
    · rw [asksForToken_iff, shownToken_eq, if_neg notBlank]
    · intro cleared
      rw [tokenAfter_of_clearedLast cleared] at token
      exact absurd token notBlank

/-- Once the page has cleared the token, every push without one is refused. -/
theorem cleared_refuses {env : UserEnvironment} {id : Int} {start users : Users}
    {changes : List SettingsChange} {row user : User} (found : start.rowAt id = some row)
    (runs : (settingsChanges env id).Runs start changes users) (cleared : ClearedLast changes)
    (there : users.rowAt id = some user) (channel : Model.Channel)
    (unlocked : channel.token = none ∨ channel.token = some "") :
    authMessage "" user.token channel.token = false := by
  obtain ⟨other, thereOther, token⟩ := settingsChanges_token found runs
  rw [there] at thereOther
  obtain rfl := Option.some.inj thereOther
  rw [token, tokenAfter_of_clearedLast cleared]
  rcases unlocked with none_ | blank
  · rw [none_]
    decide
  · rw [blank]
    decide

/-! A user with a token who clears it on the page. -/

def cautiousRows : List User :=
  [{ id := 1, username := "ann", status := userStatusEnabled, token := "k" }]

def cautiousUsers : Users where
  rows := cautiousRows
  counter := 1
  sorted := by decide
  unique := by decide
  counterNonneg := Int.one_nonneg
  bounded := by decide

def cautiousEnvironment : UserEnvironment where
  passwords := { hash := .ok, validate := fun password hash => password = hash }

theorem cautious_found : cautiousUsers.rowAt 1 =
    some { id := 1, username := "ann", status := userStatusEnabled, token := "k" } := rfl

/-- The page saves an empty token, and the row then holds the single space. -/
theorem cautious_clears :
    ∃ users, (settingsChanges cautiousEnvironment 1).Runs cautiousUsers
      [.pushSetting "email" ""] users := by
  refine ⟨_, .single (Prod.ext rfl ?_)⟩
  decide

/-- The page shows no token, and the server asks for one. -/
theorem globalToken_disagrees :
    ¬ ∀ users, (settingsChanges cautiousEnvironment 1).Runs cautiousUsers
      [.pushSetting "email" ""] users →
        ∀ user, users.rowAt 1 = some user → TokenAgrees user [.pushSetting "email" ""] := by
  intro agrees
  obtain ⟨users, runs⟩ := cautious_clears
  obtain ⟨user, there, -⟩ := settingsChanges_token cautious_found runs
  have cleared : ClearedLast [.pushSetting "email" ""] := ⟨"email", rfl⟩
  have open_ := (agrees users runs user there).cleared cleared
    { userId := user.id, status := channelStatusEnabled } rfl rfl (.inl rfl)
  rw [cleared_refuses cautious_found runs cleared there _ (.inl rfl)] at open_
  cases open_

theorem globalToken_agrees_iff_cautious :
    ∃ users : Users, (∀ user, users.rowAt 1 = some user → TokenAgrees user [.pushSetting "email" ""]) ↔
      tokenAfter 1 "k" [.pushSetting "email" ""] ≠ blankToken := by
  obtain ⟨users, runs⟩ := cautious_clears
  exact ⟨users, globalToken_agrees_iff cautiousEnvironment 1 cautious_found runs⟩

end MessagePusher.Access
