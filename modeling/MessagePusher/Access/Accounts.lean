import MessagePusher.Semantics.Transition
import MessagePusher.Controller.UserEffects

/-!
# Accounts and sessions as a transition system

The users table and the sessions that the server accepts. A step is one request,
handled atomically. The role of a request is the one that the middleware reads from
the session that it comes with.

By default a session is kept in a signed cookie and nowhere else, so every cookie that a
login has issued can be sent again until it is too old. With Redis the cookie names a
session that the server keeps.
-/

namespace MessagePusher.Access

open Common Model Store Middleware Controller Semantics

/-- Where `main` keeps the sessions. -/
inductive SessionStore where
  | cookie
  | redis

/-- The users table, and for each cookie the session that the server reads from it. `issued`
numbers the cookies of the cookie store. -/
structure AccountState where
  users : Users
  sessions : Nat → Option Session
  store : SessionStore := .cookie
  issued : Nat := 0

/-- The ways to log in. -/
inductive LoginRoute where
  | password (body : Option Json)
  | gitHub (account : Except String GitHubUser)
  | weChat (account : Except String String)

/-- A request, with the cookie that it comes with; or the end of a session by its age. -/
inductive AccountLabel where
  | login (client : Nat) (env : UserEnvironment) (saved : Bool) (route : LoginRoute)
  | logout (client : Nat) (saved : Bool)
  | expire (client : Nat)
  | user (client : Nat) (env : UserEnvironment) (request : UserRequest)
  | access (client : Nat) (minRole : Int)

def serveLogin (env : UserEnvironment) (saved : Bool) (session : Option Session)
    (route : LoginRoute) (users : Users) : LoginOutcome :=
  match route with
  | .password body => login env saved body users
  | .gitHub account => gitHubOAuth env saved session account users
  | .weChat account => weChatAuth env saved account users

/-- The sessions where `client` stands for `session`. -/
def withClient (sessions : Nat → Option Session) (client : Nat) (session : Option Session) :
    Nat → Option Session :=
  fun other => if other = client then session else sessions other

namespace AccountState

/-- The session of a login: a new cookie, or the session that the cookie names. -/
def opened (state : AccountState) (client : Nat) (session : Session) : AccountState :=
  match state.store with
  | .cookie =>
      { state with
        sessions := withClient state.sessions state.issued (some session)
        issued := state.issued + 1 }
  | .redis => { state with sessions := withClient state.sessions client (some session) }

/-- `Logout`. The cookie store answers a blank cookie; the server forgets nothing, since it
remembers nothing. -/
def closed (state : AccountState) (client : Nat) (saved : Bool) : AccountState :=
  match state.store with
  | .cookie => state
  | .redis =>
      { state with
        sessions := withClient state.sessions client (logout saved (state.sessions client)) }

/-- The state after a request. An `access` is any other request behind `authHelper`; it
changes neither users nor sessions. -/
def serve (state : AccountState) : AccountLabel → AccountState
  | .login client env saved route =>
      let outcome := serveLogin env saved (state.sessions client) route state.users
      match outcome.session with
      | none => { state with users := outcome.users }
      | some session => { state with users := outcome.users }.opened client session
  | .logout client saved => state.closed client saved
  | .expire client => { state with sessions := withClient state.sessions client none }
  | .user client env request =>
      { state with users := (serveUser env (state.sessions client) request state.users).users }
  | .access _ _ => state

end AccountState

/-- Any users table, nobody logged in. -/
def accounts : System AccountState AccountLabel where
  Initial state := ∀ client, state.sessions client = none
  Step state label next := next = state.serve label

theorem serveLogin_effect (env : UserEnvironment) (saved : Bool) (session : Option Session)
    (route : LoginRoute) (users : Users) :
    LoginEffect users (serveLogin env saved session route users) := by
  cases route with
  | password body => exact login_effect env saved body users
  | gitHub account => exact gitHubOAuth_effect env saved session account users
  | weChat account => exact weChatAuth_effect env saved account users

namespace AccountState

variable {state : AccountState} {client other : Nat} {session : Session}

theorem sessions_withClient {sessions : Nat → Option Session} {written : Option Session}
    (held : withClient sessions client written other = some session) :
    written = some session ∨ sessions other = some session := by
  unfold withClient at held
  split_ifs at held with same
  · exact .inl held
  · exact .inr held

@[simp]
theorem users_opened (state : AccountState) (client : Nat) (session : Session) :
    (state.opened client session).users = state.users := by
  unfold opened
  split <;> rfl

@[simp]
theorem users_closed (state : AccountState) (client : Nat) (saved : Bool) :
    (state.closed client saved).users = state.users := by
  unfold closed
  split <;> rfl

theorem sessions_opened {fresh : Session}
    (held : (state.opened client fresh).sessions other = some session) :
    session = fresh ∨ state.sessions other = some session := by
  unfold opened at held
  split at held
  · rcases sessions_withClient held with new | old
    · exact .inl (Option.some.inj new).symm
    · exact .inr old
  · rcases sessions_withClient held with new | old
    · exact .inl (Option.some.inj new).symm
    · exact .inr old

theorem users_login (env : UserEnvironment) (saved : Bool) (route : LoginRoute) :
    (state.serve (.login client env saved route)).users =
      (serveLogin env saved (state.sessions client) route state.users).users := by
  dsimp only [serve]
  split
  · rfl
  · rw [users_opened]

/-- A session after a login is the new one or was there before. -/
theorem sessions_login {env : UserEnvironment} {saved : Bool} {route : LoginRoute}
    (held : (state.serve (.login client env saved route)).sessions other = some session) :
    (serveLogin env saved (state.sessions client) route state.users).session = some session ∨
      state.sessions other = some session := by
  dsimp only [serve] at held
  split at held
  · exact .inr held
  · next fresh opens =>
    rcases sessions_opened held with rfl | old
    · exact .inl opens
    · exact .inr old

/-- A session after a logout was there before. -/
theorem sessions_logout {saved : Bool}
    (held : (state.serve (.logout client saved)).sessions other = some session) :
    state.sessions other = some session := by
  dsimp only [serve, closed] at held
  split at held
  · exact held
  · simp only [withClient] at held
    split_ifs at held with same
    · subst same
      cases saved with
      | true => cases held
      | false => exact held
    · exact held

/-- So was one after the end of another. -/
theorem sessions_expire (held : (state.serve (.expire client)).sessions other = some session) :
    state.sessions other = some session := by
  rcases sessions_withClient held with ended | old
  · cases ended
  · exact old

end AccountState

end MessagePusher.Access
