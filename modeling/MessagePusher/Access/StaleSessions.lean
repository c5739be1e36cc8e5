import MessagePusher.Access.RoleHierarchy

/-!
# Sessions and the current users table

`authHelper` trusts what a session recorded at login. `Backed` is the invariant that
would make this sound: every session that can pass belongs to a row that still
grants its role. It survives a request unless the request takes rights from a user
who has such a session, and nothing in the program ends the sessions of such a user.
A cookie is such a session from the login that issued it until it is too old, also
after a logout.
-/

namespace MessagePusher.Access

open Common Model Store Middleware Controller Semantics

/-- The users table grants the role: the row exists, is not disabled and ranks as high. -/
def Grants (users : Users) (id role : Int) : Prop :=
  ∃ row, users.rowAt id = some row ∧ row.status ≠ userStatusDisabled ∧ role ≤ row.role

/-- Every request that `authHelper` lets pass is backed by the users table. -/
def Authorised (state : AccountState) : Prop :=
  ∀ client minRole actor, @authHelper Unit (state.sessions client) minRole = .ok actor →
    Grants state.users actor.id minRole

/-- The server accepts a session that is not marked disabled. -/
def AccountState.Live (state : AccountState) (session : Session) : Prop :=
  session.status ≠ userStatusDisabled ∧ ∃ client, state.sessions client = some session

/-- Every live session is backed by a row. -/
def Backed (state : AccountState) : Prop :=
  ∀ session, state.Live session → Grants state.users session.id session.role

/-- Sessions pass for exactly the roles up to their own. -/
theorem authorised_iff_backed {state : AccountState} : Authorised state ↔ Backed state := by
  constructor
  · rintro authorised session ⟨active, client, held⟩
    exact authorised client session.role session
      (authHelper_ok_iff.mpr ⟨held, active, Int.le_refl _⟩)
  · intro backed client minRole actor passed
    obtain ⟨held, active, enough⟩ := authHelper_ok_iff.mp passed
    obtain ⟨row, found, enabled, high⟩ := backed actor ⟨active, client, held⟩
    exact ⟨row, found, enabled, Int.le_trans enough high⟩

/-- No live session of the user with that id: a logout does not end one that a cookie keeps. -/
def SessionLess (state : AccountState) (id : Int) : Prop :=
  ∀ session, state.Live session → session.id ≠ id

/-- A management action spares the sessions of the user it is applied to. -/
def ActionSpares (state : AccountState) (action : String) (row : User) : Prop :=
  (action = "disable" ∨ action = "delete" → SessionLess state row.id) ∧
    (action = "demote" → ∀ session, state.Live session → session.id = row.id →
      session.role ≤ roleCommonUser)

/-- The request takes no rights from a user with a live session that uses them. A refused
request takes none; one that deletes its own user leaves the session it came with. -/
def RequestSpares (state : AccountState) (session : Option Session) : UserRequest → Prop
  | .manageUser body =>
      match @adminAuth User session with
      | .error _ => True
      | .ok actor =>
          match admitManage actor.role body state.users with
          | .error _ => True
          | .ok (action, row, _) => ActionSpares state action row
  | .deleteUser idParam =>
      match @adminAuth User session with
      | .error _ => True
      | .ok actor =>
          match admitDelete actor.role idParam state.users with
          | .error _ => True
          | .ok user => SessionLess state user.id
  | .deleteSelf =>
      match @userAuth User session with
      | .error _ => True
      | .ok actor => actor.id = 0
  | _ => True

/-- The step takes no rights from a user with a live session that uses them. -/
def StepSpares (state : AccountState) : AccountLabel → Prop
  | .user client _ request => RequestSpares state (state.sessions client) request
  | _ => True

/-! ### One step -/

/-- A row written under `id` leaves the sessions backed exactly when it grants the roles of
the live sessions of that user. -/
theorem backed_iff_of_rewrites {state : AccountState} {next : Users} {id : Int}
    {value : Option User} (backed : Backed state) (writes : state.users.Rewrites next id value) :
    Backed { state with users := next } ↔ ∀ session, state.Live session → session.id = id →
      ∃ after, value = some after ∧ after.status ≠ userStatusDisabled ∧
        session.role ≤ after.role := by
  constructor
  · rintro backedNext session live rfl
    obtain ⟨after, found, rest⟩ := backedNext session live
    exact ⟨after, writes.at_key.symm.trans found, rest⟩
  · intro granted session live
    by_cases same : session.id = id
    · obtain ⟨after, rfl, rest⟩ := granted session live same
      exact ⟨after, same ▸ writes.at_key, rest⟩
    · obtain ⟨row, found, rest⟩ := backed session live
      exact ⟨row, (writes.elsewhere same).trans found, rest⟩

theorem backed_of_creates {state : AccountState} {next : Users} {row : User}
    (backed : Backed state) (creates : Creates state.users next row) :
    Backed { state with users := next } := by
  obtain ⟨fresh, -, -, writes⟩ := creates
  refine (backed_iff_of_rewrites backed writes).mpr ?_
  rintro session live same
  obtain ⟨old, found, -⟩ := backed session live
  rw [same, fresh] at found
  cases found

theorem backed_of_edits {state : AccountState} {next : Users} {row : User}
    (backed : Backed state) (edits : Edits state.users next row) :
    Backed { state with users := next } := by
  obtain ⟨found, changed, role, status, writes⟩ := edits
  refine (backed_iff_of_rewrites backed writes).mpr ?_
  rintro session live same
  obtain ⟨old, foundOld, enabled, high⟩ := backed session live
  rw [same, found] at foundOld
  obtain rfl := Option.some.inj foundOld
  exact ⟨changed, rfl, status ▸ enabled, role ▸ high⟩

/-- A session of a user who is gone or disabled is not backed. -/
theorem sessionLess_iff {state : AccountState} {id : Int} {value : Option User}
    (revoked : ∀ after, value = some after → after.status = userStatusDisabled) :
    (∀ session, state.Live session → session.id = id →
      ∃ after, value = some after ∧ after.status ≠ userStatusDisabled ∧
        session.role ≤ after.role) ↔ SessionLess state id := by
  constructor
  · intro granted session live same
    obtain ⟨after, kept, enabled, -⟩ := granted session live same
    exact enabled (revoked after kept)
  · intro out session live same
    exact absurd same (out session live)

/-- What a management action writes grants the roles of the live sessions exactly when the
action spares them. -/
theorem actionSpares_iff {state : AccountState} {myRole : Int} {action : String} {row : User}
    {managed : Managed} (backed : Backed state) (found : state.users.rowAt row.id = some row)
    (effect : ManageEffect myRole row action managed) :
    (∀ session, state.Live session → session.id = row.id →
      ∃ after, (if managed.deletes then none else some managed.user) = some after ∧
        after.status ≠ userStatusDisabled ∧ session.role ≤ after.role) ↔
      ActionSpares state action row := by
  have before : ∀ session, state.Live session → session.id = row.id →
      row.status ≠ userStatusDisabled ∧ session.role ≤ row.role := by
    intro session live same
    obtain ⟨old, foundOld, rest⟩ := backed session live
    rw [same, found] at foundOld
    obtain rfl := Option.some.inj foundOld
    exact rest
  cases effect with
  | disable _ _ =>
      rw [sessionLess_iff (by
        rintro after ⟨⟩
        rfl)]
      simp [ActionSpares]
  | delete _ =>
      rw [sessionLess_iff (by
        rintro after ⟨⟩)]
      simp [ActionSpares]
  | demote _ _ =>
      simp only [ActionSpares, Bool.false_eq_true, if_false, String.reduceEq,
        or_self, false_implies, true_and, true_implies]
      constructor
      · intro granted session live same
        obtain ⟨after, kept, -, low⟩ := granted session live same
        obtain rfl := Option.some.inj kept
        exact low
      · intro low session live same
        exact ⟨_, rfl, (before session live same).1, low session live same⟩
  | enable _ =>
      refine iff_of_true ?_ (by simp [ActionSpares])
      intro session live same
      exact ⟨_, rfl, by simp [userStatusEnabled, userStatusDisabled],
        (before session live same).2⟩
  | promote _ low =>
      refine iff_of_true ?_ (by simp [ActionSpares])
      intro session live same
      obtain ⟨enabled, high⟩ := before session live same
      exact ⟨_, rfl, enabled, Int.le_trans high (Int.le_of_lt low)⟩
  | permission other _ _ role status _ =>
      have spares : ActionSpares state action row := by
        simp only [rightsActions, List.mem_cons, List.not_mem_nil, or_false, not_or] at other
        simp [ActionSpares, other]
      refine iff_of_true ?_ spares
      intro session live same
      obtain ⟨enabled, high⟩ := before session live same
      exact ⟨_, rfl, status ▸ enabled, role ▸ high⟩

section Requests

variable {state : AccountState} (backed : Backed state) (env : UserEnvironment) (client : Nat)

include backed

theorem backed_manageUser_iff (body : Option Json) :
    Backed { state with
      users := (serveUser env (state.sessions client) (.manageUser body) state.users).users } ↔
      RequestSpares state (state.sessions client) (.manageUser body) := by
  cases passed : @adminAuth User (state.sessions client) with
  | error refusal =>
      exact iff_of_true (by simpa [serveUser, passed, withSession] using backed)
        (by simp [RequestSpares, passed])
  | ok actor =>
      cases admitted : admitManage actor.role body state.users with
      | error text =>
          exact iff_of_true
            (by simpa [serveUser, passed, withSession, manageUser, admitted] using backed)
            (by simp [RequestSpares, passed, admitted])
      | ok result =>
          obtain ⟨action, row, managed⟩ := result
          obtain ⟨-, -, found, -, effect⟩ := admitManage_ok admitted
          have spares : RequestSpares state (state.sessions client) (.manageUser body) ↔
              ActionSpares state action row := by
            simp [RequestSpares, passed, admitted]
          simp only [serveUser, passed, withSession]
          rw [spares, backed_iff_of_rewrites backed (manageUser_effect env admitted)]
          exact actionSpares_iff backed found effect

theorem backed_deleteUser_iff (idParam : String) :
    Backed { state with
      users := (serveUser env (state.sessions client) (.deleteUser idParam) state.users).users } ↔
      RequestSpares state (state.sessions client) (.deleteUser idParam) := by
  cases passed : @adminAuth User (state.sessions client) with
  | error refusal =>
      exact iff_of_true (by simpa [serveUser, passed, withSession] using backed)
        (by simp [RequestSpares, passed])
  | ok actor =>
      cases admitted : admitDelete actor.role idParam state.users with
      | error text =>
          exact iff_of_true
            (by simpa [serveUser, passed, withSession, deleteUser, admitted] using backed)
            (by simp [RequestSpares, passed, admitted])
      | ok user =>
          have spares : RequestSpares state (state.sessions client) (.deleteUser idParam) ↔
              SessionLess state user.id := by
            simp [RequestSpares, passed, admitted]
          simp only [serveUser, passed, withSession]
          rw [spares, backed_iff_of_rewrites backed (deleteUser_effect admitted)]
          exact sessionLess_iff (by
            rintro after ⟨⟩)

/-- The session that a user deletes itself with stays. -/
theorem backed_deleteSelf_iff :
    Backed { state with
      users := (serveUser env (state.sessions client) .deleteSelf state.users).users } ↔
      RequestSpares state (state.sessions client) .deleteSelf := by
  cases passed : @userAuth User (state.sessions client) with
  | error refusal =>
      exact iff_of_true (by simpa [serveUser, passed, withSession] using backed)
        (by simp [RequestSpares, passed])
  | ok actor =>
      have spares : RequestSpares state (state.sessions client) .deleteSelf ↔ actor.id = 0 := by
        simp [RequestSpares, passed]
      simp only [serveUser, passed, withSession]
      rw [spares]
      by_cases unset : actor.id = 0
      · exact iff_of_true (by simpa [deleteSelf, fillUserById, unset] using backed) unset
      · refine iff_of_false ?_ unset
        rw [backed_iff_of_rewrites backed (deleteSelf_effect unset)]
        intro granted
        obtain ⟨held, active, -⟩ := authHelper_ok_iff.mp passed
        obtain ⟨after, kept, -⟩ := granted actor ⟨active, client, held⟩ rfl
        cases kept

/-- A request leaves the sessions backed exactly when it takes no rights from a user with a
live session that uses them. -/
theorem backed_request_iff (request : UserRequest) :
    Backed { state with
      users := (serveUser env (state.sessions client) request state.users).users } ↔
      RequestSpares state (state.sessions client) request := by
  have effect := serveUser_effect env (state.sessions client) request state.users
  cases request with
  | register body =>
      refine iff_of_true ?_ trivial
      cases effect with
      | nothing same => rwa [same]
      | registered creates => exact backed_of_creates backed creates
  | createUser body =>
      refine iff_of_true ?_ trivial
      cases effect with
      | nothing same => rwa [same]
      | created _ creates => exact backed_of_creates backed creates
  | updateUser body =>
      refine iff_of_true ?_ trivial
      cases effect with
      | nothing same => rwa [same]
      | edited _ _ edits => exact backed_of_edits backed edits
  | manageUser body => exact backed_manageUser_iff backed env client body
  | deleteUser idParam => exact backed_deleteUser_iff backed env client idParam
  | deleteSelf => exact backed_deleteSelf_iff backed env client

end Requests

/-- A login backs its own session. -/
theorem backed_login {state : AccountState} (backed : Backed state) (client : Nat)
    (env : UserEnvironment) (saved : Bool) (route : LoginRoute) :
    Backed (state.serve (.login client env saved route)) := by
  have effect := serveLogin_effect env saved (state.sessions client) route state.users
  generalize outcomeIs : serveLogin env saved (state.sessions client) route state.users =
    outcome at effect
  have backedUsers : Backed { state with users := outcome.users } := by
    cases effect with
    | rejected same _ => rwa [same]
    | bound edits _ => exact backed_of_edits backed edits
    | registered creates _ => exact backed_of_creates backed creates
    | entered same _ _ _ => rwa [same]
  have backedNew : ∀ session, outcome.session = some session →
      Grants outcome.users session.id session.role := by
    intro session open_
    cases effect with
    | rejected _ closed =>
        rw [closed] at open_
        cases open_
    | bound _ closed =>
        rw [closed] at open_
        cases open_
    | @registered row creates opened =>
        obtain ⟨-, -, status, writes⟩ := creates
        obtain rfl := opened session open_
        exact ⟨row, writes.at_key, by simp [status, userStatusEnabled, userStatusDisabled],
          Int.le_refl _⟩
    | @entered row same found enabled opened =>
        obtain rfl := opened session open_
        exact ⟨row, same ▸ found, by simp [enabled, userStatusEnabled, userStatusDisabled],
          Int.le_refl _⟩
  rintro session ⟨active, other, held⟩
  rw [AccountState.users_login, outcomeIs]
  rcases AccountState.sessions_login held with new | old
  · exact backedNew session (outcomeIs ▸ new)
  · exact backedUsers session ⟨active, other, old⟩

/-- A step from a backed state leads to a backed state exactly when it takes no rights
from a user with a live session that uses them. -/
theorem backed_step_iff {state next : AccountState} {label : AccountLabel}
    (backed : Backed state) (transition : accounts.Step state label next) :
    Backed next ↔ StepSpares state label := by
  obtain rfl : next = state.serve label := transition
  cases label with
  | login client env saved route => exact iff_of_true (backed_login backed client env saved route) trivial
  | logout client saved =>
      refine iff_of_true ?_ trivial
      rintro session ⟨active, other, held⟩
      dsimp only [AccountState.serve]
      rw [AccountState.users_closed]
      exact backed session ⟨active, other, AccountState.sessions_logout held⟩
  | expire client =>
      refine iff_of_true ?_ trivial
      rintro session ⟨active, other, held⟩
      exact backed session ⟨active, other, AccountState.sessions_expire held⟩
  | user client env request => exact backed_request_iff backed env client request
  | access client minRole => exact iff_of_true backed trivial

/-! ### Whole runs -/

theorem backed_initial {state : AccountState} (nobody : accounts.Initial state) : Backed state := by
  rintro session ⟨-, client, held⟩
  rw [nobody client] at held
  cases held

theorem backed_of_sparing_steps {state : AccountState}
    (reachable : (accounts.guard StepSpares).Reachable state) : Backed state := by
  have preserved : ∀ {state label next}, Backed state →
      (accounts.guard StepSpares).Step state label next → Backed next :=
    fun backed transition => (backed_step_iff backed transition.2).mpr transition.1
  have initial : ∀ {state}, (accounts.guard StepSpares).Initial state → Backed state :=
    backed_initial
  exact reachable.invariant initial preserved

/-- In every run whose steps take no rights from a user with a live session that uses them,
whatever `authHelper` lets pass is backed by the users table of that moment. -/
theorem authorised_of_sparing_steps {state : AccountState}
    (reachable : (accounts.guard StepSpares).Reachable state) : Authorised state :=
  authorised_iff_backed.mpr (backed_of_sparing_steps reachable)

/-- The first step of a run that does not spare a session leaves a request that passes
without being backed. -/
theorem not_authorised_of_unsparing_step {state next : AccountState} {label : AccountLabel}
    (reachable : (accounts.guard StepSpares).Reachable state)
    (transition : accounts.Step state label next) (unsparing : ¬ StepSpares state label) :
    ¬ Authorised next := by
  rw [authorised_iff_backed, backed_step_iff (backed_of_sparing_steps reachable) transition]
  exact unsparing

/-- `authHelper` looks for a disabled status that no session ever has. -/
theorem session_status_enabled {state : AccountState} (reachable : accounts.Reachable state)
    {client : Nat} {session : Session} (held : state.sessions client = some session) :
    session.status = userStatusEnabled := by
  have initial : ∀ {state}, accounts.Initial state →
      ∀ client session, state.sessions client = some session →
        session.status = userStatusEnabled := by
    intro state nobody client session held
    rw [nobody client] at held
    cases held
  have preserved : ∀ {state label next},
      (∀ client session, state.sessions client = some session →
        session.status = userStatusEnabled) → accounts.Step state label next →
      ∀ client session, next.sessions client = some session →
        session.status = userStatusEnabled := by
    rintro state label next enabled rfl other session held
    cases label with
    | login client env saved route =>
        rcases AccountState.sessions_login held with new | old
        · cases serveLogin_effect env saved (state.sessions client) route state.users with
          | rejected _ closed =>
              rw [closed] at new
              cases new
          | bound _ closed =>
              rw [closed] at new
              cases new
          | registered creates opened =>
              obtain rfl := opened session new
              exact creates.2.2.1
          | entered _ _ active opened =>
              obtain rfl := opened session new
              exact active
        · exact enabled other session old
    | logout client saved => exact enabled other session (AccountState.sessions_logout held)
    | expire client => exact enabled other session (AccountState.sessions_expire held)
    | user client env request => exact enabled other session held
    | access client minRole => exact enabled other session held
  exact reachable.invariant initial preserved client session held

/-- A root user and an administrator. -/
def rootAndAdmin : Users where
  rows :=
    [ { id := 1, username := "root", password := "12345678", role := roleRootUser, status := 1 },
      { id := 2, username := "bob", password := "12345678", role := roleAdminUser, status := 1 } ]
  counter := 2
  sorted := by decide
  unique := by decide
  counterNonneg := Store.Table.two_nonneg
  bounded := by decide

def passwordLogin (client : Nat) (username : String) : AccountLabel :=
  .login client { passwords := plainPasswords } true (.password (loginBody username))

def manageBob (client : Nat) (action : String) : AccountLabel :=
  .user client { passwords := plainPasswords }
    (.manageUser (some (.object [("username", .string "bob"), ("action", .string action)])))

/-- A disabled administrator goes on with the session from before. -/
theorem disabled_admin_passes : ¬ ∀ state, accounts.Reachable state → Authorised state := by
  intro claimed
  let start : AccountState := { users := rootAndAdmin, sessions := fun _ => none }
  let bobIn := start.serve (passwordLogin 0 "bob")
  let rootIn := bobIn.serve (passwordLogin 1 "root")
  let final := rootIn.serve (manageBob 1 "disable")
  have reachable : accounts.Reachable final :=
    (((System.Reachable.initial fun _ => rfl).step
      (show accounts.Step start (passwordLogin 0 "bob") bobIn from rfl)).step
      (show accounts.Step bobIn (passwordLogin 1 "root") rootIn from rfl)).step
      (show accounts.Step rootIn (manageBob 1 "disable") final from rfl)
  let bob : Session := { id := 2, username := "bob", role := roleAdminUser, status := 1 }
  have passes : @authHelper Unit (final.sessions 0) roleAdminUser = .ok bob := by decide
  obtain ⟨row, found, enabled, -⟩ := claimed final reachable 0 roleAdminUser bob passes
  have disabled : (final.users.rowAt 2).all fun row => row.status = userStatusDisabled := by decide
  rw [found] at disabled
  exact enabled (by simpa using disabled)

/-- An administrator without a cookie that is accepted is demoted: bob's, which has the number 0,
is too old by then. -/
theorem authorised_after_demotion :
    Authorised (((({ users := rootAndAdmin, sessions := fun _ => none } : AccountState).serve
      (passwordLogin 0 "bob")).serve (passwordLogin 1 "root")).serve (.expire 0) |>.serve
        (manageBob 1 "demote")) := by
  let start : AccountState := { users := rootAndAdmin, sessions := fun _ => none }
  let bobIn := start.serve (passwordLogin 0 "bob")
  let rootIn := bobIn.serve (passwordLogin 1 "root")
  let bobOut := rootIn.serve (.expire 0)
  have onlyRoot : ∀ session, bobOut.Live session → session.id = 1 := by
    rintro session ⟨-, client, held⟩
    rcases client with _ | _ | client
    · cases held
    · exact (congrArg Session.id (Option.some.inj held)).symm
    · cases held
  have spares : StepSpares bobOut (manageBob 1 "demote") := by
    change ActionSpares bobOut "demote"
      { id := 2, username := "bob", password := "12345678", role := roleAdminUser, status := 1 }
    refine ⟨by simp, fun _ session live same => ?_⟩
    rw [onlyRoot session live] at same
    exact absurd same (by decide)
  have step : ∀ {state : AccountState} (label : AccountLabel), StepSpares state label →
      (accounts.guard StepSpares).Reachable state →
      (accounts.guard StepSpares).Reachable (state.serve label) :=
    fun _ sparing reachable => reachable.step ⟨sparing, rfl⟩
  have reached : (accounts.guard StepSpares).Reachable bobOut :=
    step (.expire 0) trivial (step (passwordLogin 1 "root") trivial
      (step (passwordLogin 0 "bob") trivial (.initial fun _ => rfl)))
  exact authorised_of_sparing_steps (step (manageBob 1 "demote") spares reached)

end MessagePusher.Access
