import MessagePusher.Access.Accounts

/-!
# The role hierarchy

What a request that manages users may do to rows of a rank, and that it holds of every
step of every run. `DeleteUser` compares ranks and knows no root user, so a rank above
root, which no handler assigns, could delete one.
-/

namespace MessagePusher.Access

open Common Model Store Middleware Controller Semantics

/-- A promotion by root. -/
def PromotesAsRoot (actor : Session) (request : UserRequest) : Prop :=
  ∃ body manage, actor.role = roleRootUser ∧ request = .manageUser body ∧
    Json.decodeInto ManageRequest.jsonFields body {} = some manage ∧ manage.action = "promote"

/-- The hierarchy as a request of `session` keeps it. -/
structure KeepsRanks (session : Option Session) (request : UserRequest) (users next : Users) :
    Prop where
  /-- Below root, a request changes only rows that rank below its actor. -/
  spares : ∀ actor, session = some actor → actor.role < roleRootUser →
    ∀ key row, users.rowAt key = some row → actor.role ≤ row.role → next.rowAt key = some row
  /-- Without a session no existing row changes. -/
  sparesAll : session = none → ∀ key row, users.rowAt key = some row → next.rowAt key = some row
  /-- No row of a root user is demoted or disabled. -/
  rootStays : ∀ key row after, users.rowAt key = some row → row.role = roleRootUser →
    next.rowAt key = some after → after.role = roleRootUser ∧
      (after.status = userStatusDisabled → row.status = userStatusDisabled)
  /-- No row of a root user is deleted by an actor of a rank up to root. -/
  rootKept : (∀ actor, session = some actor → actor.role ≤ roleRootUser) →
    ∀ key row, users.rowAt key = some row → row.role = roleRootUser →
      (next.rowAt key).isSome
  /-- Only a promotion by root raises a role above common. -/
  rises : ∀ key after, next.rowAt key = some after → roleCommonUser < after.role →
    (∃ row, users.rowAt key = some row ∧ after.role ≤ row.role) ∨
      ∃ actor, session = some actor ∧ PromotesAsRoot actor request ∧ after.role = roleAdminUser
  /-- A new row has the common role. -/
  common : ∀ key after, users.rowAt key = none → next.rowAt key = some after →
    after.role = roleCommonUser

variable {session : Option Session} {request : UserRequest} {users next : Users}

theorem KeepsRanks.of_same (same : next = users) : KeepsRanks session request users next := by
  subst same
  constructor
  · intro _ _ _ key row found _
    exact found
  · intro _ key row found
    exact found
  · intro key row after found root kept
    obtain rfl : row = after := Option.some.inj (found.symm.trans kept)
    exact ⟨root, id⟩
  · intro _ key row found _
    simp [found]
  · intro key after found _
    exact .inl ⟨after, found, Int.le_refl _⟩
  · intro key after missing found
    rw [missing] at found
    cases found

/-- A new user keeps the ranks. -/
theorem KeepsRanks.of_creates {row : User} (creates : Creates users next row) :
    KeepsRanks session request users next := by
  obtain ⟨fresh, role, -, writes⟩ := creates
  have untouched : ∀ key old, users.rowAt key = some old → next.rowAt key = some old := by
    intro key old found
    have other : key ≠ row.id := by
      rintro rfl
      rw [fresh] at found
      cases found
    rw [writes.elsewhere other, found]
  constructor
  · intro _ _ _ key old found _
    exact untouched key old found
  · intro _ key old found
    exact untouched key old found
  · intro key old after found root kept
    obtain rfl : old = after := Option.some.inj ((untouched key old found).symm.trans kept)
    exact ⟨root, id⟩
  · intro _ key old found _
    simp [untouched key old found]
  · intro key after found high
    by_cases same : key = row.id
    · subst same
      obtain rfl : row = after := Option.some.inj (writes.at_key.symm.trans found)
      omega
    · rw [writes.elsewhere same] at found
      exact .inl ⟨after, found, Int.le_refl _⟩
  · intro key after missing found
    by_cases same : key = row.id
    · subst same
      obtain rfl : row = after := Option.some.inj (writes.at_key.symm.trans found)
      exact role
    · rw [writes.elsewhere same, missing] at found
      cases found

/-- Writing one row keeps the ranks if the actor is entitled to it, a root user stays one,
and the role rises by a promotion only. -/
theorem KeepsRanks.of_write {actor : Session} {row : User} {value : Option User}
    (held : session = some actor) (found : users.rowAt row.id = some row)
    (writes : users.Rewrites next row.id value)
    (entitled : row.role < actor.role ∨ actor.role = roleRootUser)
    (rootStays : row.role = roleRootUser → ∀ after, value = some after →
      after.role = roleRootUser ∧
        (after.status = userStatusDisabled → row.status = userStatusDisabled))
    (rootKept : row.role = roleRootUser → actor.role ≤ roleRootUser → value.isSome)
    (rises : ∀ after, value = some after → roleCommonUser < after.role →
      after.role ≤ row.role ∨ (PromotesAsRoot actor request ∧ after.role = roleAdminUser)) :
    KeepsRanks session request users next := by
  have theRow : ∀ old, users.rowAt row.id = some old → old = row :=
    fun old again => Option.some.inj (again.symm.trans found)
  constructor
  · intro other held' belowRoot key old foundOld high
    obtain rfl : actor = other := Option.some.inj (held.symm.trans held')
    by_cases same : key = row.id
    · subst same
      obtain rfl := theRow old foundOld
      rcases entitled with below | root <;> omega
    · rw [writes.elsewhere same, foundOld]
  · intro absent
    rw [held] at absent
    cases absent
  · intro key old after foundOld root kept
    by_cases same : key = row.id
    · subst same
      obtain rfl := theRow old foundOld
      exact rootStays root after (writes.at_key.symm.trans kept)
    · rw [writes.elsewhere same, foundOld] at kept
      obtain rfl := Option.some.inj kept
      exact ⟨root, id⟩
  · intro ranks key old foundOld root
    by_cases same : key = row.id
    · subst same
      obtain rfl := theRow old foundOld
      rw [writes.at_key]
      exact rootKept root (ranks actor held)
    · simp [writes.elsewhere same, foundOld]
  · intro key after foundAfter high
    by_cases same : key = row.id
    · subst same
      rcases rises after (writes.at_key.symm.trans foundAfter) high with kept | promoted
      · exact .inl ⟨row, found, kept⟩
      · exact .inr ⟨actor, held, promoted⟩
    · rw [writes.elsewhere same] at foundAfter
      exact .inl ⟨after, foundAfter, Int.le_refl _⟩
  · intro key after missing foundAfter
    by_cases same : key = row.id
    · subst same
      rw [missing] at found
      cases found
    · rw [writes.elsewhere same, missing] at foundAfter
      cases foundAfter

theorem KeepsRanks.of_edits {actor : Session} {row : User} (held : session = some actor)
    (below : row.role < actor.role) (edits : Edits users next row) :
    KeepsRanks session request users next := by
  obtain ⟨found, changed, role, status, writes⟩ := edits
  refine .of_write held found writes (.inl below) ?_ ?_ ?_
  · rintro root after ⟨⟩
    exact ⟨role.trans root, fun disabled => status.symm.trans disabled⟩
  · intro _ _
    rfl
  · rintro after ⟨⟩ _
    exact .inl (Int.le_of_eq role)

theorem KeepsRanks.of_managed {actor : Session} {body : Option Json} {action : String}
    {row : User} {managed : Managed} (held : session = some actor)
    (admitted : admitManage actor.role body users = .ok (action, row, managed))
    (writes : users.Rewrites next row.id (if managed.deletes then none else some managed.user)) :
    KeepsRanks session (.manageUser body) users next := by
  obtain ⟨⟨manage, decoded, named, -⟩, -, found, entitled, effect⟩ := admitManage_ok admitted
  refine .of_write held found writes entitled ?_ ?_ ?_
  · intro root after kept
    cases effect with
    | disable _ notRoot => exact absurd root notRoot
    | enable _ =>
        obtain rfl := Option.some.inj kept
        exact ⟨root, by simp [userStatusEnabled, userStatusDisabled]⟩
    | delete notRoot => exact absurd root notRoot
    | promote _ low =>
        rw [root] at low
        exact absurd low (by decide)
    | demote notRoot _ => exact absurd root notRoot
    | permission _ _ _ role status _ =>
        obtain rfl := Option.some.inj kept
        exact ⟨role.trans root, fun disabled => status.symm.trans disabled⟩
  · intro root _
    cases effect with
    | delete notRoot => exact absurd root notRoot
    | _ => rfl
  · intro after kept high
    cases effect with
    | delete _ => cases kept
    | promote byRoot _ =>
        obtain rfl := Option.some.inj kept
        exact .inr ⟨⟨body, manage, byRoot, rfl, decoded, named⟩, rfl⟩
    | demote _ _ =>
        obtain rfl := Option.some.inj kept
        exact absurd high (Int.lt_irrefl _)
    | permission _ _ _ role _ _ =>
        obtain rfl := Option.some.inj kept
        exact .inl (Int.le_of_eq role)
    | _ =>
        obtain rfl := Option.some.inj kept
        exact .inl (Int.le_refl _)

theorem KeepsRanks.of_deleted {actor : Session} {idParam : String} {user : User}
    (held : session = some actor)
    (admitted : admitDelete actor.role idParam users = .ok user)
    (writes : users.Rewrites next user.id none) : KeepsRanks session request users next := by
  obtain ⟨-, below, row, found, rfl⟩ := admitDelete_ok admitted
  have foundRow : users.rowAt row.id = some row := found
  have belowRow : row.role < actor.role := below
  refine .of_write held foundRow writes (.inl belowRow) ?_ ?_ ?_
  · intro _ after kept
    cases kept
  · intro root low
    omega
  · intro after kept
    cases kept

/-- Every request but the deletion of oneself keeps the ranks. -/
theorem KeepsRanks.of_effect (effect : UserEffect session users next request)
    (notSelf : request ≠ .deleteSelf) : KeepsRanks session request users next := by
  cases effect with
  | nothing same => exact .of_same same
  | registered creates => exact .of_creates creates
  | created _ creates => exact .of_creates creates
  | edited passed below edits => exact .of_edits (authHelper_ok_iff.mp passed).1 below edits
  | managed passed admitted writes =>
      exact .of_managed (authHelper_ok_iff.mp passed).1 admitted writes
  | deleted passed admitted writes =>
      exact .of_deleted (authHelper_ok_iff.mp passed).1 admitted writes
  | deletedSelf _ _ _ => exact absurd rfl notSelf

/-- What a step does to the hierarchy. -/
def StepKeepsRanks (state : AccountState) (label : AccountLabel) (next : AccountState) : Prop :=
  ∀ client env request, label = .user client env request → request ≠ .deleteSelf →
    KeepsRanks (state.sessions client) request state.users next.users

/-- From every users table and in every run of requests, each request keeps the hierarchy. -/
theorem accounts_keep_ranks (start : AccountState) : accounts.Always StepKeepsRanks start := by
  rintro labels state label next - rfl client env request rfl notSelf
  exact .of_effect (serveUser_effect env (state.sessions client) request state.users) notSelf

/-- A root user and a user whose rank the program never assigns. -/
def outrankedUsers : Users where
  rows :=
    [ { id := 1, username := "root", password := "12345678", role := roleRootUser, status := 1 },
      { id := 2, username := "chief", password := "12345678", role := 101, status := 1 } ]
  counter := 2
  sorted := by decide
  unique := by decide
  counterNonneg := Store.Table.two_nonneg
  bounded := by decide

/-- Passwords that are their own hashes. -/
def plainPasswords : Passwords where
  hash password := .ok password
  validate password hash := password = hash

def loginBody (username : String) : Option Json :=
  some (.object [("username", .string username), ("password", .string "12345678")])

/-- `DeleteUser` lets a user who outranks root delete the root user. -/
theorem root_deleted_by_higher_rank :
    ¬ ∀ start, accounts.Initial start → accounts.Always (fun state label next =>
      ∀ client env request, label = .user client env request → request ≠ .deleteSelf →
        ∀ key row, state.users.rowAt key = some row → row.role = roleRootUser →
          (next.users.rowAt key).isSome) start := by
  intro claimed
  let start : AccountState := { users := outrankedUsers, sessions := fun _ => none }
  let env : UserEnvironment := { passwords := plainPasswords }
  let entry : AccountLabel := .login 0 env true (.password (loginBody "chief"))
  let deletion : AccountLabel := .user 0 env (.deleteUser "1")
  have entered : accounts.Runs start [entry] (start.serve entry) := .single rfl
  have survives := claimed start (fun _ => rfl) entered (show accounts.Step _ deletion _ from rfl)
    0 env (.deleteUser "1") rfl (by simp) 1 _ rfl rfl
  exact absurd survives (by decide)

/-! ### Whole runs -/

/-- No row and no session has a rank above root. -/
structure RanksBounded (state : AccountState) : Prop where
  users : ∀ key row, state.users.rowAt key = some row → row.role ≤ roleRootUser
  sessions : ∀ client session, state.sessions client = some session → session.role ≤ roleRootUser

theorem RanksBounded.after_request {state : AccountState} (bounded : RanksBounded state)
    (env : UserEnvironment) (client : Nat) (request : UserRequest) (key : Int) (after : User)
    (found : (serveUser env (state.sessions client) request state.users).users.rowAt key =
      some after) : after.role ≤ roleRootUser := by
  have effect := serveUser_effect env (state.sessions client) request state.users
  by_cases self : request = .deleteSelf
  · subst self
    cases effect with
    | nothing same =>
        rw [same] at found
        exact bounded.users key after found
    | @deletedSelf actor _ _ writes =>
        by_cases same : key = actor.id
        · rw [same, writes.at_key] at found
          cases found
        · rw [writes.elsewhere same] at found
          exact bounded.users key after found
  · by_cases high : roleCommonUser < after.role
    · rcases (KeepsRanks.of_effect effect self).rises key after found high with
        ⟨row, before, below⟩ | ⟨-, -, -, admin⟩
      · exact Int.le_trans below (bounded.users key row before)
      · rw [admin]
        decide
    · exact Int.le_trans (Int.not_lt.mp high) (by decide)

theorem RanksBounded.after_login {users : Users} {outcome : LoginOutcome}
    (effect : LoginEffect users outcome)
    (bounded : ∀ key row, users.rowAt key = some row → row.role ≤ roleRootUser) :
    (∀ key row, outcome.users.rowAt key = some row → row.role ≤ roleRootUser) ∧
      ∀ session, outcome.session = some session → session.role ≤ roleRootUser := by
  cases effect with
  | rejected same closed =>
      rw [same, closed]
      exact ⟨bounded, by simp⟩
  | @bound row edits closed =>
      obtain ⟨found, changed, role, -, writes⟩ := edits
      refine ⟨?_, by simp [closed]⟩
      intro key after foundAfter
      by_cases same : key = row.id
      · subst same
        obtain rfl : changed = after := Option.some.inj (writes.at_key.symm.trans foundAfter)
        rw [role]
        exact bounded _ _ found
      · rw [writes.elsewhere same] at foundAfter
        exact bounded _ _ foundAfter
  | @registered row creates opened =>
      obtain ⟨-, role, -, writes⟩ := creates
      have low : row.role ≤ roleRootUser := by
        rw [role]
        decide
      refine ⟨?_, ?_⟩
      · intro key after foundAfter
        by_cases same : key = row.id
        · subst same
          obtain rfl : row = after := Option.some.inj (writes.at_key.symm.trans foundAfter)
          exact low
        · rw [writes.elsewhere same] at foundAfter
          exact bounded _ _ foundAfter
      · intro session open_
        obtain rfl := opened session open_
        exact low
  | entered same found _ opened =>
      rw [same]
      refine ⟨bounded, ?_⟩
      intro session open_
      obtain rfl := opened session open_
      exact bounded _ _ found

/-- Ranks stay bounded, so that no session of a run outranks root. -/
theorem RanksBounded.step {state next : AccountState} {label : AccountLabel}
    (bounded : RanksBounded state) (transition : accounts.Step state label next) :
    RanksBounded next := by
  obtain rfl : next = state.serve label := transition
  cases label with
  | login client env saved route =>
      obtain ⟨users, opened⟩ := RanksBounded.after_login
        (serveLogin_effect env saved (state.sessions client) route state.users) bounded.users
      refine ⟨?_, ?_⟩
      · rw [AccountState.users_login]
        exact users
      · intro other session held
        rcases AccountState.sessions_login held with new | old
        · exact opened session new
        · exact bounded.sessions other session old
  | logout client saved =>
      refine ⟨?_, fun other session held =>
        bounded.sessions other session (AccountState.sessions_logout held)⟩
      dsimp only [AccountState.serve]
      rw [AccountState.users_closed]
      exact bounded.users
  | expire client =>
      exact ⟨bounded.users, fun other session held =>
        bounded.sessions other session (AccountState.sessions_expire held)⟩
  | user client env request =>
      exact ⟨bounded.after_request env client request, bounded.sessions⟩
  | access client minRole => exact bounded

/-- The step is not a user's deletion of their own account. -/
def NotDeletingSelf (label : AccountLabel) : Prop :=
  ∀ client env, label ≠ .user client env .deleteSelf

/-- A root row that was at most disabled already is still there. -/
def RootStands (key : Int) (row : User) (users : Users) : Prop :=
  ∃ after, users.rowAt key = some after ∧ after.role = roleRootUser ∧
    (after.status = userStatusDisabled → row.status = userStatusDisabled)

theorem RootStands.after_login {key : Int} {row : User} {users : Users} {outcome : LoginOutcome}
    (stands : RootStands key row users) (effect : LoginEffect users outcome) :
    RootStands key row outcome.users := by
  obtain ⟨held, found, root, status⟩ := stands
  cases effect with
  | rejected same _ => exact same ▸ ⟨held, found, root, status⟩
  | @bound edited edits _ =>
      obtain ⟨before, changed, role, kept, writes⟩ := edits
      by_cases same : key = edited.id
      · subst same
        obtain rfl : held = edited := Option.some.inj (found.symm.trans before)
        exact ⟨changed, writes.at_key, role.trans root, fun disabled => status (kept ▸ disabled)⟩
      · exact ⟨held, (writes.elsewhere same).trans found, root, status⟩
  | @registered created creates _ =>
      obtain ⟨fresh, -, -, writes⟩ := creates
      have other : key ≠ created.id := by
        rintro rfl
        rw [fresh] at found
        cases found
      exact ⟨held, (writes.elsewhere other).trans found, root, status⟩
  | entered same _ _ _ => exact same ▸ ⟨held, found, root, status⟩

/-- Where no rank exceeds root, a root user outlives every run in which nobody deletes
their own account: present, root, and disabled only if disabled from the start. -/
theorem root_outlives_run {start state : AccountState} {labels : List AccountLabel}
    (bounded : RanksBounded start)
    (runs : (accounts.guard fun _ label => NotDeletingSelf label).Runs start labels state)
    {key : Int} {row : User} (found : start.users.rowAt key = some row)
    (root : row.role = roleRootUser) : RootStands key row state.users := by
  have preserved : ∀ {state label next}, RanksBounded state ∧ RootStands key row state.users →
      (accounts.guard fun _ label => NotDeletingSelf label).Step state label next →
      RanksBounded next ∧ RootStands key row next.users := by
    rintro state label next ⟨bounded, stands⟩ ⟨notSelf, transition⟩
    refine ⟨bounded.step transition, ?_⟩
    obtain rfl : next = state.serve label := transition
    cases label with
    | login client env saved route =>
        rw [AccountState.users_login]
        exact stands.after_login (serveLogin_effect env saved (state.sessions client) route state.users)
    | logout client saved =>
        dsimp only [AccountState.serve]
        rw [AccountState.users_closed]
        exact stands
    | expire client => exact stands
    | access client minRole => exact stands
    | user client env request =>
        obtain ⟨held, foundHeld, rootHeld, status⟩ := stands
        have keeps := KeepsRanks.of_effect
          (serveUser_effect env (state.sessions client) request state.users) (by
            rintro rfl
            exact notSelf client env rfl)
        obtain ⟨after, kept⟩ := Option.isSome_iff_exists.mp
          (keeps.rootKept (bounded.sessions client) key held foundHeld rootHeld)
        obtain ⟨role, disabled⟩ := keeps.rootStays key held after foundHeld rootHeld kept
        exact ⟨after, kept, role, fun off => status (disabled off)⟩
  exact (runs.invariant preserved ⟨bounded, row, found, root, id⟩).2

end MessagePusher.Access
