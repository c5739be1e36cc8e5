import MessagePusher.Access.RoleHierarchy
import MessagePusher.Model.Main

/-!
# The root account over restarts

The requests of `accounts`, and starts of the program between them. `DeleteSelf` has no
guard for root, and a start creates a root account in an empty table only, so a root user
who deletes the own account leaves none.
-/

namespace MessagePusher.Access

open Common Model Store Middleware Controller Semantics

/-- A request, or a restart that some sessions survive. -/
inductive HostLabel where
  | request (label : AccountLabel)
  | restart (passwords : Passwords) (kept : Nat → Bool)

/-- A restart that fails ends the program. -/
inductive HostStep (state : AccountState) : HostLabel → AccountState → Prop where
  | request {label} : HostStep state (.request label) (state.serve label)
  | restart {passwords kept users}
      (started : createRootAccountIfNeed passwords state.users = (users, none)) :
      HostStep state (.restart passwords kept)
        { state with
          users
          sessions := fun client => if kept client then state.sessions client else none }

/-- The first start on an empty database. -/
def hosted : System AccountState HostLabel where
  Initial state :=
    (∃ passwords empty, empty.rows = [] ∧
      createRootAccountIfNeed passwords empty = (state.users, none)) ∧
    ∀ client, state.sessions client = none
  Step := HostStep

/-- An enabled root user. -/
def RootEnabled (users : Users) : Prop :=
  ∃ key row, users.rowAt key = some row ∧ row.role = roleRootUser ∧ row.status = userStatusEnabled

/-- The condition on a request: no root user deletes the own account. -/
def SparesRoot (state : AccountState) : HostLabel → Prop
  | .request (.user client _ .deleteSelf) =>
      ∀ actor, @userAuth User (state.sessions client) = .ok actor →
        ∀ row, state.users.rowAt actor.id = some row → row.role ≠ roleRootUser
  | _ => True

/-- The row under the key is an enabled root user, and no other row is of the root role. -/
structure SoleRoot (key : Int) (users : Users) : Prop where
  enabled : ∃ row, users.rowAt key = some row ∧ row.role = roleRootUser ∧
    row.status = userStatusEnabled
  sole : ∀ other row, users.rowAt other = some row → row.role = roleRootUser → other = key

section Writes

variable {key : Int} {users next : Users}

/-- A write of another row, which does not make it root, leaves the root user alone. -/
theorem SoleRoot.of_other (holds : SoleRoot key users) {other : Int} {value : Option User}
    (writes : users.Rewrites next other value) (apart : key ≠ other)
    (lower : ∀ after, value = some after → after.role ≠ roleRootUser) : SoleRoot key next := by
  obtain ⟨row, found, root, enabled⟩ := holds.enabled
  constructor
  · refine ⟨row, ?_, root, enabled⟩
    rw [writes.elsewhere apart]
    exact found
  · intro at_ after foundAfter rootAfter
    by_cases same : at_ = other
    · subst same
      exact absurd rootAfter (lower after (writes.at_key.symm.trans foundAfter))
    · rw [writes.elsewhere same] at foundAfter
      exact holds.sole at_ after foundAfter rootAfter

/-- A write of the root user's row that keeps role and status. -/
theorem SoleRoot.of_own (holds : SoleRoot key users) {row after : User}
    (writes : users.Rewrites next key (some after)) (found : users.rowAt key = some row)
    (role : after.role = row.role) (status : after.status = row.status) : SoleRoot key next := by
  obtain ⟨held, foundHeld, root, enabled⟩ := holds.enabled
  obtain rfl : held = row := Option.some.inj (foundHeld.symm.trans found)
  constructor
  · exact ⟨after, writes.at_key, role.trans root, status.trans enabled⟩
  · intro at_ other foundOther rootOther
    by_cases same : at_ = key
    · exact same
    · rw [writes.elsewhere same] at foundOther
      exact holds.sole at_ other foundOther rootOther

theorem SoleRoot.of_creates (holds : SoleRoot key users) {row : User}
    (creates : Creates users next row) : SoleRoot key next := by
  obtain ⟨fresh, role, -, writes⟩ := creates
  obtain ⟨held, found, -, -⟩ := holds.enabled
  refine holds.of_other writes ?_ ?_
  · rintro rfl
    rw [fresh] at found
    cases found
  · rintro after ⟨⟩
    rw [role]
    decide

theorem SoleRoot.of_edits (holds : SoleRoot key users) {row : User}
    (edits : Edits users next row) : SoleRoot key next := by
  obtain ⟨found, changed, role, status, writes⟩ := edits
  by_cases same : key = row.id
  · subst same
    exact holds.of_own writes found role status
  · refine holds.of_other writes same ?_
    rintro after ⟨⟩ root
    exact same (holds.sole row.id row found (role.symm.trans root)).symm

/-- The root user is one of whom `ManageUser` changes the permissions at most. -/
theorem SoleRoot.of_managed (holds : SoleRoot key users) {myRole : Int} {body : Option Json}
    {action : String} {row : User} {managed : Managed}
    (admitted : admitManage myRole body users = .ok (action, row, managed))
    (writes : users.Rewrites next row.id (if managed.deletes then none else some managed.user)) :
    SoleRoot key next := by
  obtain ⟨-, -, found, -, effect⟩ := admitManage_ok admitted
  by_cases same : key = row.id
  · subst same
    obtain ⟨held, foundHeld, root, enabled⟩ := holds.enabled
    obtain rfl : held = row := Option.some.inj (foundHeld.symm.trans found)
    cases effect with
    | disable _ notRoot => exact absurd root notRoot
    | enable inactive => exact absurd enabled inactive
    | delete notRoot => exact absurd root notRoot
    | promote _ low =>
        rw [root] at low
        exact absurd low (by decide)
    | demote notRoot _ => exact absurd root notRoot
    | permission _ _ _ role status _ => exact holds.of_own writes found role status
  · refine holds.of_other writes same ?_
    have notRoot : row.role ≠ roleRootUser :=
      fun root => same (holds.sole row.id row found root).symm
    intro after kept
    cases effect with
    | delete _ => cases kept
    | promote _ _ =>
        obtain rfl := Option.some.inj kept
        simp [roleAdminUser, roleRootUser]
    | demote _ _ =>
        obtain rfl := Option.some.inj kept
        simp [roleCommonUser, roleRootUser]
    | permission _ _ _ role _ _ =>
        obtain rfl := Option.some.inj kept
        rw [role]
        exact notRoot
    | _ =>
        obtain rfl := Option.some.inj kept
        exact notRoot

/-- A request other than the root user's deletion of the own account spares the root user. -/
theorem SoleRoot.of_effect (holds : SoleRoot key users) {session : Option Session}
    {request : UserRequest} (effect : UserEffect session users next request)
    (ranks : ∀ actor, session = some actor → actor.role ≤ roleRootUser)
    (spares : request = .deleteSelf → ∀ actor, @userAuth User session = .ok actor →
      ∀ row, users.rowAt actor.id = some row → row.role ≠ roleRootUser) :
    SoleRoot key next := by
  obtain ⟨held, found, root, -⟩ := holds.enabled
  cases effect with
  | nothing same => exact same ▸ holds
  | registered creates => exact holds.of_creates creates
  | created _ creates => exact holds.of_creates creates
  | edited _ _ edits => exact holds.of_edits edits
  | managed _ admitted writes => exact holds.of_managed admitted writes
  | @deleted idParam actor user passed admitted writes =>
      obtain ⟨-, below, row, foundRow, rfl⟩ := admitDelete_ok admitted
      refine holds.of_other writes ?_ (by simp)
      intro same
      subst same
      obtain rfl : held = row := Option.some.inj (found.symm.trans foundRow)
      have bound := ranks actor (authHelper_ok_iff.mp passed).1
      have lower : held.role < actor.role := below
      omega
  | @deletedSelf actor passed _ writes =>
      refine holds.of_other writes ?_ (by simp)
      rintro rfl
      exact spares rfl actor passed held found root

theorem SoleRoot.of_login (holds : SoleRoot key users) {outcome : LoginOutcome}
    (effect : LoginEffect users outcome) : SoleRoot key outcome.users := by
  cases effect with
  | rejected same _ => exact same ▸ holds
  | bound edits _ => exact holds.of_edits edits
  | registered creates _ => exact holds.of_creates creates
  | entered same _ _ _ => exact same ▸ holds

end Writes

/-! ### Whole runs -/

/-- The root user stands, and nobody outranks it. -/
def Rooted (key : Int) (state : AccountState) : Prop :=
  key ≠ 0 ∧ RanksBounded state ∧ SoleRoot key state.users

theorem Rooted.initial {state : AccountState} (valid : hosted.Initial state) :
    ∃ key, Rooted key state := by
  obtain ⟨⟨passwords, empty, blank, created⟩, nobody⟩ := valid
  obtain ⟨row, identified, root, enabled, writes⟩ := createRootAccountIfNeed_empty blank created
  have missing : ∀ key, empty.rowAt key = none := by
    intro key
    simp [Table.rowAt_eq_none_iff, blank]
  have only : ∀ key other, state.users.rowAt key = some other → key = row.id ∧ other = row := by
    intro key other found
    rw [writes key] at found
    split_ifs at found with same
    · exact ⟨same, (Option.some.inj found).symm⟩
    · rw [missing] at found
      cases found
  refine ⟨row.id, identified, ?_, ?_⟩
  · constructor
    · intro key other found
      rw [(only key other found).2]
      exact Int.le_of_eq root
    · intro client session held
      rw [nobody client] at held
      cases held
  · constructor
    · exact ⟨row, writes.at_key, root, enabled⟩
    · exact fun other found foundOther _ => (only other found foundOther).1

theorem Rooted.step {key : Int} {state next : AccountState} {label : HostLabel}
    (rooted : Rooted key state) (spares : SparesRoot state label)
    (transition : hosted.Step state label next) : Rooted key next := by
  obtain ⟨identified, bounded, holds⟩ := rooted
  cases transition with
  | @request label =>
      refine ⟨identified, bounded.step rfl, ?_⟩
      cases label with
      | login client env saved route =>
          rw [AccountState.users_login]
          exact holds.of_login
            (serveLogin_effect env saved (state.sessions client) route state.users)
      | logout client saved =>
          dsimp only [AccountState.serve]
          rw [AccountState.users_closed]
          exact holds
      | expire client => exact holds
      | user client env request =>
          refine holds.of_effect
            (serveUser_effect env (state.sessions client) request state.users)
            (bounded.sessions client) ?_
          rintro rfl
          exact spares
      | access client minRole => exact holds
  | @restart passwords kept users started =>
      obtain ⟨row, found, -⟩ := holds.enabled
      rw [createRootAccountIfNeed_nonempty passwords found] at started
      obtain rfl : state.users = users := congrArg Prod.fst started
      refine ⟨identified, ⟨bounded.users, ?_⟩, holds⟩
      intro client session held
      dsimp only at held
      split_ifs at held with keeps
      exact bounded.sessions client session held

/-- In every run from the first start on in which no root user deletes the own account, there
is an enabled root user. -/
theorem root_enabled_of_sparing_steps {state : AccountState}
    (reachable : (hosted.guard SparesRoot).Reachable state) : RootEnabled state.users := by
  have initial : ∀ {state}, (hosted.guard SparesRoot).Initial state →
      ∃ key, Rooted key state := Rooted.initial
  have preserved : ∀ {state label next}, (∃ key, Rooted key state) →
      (hosted.guard SparesRoot).Step state label next → ∃ key, Rooted key next := by
    rintro state label next ⟨key, rooted⟩ ⟨spares, transition⟩
    exact ⟨key, rooted.step spares transition⟩
  obtain ⟨key, -, -, holds⟩ := reachable.invariant initial preserved
  obtain ⟨row, found, root, enabled⟩ := holds.enabled
  exact ⟨key, row, found, root, enabled⟩

/-- The root user who deletes the own account was the only one. -/
theorem not_rootEnabled_of_unsparing_step {key : Int} {state next : AccountState}
    {label : HostLabel} (rooted : Rooted key state) (transition : hosted.Step state label next)
    (unsparing : ¬ SparesRoot state label) : ¬ RootEnabled next.users := by
  obtain ⟨identified, -, holds⟩ := rooted
  unfold SparesRoot at unsparing
  split at unsparing
  · next client env =>
    simp only [not_forall, not_not] at unsparing
    obtain ⟨actor, passed, row, found, root⟩ := unsparing
    obtain rfl : actor.id = key := holds.sole actor.id row found root
    cases transition with
    | request =>
        have deleted : (state.serve (.user client env .deleteSelf)).users =
            (deleteSelf actor.id state.users).users := by
          simp [AccountState.serve, serveUser, passed, withSession]
        rintro ⟨other, survivor, kept, rootSurvivor, -⟩
        have writes : state.users.Rewrites _ actor.id none := deleteSelf_effect identified
        rw [deleted] at kept
        by_cases same : other = actor.id
        · rw [same, writes.at_key] at kept
          cases kept
        · rw [writes.elsewhere same] at kept
          exact same (holds.sole other survivor kept rootSurvivor)
  · exact absurd trivial unsparing

/-- The table of a first start, with the hash function `hash`. -/
def noUsers : Users := .empty

/-- The first state of the program. -/
def firstStart : AccountState where
  users := (createRootAccountIfNeed plainPasswords noUsers).1
  sessions := fun _ => none

def rootLogin : Option Json :=
  some (.object [("username", .string "root"), ("password", .string "123456")])

/-- The root user can log in, delete the own account, and is gone. -/
theorem root_deletes_self :
    ¬ ∀ state, hosted.Reachable state → RootEnabled state.users := by
  intro claimed
  let env : UserEnvironment := { passwords := plainPasswords }
  let entered := firstStart.serve (.login 0 env true (.password rootLogin))
  let gone := entered.serve (.user 0 env .deleteSelf)
  have started : hosted.Reachable firstStart :=
    .initial ⟨⟨plainPasswords, noUsers, rfl, rfl⟩, fun _ => rfl⟩
  have reachable : hosted.Reachable gone :=
    (started.step
      (show hosted.Step firstStart (.request (.login 0 env true (.password rootLogin))) entered
        from .request)).step
      (show hosted.Step entered (.request (.user 0 env .deleteSelf)) gone from .request)
  obtain ⟨key, row, found, -⟩ := claimed gone reachable
  have empty : gone.users.rows = [] := by decide
  have member := Table.rowAt_mem found
  rw [empty] at member
  cases member

def bobForm : Option Json :=
  some (.object [("username", .string "bob"), ("password", .string "12345678")])

/-- Root logs in and creates bob, who logs in and deletes the own account; then the program
restarts. Root is still there. -/
theorem root_enabled_after_restart :
    let env : UserEnvironment := { passwords := plainPasswords }
    let created := (firstStart.serve (.login 0 env true (.password rootLogin))).serve
      (.user 0 env (.createUser bobForm))
    let left := (created.serve (.login 1 env true (.password bobForm))).serve
      (.user 1 env .deleteSelf)
    created.users.rows.map User.username = ["root", "bob"] ∧
      left.users.rows.map User.username = ["root"] ∧ RootEnabled left.users := by
  intro env created left
  have request : ∀ {state : AccountState} (label : AccountLabel),
      SparesRoot state (.request label) → (hosted.guard SparesRoot).Reachable state →
      (hosted.guard SparesRoot).Reachable (state.serve label) :=
    fun _ spares reachable => reachable.step ⟨spares, .request⟩
  have reached : (hosted.guard SparesRoot).Reachable created :=
    request (.user 0 env (.createUser bobForm)) trivial
      (request (.login 0 env true (.password rootLogin)) trivial
        (.initial ⟨⟨plainPasswords, noUsers, rfl, rfl⟩, fun _ => rfl⟩))
  have gone : (hosted.guard SparesRoot).Reachable left := by
    refine request (.user 1 env .deleteSelf) ?_ (request (.login 1 env true (.password bobForm))
      trivial reached)
    rintro actor passed row found
    obtain rfl : actor = ⟨2, "bob", roleCommonUser, userStatusEnabled⟩ :=
      (Except.ok.inj passed).symm
    obtain rfl : _ = row := Option.some.inj found
    decide
  let restarted : AccountState := { left with sessions := fun _ => none }
  have again : (hosted.guard SparesRoot).Reachable restarted :=
    gone.step (show (hosted.guard SparesRoot).Step left (.restart plainPasswords fun _ => false)
      restarted from ⟨trivial, .restart rfl⟩)
  have stands : RootEnabled restarted.users := root_enabled_of_sparing_steps again
  exact ⟨by decide, by decide, stands⟩

end MessagePusher.Access
