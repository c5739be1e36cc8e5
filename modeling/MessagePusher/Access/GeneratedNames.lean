import MessagePusher.Access.NameWrites

/-!
# Generated names

A third-party login registers its user under a number, one more than the greatest id. The name is
free as long as nobody else takes a number that is yet to come, which nothing prevents.
-/

namespace MessagePusher.Access

open Common Model Store Middleware Controller Semantics

/-- A name as the third-party logins generate it. -/
def Numbered (username : String) (number : Int) : Prop :=
  username = "github_" ++ Text.itoa number ∨ username = "wechat_" ++ Text.itoa number

instance (username : String) (number : Int) : Decidable (Numbered username number) :=
  inferInstanceAs (Decidable (_ ∨ _))

/-- A number that is not above the id, or that no greatest id can lead to any more. -/
def Harmless (users : Users) (id number : Int) : Prop :=
  number ≤ id ∨ (number - 1 ≤ users.counter ∧ users.rowAt (number - 1) = none)

/-- A name that the user of an id may take. -/
def NameHarmless (users : Users) (id : Int) (username : String) : Prop :=
  ∀ number, Numbered username number → Harmless users id number

/-- No row has the name of the next third-party user. -/
def NumberFree (users : Users) : Prop :=
  ∀ row ∈ users.rows, ¬ Numbered row.username (getMaxUserId users + 1)

/-- The user is stored under the next id. -/
def SignsUp (users : Users) (user : User) (next : Users) : Prop :=
  users.Rewrites next (users.counter + 1) (some { user with id := users.counter + 1 })

/-- The condition on a request: the names that users choose are harmless. -/
def KeepsNumbers (users : Users) : NamingRequest → Prop
  | .register env body => ∀ user, admitRegister env body = .ok user →
      (user.insert env.passwords users).2.isOk →
        NameHarmless users (users.counter + 1) user.username
  | .createUser env myRole body => ∀ user, admitCreate myRole body = .ok user →
      (user.insert env.passwords users).2.isOk →
        NameHarmless users (users.counter + 1) user.username
  | .updateUser env myRole body => ∀ user, admitUpdate myRole body users = .ok user →
      (user.update env.passwords (user.password ≠ "") users).2 = none →
        NameHarmless users user.id user.username
  | .updateSelf env id body => ∀ user, admitUpdateSelf id body = .ok user →
      (user.update env.passwords (user.password ≠ "") users).2 = none →
        (users.rowAt id).isSome → NameHarmless users id user.username
  | _ => True

/-! ### Numbers -/

theorem gitHub_ne_weChat (left right : String) : "github_" ++ left ≠ "wechat_" ++ right := by
  intro same
  have heads := congrArg (fun text => text.toList.head?) same
  have first : "github_".toList.head? = some 'g' := rfl
  have second : "wechat_".toList.head? = some 'w' := rfl
  simp only [String.toList_append, List.head?_append, first, second, Option.some_or] at heads
  exact absurd heads (by decide)

/-- A name has one number. -/
theorem Numbered.unique {username : String} {left right : Int} (leftNonneg : 0 ≤ left)
    (rightNonneg : 0 ≤ right) (one : Numbered username left) (other : Numbered username right) :
    left = right := by
  have cancel {stem : String} (same : stem ++ Text.itoa left = stem ++ Text.itoa right) :
      left = right := by
    apply Text.itoa_injective leftNonneg rightNonneg
    have lists := congrArg String.toList same
    simp only [String.toList_append] at lists
    exact String.toList_injective (List.append_cancel_left lists)
  rcases one with one | one
  · rcases other with other | other
    · exact cancel (one.symm.trans other)
    · exact absurd (one.symm.trans other) (gitHub_ne_weChat _ _)
  · rcases other with other | other
    · exact absurd (other.symm.trans one) (gitHub_ne_weChat _ _)
    · exact cancel (one.symm.trans other)

theorem Numbered.long {username : String} {number : Int} (numbered : Numbered username number) :
    7 ≤ username.length := by
  have gitHub : "github_".length = 7 := rfl
  have weChat : "wechat_".length = 7 := rfl
  rcases numbered with rfl | rfl
  · rw [String.length_append, gitHub]
    exact Nat.le_add_right _ _
  · rw [String.length_append, weChat]
    exact Nat.le_add_right _ _

theorem Numbered.ne_empty {username : String} {number : Int} (numbered : Numbered username number) :
    username ≠ "" := by
  rintro rfl
  exact absurd numbered.long (by decide)

/-- The name that a third-party login generates. -/
theorem nameHarmless_of_generated {users : Users} {username : String} {number : Int}
    (numbered : Numbered username number) (nonneg : 0 ≤ number) {id : Int} (low : number ≤ id) :
    NameHarmless users id username := by
  intro other otherNumbered
  refine .inl ?_
  by_cases negative : other < 0
  · omega
  · rw [Numbered.unique (Int.not_lt.mp negative) nonneg otherNumbered numbered]
    exact low

section Tables

variable {users next : Users}

/-- Only a greater number is harmful under the next id. -/
theorem harmless_next_iff {number : Int} :
    Harmless users (users.counter + 1) number ↔ number ≤ users.counter + 1 := by
  refine ⟨?_, .inl⟩
  rintro (low | ⟨passed, -⟩)
  · exact low
  · omega

/-- And so it is once that id is used. -/
theorem harmless_used_iff {number : Int} {row : User} (used : users.rowAt users.counter = some row) :
    Harmless users users.counter number ↔ number ≤ users.counter := by
  refine ⟨?_, .inl⟩
  rintro (low | ⟨passed, free⟩)
  · exact low
  · have apart : number - 1 ≠ users.counter := by
      intro same
      rw [same, used] at free
      cases free
    omega

theorem Harmless.later {id number : Int} (harmless : Harmless users id number)
    (counter : users.counter ≤ next.counter)
    (free : ∀ key, users.rowAt key = none → key ≤ users.counter → next.rowAt key = none) :
    Harmless next id number := by
  rcases harmless with low | ⟨passed, unused⟩
  · exact .inl low
  · exact .inr ⟨Int.le_trans passed counter, free _ unused passed⟩

/-- As long as all names are harmless, the next number is free. -/
theorem numberFree_of_harmless (harmless : ∀ row ∈ users.rows, NameHarmless users row.id row.username) :
    NumberFree users := by
  intro row member numbered
  rcases harmless row member _ numbered with low | ⟨-, free⟩
  · have greatest := id_le_getMaxUserId member
    omega
  · obtain ⟨last, there, same⟩ := exists_getMaxUserId (List.ne_nil_of_mem member)
    have found : users.rowAt last.id = some last := Table.rowAt_of_mem there
    rw [Int.add_sub_cancel, ← same, found] at free
    cases free

/-- A third-party user whose number is free is stored. -/
theorem signsUp_of_free (free : NumberFree users) (passwords : Passwords) {user : User}
    (unset : user.id = 0) (blank : user.password = "") (role : user.role = roleCommonUser)
    (status : user.status = userStatusEnabled)
    (numbered : Numbered user.username (getMaxUserId users + 1)) :
    SignsUp users user (user.insert passwords users).1 ∧
      (user.insert passwords users).1.counter = users.counter + 1 := by
  have accepted : (user.insert passwords users).2.isOk :=
    (User.insert_isOk_iff passwords users unset blank).mpr fun row member same =>
      free row member (same ▸ numbered)
  cases done : (user.insert passwords users).2 with
  | error text =>
      rw [done] at accepted
      cases accepted
  | ok stored =>
      obtain ⟨hash, rfl, writes, counter, unhashed⟩ := User.insert_ok unset done
      have stored_eq : User.withDefaults { user with id := users.counter + 1, password := hash } =
          { user with id := users.counter + 1 } := by
        simp [User.withDefaults, unhashed blank, blank, role, status, roleCommonUser,
          userStatusEnabled]
      rw [stored_eq] at writes
      exact ⟨writes, counter⟩

theorem signsUp_gitHubOAuth (free : NumberFree users) {env : UserEnvironment} {saved : Bool}
    {account : Except String GitHubUser} {user : User}
    (registers : gitHubRegistration env account users = some user) :
    SignsUp users user (gitHubOAuth env saved none account users).users := by
  rw [users_gitHubOAuth, registers]
  obtain ⟨profile, -, rfl⟩ := gitHubRegistration_some registers
  exact (signsUp_of_free free env.passwords rfl rfl rfl rfl (.inl rfl)).1

theorem signsUp_weChatAuth (free : NumberFree users) {env : UserEnvironment} {saved : Bool}
    {account : Except String String} {user : User}
    (registers : weChatRegistration env account users = some user) :
    SignsUp users user (weChatAuth env saved account users).users := by
  rw [users_weChatAuth, registers]
  obtain ⟨weChatId, -, rfl⟩ := weChatRegistration_some registers
  exact (signsUp_of_free free env.passwords rfl rfl rfl rfl (.inr rfl)).1

end Tables

/-! ### What a request does to the names -/

/-- The names of all rows are harmless. -/
def NamesHarmless (users : Users) : Prop :=
  ∀ row ∈ users.rows, NameHarmless users row.id row.username

section Requests

variable {users : Users}

/-- The names that were there stay harmless, so that the written ones decide. -/
theorem namesHarmless_serve_iff (harmless : NamesHarmless users) (request : NamingRequest) :
    NamesHarmless (serveNaming users request) ↔
      ∀ row, NameWritten users request row →
        NameHarmless (serveNaming users request) row.id row.username := by
  refine @forall_rows_serveNaming_iff users
    (fun id username _ _ => NameHarmless (serveNaming users request) id username) ?_ request
  exact fun row member number numbered => (harmless row member number numbered).later
    (counter_serveNaming users request) fun key free passed => rowAt_serveNaming_eq_none free passed

theorem namesHarmless_of_none (harmless : NamesHarmless users) {request : NamingRequest}
    (inserts : insertion users request = none) (renames : profileWrite users request = none) :
    NamesHarmless (serveNaming users request) :=
  (namesHarmless_serve_iff harmless request).mpr
    fun row written => absurd written (not_nameWritten inserts renames row)

/-- An inserted name, which gets the next id. -/
theorem namesHarmless_insert_iff (harmless : NamesHarmless users) {request : NamingRequest}
    {passwords : Passwords} {user : User}
    (inserts : insertion users request = some (passwords, user))
    (served : serveNaming users request = (user.insert passwords users).1) :
    NamesHarmless (serveNaming users request) ↔
      ((user.insert passwords users).2.isOk →
        NameHarmless users (users.counter + 1) user.username) := by
  refine (namesHarmless_serve_iff harmless request).trans ?_
  refine (@forall_nameWritten_iff _ _ _ _ inserts
    fun id username _ _ => NameHarmless (serveNaming users request) id username).trans ?_
  refine imp_congr_right fun accepted => forall₂_congr fun number _ => ?_
  cases done : (user.insert passwords users).2 with
  | error text =>
      rw [done] at accepted
      cases accepted
  | ok stored =>
      obtain ⟨hash, -, writes, counter, -⟩ := User.insert_ok (insertion_unset inserts) done
      have used : (user.insert passwords users).1.rowAt (user.insert passwords users).1.counter =
          some stored := by
        rw [counter]
        exact writes.at_key
      rw [served, harmless_next_iff, ← counter, harmless_used_iff used]

/-- A chosen name, written over the one of a row. -/
theorem namesHarmless_rename_iff (harmless : NamesHarmless users) {request : NamingRequest}
    {passwords : Passwords} {user : User}
    (renames : profileWrite users request = some (passwords, user))
    (inserts : insertion users request = none)
    (served : serveNaming users request =
      (user.update passwords (user.password ≠ "") users).1) :
    NamesHarmless (serveNaming users request) ↔
      ((user.update passwords (user.password ≠ "") users).2 = none →
        (users.rowAt user.id).isSome → NameHarmless users user.id user.username) := by
  refine (namesHarmless_serve_iff harmless request).trans ?_
  have earlier : ∀ row ∈ users.rows, ∀ {number}, Numbered row.username number →
      Harmless (serveNaming users request) row.id number := fun row member number numbered =>
    (harmless row member number numbered).later (counter_serveNaming users request)
      fun key free passed => rowAt_serveNaming_eq_none free passed
  -- The keys in use stay the same, and so does what is harmful.
  have same : ∀ id number, (users.rowAt user.id).isSome →
      (Harmless (serveNaming users request) id number ↔ Harmless users id number) := by
    intro id number there
    have counter : (serveNaming users request).counter = users.counter := by
      rw [served]
      exact User.counter_update passwords user (user.password ≠ "") users
    have keys : ∀ key, (serveNaming users request).rowAt key = none ↔ users.rowAt key = none := by
      intro key
      rw [served]
      rcases user.update_result passwords (user.password ≠ "") users with
        ⟨unchanged, -⟩ | ⟨old, hash, -, found, writes⟩
      · rw [unchanged]
      · by_cases itself : key = user.id
        · rw [itself, writes.at_key, found]
          exact iff_of_false (by simp) (by simp)
        · rw [writes.elsewhere itself]
    rw [Harmless, Harmless, counter, keys]
  constructor
  · intro holds done there
    obtain ⟨old, found⟩ := Option.isSome_iff_exists.mp there
    intro number numbered
    have chosen : keepString user.username old.username = user.username :=
      if_neg numbered.ne_empty
    have key : old.id = user.id := Table.rowAt_id found
    have written := holds _ (.renamed renames done found) number (by
      show Numbered (keepString user.username old.username) number
      rwa [chosen])
    have placed : Harmless (serveNaming users request) old.id number := written
    rw [key, same _ _ there] at placed
    exact placed
  · intro keeps row written
    cases written with
    | inserted another =>
        rw [inserts] at another
        cases another
    | @renamed _ _ old another done found =>
        obtain ⟨rfl, rfl⟩ := Prod.mk.inj (Option.some.inj (renames.symm.trans another))
        have there : (users.rowAt user.id).isSome := by rw [found]; rfl
        have key : old.id = user.id := Table.rowAt_id found
        intro number numbered
        by_cases blank : user.username = ""
        · have kept : keepString user.username old.username = old.username := if_pos blank
          exact earlier old (Table.rowAt_mem found) (kept ▸ numbered)
        · have chosen : keepString user.username old.username = user.username := if_neg blank
          have placed := (same user.id number there).mpr (keeps done there number (chosen ▸ numbered))
          rw [← key] at placed
          exact placed

theorem keepsNumbers_register (harmless : NamesHarmless users) (env : UserEnvironment)
    (body : Option Json) :
    NamesHarmless (serveNaming users (.register env body)) ↔
      KeepsNumbers users (.register env body) := by
  cases admitted : admitRegister env body with
  | error text =>
      refine iff_of_true (namesHarmless_of_none harmless (by rw [insertion, admitted]; rfl) rfl) ?_
      intro user there
      rw [admitted] at there
      cases there
  | ok user =>
      have served : serveNaming users (.register env body) =
          (user.insert env.passwords users).1 := by
        rw [serveNaming, register_eq, admitted]
        exact users_answerInsert _
      refine (namesHarmless_insert_iff harmless (by rw [insertion, admitted]; rfl) served).trans ?_
      exact ⟨fun holds other there => Except.ok.inj (admitted.symm.trans there) ▸ holds,
        fun keeps => keeps user admitted⟩

theorem keepsNumbers_createUser (harmless : NamesHarmless users) (env : UserEnvironment)
    (myRole : Int) (body : Option Json) :
    NamesHarmless (serveNaming users (.createUser env myRole body)) ↔
      KeepsNumbers users (.createUser env myRole body) := by
  cases admitted : admitCreate myRole body with
  | error text =>
      refine iff_of_true (namesHarmless_of_none harmless (by rw [insertion, admitted]; rfl) rfl) ?_
      intro user there
      rw [admitted] at there
      cases there
  | ok user =>
      have served : serveNaming users (.createUser env myRole body) =
          (user.insert env.passwords users).1 := by
        rw [serveNaming, createUser_eq, admitted]
        exact users_answerInsert _
      refine (namesHarmless_insert_iff harmless (by rw [insertion, admitted]; rfl) served).trans ?_
      exact ⟨fun holds other there => Except.ok.inj (admitted.symm.trans there) ▸ holds,
        fun keeps => keeps user admitted⟩

theorem keepsNumbers_updateUser (harmless : NamesHarmless users) (env : UserEnvironment)
    (myRole : Int) (body : Option Json) :
    NamesHarmless (serveNaming users (.updateUser env myRole body)) ↔
      KeepsNumbers users (.updateUser env myRole body) := by
  cases admitted : admitUpdate myRole body users with
  | error text =>
      refine iff_of_true
        (namesHarmless_of_none harmless rfl (by rw [profileWrite, admitted]; rfl)) ?_
      intro user there
      rw [admitted] at there
      cases there
  | ok user =>
      have served : serveNaming users (.updateUser env myRole body) =
          (user.update env.passwords (user.password ≠ "") users).1 := by
        rw [serveNaming, updateUser, admitted]
        exact users_answerUpdate _
      obtain ⟨row, found, -⟩ := admitUpdate_ok admitted
      have there : (users.rowAt user.id).isSome := by rw [found]; rfl
      refine (namesHarmless_rename_iff harmless (by rw [profileWrite, admitted]; rfl) rfl
        served).trans ?_
      constructor
      · intro holds other admittedOther done
        obtain rfl := Except.ok.inj (admitted.symm.trans admittedOther)
        exact holds done there
      · exact fun keeps done _ => keeps user admitted done

theorem keepsNumbers_updateSelf (harmless : NamesHarmless users) (env : UserEnvironment)
    (id : Int) (body : Option Json) :
    NamesHarmless (serveNaming users (.updateSelf env id body)) ↔
      KeepsNumbers users (.updateSelf env id body) := by
  cases admitted : admitUpdateSelf id body with
  | error text =>
      refine iff_of_true
        (namesHarmless_of_none harmless rfl (by rw [profileWrite, admitted]; rfl)) ?_
      intro user there
      rw [admitted] at there
      cases there
  | ok user =>
      have served : serveNaming users (.updateSelf env id body) =
          (user.update env.passwords (user.password ≠ "") users).1 := by
        rw [serveNaming, updateSelf, admitted]
        exact users_answerUpdate _
      obtain ⟨form, -, own⟩ := admitUpdateSelf_form admitted
      have key : user.id = id := by rw [own]; rfl
      refine (namesHarmless_rename_iff harmless (by rw [profileWrite, admitted]; rfl) rfl
        served).trans ?_
      rw [key]
      constructor
      · intro holds other admittedOther
        obtain rfl := Except.ok.inj (admitted.symm.trans admittedOther)
        exact holds
      · exact fun keeps => keeps user admitted

/-- A generated name is harmless, since the next id is not below its number. -/
theorem namesHarmless_generated (harmless : NamesHarmless users)
    (positive : ∀ row ∈ users.rows, 0 < row.id) {request : NamingRequest} {passwords : Passwords}
    {user : User} (inserts : insertion users request = some (passwords, user))
    (served : serveNaming users request = (user.insert passwords users).1)
    (numbered : Numbered user.username (getMaxUserId users + 1)) :
    NamesHarmless (serveNaming users request) := by
  have nonneg := getMaxUserId_nonneg positive
  have bounded := getMaxUserId_le_counter users
  exact (namesHarmless_insert_iff harmless inserts served).mpr fun _ =>
    nameHarmless_of_generated numbered (by omega) (by omega)

/-- A request keeps all names harmless exactly when it meets its condition. -/
theorem serveNaming_harmless_iff (positive : ∀ row ∈ users.rows, 0 < row.id)
    (harmless : NamesHarmless users) (request : NamingRequest) :
    NamesHarmless (serveNaming users request) ↔ KeepsNumbers users request := by
  cases request with
  | register env body => exact keepsNumbers_register harmless env body
  | createUser env myRole body => exact keepsNumbers_createUser harmless env myRole body
  | updateUser env myRole body => exact keepsNumbers_updateUser harmless env myRole body
  | updateSelf env id body => exact keepsNumbers_updateSelf harmless env id body
  | gitHubOAuth env saved session account =>
      refine iff_of_true ?_ trivial
      cases session with
      | some session => exact namesHarmless_of_none harmless rfl rfl
      | none =>
          cases registers : gitHubRegistration env account users with
          | none => exact namesHarmless_of_none harmless (by rw [insertion, registers]; rfl) rfl
          | some user =>
              have served : serveNaming users (.gitHubOAuth env saved none account) =
                  (user.insert env.passwords users).1 := by
                rw [serveNaming, users_gitHubOAuth, registers]
              obtain ⟨profile, -, rfl⟩ := gitHubRegistration_some registers
              exact namesHarmless_generated harmless positive
                (by rw [insertion, registers]; rfl) served (.inl rfl)
  | weChatAuth env saved account =>
      refine iff_of_true ?_ trivial
      cases registers : weChatRegistration env account users with
      | none => exact namesHarmless_of_none harmless (by rw [insertion, registers]; rfl) rfl
      | some user =>
          have served : serveNaming users (.weChatAuth env saved account) =
              (user.insert env.passwords users).1 := by
            rw [serveNaming, users_weChatAuth, registers]
          obtain ⟨weChatId, -, rfl⟩ := weChatRegistration_some registers
          exact namesHarmless_generated harmless positive
            (by rw [insertion, registers]; rfl) served (.inr rfl)
  | _ => exact iff_of_true (namesHarmless_of_none harmless rfl rfl) trivial

end Requests

/-! ### From a harmful name to a collision -/

section Collisions

variable {users : Users}

/-- Deletions make any row the last one. -/
theorem exists_run_to_greatest (size : Nat) (small : users.rows.length ≤ size)
    (positive : ∀ row ∈ users.rows, 0 < row.id) {last : User} (there : last ∈ users.rows) :
    ∃ requests next, (namings.guard KeepsNumbers).Runs users requests next ∧
      getMaxUserId next = last.id ∧ ∀ row ∈ users.rows, row.id ≤ last.id → row ∈ next.rows := by
  induction size generalizing users with
  | zero =>
      rw [List.eq_nil_of_length_eq_zero (Nat.le_zero.mp small)] at there
      cases there
  | succ size ih =>
      obtain ⟨greatest, member, isMax⟩ := exists_getMaxUserId (List.ne_nil_of_mem there)
      by_cases done : last.id = greatest.id
      · exact ⟨[], users, .refl, isMax.symm.trans done.symm, fun _ member _ => member⟩
      · have above : last.id < greatest.id := by
          have bounded := id_le_getMaxUserId there
          omega
        have served : serveNaming users (.deleteSelf greatest.id) = users.delete greatest.id := by
          have identified : greatest.id ≠ 0 := Int.ne_of_gt (positive greatest member)
          simp [serveNaming, deleteSelf, fillUserById, deleteUserById, identified]
        have shorter : (users.delete greatest.id).rows.length ≤ size := by
          have fewer : (users.delete greatest.id).rows.length < users.rows.length :=
            List.length_filter_lt_length_iff_exists.mpr ⟨greatest, member, by simp⟩
          omega
        have kept : last ∈ (users.delete greatest.id).rows :=
          Table.mem_delete.mpr ⟨there, done⟩
        obtain ⟨requests, next, runs, reached, keeps⟩ := ih shorter
          (fun row held => positive row (Table.mem_delete.mp held).1) kept
        have step : (namings.guard KeepsNumbers).Step users (.deleteSelf greatest.id)
            (users.delete greatest.id) := ⟨trivial, served.symm⟩
        refine ⟨_, next, .head step runs, reached, fun row held low => ?_⟩
        exact keeps row (Table.mem_delete.mpr ⟨held, by
          show row.id ≠ greatest.id
          omega⟩) low

theorem exists_unused_weChatId (users : Users) :
    ∃ weChatId, isWeChatIdAlreadyTaken users weChatId = false := by
  have longer : ∀ rows : List User, ∃ bound, ∀ row ∈ rows, row.weChatId.length < bound := by
    intro rows
    induction rows with
    | nil => exact ⟨0, by simp⟩
    | cons row rows ih =>
        obtain ⟨bound, below⟩ := ih
        refine ⟨max bound (row.weChatId.length + 1), fun other member => ?_⟩
        rcases List.mem_cons.mp member with rfl | later
        · omega
        · have under := below other later
          omega
  obtain ⟨bound, below⟩ := longer users.rows
  refine ⟨String.ofList (List.replicate bound 'a'), ?_⟩
  rw [isWeChatIdAlreadyTaken, Bool.eq_false_iff, ne_eq, alreadyTaken_iff]
  rintro ⟨row, member, carries⟩
  have under := below row member
  rw [carries, String.length_ofList, List.length_replicate] at under
  omega

/-- Where the next number is free, a third-party login uses up one id. -/
theorem exists_signUp (free : NumberFree users) :
    ∃ request, KeepsNumbers users request ∧
      (serveNaming users request).counter = users.counter + 1 ∧
      getMaxUserId (serveNaming users request) = users.counter + 1 ∧
      ∀ row ∈ users.rows, row ∈ (serveNaming users request).rows := by
  obtain ⟨weChatId, unused⟩ := exists_unused_weChatId users
  have registers : weChatRegistration openEnvironment (.ok weChatId) users =
      some (weChatNewUser weChatId users) := by
    simp [weChatRegistration, openEnvironment, unused]
  have served : serveNaming users (.weChatAuth openEnvironment true (.ok weChatId)) =
      ((weChatNewUser weChatId users).insert openEnvironment.passwords users).1 := by
    rw [serveNaming, users_weChatAuth, registers]
  obtain ⟨writes, counter⟩ := @signsUp_of_free _ free openEnvironment.passwords
    (weChatNewUser weChatId users) rfl rfl rfl rfl (.inr rfl)
  refine ⟨.weChatAuth openEnvironment true (.ok weChatId), trivial, ?_, ?_, ?_⟩
  · rw [served]
    exact counter
  · rw [served]
    have stored := id_le_getMaxUserId (Table.rowAt_mem writes.at_key)
    have bounded := getMaxUserId_le_counter
      ((weChatNewUser weChatId users).insert openEnvironment.passwords users).1
    rw [counter] at bounded
    exact Int.le_antisymm bounded stored
  · intro row member
    have below : row.id ≤ users.counter := users.bounded row member
    have found : users.rowAt row.id = some row := Table.rowAt_of_mem member
    rw [served]
    rw [← writes.elsewhere (show row.id ≠ users.counter + 1 by omega)] at found
    exact Table.rowAt_mem found

/-- Sign-ups lead to every number that is yet to come. -/
theorem exists_collision_ahead (missing : Nat) {row : User} (member : row ∈ users.rows)
    {number : Int} (numbered : Numbered row.username number)
    (ahead : users.counter + missing = number - 1)
    (arrived : missing = 0 → getMaxUserId users = users.counter) :
    ∃ requests next, (namings.guard KeepsNumbers).Runs users requests next ∧
      ¬ NumberFree next := by
  induction missing generalizing users with
  | zero =>
      refine ⟨[], users, .refl, fun free => free row member ?_⟩
      rw [arrived rfl]
      have same : users.counter + 1 = number := by omega
      rwa [same]
  | succ missing ih =>
      by_cases free : NumberFree users
      · obtain ⟨request, permitted, counter, greatest, keeps⟩ := exists_signUp free
        have step : (namings.guard KeepsNumbers).Step users request (serveNaming users request) :=
          ⟨permitted, rfl⟩
        obtain ⟨requests, next, runs, collides⟩ := ih (keeps row member) (by
          rw [counter]
          omega) fun _ => greatest.trans counter.symm
        exact ⟨_, next, .head step runs, collides⟩
      · exact ⟨[], users, .refl, free⟩

/-- A harmful name collides with the name of a later third-party user. -/
theorem exists_collision (positive : ∀ row ∈ users.rows, 0 < row.id)
    (harmful : ¬ NamesHarmless users) :
    ∃ requests next, (namings.guard KeepsNumbers).Runs users requests next ∧
      ¬ NumberFree next := by
  simp only [NamesHarmless, NameHarmless, Harmless, not_forall, not_or, not_and] at harmful
  obtain ⟨row, member, number, numbered, high, used⟩ := harmful
  by_cases passed : number - 1 ≤ users.counter
  · obtain ⟨last, found⟩ := Option.ne_none_iff_exists'.mp (used passed)
    have key : last.id = number - 1 := Table.rowAt_id found
    obtain ⟨requests, next, runs, greatest, keeps⟩ :=
      exists_run_to_greatest users.rows.length (Nat.le_refl _) positive (Table.rowAt_mem found)
    refine ⟨requests, next, runs, fun free => free row (keeps row member (by omega)) ?_⟩
    have same : getMaxUserId next + 1 = number := by omega
    rwa [same]
  · obtain ⟨missing, same⟩ := Int.eq_ofNat_of_zero_le
      (show 0 ≤ number - 1 - users.counter by omega)
    exact exists_collision_ahead missing member numbered (by omega) fun _ => by omega

end Collisions

/-! ### Runs -/

/-- In every run whose requests meet their condition the next number is free, and every first login
through GitHub or WeChat stores its user; and a request meets its condition exactly when no run
after it ends in a collision. -/
theorem generated_names_are_free {users : Users}
    (reachable : (namings.guard KeepsNumbers).Reachable users) :
    NumberFree users ∧
    (∀ env saved account user, gitHubRegistration env account users = some user →
      SignsUp users user (gitHubOAuth env saved none account users).users) ∧
    (∀ env saved account user, weChatRegistration env account users = some user →
      SignsUp users user (weChatAuth env saved account users).users) ∧
    ∀ request, KeepsNumbers users request ↔
      ∀ requests next, (namings.guard KeepsNumbers).Runs (serveNaming users request) requests next →
        NumberFree next := by
  have preserved : ∀ {users request next}, (∀ row ∈ users.rows, 0 < row.id) →
      NamesHarmless users → KeepsNumbers users request → namings.Step users request next →
      NamesHarmless next := by
    rintro before request _ ids harmless permitted rfl
    exact (serveNaming_harmless_iff ids harmless request).mpr permitted
  have harmless : ∀ {users}, (namings.guard KeepsNumbers).Reachable users → NamesHarmless users := by
    intro users reachable
    refine @System.Reachable.guardInvariant _ _ namings KeepsNumbers
      (fun users => ∀ row ∈ users.rows, 0 < row.id) NamesHarmless ids_positive ?_ preserved _
      reachable
    intro start initial row member number numbered
    rw [(namings_initial initial row member).2.1] at numbered
    exact absurd numbered.long (by decide)
  have free := numberFree_of_harmless (harmless reachable)
  refine ⟨free, fun _ _ _ _ => signsUp_gitHubOAuth free, fun _ _ _ _ => signsUp_weChatAuth free,
    fun request => ⟨fun permitted requests next runs => ?_, fun safe => ?_⟩⟩
  · have stepped := reachable.permit rfl permitted
    exact numberFree_of_harmless (harmless (stepped.runs runs))
  · have ids := ids_positive reachable.ofGuard
    rw [← serveNaming_harmless_iff ids (harmless reachable)]
    by_contra harmful
    have later : namings.Reachable (serveNaming users request) := reachable.ofGuard.step rfl
    obtain ⟨requests, next, runs, collides⟩ := exists_collision (ids_positive later) harmful
    exact collides (safe requests next runs)

/-! ### Two runs -/

/-- The next number after a first login through WeChat. -/
theorem generated_names_are_free_weChat :
    NumberFree (serveNaming rootTable (.weChatAuth openEnvironment true (.ok "wx"))) := by
  have started : (namings.guard KeepsNumbers).Reachable rootTable := .initial rootTable_initial
  have permitted : KeepsNumbers rootTable (.weChatAuth openEnvironment true (.ok "wx")) := trivial
  exact (generated_names_are_free (started.permit rfl permitted)).1

/-- A visitor registers under the name that the next GitHub user would get. -/
theorem register_takes_next_number : ¬ ∀ users, namings.Reachable users → NumberFree users := by
  intro claimed
  let body : Option Json := some (.object
    [("username", .string "github_3"), ("password", .string "12345678")])
  have registered : namings.Reachable (serveNaming rootTable (.register openEnvironment body)) :=
    (System.Reachable.initial rootTable_initial).step rfl
  have taken : ∃ row ∈ (serveNaming rootTable (.register openEnvironment body)).rows,
      Numbered row.username
        (getMaxUserId (serveNaming rootTable (.register openEnvironment body)) + 1) := by
    decide
  obtain ⟨row, member, numbered⟩ := taken
  exact claimed _ registered row member numbered

end MessagePusher.Access
