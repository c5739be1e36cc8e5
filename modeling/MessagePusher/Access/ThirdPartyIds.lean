import MessagePusher.Controller.UserCalls
import MessagePusher.Store.UniqueColumn

/-!
# GitHub and WeChat ids under concurrent logins and bindings

Any number of logins and bindings, whose statements interleave. A binding writes its
whole row back, so that it also writes the id of the other service as it read it.
-/

namespace MessagePusher.Access

open Common Model Store Controller Semantics

/-- The requests that log in through a third party or bind an account. -/
def ThirdPartyRequest : CallRequest → Prop
  | .gitHubOAuth _ _ | .gitHubBind _ _ | .weChatAuth _ | .weChatBind _ _ => True
  | _ => False

/-- No two rows share a GitHub id, and none a WeChat id. -/
structure IdsUnique (users : Users) : Prop where
  gitHub : UniqueColumn User.gitHubId "" users
  weChat : UniqueColumn User.weChatId "" users

/-- Requests that have not run a statement yet, over a table without duplicate ids. -/
def thirdPartyCalls (env : CallEnvironment) : System CallState Nat where
  Initial state := IdsUnique state.users ∧
    ∀ call ∈ state.calls, ∃ request, ThirdPartyRequest request ∧ call = .start request
  Step := CallStep env

/-- Both ids of a struct are unclaimed for the row under `key`. -/
structure IdsUnclaimed (users : Users) (key : Int) (user : User) : Prop where
  gitHub : Unclaimed User.gitHubId "" users key user.gitHubId
  weChat : Unclaimed User.weChatId "" users key user.weChatId

/-- Nobody has one of the ids of a struct. -/
def IdsFree (users : Users) (user : User) : Prop :=
  ∀ row ∈ users.rows, (user.gitHubId ≠ "" → row.gitHubId ≠ user.gitHubId) ∧
    (user.weChatId ≠ "" → row.weChatId ≠ user.weChatId)

/-- The condition on a statement. What a call is about to insert or to write has no id that
another row carries at that moment. -/
def IdsStillFree (state : CallState) (turn : Nat) : Prop :=
  match state.calls[turn]? with
  | some (.inserting user) => state.users.Insertable user → IdsFree state.users user
  | some (.writing _ user) =>
      (state.users.rowAt user.id).isSome → IdsUnclaimed state.users user.id user
  | _ => True

variable {env : CallEnvironment} {users next : Users}

theorem IdsFree.unclaimed {user : User} (free : IdsFree users user) (key : Int) :
    IdsUnclaimed users key user :=
  ⟨.of_none key fun named row member => (free row member).1 named,
    .of_none key fun named row member => (free row member).2 named⟩

theorem IdsUnique.write {key : Int} {row : User} (unique : IdsUnique users)
    (writes : users.Rewrites next key (some row)) (unclaimed : IdsUnclaimed users key row) :
    IdsUnique next :=
  ⟨unique.gitHub.write writes unclaimed.gitHub, unique.weChat.write writes unclaimed.weChat⟩

/-- Each id that `Updates(struct)` leaves in the row is the one of the struct or was the row's. -/
theorem IdsUnclaimed.applyNonZero {user row : User} (unique : IdsUnique users)
    (found : users.rowAt user.id = some row) (unclaimed : IdsUnclaimed users user.id user) :
    IdsUnclaimed users user.id (user.applyNonZero row) := by
  have keeps : ∀ {column : User → String} {value : String}, UniqueColumn column "" users →
      Unclaimed column "" users user.id value →
      Unclaimed column "" users user.id (keepString value (column row)) := by
    intro column value uniqueColumn free
    unfold keepString
    split_ifs
    · exact uniqueColumn.unclaimed found
    · exact free
  exact ⟨keeps unique.gitHub unclaimed.gitHub, keeps unique.weChat unclaimed.weChat⟩

/-- A statement keeps the ids unique under the condition. -/
theorem IdsUnique.effect {call : UserCall} (unique : IdsUnique users)
    (inserts : ∀ user, call = .inserting user → users.Insertable user → IdsFree users user)
    (writes : ∀ columns user, call = .writing columns user → (users.rowAt user.id).isSome →
      IdsUnclaimed users user.id user)
    (effect : UserCall.Effect users call next) : IdsUnique next := by
  cases effect with
  | nothing => exact unique
  | @inserted user next key hash accepted written =>
      have free := (inserts user rfl accepted).unclaimed key
      exact unique.write written ⟨free.gitHub, free.weChat⟩
  | @deleted user =>
      have gone := Table.rewrites_delete users user.id
      exact ⟨unique.gitHub.delete gone, unique.weChat.delete gone⟩
  | @written columns user row next found written =>
      have free := writes columns user rfl (by rw [found]; rfl)
      exact unique.write written (free.applyNonZero unique found)
  | @reset email hash =>
      have kept : ∀ key row, (setPasswordByEmail users email hash).1.rowAt key = some row →
          ∃ before, users.rowAt key = some before ∧ before.gitHubId = row.gitHubId ∧
            before.weChatId = row.weChatId := by
        intro key row found
        rw [(setPasswordByEmail_spec users email hash).2, Option.map_eq_some_iff] at found
        obtain ⟨before, held, rfl⟩ := found
        refine ⟨before, held, ?_⟩
        split_ifs
        · exact ⟨rfl, rfl⟩
        · exact ⟨rfl, rfl⟩
      constructor
      · apply unique.gitHub.congr
        intro key row found
        obtain ⟨before, held, same, -⟩ := kept key row found
        exact ⟨before, held, same⟩
      · apply unique.weChat.congr
        intro key row found
        obtain ⟨before, held, -, same⟩ := kept key row found
        exact ⟨before, held, same⟩

theorem IdsUnique.step {state next : CallState} {turn : Nat} (unique : IdsUnique state.users)
    (stillFree : IdsStillFree state turn) (transition : CallStep env state turn next) :
    IdsUnique next.users := by
  cases transition with
  | @mk call users following at_ taken =>
      unfold IdsStillFree at stillFree
      rw [at_] at stillFree
      refine unique.effect ?_ ?_ (UserCall.next_effect taken)
      · rintro user rfl
        exact stillFree
      · rintro columns user rfl
        exact stillFree

/-- An accepted write of an id that another row carries makes the two share it. -/
theorem not_idsUnique_of_claimed_write {state next : CallState} {turn : Nat} {columns : List Column}
    {user : User} {outcome : CallOutcome}
    (at_ : state.calls[turn]? = some (.writing columns user))
    (transition : CallStep env state turn next) (late : ¬ IdsStillFree state turn)
    (accepted : next.calls[turn]? = some (.done outcome)) (done : outcome.refusal = none) :
    ¬ IdsUnique next.users := by
  unfold IdsStillFree at late
  rw [at_] at late
  simp only [Classical.not_imp] at late
  obtain ⟨present, claimed⟩ := late
  cases transition with
  | @mk call after following atCall taken =>
      obtain rfl := Option.some.inj (at_.symm.trans atCall)
      have inside : turn < state.calls.length := (List.getElem?_eq_some_iff.mp at_).1
      rw [List.getElem?_set_self inside] at accepted
      obtain rfl := Option.some.inj accepted
      rw [UserCall.next] at taken
      rcases User.update_statement env.passwords user state.users with
        ⟨text, result⟩ | ⟨missing, -⟩ | ⟨row, next, found, result, writes⟩
      · rw [result] at taken
        cases taken
        cases done
      · rw [missing] at present
        cases present
      · rw [result] at taken
        cases taken
        intro unique
        apply claimed
        constructor
        · intro named other member carries
          by_contra apart
          refine UniqueColumn.not_write writes ?_ unique.gitHub
          intro free
          have kept : (user.applyNonZero row).gitHubId = user.gitHubId := if_neg named
          rw [kept] at free
          exact apart (free named other member carries)
        · intro named other member carries
          by_contra apart
          refine UniqueColumn.not_write writes ?_ unique.weChat
          intro free
          have kept : (user.applyNonZero row).weChatId = user.weChatId := if_neg named
          rw [kept] at free
          exact apart (free named other member carries)

/-! ### Two bindings of one account -/

def openSettings : CallEnvironment where
  settings := { gitHubOAuthEnabled := true, weChatAuthEnabled := true }
  passwords := { hash := .ok, validate := fun password hash => password = hash }

def unboundRows : List User :=
  [{ id := 1, username := "ann", status := 1 }, { id := 2, username := "bob", status := 1 }]

/-- Two users without accounts. -/
def unboundUsers : Users where
  rows := unboundRows
  counter := 2
  sorted := by decide
  unique := by decide
  counterNonneg := Store.Table.two_nonneg
  bounded := by decide

def binds (id : Int) : CallRequest := .gitHubBind id (.ok { login := "octocat" })

end MessagePusher.Access
