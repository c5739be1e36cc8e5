import MessagePusher.Model.User

/-!
# Sessions and the middleware that checks them

A session is what `setupLogin` stored at login. `authHelper` reads the session
alone; the users table is not consulted.
-/

namespace MessagePusher.Middleware

open Common Model

/-- What a handler answers through `c.JSON`. -/
structure Reply (α : Type) where
  httpStatus : Nat := 200
  success : Bool := false
  message : String := ""
  data : Option α := none
deriving DecidableEq

/-- The values that `setupLogin` stores in a session. -/
structure Session where
  id : Int
  username : String
  role : Int
  status : Int
deriving DecidableEq

/-- `authHelper`: the session that the request goes on with, or the refusal. -/
def authHelper {α : Type} (session : Option Session) (minRole : Int) : Except (Reply α) Session :=
  match session with
  | none => .error { httpStatus := 401, message := "无权进行此操作，未登录" }
  | some session =>
      if session.status = userStatusDisabled then .error { message := "用户已被封禁" }
      else if session.role < minRole then .error { message := "无权进行此操作，权限不足" }
      else .ok session

/-- `UserAuth`. -/
def userAuth {α : Type} (session : Option Session) : Except (Reply α) Session :=
  authHelper session roleCommonUser

/-- `AdminAuth`. -/
def adminAuth {α : Type} (session : Option Session) : Except (Reply α) Session :=
  authHelper session roleAdminUser

/-- When a request passes, and as whom. -/
theorem authHelper_ok_iff {α : Type} {session : Option Session} {minRole : Int}
    {actor : Session} :
    @authHelper α session minRole = .ok actor ↔
      session = some actor ∧ actor.status ≠ userStatusDisabled ∧ minRole ≤ actor.role := by
  cases session with
  | none => simp [authHelper]
  | some session =>
      simp only [authHelper, Option.some.injEq]
      split_ifs with disabled low
      · simp only [false_iff]
        rintro ⟨rfl, enabled, -⟩
        exact enabled disabled
      · simp only [false_iff]
        rintro ⟨rfl, -, enough⟩
        omega
      · simp only [Except.ok.injEq]
        constructor
        · rintro rfl
          exact ⟨rfl, disabled, by omega⟩
        · rintro ⟨rfl, -⟩
          rfl

end MessagePusher.Middleware
