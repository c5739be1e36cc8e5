import MessagePusher.Model.User

/-!
# The root account

`createRootAccountIfNeed` of `model/main.go`, which `InitDB` runs at every start.
-/

namespace MessagePusher.Model

open Common Store

/-- The account that is created in an empty table. -/
def rootAccount (hashedPassword : String) : User where
  username := "root"
  password := hashedPassword
  role := roleRootUser
  status := userStatusEnabled
  displayName := "Root User"

/-- `createRootAccountIfNeed`; what becomes of the insertion is not looked at. -/
def createRootAccountIfNeed (passwords : Passwords) (users : Users) : Users × Option String :=
  match users.first fun _ => true with
  | some _ => (users, none)
  | none =>
      match passwords.hash "123456" with
      | .error text => (users, some text)
      | .ok hashedPassword =>
          match Table.insert users (rootAccount hashedPassword).withDefaults with
          | some (next, _) => (next, none)
          | none => (users, none)

/-- A table with a row is left alone. -/
theorem createRootAccountIfNeed_nonempty (passwords : Passwords) {users : Users} {key : Int}
    {row : User} (found : users.rowAt key = some row) :
    createRootAccountIfNeed passwords users = (users, none) := by
  unfold createRootAccountIfNeed
  cases first : users.first fun _ => true with
  | some _ => rfl
  | none =>
      have nobody : ¬ (users.first fun _ => true).isSome := by simp [first]
      rw [Table.first_isSome_iff] at nobody
      exact absurd ⟨row, Table.rowAt_mem found, rfl⟩ nobody

/-- An empty table gets the root account as its only row. -/
theorem createRootAccountIfNeed_empty {passwords : Passwords} {users next : Users}
    (empty : users.rows = [])
    (created : createRootAccountIfNeed passwords users = (next, none)) :
    ∃ row, row.id ≠ 0 ∧ row.role = roleRootUser ∧ row.status = userStatusEnabled ∧
      users.Rewrites next row.id (some row) := by
  have nobody : (users.first fun _ => true) = none := by simp [Table.first, empty]
  unfold createRootAccountIfNeed at created
  rw [nobody] at created
  cases hashed : passwords.hash "123456" with
  | error text => simp [hashed] at created
  | ok hashedPassword =>
      have insertable : Table.Insertable users (rootAccount hashedPassword).withDefaults := by
        simp [Table.Insertable, empty]
      cases inserted : Table.insert users (rootAccount hashedPassword).withDefaults with
      | none => exact absurd insertable (Table.insert_eq_none_iff.mp inserted)
      | some result =>
          obtain ⟨table, stored⟩ := result
          simp only [hashed, inserted, Prod.mk.injEq, and_true] at created
          subst created
          refine ⟨stored, ?_, ?_, ?_, Table.rewrites_insert inserted⟩
          · have above : stored.id = users.counter + 1 :=
              (Table.insert_id_of_unset inserted rfl).1
            have nonneg := users.counterNonneg
            omega
          · obtain ⟨-, rfl, -⟩ := Table.insert_spec inserted
            rfl
          · obtain ⟨-, rfl, -⟩ := Table.insert_spec inserted
            rfl

end MessagePusher.Model
