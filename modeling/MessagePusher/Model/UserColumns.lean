import MessagePusher.Model.User

/-!
# The columns of a user

`Updates(struct)` treats all columns alike: a field that is not zero is written, the others
are left as they are.
-/

namespace MessagePusher.Model

/-- The columns of the table `users` other than the key. -/
inductive Column where
  | username
  | password
  | displayName
  | role
  | status
  | token
  | email
  | gitHubId
  | weChatId
  | channel
  | sendEmailToOthers
  | saveMessageToDatabase
deriving DecidableEq

inductive ColumnValue where
  | text (value : String)
  | number (value : Int)
deriving DecidableEq

/-- A zero value in the sense of `Updates(struct)`. -/
def ColumnValue.blank : ColumnValue → Bool
  | .text value => value = ""
  | .number value => value = 0

def User.get (user : User) : Column → ColumnValue
  | .username => .text user.username
  | .password => .text user.password
  | .displayName => .text user.displayName
  | .role => .number user.role
  | .status => .number user.status
  | .token => .text user.token
  | .email => .text user.email
  | .gitHubId => .text user.gitHubId
  | .weChatId => .text user.weChatId
  | .channel => .text user.channel
  | .sendEmailToOthers => .number user.sendEmailToOthers
  | .saveMessageToDatabase => .number user.saveMessageToDatabase

/-- Column by column, `Updates(struct)` keeps the old value or takes the new one. -/
theorem User.get_applyNonZero (user row : User) (column : Column) :
    (user.applyNonZero row).get column =
      if (user.get column).blank then row.get column else user.get column := by
  cases column <;>
    simp only [get, applyNonZero, ColumnValue.blank, keepString, keepInt, decide_eq_true_eq] <;>
    split_ifs <;> rfl

/-- A new password changes no other column. -/
theorem User.get_password_update (user : User) (hash : String) {column : Column}
    (other : column ≠ .password) : { user with password := hash }.get column = user.get column := by
  cases column with
  | password => exact absurd rfl other
  | _ => rfl

end MessagePusher.Model
