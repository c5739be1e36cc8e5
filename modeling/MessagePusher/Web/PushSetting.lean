import MessagePusher.Controller.User
import MessagePusher.Model.Channel

/-!
# The settings page

What `web/src/components/PushSetting.jsx` sends and what `loadUser` of
`web/src/helpers/loader.js` makes of the answer of `GET /api/user/self`. An empty token
travels as a single space.
-/

namespace MessagePusher.Web

open Common Model Controller

/-- The token that stands for an empty one. -/
def blankToken : String := " "

/-- `submit('general')` of `PushSetting`: the data of `PUT /api/user/self`. -/
def submit (channel token : String) : Json :=
  .object
    [ ("channel", .string channel),
      ("token", .string (if token = "" then blankToken else token)) ]

/-- `loadUser`, on the user that the server answers. -/
def loadUser (data : User) : User :=
  { data with
    channel := if data.channel = "" then typeEmail else data.channel
    token := if data.token = blankToken then "" else data.token }

/-- The token that the page shows for a user. -/
def shownToken (user : User) : String := (loadUser user.brief).token

theorem shownToken_eq (user : User) :
    shownToken user = if user.token = blankToken then "" else user.token := rfl

/-- The form that `UpdateSelf` decodes from the data of the page. -/
theorem decodeInto_submit (channel token : String) :
    Json.decodeInto UserForm.jsonFields (some (submit channel token)) {} =
      some { channel, token := if token = "" then blankToken else token } := by
  simp [submit, Json.decodeInto, Json.decodeMember, Json.fieldFor, UserForm.jsonFields,
    Json.stringField, Json.intField]

/-- The page leaves the name and the password alone. -/
theorem admitUpdateSelf_submit (id : Int) (channel token : String) :
    admitUpdateSelf id (some (submit channel token)) =
      .ok { id, channel, token := if token = "" then blankToken else token } := by
  have valid : (withPlaceholder
      { channel, token := if token = "" then blankToken else token }).validate = none := by
    have placeholder : placeholderPassword.length = 9 := by decide
    simp [withPlaceholder, UserForm.validate, UserForm.lengths, lengthError, placeholder]
  rw [admitUpdateSelf, decodeInto_submit]
  simp only [valid]
  rfl

end MessagePusher.Web
