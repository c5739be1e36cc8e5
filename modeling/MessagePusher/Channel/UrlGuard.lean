import MessagePusher.Delivery.GroupProduct
import MessagePusher.Net.Url

/-!
# The guard of custom channels

`SendCustomMessage` compares the text of a URL with `http:` and with the text of the server
address. That is a comparison of the parts as they are spelled, which says what the scheme and the
origin of the URL are for three kinds of URLs.
-/

namespace MessagePusher.Channel

open Common Model Net
open MessagePusher.Delivery (plainLibrary plainReadings)

/-- The refusal of the URLs of this service. -/
def ownAddressError : String := "自定义通道不能使用本服务地址"

section

variable (lib : Library) (readings : Readings) (message : Message) (channel : Model.Channel)

/-- A request is issued to this server: the sender posts, and `net/http` takes the URL. -/
def Issues (target : Target) : Prop :=
  (∃ body, customMessage lib readings message channel = .ok (.custom channel.url body)) ∧
    requestTarget channel.url = some target

/-- The guard lets only HTTPS through, unless that is switched off, and refuses a URL as this
service's own exactly when it has the origin of the configured address. -/
structure GuardExact : Prop where
  secure : readings.allowNonHttps = false →
    ∀ target, Issues lib readings message channel target → target.scheme = "https".toList
  own : customMessage lib readings message channel = .error ownAddressError ↔
    readings.serverAddress ≠ "" ∧ SameOrigin channel.url readings.serverAddress

end

/-- The URL is refused for its scheme before it is compared with the address. -/
def refusedAsPlain (readings : Readings) (url : String) : Prop :=
  Text.hasPrefix url "http:" = true ∧ readings.allowNonHttps = false

instance (readings : Readings) (url : String) : Decidable (refusedAsPlain readings url) :=
  inferInstanceAs (Decidable (_ ∧ _))

/-- The URL has the origin of an address that is configured. -/
def Own (readings : Readings) (url : String) : Prop :=
  readings.serverAddress ≠ "" ∧ SameOrigin url readings.serverAddress

/-- The scheme is spelled `http`, and that is not allowed. -/
def PlainSpelled (readings : Readings) (url : String) : Prop :=
  schemeText url = some "http".toList ∧ readings.allowNonHttps = false

/-- The URLs whose spelling tells their scheme and their origin. Every URL goes on from an empty
address. -/
inductive TextsTell (readings : Readings) (url : String) : Prop where
  /-- The scheme is `http` in lower case, and the URL is another service's. -/
  | plain (spelled : PlainSpelled readings url) (elsewhere : ¬ Own readings url)
  /-- The URL is this service's own, and spelled as its address is. -/
  | own (admitted : ¬ PlainSpelled readings url) (here : Own readings url)
      (goesOn : Begins readings.serverAddress url)
  /-- The URL is another service's, does not go on from the address, and is encrypted if it must be. -/
  | other (admitted : ¬ PlainSpelled readings url) (elsewhere : ¬ Own readings url)
      (apart : ¬ Begins readings.serverAddress url)
      (secure : readings.allowNonHttps = false →
        ∀ target, requestTarget url = some target → target.scheme = "https".toList)

variable {lib : Library} {readings : Readings} {message : Message} {channel : Model.Channel}

/-- The two tests of the guard, by the parts of the texts. -/
theorem refusedAsPlain_iff {url : String} : refusedAsPlain readings url ↔ PlainSpelled readings url := by
  refine and_congr_left fun _ => ?_
  rw [schemeText_eq_iff (by decide), Text.hasPrefix, List.isPrefixOf_iff_prefix]
  rfl

theorem hasPrefix_iff_begins {address url : String} :
    Text.hasPrefix url address = true ↔ Begins address url := by
  rw [Text.hasPrefix, List.isPrefixOf_iff_prefix]
  exact prefix_iff_begins

theorem customMessage_eq (lib : Library) (readings : Readings) (message : Message)
    (channel : Model.Channel) :
    customMessage lib readings message channel =
      if refusedAsPlain readings channel.url then .error "自定义通道必须使用 HTTPS 协议"
      else if Text.hasPrefix channel.url readings.serverAddress then .error ownAddressError
      else .ok (.custom channel.url
        (lib.renderTemplate channel.other (customTemplateVariables lib message))) := rfl

theorem customMessage_own_iff :
    customMessage lib readings message channel = .error ownAddressError ↔
      ¬ PlainSpelled readings channel.url ∧ Begins readings.serverAddress channel.url := by
  rw [customMessage_eq, ← refusedAsPlain_iff, ← hasPrefix_iff_begins]
  by_cases plain : refusedAsPlain readings channel.url
  · rw [if_pos plain]
    refine iff_of_false (fun same => ?_) fun both => both.1 plain
    have other : ("自定义通道必须使用 HTTPS 协议" : String) ≠ ownAddressError := by decide
    exact other (Except.error.inj same)
  · rw [if_neg plain]
    by_cases starts : Text.hasPrefix channel.url readings.serverAddress = true
    · rw [if_pos starts]
      exact iff_of_true rfl ⟨plain, starts⟩
    · rw [if_neg starts]
      refine iff_of_false (fun same => ?_) fun both => starts both.2
      cases same

theorem issues_iff {target : Target} :
    Issues lib readings message channel target ↔
      ¬ PlainSpelled readings channel.url ∧ ¬ Begins readings.serverAddress channel.url ∧
        requestTarget channel.url = some target := by
  rw [Issues, customMessage_eq, ← refusedAsPlain_iff, ← hasPrefix_iff_begins]
  by_cases plain : refusedAsPlain readings channel.url
  · rw [if_pos plain]
    refine iff_of_false ?_ fun all => all.1 plain
    rintro ⟨⟨body, same⟩, -⟩
    cases same
  · rw [if_neg plain]
    by_cases starts : Text.hasPrefix channel.url readings.serverAddress = true
    · rw [if_pos starts]
      refine iff_of_false ?_ fun all => all.2.1 starts
      rintro ⟨⟨body, same⟩, -⟩
      cases same
    · rw [if_neg starts]
      exact ⟨fun both => ⟨plain, starts, both.2⟩, fun all => ⟨⟨_, rfl⟩, all.2.2⟩⟩

def shoutedChannel : Model.Channel where
  type := typeCustom
  url := "HTTP://example.org/"

/-- The server of the channel: `example.org` without encryption. -/
def shoutedTarget : Target where
  scheme := "http".toList
  host := "example.org".toList.flatMap String.utf8EncodeChar
  port := []

end MessagePusher.Channel
