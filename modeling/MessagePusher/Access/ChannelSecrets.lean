import MessagePusher.Controller.Channel
import MessagePusher.Controller.Reads
import MessagePusher.Store.Agreement

/-!
# What the answers show of channel secrets

Two tables of channels that differ in secrets of one user, and the answers of the channel endpoints
to that user. The reads leave the column out, while `UpdateChannel` answers with the whole row that
it has merged, in which `TokenStoreUpdateChannel` blanks an unchanged secret for two types.
-/

namespace MessagePusher.Access

open Common Model Store Middleware Controller
open MessagePusher.Channel (keepChangedParts changedPart checkTokenStoreChannelType)

/-- A row, without the secret if it belongs to the user. -/
def hideSecret (userId : Int) (row : Model.Channel) : Model.Channel :=
  { row with secret := if row.userId = userId then "" else row.secret }

/-- The tables are the same but for secrets of the user's channels. -/
abbrev SameButSecrets (userId : Int) (one other : Channels) : Prop :=
  one.SameBut (hideSecret userId) other

inductive ChannelRequest where
  | getAllChannels (brief p : String)
  | searchChannels (keyword : String)
  | getChannel (idParam : String)
  | addChannel (body : Option Json)
  | updateChannel (statusOnly : String) (body : Option Json)
  | deleteChannel (idParam : String)

inductive ChannelAnswer where
  | read (reply : Reply ReadData)
  | wrote (reply : Reply Model.Channel)
deriving DecidableEq

def answerChannel (dialect : Dialect) (env : ChannelEnvironment) (userId : Int)
    (channels : Channels) : ChannelRequest → ChannelAnswer
  | .getAllChannels brief p => .read (getAllChannels channels userId brief p)
  | .searchChannels keyword => .read (searchChannelsReply dialect channels userId keyword)
  | .getChannel idParam => .read (getChannel channels userId idParam)
  | .addChannel body => .wrote (addChannel env userId body channels).reply
  | .updateChannel statusOnly body =>
      .wrote (updateChannel env userId statusOnly body channels).reply
  | .deleteChannel idParam => .wrote (deleteChannel userId idParam channels).reply

/-- The name that an update asks for may be taken: nothing is asked for, or the old name, or a free
one. -/
def NameFree (channels : Channels) (userId : Int) (statusOnly : String)
    (channel oldChannel : Model.Channel) : Prop :=
  statusOnly ≠ "" ∨ channel.name = oldChannel.name ∨
    channelNameExists channels channel.name userId = .ok false

/-- The condition under which an answer shows nothing of the secrets. Where an update reaches a
channel whose secrets differ, the channel must be of a type of the token store and the request must
not ask for a secret that is one of them, or it must be of another type and be given a secret. -/
def SecretUnseen (userId : Int) (one other : Channels) : ChannelRequest → Prop
  | .updateChannel statusOnly body => ∀ channel old hidden,
      Json.decodeInto Channel.jsonFields body {} = some channel →
        getChannelById one channel.id userId true = .ok old →
          getChannelById other channel.id userId true = .ok hidden →
            NameFree one userId statusOnly channel old → hidden.secret ≠ old.secret →
              if checkTokenStoreChannelType old.type then
                statusOnly ≠ "" ∨ channel.secret = "" ∨
                  (channel.secret ≠ old.secret ∧ channel.secret ≠ hidden.secret)
              else statusOnly = "" ∧ channel.secret ≠ ""
  | _ => True

/-! ### The reads -/

section Reads

variable {userId : Int} {one other : Channels}

theorem getAllChannels_same (same : SameButSecrets userId one other) (brief p : String) :
    getAllChannels one userId brief p = getAllChannels other userId brief p := by
  unfold getAllChannels getBriefChannels getBriefChannelsByUserId getChannelsByUserId
  rw [map_page, map_page, List.map_reverse, List.map_reverse,
    same.map_select (fun _ => rfl) fun _ => rfl, same.map_select (fun _ => rfl) fun _ => rfl]

theorem searchChannels_same (same : SameButSecrets userId one other) (dialect : Dialect)
    (keyword : String) :
    searchChannelsReply dialect one userId keyword =
      searchChannelsReply dialect other userId keyword := by
  unfold searchChannelsReply searchChannels
  rw [same.map_select (fun _ => rfl) fun _ => rfl]

theorem channelNameExists_same (same : SameButSecrets userId one other) (name : String)
    (owner : Int) : channelNameExists one name owner = channelNameExists other name owner := by
  unfold channelNameExists
  rw [same.first_isSome fun _ => rfl]

/-- Loading a channel of the user finds none in both tables, or one up to its secret. -/
theorem getChannelById_same (same : SameButSecrets userId one other) (id : Int)
    (selectAll : Bool) :
    (∃ text, getChannelById one id userId selectAll = .error text ∧
        getChannelById other id userId selectAll = .error text) ∨
      ∃ old secret, getChannelById one id userId selectAll =
          .ok (if selectAll then old else old.withoutSecret) ∧
        getChannelById other id userId selectAll =
          .ok (if selectAll then { old with secret } else old.withoutSecret) := by
  unfold getChannelById
  by_cases blank : id = 0 ∨ userId = 0
  · rw [if_pos blank, if_pos blank]
    exact .inl ⟨_, rfl, rfl⟩
  · rw [if_neg blank, if_neg blank]
    have found : (one.first fun row => row.id = id ∧ row.userId = userId).map (hideSecret userId) =
        (other.first fun row => row.id = id ∧ row.userId = userId).map (hideSecret userId) :=
      same.first fun _ => rfl
    cases left : one.first fun row => row.id = id ∧ row.userId = userId with
    | none =>
        rw [left] at found
        rw [Option.map_eq_none_iff.mp found.symm]
        exact .inl ⟨_, rfl, rfl⟩
    | some old =>
        rw [left] at found
        obtain ⟨hidden, right, alike⟩ := Option.map_eq_some_iff.mp found.symm
        rw [right]
        -- The two rows have all other columns in common.
        have merged : hidden = { old with secret := hidden.secret } :=
          congrArg (fun row => { row with secret := hidden.secret }) alike
        have stripped : hidden.withoutSecret = old.withoutSecret :=
          congrArg (fun row => { row with secret := "" }) alike
        refine .inr ⟨old, hidden.secret, rfl, ?_⟩
        cases selectAll with
        | false => exact congrArg Except.ok stripped
        | true => exact congrArg Except.ok merged

theorem getChannel_same (same : SameButSecrets userId one other) (idParam : String) :
    getChannel one userId idParam = getChannel other userId idParam := by
  unfold getChannel
  cases Text.atoi idParam with
  | error text => rfl
  | ok id =>
      show replyOf .channel (getChannelById one id userId false) =
        replyOf .channel (getChannelById other id userId false)
      rcases getChannelById_same same id false with ⟨text, left, right⟩ | ⟨old, _, left, right⟩
      · rw [left, right]
      · rw [left, right]
        rfl

end Reads

/-! ### The writes -/

section Writes

variable {env : ChannelEnvironment} {userId : Int} {one other : Channels}

theorem addChannel_same (same : SameButSecrets userId one other) (body : Option Json) :
    (addChannel env userId body one).reply = (addChannel env userId body other).reply := by
  have admits : admitAddChannel env userId body one = admitAddChannel env userId body other := by
    unfold admitAddChannel
    simp only [channelNameExists_same same]
  unfold addChannel
  rw [admits]
  cases admitAddChannel env userId body other with
  | error text => rfl
  | ok row =>
      have accepts : one.Insertable row.withDefaults ↔ other.Insertable row.withDefaults :=
        same.insertable_iff (fun _ => rfl) fun _ _ => rfl
      dsimp only [Model.Channel.insert]
      by_cases accepted : one.Insertable row.withDefaults
      · have also := accepts.mp accepted
        simp only [Table.insert, dif_pos accepted, dif_pos also]
      · have neither : ¬ other.Insertable row.withDefaults := fun there => accepted (accepts.mpr there)
        rw [Table.insert_eq_none_iff.mpr accepted, Table.insert_eq_none_iff.mpr neither]
        rfl

theorem deleteChannel_same (same : SameButSecrets userId one other) (idParam : String) :
    (deleteChannel userId idParam one).reply = (deleteChannel userId idParam other).reply := by
  have found : (one.first fun row => row.id = (Text.parseInt idParam).1 ∧
      row.userId = userId).isSome = (other.first fun row => row.id = (Text.parseInt idParam).1 ∧
      row.userId = userId).isSome := same.first_isSome fun _ => rfl
  unfold deleteChannel deleteChannelById
  split_ifs
  · rfl
  · cases left : one.first fun row => row.id = (Text.parseInt idParam).1 ∧ row.userId = userId with
    | none =>
        rw [left] at found
        have right := Option.isSome_eq_false_iff.mp found.symm
        rw [Option.isNone_iff_eq_none.mp right]
        rfl
    | some row =>
        rw [left] at found
        obtain ⟨hidden, right⟩ := Option.isSome_iff_exists.mp found.symm
        rw [right]

/-- The channel that an update writes. -/
def mergedChannel (statusOnly : String) (channel oldChannel : Model.Channel) : Model.Channel :=
  if statusOnly ≠ "" then { oldChannel with status := channel.status }
  else updatedChannel channel oldChannel

/-- An update of a channel that is there is let through in both tables or refused in both. -/
theorem admitUpdateChannel_same (same : SameButSecrets userId one other) {statusOnly : String}
    {body : Option Json} {channel old : Model.Channel} {secret : String}
    (decoded : Json.decodeInto Channel.jsonFields body {} = some channel)
    (left : getChannelById one channel.id userId true = .ok old)
    (right : getChannelById other channel.id userId true = .ok { old with secret }) :
    (¬ NameFree one userId statusOnly channel old ∧
        ∃ text, admitUpdateChannel env userId statusOnly body one = .error text ∧
          admitUpdateChannel env userId statusOnly body other = .error text) ∨
      NameFree one userId statusOnly channel old ∧
        admitUpdateChannel env userId statusOnly body one =
          .ok (mergedChannel statusOnly channel old, old) ∧
        admitUpdateChannel env userId statusOnly body other =
          .ok (mergedChannel statusOnly channel { old with secret }, { old with secret }) := by
  unfold admitUpdateChannel mergedChannel NameFree
  simp only [decoded, left, right, bind, Except.bind, pure, Except.pure,
    ← channelNameExists_same same]
  by_cases status : statusOnly = ""
  · by_cases renamed : channel.name = old.name
    · exact .inr ⟨.inr (.inl renamed), by simp [status, renamed], by simp [status, renamed]⟩
    · cases counted : channelNameExists one channel.name userId with
      | error text => exact .inl (by simp [status, renamed, Except.mapError])
      | ok taken =>
          cases taken with
          | true => exact .inl (by simp [status, renamed, Except.mapError])
          | false => exact .inr (by simp [status, renamed, Except.mapError])
  · exact .inr ⟨.inl status, by simp [status], by simp [status]⟩

theorem secret_mergedChannel (statusOnly : String) (channel old : Model.Channel) :
    (mergedChannel statusOnly channel old).secret =
      if statusOnly ≠ "" ∨ channel.secret = "" then old.secret else channel.secret := by
  unfold mergedChannel updatedChannel
  by_cases status : statusOnly = ""
  · simp [status]
  · simp [status]

theorem secret_keepChangedParts (row old : Model.Channel) :
    (keepChangedParts row old).secret =
      if checkTokenStoreChannelType old.type then changedPart row.secret old.secret
      else row.secret := by
  unfold keepChangedParts
  split_ifs
  · rfl
  · rfl

/-- Blanked against two secrets, a text shows which of the two it is. -/
theorem changedPart_eq_iff {asked old secret : String} (filled : asked ≠ "") :
    changedPart asked old = changedPart asked secret ↔
      (secret ≠ old → asked ≠ old ∧ asked ≠ secret) := by
  unfold changedPart
  split_ifs with first second second
  · simp [← first, ← second]
  · simp [← first, eq_comm, second, filled]
  · simp [← second, filled, first]
  · simp [first, second]

/-- The answers to an update where the old secrets differ. -/
theorem keepChangedParts_eq_iff (statusOnly : String) (channel old : Model.Channel)
    (secret : String) :
    keepChangedParts (mergedChannel statusOnly channel old) old =
        keepChangedParts (mergedChannel statusOnly channel { old with secret })
          { old with secret } ↔
      (secret ≠ old.secret →
        if checkTokenStoreChannelType old.type then
          statusOnly ≠ "" ∨ channel.secret = "" ∨
            (channel.secret ≠ old.secret ∧ channel.secret ≠ secret)
        else statusOnly = "" ∧ channel.secret ≠ "") := by
  let shown := keepChangedParts (mergedChannel statusOnly channel old) old
  let other := keepChangedParts (mergedChannel statusOnly channel { old with secret })
    { old with secret }
  have apart : other = { shown with secret := other.secret } := by
    dsimp only [shown, other, keepChangedParts, mergedChannel, updatedChannel]
    split_ifs <;> rfl
  have secrets : shown = other ↔ shown.secret = other.secret := by
    refine ⟨congrArg Model.Channel.secret, fun same => ?_⟩
    rw [apart, ← same]
  rw [secrets, secret_keepChangedParts, secret_keepChangedParts, secret_mergedChannel,
    secret_mergedChannel]
  by_cases keyed : checkTokenStoreChannelType old.type = true
  · rw [if_pos keyed, if_pos keyed, if_pos keyed]
    by_cases kept : statusOnly ≠ "" ∨ channel.secret = ""
    · rw [if_pos kept, if_pos kept]
      refine iff_of_true ?_ fun _ => kept.imp_right .inl
      rw [changedPart, changedPart, if_pos rfl, if_pos rfl]
    · rw [if_neg kept, if_neg kept, changedPart_eq_iff fun blank => kept (.inr blank)]
      push Not at kept
      simp [kept]
  · rw [if_neg keyed, if_neg keyed, if_neg keyed]
    by_cases kept : statusOnly ≠ "" ∨ channel.secret = ""
    · rw [if_pos kept, if_pos kept]
      have needed : ¬ (statusOnly = "" ∧ channel.secret ≠ "") := by
        rintro ⟨status, filled⟩
        exact kept.elim (· status) filled
      constructor
      · exact fun alike other => absurd alike.symm other
      · exact fun holds => not_not.mp fun apart => needed (holds (Ne.symm apart))
    · rw [if_neg kept, if_neg kept]
      push Not at kept
      simp [kept]

end Writes

/-! ### Every request -/

/-- What an update asks of two stores that agree but for a secret. -/
theorem secretUnseen_updateChannel_iff {userId : Int} {one other : Channels}
    {statusOnly secret : String} {body : Option Json} {channel old : Model.Channel}
    (decoded : Json.decodeInto Channel.jsonFields body {} = some channel)
    (left : getChannelById one channel.id userId true = .ok old)
    (right : getChannelById other channel.id userId true = .ok { old with secret }) :
    SecretUnseen userId one other (.updateChannel statusOnly body) ↔
      (NameFree one userId statusOnly channel old → secret ≠ old.secret →
        if checkTokenStoreChannelType old.type then
          statusOnly ≠ "" ∨ channel.secret = "" ∨
            (channel.secret ≠ old.secret ∧ channel.secret ≠ secret)
        else statusOnly = "" ∧ channel.secret ≠ "") := by
  refine ⟨fun holds => holds _ _ _ decoded left right, ?_⟩
  intro holds _ _ _ there found hidden
  rw [decoded] at there
  cases there
  rw [left] at found
  cases found
  rw [right] at hidden
  cases hidden
  exact holds

theorem updateChannel_same_iff {env : ChannelEnvironment} {userId : Int} {one other : Channels}
    (same : SameButSecrets userId one other) (statusOnly : String) (body : Option Json) :
    (updateChannel env userId statusOnly body one).reply =
        (updateChannel env userId statusOnly body other).reply ↔
      SecretUnseen userId one other (.updateChannel statusOnly body) := by
  have refused (channels : Channels) {text : String}
      (refuses : admitUpdateChannel env userId statusOnly body channels = .error text) :
      (updateChannel env userId statusOnly body channels).reply = { message := text } := by
    unfold updateChannel
    rw [refuses]
    rfl
  cases decoded : Json.decodeInto Channel.jsonFields body {} with
  | none =>
      have unread (channels : Channels) :
          admitUpdateChannel env userId statusOnly body channels = .error (env.bindError body) := by
        simp [admitUpdateChannel, decoded, bind, Except.bind]
      rw [refused one (unread one), refused other (unread other)]
      refine iff_of_true rfl fun channel _ _ there => ?_
      rw [decoded] at there
      cases there
  | some channel =>
      rcases getChannelById_same same channel.id true with
        ⟨text, left, right⟩ | ⟨old, secret, left, right⟩
      · have missing (channels : Channels)
            (none : getChannelById channels channel.id userId true = .error text) :
            admitUpdateChannel env userId statusOnly body channels = .error text := by
          simp [admitUpdateChannel, decoded, none, bind, Except.bind]
        rw [refused one (missing one left), refused other (missing other right)]
        refine iff_of_true rfl fun asked _ _ there found => ?_
        rw [decoded] at there
        cases there
        rw [left] at found
        cases found
      · rw [if_pos rfl] at left right
        rw [secretUnseen_updateChannel_iff decoded left right]
        rcases admitUpdateChannel_same same decoded left right with
          ⟨taken, text, refusedLeft, refusedRight⟩ | ⟨free, admittedLeft, admittedRight⟩
        · rw [refused one refusedLeft, refused other refusedRight]
          exact iff_of_true rfl fun free => absurd free taken
        · rw [updateChannel_reply admittedLeft, updateChannel_reply admittedRight]
          refine Iff.trans ?_ (forall_prop_of_true free).symm
          rw [← keepChangedParts_eq_iff]
          simp

/-- The answers to a request are the same over all secrets exactly under the condition. -/
theorem secrets_unseen_iff (dialect : Dialect) (env : ChannelEnvironment) {userId : Int}
    {one other : Channels} (same : SameButSecrets userId one other) (request : ChannelRequest) :
    answerChannel dialect env userId one request = answerChannel dialect env userId other request ↔
      SecretUnseen userId one other request := by
  cases request with
  | getAllChannels brief p =>
      exact iff_of_true (congrArg ChannelAnswer.read (getAllChannels_same same brief p)) trivial
  | searchChannels keyword =>
      exact iff_of_true (congrArg ChannelAnswer.read (searchChannels_same same dialect keyword))
        trivial
  | getChannel idParam =>
      exact iff_of_true (congrArg ChannelAnswer.read (getChannel_same same idParam)) trivial
  | addChannel body =>
      exact iff_of_true (congrArg ChannelAnswer.wrote (addChannel_same same body)) trivial
  | updateChannel statusOnly body =>
      rw [answerChannel, answerChannel, ChannelAnswer.wrote.injEq]
      exact updateChannel_same_iff same statusOnly body
  | deleteChannel idParam =>
      exact iff_of_true (congrArg ChannelAnswer.wrote (deleteChannel_same same idParam)) trivial

/-- A channel of user 1 with its key. -/
def barkChannel (secret : String) : Channels where
  rows :=
    [ { id := 1, type := typeBark, userId := 1, name := "phone", status := channelStatusEnabled,
        secret } ]
  counter := 1
  sorted := by simp
  unique := by simp
  counterNonneg := Int.one_nonneg
  bounded := by simp

theorem barkChannel_same (secret other : String) :
    SameButSecrets 1 (barkChannel secret) (barkChannel other) := ⟨rfl, rfl⟩

/-- The channel is disabled. -/
def disableBody : Option Json := some (.object [("id", .number "1"), ("status", .number "2")])

/-- The owner gets the key of the channel back when it is disabled. -/
theorem status_change_shows_secret :
    ¬ ∀ (dialect : Dialect) (env : ChannelEnvironment) (userId : Int) (one other : Channels)
      (request : ChannelRequest), SameButSecrets userId one other →
        answerChannel dialect env userId one request =
          answerChannel dialect env userId other request := by
  intro claimed
  have same := claimed .sqlite {} 1 (barkChannel "k1") (barkChannel "k2")
    (.updateChannel "true" disableBody) (barkChannel_same "k1" "k2")
  exact absurd same (by decide)

/-- The channel gets a new key. -/
def renewBody : Option Json :=
  some (.object [("id", .number "1"), ("type", .string typeBark), ("name", .string "phone"),
    ("secret", .string "k3")])

/-- The answers to a new key for that channel. -/
theorem secrets_unseen_iff_renewed :
    answerChannel .sqlite {} 1 (barkChannel "k1") (.updateChannel "" renewBody) =
        answerChannel .sqlite {} 1 (barkChannel "k2") (.updateChannel "" renewBody) ↔
      SecretUnseen 1 (barkChannel "k1") (barkChannel "k2") (.updateChannel "" renewBody) :=
  secrets_unseen_iff .sqlite {} (barkChannel_same "k1" "k2") (.updateChannel "" renewBody)

end MessagePusher.Access
