import Mathlib.Data.List.Nodup
import Mathlib.Tactic.Common

/-!
# The migration from version 3

`bin/migrate_v3_to_v4.py` and `bin/migrate_v3_to_v4.sql` make channels of the accounts that the users
of version 3 have set up, and start from no channels. The script takes a column as set when it is
neither `NULL` nor empty, the statements when it is not `NULL`.
-/

namespace MessagePusher.Bin

/-- A row of the users of version 3, as far as it is migrated; `none` is `NULL`. -/
structure V3User where
  id : Int
  email : Option String := none
  wechatTestAccountId : Option String := none
  wechatTestAccountSecret : Option String := none
  wechatTestAccountTemplateId : Option String := none
  wechatTestAccountOpenId : Option String := none
  wechatCorpAccountId : Option String := none
  wechatCorpAccountAgentSecret : Option String := none
  wechatCorpAccountAgentId : Option String := none
  wechatCorpAccountUserId : Option String := none
  wechatCorpAccountClientType : Option String := none
  corpWebhookUrl : Option String := none
  larkWebhookUrl : Option String := none
  larkWebhookSecret : Option String := none
  dingWebhookUrl : Option String := none
  dingWebhookSecret : Option String := none
  barkServer : Option String := none
  barkSecret : Option String := none
  clientSecret : Option String := none
  telegramBotToken : Option String := none
  telegramChatId : Option String := none
  discordWebhookUrl : Option String := none

/-- The users of version 3, whose ids are the primary key. -/
structure V3Users where
  rows : List V3User
  distinct : (rows.map V3User.id).Nodup

/-- The channels that are made, in the order of the statements. -/
inductive ChannelKind where
  | email
  | test
  | corpApp
  | lark
  | ding
  | corp
  | bark
  | telegram
  | discord
  | client
deriving DecidableEq

namespace ChannelKind

def all : List ChannelKind :=
  [email, test, corpApp, lark, ding, corp, bark, telegram, discord, client]

/-- The type of the channel, which is its name too. -/
def type : ChannelKind → String
  | email => "email"
  | test => "test"
  | corpApp => "corp_app"
  | lark => "lark"
  | ding => "ding"
  | corp => "corp"
  | bark => "bark"
  | telegram => "telegram"
  | discord => "discord"
  | client => "client"

/-- The column that is set when the user has such a channel. -/
def credential (user : V3User) : ChannelKind → Option String
  | email => user.email
  | test => user.wechatTestAccountId
  | corpApp => user.wechatCorpAccountId
  | lark => user.larkWebhookUrl
  | ding => user.dingWebhookUrl
  | corp => user.corpWebhookUrl
  | bark => user.barkServer
  | telegram => user.telegramBotToken
  | discord => user.discordWebhookUrl
  | client => user.clientSecret

theorem mem_all (kind : ChannelKind) : kind ∈ all := by
  cases kind <;> decide

theorem type_injective : Function.Injective type := by
  have apart : ∀ left ∈ all, ∀ right ∈ all, left.type = right.type → left = right := by decide
  exact fun left right same => apart left (mem_all left) right (mem_all right) same

end ChannelKind

/-- A row that is inserted into `channels`. -/
structure NewChannel where
  type : String
  userId : Int
  name : String
  description : String
  status : Int
  secret : Option String
  appId : Option String
  accountId : Option String
  url : Option String
  other : Option String
  createdTime : Int

/-- What an `INSERT` of both programs has in common. -/
def inserted (kind : ChannelKind) (user : V3User) (createdTime : Int)
    (secret appId accountId url other : Option String) : NewChannel where
  type := kind.type
  userId := user.id
  name := kind.type
  description := ""
  status := 1
  secret := secret
  appId := appId
  accountId := accountId
  url := url
  other := other
  createdTime := createdTime

/-! ### The script -/

/-- A value that counts as true. -/
def truthy : Option String → Bool
  | none => false
  | some text => text ≠ ""

/-- A value in a formatted string. -/
def pythonText : Option String → String
  | none => "None"
  | some text => text

def pythonRow (user : V3User) (time : Int) : ChannelKind → NewChannel
  | .email => inserted .email user time (some "") (some "") (some "") (some "") (some "")
  | .test => inserted .test user time user.wechatTestAccountSecret user.wechatTestAccountId
      user.wechatTestAccountOpenId (some "") user.wechatTestAccountTemplateId
  | .corpApp => inserted .corpApp user time user.wechatCorpAccountAgentSecret
      (some (pythonText user.wechatCorpAccountId ++ "|" ++ pythonText user.wechatCorpAccountAgentId))
      user.wechatCorpAccountUserId (some "") user.wechatCorpAccountClientType
  | .lark => inserted .lark user time user.larkWebhookSecret (some "") (some "") user.larkWebhookUrl
      (some "")
  | .ding => inserted .ding user time user.dingWebhookSecret (some "") (some "") user.dingWebhookUrl
      (some "")
  | .corp => inserted .corp user time (some "") (some "") (some "") user.corpWebhookUrl (some "")
  | .bark => inserted .bark user time user.barkSecret (some "") (some "") user.barkServer (some "")
  | .telegram => inserted .telegram user time user.telegramBotToken (some "") user.telegramChatId
      (some "") (some "")
  | .discord => inserted .discord user time (some "") (some "") (some "") user.discordWebhookUrl
      (some "")
  | .client => inserted .client user time user.clientSecret (some "") (some "") (some "") (some "")

/-- `migrate_v3_to_v4.py`: user by user. `now` is the time of an insertion. -/
def migratePython (now : V3User → ChannelKind → Int) (users : V3Users) : List NewChannel :=
  users.rows.flatMap fun user => ChannelKind.all.filterMap fun kind =>
    if truthy (kind.credential user) then some (pythonRow user (now user kind) kind) else none

/-! ### The statements -/

/-- `CONCAT`, which is `NULL` when a part is. -/
def sqlConcat (parts : List (Option String)) : Option String :=
  parts.foldr (fun part rest => part.bind fun text => rest.map (text ++ ·)) (some "")

def sqlRow (user : V3User) (time : Int) : ChannelKind → NewChannel
  | .email => inserted .email user time (some "") (some "") (some "") (some "") (some "")
  | .test => inserted .test user time user.wechatTestAccountSecret user.wechatTestAccountId
      user.wechatTestAccountOpenId (some "") user.wechatTestAccountTemplateId
  | .corpApp => inserted .corpApp user time user.wechatCorpAccountAgentSecret
      (sqlConcat [user.wechatCorpAccountId, some "|", user.wechatCorpAccountAgentId])
      user.wechatCorpAccountUserId (some "") user.wechatCorpAccountClientType
  | .lark => inserted .lark user time user.larkWebhookSecret (some "") (some "") user.larkWebhookUrl
      (some "")
  | .ding => inserted .ding user time user.dingWebhookSecret (some "") (some "") user.dingWebhookUrl
      (some "")
  | .corp => inserted .corp user time (some "") (some "") (some "") user.corpWebhookUrl (some "")
  | .bark => inserted .bark user time user.barkSecret (some "") (some "") user.barkServer (some "")
  | .telegram => inserted .telegram user time user.telegramBotToken (some "") user.telegramChatId
      (some "") (some "")
  | .discord => inserted .discord user time (some "") (some "") (some "") user.discordWebhookUrl
      (some "")
  | .client => inserted .client user time user.clientSecret (some "") (some "") (some "") (some "")

/-- `migrate_v3_to_v4.sql`: one statement for each type. `now` is the time of a statement. -/
def migrateSql (now : ChannelKind → Int) (users : V3Users) : List NewChannel :=
  ChannelKind.all.flatMap fun kind =>
    (users.rows.filter fun user => (kind.credential user).isSome).map fun user =>
      sqlRow user (now kind) kind

/-! ### What the migrations are to do -/

def NewChannel.withoutTime (channel : NewChannel) : NewChannel := { channel with createdTime := 0 }

/-- The same rows up to their times. -/
def SameChannels (left right : List NewChannel) : Prop :=
  ∀ row, row ∈ left.map NewChannel.withoutTime ↔ row ∈ right.map NewChannel.withoutTime

/-- A user has a channel of a type exactly if the column of the type has a text that is not empty. -/
def ChannelsOfCredentials (users : V3Users) (channels : List NewChannel) : Prop :=
  ∀ user ∈ users.rows, ∀ kind : ChannelKind,
    (∃ channel ∈ channels, channel.userId = user.id ∧ channel.type = kind.type) ↔
      ∃ text, kind.credential user = some text ∧ text ≠ ""

/-- No column of the user is empty without being `NULL`, and a corporate account has an agent. -/
structure V3User.Plain (user : V3User) : Prop where
  filled : ∀ kind : ChannelKind, kind.credential user ≠ some ""
  agent : user.wechatCorpAccountId ≠ none → user.wechatCorpAccountAgentId ≠ none

/-! ### The rows -/

variable {user : V3User} {users : V3Users} {row : NewChannel} {kind : ChannelKind}

theorem truthy_iff {value : Option String} : truthy value ↔ ∃ text, value = some text ∧ text ≠ "" := by
  cases value with
  | none => simp [truthy]
  | some text => simp [truthy]

theorem mem_migratePython {now : V3User → ChannelKind → Int} : row ∈ migratePython now users ↔
    ∃ user ∈ users.rows, ∃ kind : ChannelKind, truthy (kind.credential user) ∧
      pythonRow user (now user kind) kind = row := by
  simp only [migratePython, List.mem_flatMap, List.mem_filterMap, Option.ite_none_right_eq_some,
    Option.some.injEq, ChannelKind.mem_all, true_and]

theorem mem_migrateSql {now : ChannelKind → Int} : row ∈ migrateSql now users ↔
    ∃ user ∈ users.rows, ∃ kind : ChannelKind, kind.credential user ≠ none ∧
      sqlRow user (now kind) kind = row := by
  simp only [migrateSql, List.mem_flatMap, List.mem_map, List.mem_filter, ChannelKind.mem_all,
    true_and, Option.isSome_iff_ne_none]
  constructor
  · rintro ⟨kind, user, ⟨listed, set⟩, same⟩
    exact ⟨user, listed, kind, set, same⟩
  · rintro ⟨user, listed, kind, set, same⟩
    exact ⟨kind, user, ⟨listed, set⟩, same⟩

theorem pythonRow_keys (user : V3User) (time : Int) (kind : ChannelKind) :
    (pythonRow user time kind).userId = user.id ∧ (pythonRow user time kind).type = kind.type := by
  cases kind <;> exact ⟨rfl, rfl⟩

theorem sqlRow_keys (user : V3User) (time : Int) (kind : ChannelKind) :
    (sqlRow user time kind).userId = user.id ∧ (sqlRow user time kind).type = kind.type := by
  cases kind <;> exact ⟨rfl, rfl⟩

/-- The rows of the two programs are the same up to their times, but for a `NULL` in a text that is
put together. -/
theorem withoutTime_sqlRow (plain : user.Plain) (set : kind.credential user ≠ none)
    (time time' : Int) :
    (sqlRow user time kind).withoutTime = (pythonRow user time' kind).withoutTime := by
  cases kind with
  | corpApp =>
      obtain ⟨account, hasAccount⟩ := Option.ne_none_iff_exists'.mp set
      obtain ⟨agent, hasAgent⟩ := Option.ne_none_iff_exists'.mp (plain.agent set)
      have hasAccount' : user.wechatCorpAccountId = some account := hasAccount
      have joined : sqlConcat [some account, some "|", some agent] =
          some (account ++ ("|" ++ (agent ++ ""))) := rfl
      rw [String.append_empty, ← String.append_assoc] at joined
      simp only [sqlRow, pythonRow, NewChannel.withoutTime, inserted, hasAccount', hasAgent, joined,
        pythonText]
  | _ => rfl

theorem credential_ne_none_iff (filled : kind.credential user ≠ some "") :
    kind.credential user ≠ none ↔ truthy (kind.credential user) := by
  rw [truthy_iff, Option.ne_none_iff_exists']
  refine exists_congr fun text => ⟨fun same => ⟨same, ?_⟩, And.left⟩
  rintro rfl
  exact filled same

theorem V3Users.eq_of_id {left right : V3User} (first : left ∈ users.rows)
    (second : right ∈ users.rows) (same : left.id = right.id) : left = right :=
  List.inj_on_of_nodup_map users.distinct first second same

/-! ### Where the migrations agree -/

theorem channelsOfCredentials_python (now : V3User → ChannelKind → Int) (users : V3Users) :
    ChannelsOfCredentials users (migratePython now users) := by
  intro user listed kind
  rw [← truthy_iff]
  constructor
  · rintro ⟨channel, made, ownId, ownType⟩
    obtain ⟨other, there, found, set, rfl⟩ := mem_migratePython.mp made
    obtain ⟨otherId, otherType⟩ := pythonRow_keys other (now other found) found
    obtain rfl := V3Users.eq_of_id there listed (otherId.symm.trans ownId)
    obtain rfl := ChannelKind.type_injective (otherType.symm.trans ownType)
    exact set
  · intro set
    exact ⟨_, mem_migratePython.mpr ⟨user, listed, kind, set, rfl⟩, pythonRow_keys _ _ _⟩

theorem channelsOfCredentials_sql_iff (now : ChannelKind → Int) (users : V3Users) :
    ChannelsOfCredentials users (migrateSql now users) ↔
      ∀ user ∈ users.rows, ∀ kind : ChannelKind, kind.credential user ≠ some "" := by
  constructor
  · intro exactly user listed kind empty
    have made : sqlRow user (now kind) kind ∈ migrateSql now users :=
      mem_migrateSql.mpr ⟨user, listed, kind, by rw [empty]; exact Option.some_ne_none _, rfl⟩
    obtain ⟨text, set, filled⟩ := (exactly user listed kind).mp ⟨_, made, sqlRow_keys _ _ _⟩
    exact filled (Option.some.inj (set.symm.trans empty))
  · intro filled user listed kind
    rw [← truthy_iff, ← credential_ne_none_iff (filled user listed kind)]
    constructor
    · rintro ⟨channel, made, ownId, ownType⟩
      obtain ⟨other, there, found, set, rfl⟩ := mem_migrateSql.mp made
      obtain ⟨otherId, otherType⟩ := sqlRow_keys other (now found) found
      obtain rfl := V3Users.eq_of_id there listed (otherId.symm.trans ownId)
      obtain rfl := ChannelKind.type_injective (otherType.symm.trans ownType)
      exact set
    · intro set
      exact ⟨_, mem_migrateSql.mpr ⟨user, listed, kind, set, rfl⟩, sqlRow_keys _ _ _⟩

/-- Rows of plain users are the same. -/
theorem sameChannels_of_plain (now : V3User → ChannelKind → Int) (now' : ChannelKind → Int)
    (plain : ∀ user ∈ users.rows, user.Plain) :
    SameChannels (migratePython now users) (migrateSql now' users) := by
  intro row
  rw [List.mem_map, List.mem_map]
  constructor
  · rintro ⟨made, listed, rfl⟩
    obtain ⟨user, there, kind, set, rfl⟩ := mem_migratePython.mp listed
    have notNull := (credential_ne_none_iff ((plain user there).filled kind)).mpr set
    exact ⟨_, mem_migrateSql.mpr ⟨user, there, kind, notNull, rfl⟩,
      withoutTime_sqlRow (plain user there) notNull _ _⟩
  · rintro ⟨made, listed, rfl⟩
    obtain ⟨user, there, kind, notNull, rfl⟩ := mem_migrateSql.mp listed
    have set := (credential_ne_none_iff ((plain user there).filled kind)).mp notNull
    exact ⟨_, mem_migratePython.mpr ⟨user, there, kind, set, rfl⟩,
      (withoutTime_sqlRow (plain user there) notNull _ _).symm⟩

/-- A corporate account without an agent is migrated to different rows. -/
theorem agent_of_sameChannels {now : V3User → ChannelKind → Int} {now' : ChannelKind → Int}
    (same : SameChannels (migratePython now users) (migrateSql now' users))
    (listed : user ∈ users.rows) (filled : user.wechatCorpAccountId ≠ some "")
    (account : user.wechatCorpAccountId ≠ none) : user.wechatCorpAccountAgentId ≠ none := by
  intro noAgent
  have set : truthy (ChannelKind.corpApp.credential user) :=
    (@credential_ne_none_iff user .corpApp filled).mp account
  have made : pythonRow user (now user .corpApp) .corpApp ∈ migratePython now users :=
    mem_migratePython.mpr ⟨user, listed, .corpApp, set, rfl⟩
  obtain ⟨other, there, equal⟩ := List.mem_map.mp ((same _).mp (List.mem_map_of_mem made))
  obtain ⟨owner, owned, kind, -, rfl⟩ := mem_migrateSql.mp there
  obtain ⟨ownId, ownType⟩ := sqlRow_keys owner (now' kind) kind
  have sameId : owner.id = user.id := ownId.symm.trans (congrArg NewChannel.userId equal)
  obtain rfl := V3Users.eq_of_id owned listed sameId
  obtain rfl : kind = .corpApp :=
    ChannelKind.type_injective (ownType.symm.trans (congrArg NewChannel.type equal))
  have appId := congrArg NewChannel.appId equal
  obtain ⟨account, hasAccount⟩ := Option.ne_none_iff_exists'.mp account
  simp only [sqlRow, pythonRow, NewChannel.withoutTime, inserted, hasAccount, noAgent] at appId
  cases appId

/-- The migrations insert the same channels, those of the credentials, exactly for plain users. -/
theorem migrations_agree_iff (now : V3User → ChannelKind → Int) (now' : ChannelKind → Int)
    (users : V3Users) :
    (SameChannels (migratePython now users) (migrateSql now' users) ∧
      ChannelsOfCredentials users (migratePython now users) ∧
      ChannelsOfCredentials users (migrateSql now' users)) ↔ ∀ user ∈ users.rows, user.Plain := by
  rw [channelsOfCredentials_sql_iff, and_iff_right (channelsOfCredentials_python now users)]
  constructor
  · rintro ⟨same, filled⟩ user listed
    exact ⟨filled user listed, agent_of_sameChannels same listed (filled user listed .corpApp)⟩
  · intro plain
    exact ⟨sameChannels_of_plain now now' plain, fun user listed => (plain user listed).filled⟩

/-! ### A user without an email address -/

def blankEmail : V3Users where
  rows := [{ id := 1, email := some "" }]
  distinct := List.nodup_singleton 1

/-- The statements make an email channel of an empty address. -/
theorem statements_migrate_blank : ¬ ∀ (now : V3User → ChannelKind → Int) (now' : ChannelKind → Int)
    (users : V3Users), SameChannels (migratePython now users) (migrateSql now' users) ∧
      ChannelsOfCredentials users (migratePython now users) ∧
      ChannelsOfCredentials users (migrateSql now' users) := by
  intro claim
  obtain ⟨-, -, exactly⟩ := claim (fun _ _ => 0) (fun _ => 0) blankEmail
  rw [channelsOfCredentials_sql_iff] at exactly
  exact exactly _ (List.mem_singleton_self _) .email rfl

end MessagePusher.Bin
