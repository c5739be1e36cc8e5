import MessagePusher.Channel.Rewriting

/-!
# Group delivery against independent deliveries

A group delivery passes one message and one user through all its senders, and
a later sender sees what an earlier one stored in them. A group delivers as
independent deliveries of the original message would exactly when no member is
affected by the members before it.
-/

namespace MessagePusher.Delivery

open Common Model Channel

/-- A sub-channel of a group delivery: its name, its target and its row. -/
structure Member where
  name : String
  target : String
  channel : Model.Channel

/-- The message of an independent delivery to a member. -/
def Member.message (member : Member) (message : Message) : Message :=
  { message with to_ := member.target, channel := member.name }

/-- What sends to the channel of a member. -/
def Member.sender (member : Member) : Option Sender := senderOf member.channel.type

/-- The rows of the sub-channels, `none` when one is missing or is itself a group. -/
def resolve (channels : Channels) (userId : Int) :
    List (String × String) → Option (List Member)
  | [] => some []
  | (name, target) :: rest =>
      match getChannelByName channels name userId with
      | .error _ => none
      | .ok channel =>
          if channel.type = typeGroup then none
          else (resolve channels userId rest).map (⟨name, target, channel⟩ :: ·)

/-- The members are resolved one after the other. -/
theorem resolve_cons {channels : Channels} {userId : Int} {name target : String}
    {rest : List (String × String)} {members : List Member}
    (resolved : resolve channels userId ((name, target) :: rest) = some members) :
    ∃ channel tail, getChannelByName channels name userId = .ok channel ∧
      channel.type ≠ typeGroup ∧ resolve channels userId rest = some tail ∧
      members = ⟨name, target, channel⟩ :: tail := by
  simp only [resolve] at resolved
  split at resolved
  · cases resolved
  · next channel found =>
    split_ifs at resolved with nested
    obtain ⟨tail, later, rfl⟩ := Option.map_eq_some_iff.mp resolved
    exact ⟨channel, tail, found, nested, later, rfl⟩

/-- The members of a group delivery; the numbers of names and targets match. -/
def groupMembers (channels : Channels) (message : Message) (user : User)
    (channel : Model.Channel) : Option (List Member) :=
  if (groupSubChannels channel).length ≠ (groupTargets message channel).length then none
  else resolve channels user.id ((groupSubChannels channel).zip (groupTargets message channel))

variable (lib : Library)

/-- What `SendMessage` decides for each member on the original message and user, in the
surroundings in which the group reaches that member. -/
def independentAttempts (transport : Outgoing → Option String) (channels : Channels)
    (readings : Nat → Readings) (message : Message) (user : User) (index : Nat) :
    List Member → List Attempt
  | [] => []
  | member :: rest =>
      (sendMessage lib transport channels (fun _ => readings index) (member.message message) user
          member.channel).attempts ++
        independentAttempts transport channels readings message user (index + 1) rest

/-- The sender of a member panics. -/
def Member.panics (member : Member) : Bool := panicsFor lib member.target member.channel

/-- The decisions of the group, each on the fields that the members before it left behind, up to
the first that panics. -/
def carriedAttempts (readings : Nat → Readings) (message : Message) (user : User) (index : Nat)
    (carried : Carried) : List Member → List Attempt
  | [] => []
  | member :: rest =>
      ⟨member.channel,
          (sendDirect lib (readings index) (carried.message (member.message message))
            (carried.user user) member.channel).decision⟩ ::
        if member.panics lib then []
        else
          carriedAttempts readings message user (index + 1)
            (carried.after lib (readings index) member.sender (member.message message) user) rest

/-- The fields that the members in `before` leave behind. -/
def carriedBefore (readings : Nat → Readings) (message : Message) (user : User) (index : Nat)
    (carried : Carried) : List Member → Carried
  | [] => carried
  | member :: rest =>
      carriedBefore readings message user (index + 1)
        (carried.after lib (readings index) member.sender (member.message message) user) rest

/-- The loop of `SendGroupMessage` decides on the carried fields. -/
theorem groupLoop_attempts (transport : Outgoing → Option String) (channels : Channels)
    (readings : Nat → Readings) (message : Message) (user : User) (pairs : List (String × String))
    (members : List Member) (resolved : resolve channels user.id pairs = some members)
    (index : Nat) (errMessage : String) (carried : Carried) (current : Message)
    (same : ∀ member : Member, { current with to_ := member.target, channel := member.name } =
      carried.message (member.message message)) :
    (groupLoop lib transport channels readings index errMessage current (carried.user user)
        pairs).attempts = carriedAttempts lib readings message user index carried members ∧
      (groupLoop lib transport channels readings index errMessage current (carried.user user)
        pairs).refusal = none := by
  induction pairs generalizing members index errMessage carried current with
  | nil =>
      cases resolved
      exact ⟨rfl, rfl⟩
  | cons pair rest ih =>
      obtain ⟨name, target⟩ := pair
      obtain ⟨channel, tail, found, nested, resolvedTail, rfl⟩ := resolve_cons resolved
      have sameHere := same ⟨name, target, channel⟩
      simp only [Member.message] at sameHere
      obtain ⟨messageAfter, userAfter⟩ := sendDirect_carried lib carried (readings index)
        (Member.message ⟨name, target, channel⟩ message) user channel
      have userId : (carried.user user).id = user.id := rfl
      have broken : panics (sendDirect lib (readings index)
          (carried.message { message with to_ := target, channel := name }) (carried.user user)
            channel).decision = Member.panics lib ⟨name, target, channel⟩ :=
        panics_sendDirect lib ..
      simp only [groupLoop, userId, found, nested, if_false, sameHere, carriedAttempts, broken,
        Member.message]
      simp only [Member.message] at messageAfter userAfter
      rw [messageAfter, userAfter]
      have next := ih tail resolvedTail (index + 1)
        (appendError errMessage name (errorOf transport (sendDirect lib (readings index)
          (carried.message { message with to_ := target, channel := name })
          (carried.user user) channel).decision))
        (carried.after lib (readings index) (senderOf channel.type)
          { message with to_ := target, channel := name } user)
        (Carried.message (carried.after lib (readings index) (senderOf channel.type)
          { message with to_ := target, channel := name } user)
          { message with to_ := target, channel := name })
        (fun _ => rfl)
      split_ifs
      · exact ⟨rfl, rfl⟩
      · exact ⟨congrArg _ next.1, next.2⟩

/-- A group delivery to existing, ungrouped members decides on the carried fields. -/
theorem sendGroupMessage_attempts (transport : Outgoing → Option String) (channels : Channels)
    (readings : Nat → Readings) (message : Message) (user : User) (channel : Model.Channel)
    (members : List Member) (resolved : groupMembers channels message user channel = some members) :
    (sendGroupMessage lib transport channels readings message user channel).attempts =
      carriedAttempts lib readings message user 0 (Carried.original message user) members := by
  unfold groupMembers at resolved
  split_ifs at resolved with mismatch
  simp only [sendGroupMessage, mismatch, if_false]
  exact (groupLoop_attempts lib transport channels readings message user _ members resolved 0 ""
    (Carried.original message user) message fun _ => rfl).1

/-- The members of a group are not groups themselves. -/
theorem resolve_direct {channels : Channels} {userId : Int} {pairs : List (String × String)}
    {members : List Member} (resolved : resolve channels userId pairs = some members) :
    ∀ member ∈ members, member.channel.type ≠ typeGroup := by
  induction pairs generalizing members with
  | nil =>
      cases resolved
      simp
  | cons pair rest ih =>
      obtain ⟨channel, tail, -, nested, resolvedTail, rfl⟩ := resolve_cons resolved
      intro member listed
      rcases List.mem_cons.mp listed with rfl | later
      · exact nested
      · exact ih resolvedTail member later

/-- No member sees a difference in the fields that the members before it left behind. -/
def MembersUnaffected (readings : Nat → Readings) (message : Message) (user : User) (index : Nat)
    (carried : Carried) (members : List Member) : Prop :=
  ∀ before member after, members = before ++ member :: after →
    Unaffected lib (readings (index + before.length)) member.sender
      (carriedBefore lib readings message user index carried before) (member.message message) user
      member.channel

/-- The first member is asked about the library as it comes, the rest as the first one leaves it. -/
theorem MembersUnaffected_cons (readings : Nat → Readings) (message : Message) (user : User)
    (index : Nat) (carried : Carried) (member : Member) (rest : List Member) :
    MembersUnaffected lib readings message user index carried (member :: rest) ↔
      Unaffected lib (readings index) member.sender carried (member.message message) user
          member.channel ∧
        MembersUnaffected lib readings message user (index + 1)
          (carried.after lib (readings index) member.sender (member.message message) user)
          rest := by
  constructor
  · intro all
    refine ⟨by simpa [carriedBefore] using all [] member rest rfl, ?_⟩
    rintro before other after rfl
    have later := all (member :: before) other after rfl
    simpa [carriedBefore, Nat.add_assoc, Nat.add_comm 1] using later
  · rintro ⟨here, later⟩ before other after split
    cases before with
    | nil =>
        obtain ⟨rfl, rfl⟩ := List.cons.inj split
        simpa [carriedBefore] using here
    | cons first others =>
        obtain ⟨rfl, rest⟩ := List.cons.inj split
        simpa [carriedBefore, Nat.add_assoc, Nat.add_comm 1] using later others other after rest

/-- No member panics but the last one, after which there is nobody to be cut off. -/
def NonePanicsBeforeLast (members : List Member) : Prop :=
  ∀ member ∈ members.dropLast, member.panics lib = false

/-- The first member panics only if it is the last one too. -/
theorem NonePanicsBeforeLast_cons (member : Member) (rest : List Member) :
    NonePanicsBeforeLast lib (member :: rest) ↔
      (member.panics lib = true → rest = []) ∧ NonePanicsBeforeLast lib rest := by
  unfold NonePanicsBeforeLast
  cases rest with
  | nil => simp
  | cons next rest => simp

/-- One decision for each member. -/
theorem independentAttempts_eq_nil_iff (transport : Outgoing → Option String)
    (channels : Channels) (readings : Nat → Readings) (message : Message) (user : User)
    (members : List Member) (direct : ∀ member ∈ members, member.channel.type ≠ typeGroup)
    (index : Nat) :
    independentAttempts lib transport channels readings message user index members = [] ↔
      members = [] := by
  cases members with
  | nil => simp [independentAttempts]
  | cons member rest =>
      simp [independentAttempts, sendMessage, direct member List.mem_cons_self]

/-- Decisions on the carried fields against decisions on the original ones. -/
theorem carriedAttempts_independent_iff (transport : Outgoing → Option String)
    (channels : Channels) (readings : Nat → Readings) (message : Message) (user : User)
    (members : List Member) (direct : ∀ member ∈ members, member.channel.type ≠ typeGroup)
    (index : Nat) (carried : Carried) (rewritten : Rewritten carried message) :
    carriedAttempts lib readings message user index carried members =
        independentAttempts lib transport channels readings message user index members ↔
      MembersUnaffected lib readings message user index carried members ∧
        NonePanicsBeforeLast lib members := by
  induction members generalizing index carried with
  | nil =>
      simp [carriedAttempts, independentAttempts, MembersUnaffected, NonePanicsBeforeLast]
  | cons member rest ih =>
      have alone : (sendMessage lib transport channels (fun _ => readings index)
          (member.message message) user member.channel).attempts =
            [⟨member.channel, (sendDirect lib (readings index) (member.message message) user
              member.channel).decision⟩] := by
        simp [sendMessage, direct member List.mem_cons_self]
      have rewrittenHere : Rewritten carried (member.message message) := by
        cases rewritten with
        | same content description => exact .same content description
        | filled noContent someText content description =>
            exact .filled noContent someText content description
        | described noText someContent content description =>
            exact .described noText someContent content description
      have later := ih (fun other listed => direct other (List.mem_cons_of_mem _ listed)) (index + 1)
        (carried.after lib (readings index) member.sender (member.message message) user)
        (rewritten.after lib (readings index) member.sender (member.message message) user)
      have here := sendDirect_unaffected lib (readings index) carried (member.message message) user
        member.channel rewrittenHere
      rw [MembersUnaffected_cons, NonePanicsBeforeLast_cons, Member.sender, ← here,
        carriedAttempts, independentAttempts, alone, List.singleton_append, List.cons.injEq,
        Attempt.mk.injEq]
      by_cases broken : member.panics lib = true
      · rw [if_pos broken, eq_comm (a := []), independentAttempts_eq_nil_iff lib transport channels
          readings message user rest fun other listed => direct other (List.mem_cons_of_mem _ listed)]
        constructor
        · rintro ⟨⟨-, same⟩, rfl⟩
          exact ⟨⟨same, by simp [MembersUnaffected]⟩, fun _ => rfl, by simp [NonePanicsBeforeLast]⟩
        · rintro ⟨⟨same, -⟩, last, -⟩
          exact ⟨⟨rfl, same⟩, last broken⟩
      · rw [if_neg broken, later]
        constructor
        · rintro ⟨⟨-, same⟩, others, calm⟩
          exact ⟨⟨same, others⟩, fun panics => absurd panics broken, calm⟩
        · rintro ⟨⟨same, others⟩, -, calm⟩
          exact ⟨⟨rfl, same⟩, others, calm⟩

/-- A group delivers to each of its members what independent deliveries of the original
message and user would, exactly when every member is unaffected by the members before it and
none of these panics. -/
theorem sendGroupMessage_independent_iff (transport : Outgoing → Option String)
    (channels : Channels) (readings : Nat → Readings) (message : Message) (user : User)
    (channel : Model.Channel) (members : List Member)
    (resolved : groupMembers channels message user channel = some members) :
    (sendGroupMessage lib transport channels readings message user channel).attempts =
        independentAttempts lib transport channels readings message user 0 members ↔
      MembersUnaffected lib readings message user 0 (Carried.original message user) members ∧
        NonePanicsBeforeLast lib members := by
  rw [sendGroupMessage_attempts lib transport channels readings message user channel members
    resolved]
  unfold groupMembers at resolved
  split_ifs at resolved with mismatch
  exact carriedAttempts_independent_iff lib transport channels readings message user members
    (resolve_direct resolved) 0 (Carried.original message user) (.same rfl rfl)

/-! A Discord member before a Telegram member: the description is sent to Telegram as Markdown. -/

/-- A library whose functions are as simple as may be. -/
def plainLibrary : Library where
  goldmark := id
  hmacSha256 := fun secret text => secret ++ text
  hmacSha1 := fun secret text => secret ++ text
  queryEscape := id
  parsesUrl := fun _ => true
  toLower := id
  jsonObject := fun _ => none
  marshal := fun _ => ""
  decodeVariables := fun _ => none
  renderTemplate := fun template _ => template

/-- The settings as they are when nothing was changed. -/
def plainReadings : Readings where
  systemName := "消息推送服务"
  serverAddress := "http://localhost:3000"
  allowNonHttps := false
  unixMilli := 0
  nonce := 0
  token := fun _ => ""
  connected := fun _ => false

def discordRow : Model.Channel :=
  { id := 1, type := typeDiscord, userId := 1, name := "d", url := "https://discord" }

def telegramRow : Model.Channel :=
  { id := 2, type := typeTelegram, userId := 1, name := "t", secret := "bot", accountId := "7" }

/-- A group of both channels. -/
def groupRow : Model.Channel :=
  { id := 3, type := typeGroup, userId := 1, name := "g", appId := "d|t", accountId := "|" }

def groupChannels : Channels where
  rows := [discordRow, telegramRow, groupRow]
  counter := 3
  sorted := by decide
  unique := by decide
  counterNonneg := by decide
  bounded := by decide

/-- A push that has a description and no content. -/
def describedMessage : Message := { title := "t", description := "a_b", channel := "g" }

def groupMemberRows : List Member := [⟨"d", "", discordRow⟩, ⟨"t", "", telegramRow⟩]

/-- What the first member writes into the message reaches the second one. -/
theorem sendGroupMessage_not_independent :
    groupMembers groupChannels describedMessage { id := 1 } groupRow = some groupMemberRows ∧
      (sendGroupMessage plainLibrary (fun _ => none) groupChannels (fun _ => plainReadings)
          describedMessage { id := 1 } groupRow).attempts ≠
        independentAttempts plainLibrary (fun _ => none) groupChannels (fun _ => plainReadings)
          describedMessage { id := 1 } 0 groupMemberRows := by
  refine ⟨by rfl, fun same => ?_⟩
  have decisions := congrArg (List.map Attempt.decision) same
  revert decisions
  decide

/-! A one_bot member whose URL has no scheme before the Discord member: nothing goes to Discord. -/

/-- `url.Parse` takes a host and a port for a path segment with a colon. -/
def strictLibrary : Library :=
  { plainLibrary with parsesUrl := fun url => url ≠ "127.0.0.1:5700/send_msg" }

def oneBotRow : Model.Channel :=
  { id := 4, type := typeOneBot, userId := 1, name := "o", url := "127.0.0.1:5700",
    accountId := "7" }

/-- A group with a OneBot channel in front. -/
def mixedGroupRow : Model.Channel :=
  { id := 5, type := typeGroup, userId := 1, name := "m", appId := "o|d", accountId := "|" }

def mixedChannels : Channels where
  rows := [discordRow, oneBotRow, mixedGroupRow]
  counter := 5
  sorted := by decide
  unique := by decide
  counterNonneg := by decide
  bounded := by decide

def mixedMembers : List Member := [⟨"o", "", oneBotRow⟩, ⟨"d", "", discordRow⟩]

theorem sendGroupMessage_independent_iff_panics :
    (sendGroupMessage strictLibrary (fun _ => none) mixedChannels (fun _ => plainReadings)
        describedMessage { id := 1 } mixedGroupRow).attempts ≠
      independentAttempts strictLibrary (fun _ => none) mixedChannels (fun _ => plainReadings)
        describedMessage { id := 1 } 0 mixedMembers := by
  have exact_ := sendGroupMessage_independent_iff strictLibrary (fun _ => none) mixedChannels
    (fun _ => plainReadings) describedMessage { id := 1 } mixedGroupRow mixedMembers (by rfl)
  intro same
  have calm := (exact_.mp same).2 ⟨"o", "", oneBotRow⟩ (by simp [mixedMembers])
  exact absurd calm (by decide)

end MessagePusher.Delivery
