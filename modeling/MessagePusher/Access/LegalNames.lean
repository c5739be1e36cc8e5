import MessagePusher.Controller.Misc
import MessagePusher.Controller.WebhookRows
import MessagePusher.Semantics.Transition

/-!
# Legal names

The length of a name and the reserved name `email` are checked when a channel or a webhook is
added, and not when it is changed. The state keeps the ids of the channels that `EmailBind` has
created.
-/

namespace MessagePusher.Access

open Common Model Store Middleware Controller Semantics

/-- 1 to 20 bytes. -/
def LegalName (name : String) : Prop := 1 ≤ byteLength name ∧ byteLength name ≤ 20

instance (name : String) : Decidable (LegalName name) := inferInstanceAs (Decidable (_ ∧ _))

structure NameState where
  users : Users
  channels : Channels
  webhooks : Webhooks
  /-- The ids of the channels that `EmailBind` has created. -/
  bound : List Int

inductive NameRequest where
  | addChannel (env : ChannelEnvironment) (userId : Int) (body : Option Json)
  | updateChannel (env : ChannelEnvironment) (userId : Int) (statusOnly : String)
      (body : Option Json)
  | deleteChannel (userId : Int) (idParam : String)
  | addWebhook (env : WebhookEnvironment) (userId : Int) (body : Option Json)
  | updateWebhook (env : WebhookEnvironment) (userId : Int) (statusOnly : String)
      (body : Option Json)
  | deleteWebhook (userId : Int) (idParam : String)
  | emailBind (env : UserEnvironment) (id : Int) (email code : String) (timestamp : Int)

/-- The ids of the channels that are new. -/
def newChannels (before after : Channels) : List Int :=
  (after.rows.filter fun row => row ∉ before.rows).map Channel.id

/-- The state after a request. -/
def NameState.serve (state : NameState) : NameRequest → NameState
  | .addChannel env userId body =>
      { state with channels := (addChannel env userId body state.channels).channels }
  | .updateChannel env userId statusOnly body =>
      { state with channels := (updateChannel env userId statusOnly body state.channels).channels }
  | .deleteChannel userId idParam =>
      { state with channels := (deleteChannel userId idParam state.channels).channels }
  | .addWebhook env userId body =>
      { state with webhooks := (addWebhook env userId body state.webhooks).webhooks }
  | .updateWebhook env userId statusOnly body =>
      { state with webhooks := (updateWebhook env userId statusOnly body state.webhooks).webhooks }
  | .deleteWebhook userId idParam =>
      { state with webhooks := (deleteWebhook userId idParam state.webhooks).webhooks }
  | .emailBind env id email code timestamp =>
      let done := emailBind env id email code timestamp state.users state.channels
      { state with
        users := done.users
        channels := done.channels
        bound := state.bound ++ newChannels state.channels done.channels }

/-- Any users, and neither channels nor webhooks. -/
def nameSystem : System NameState NameRequest where
  Initial state := state.channels.rows = [] ∧ state.webhooks.rows = [] ∧ state.bound = []
  Step state request next := next = state.serve request

/-- Names are legal and unshared, and only `EmailBind` has created channels named `email`. -/
structure NamesKept (state : NameState) : Prop where
  channels : ∀ row ∈ state.channels.rows, LegalName row.name
  webhooks : ∀ row ∈ state.webhooks.rows, LegalName row.name
  unshared : ∀ left ∈ state.channels.rows, ∀ right ∈ state.channels.rows,
    left.userId = right.userId → left.name = right.name → left = right
  reserved : ∀ row ∈ state.channels.rows, row.name = "email" → row.id ∈ state.bound

/-- After `EmailBind` succeeds its user has a channel named `email`, of that type. -/
def BindGives (state : NameState) : NameRequest → Prop
  | .emailBind env id email code timestamp =>
      let done := emailBind env id email code timestamp state.users state.channels
      done.reply.success = true →
        ∃ row ∈ done.channels.rows, row.userId = id ∧ row.name = "email" ∧ row.type = typeEmail
  | _ => True

/-- The condition on a request. The body of a full update names a channel by at most 20 bytes, and
`email` only one that `EmailBind` created; it names a webhook legally; and no channel named
`email` has got another type when its owner binds an email. -/
def KeepsNames (state : NameState) : NameRequest → Prop
  | .updateChannel env userId statusOnly body =>
      ∀ channel, Json.decodeInto Channel.jsonFields body {} = some channel → statusOnly = "" →
        (admitUpdateChannel env userId statusOnly body state.channels).isOk →
          byteLength channel.name ≤ 20 ∧ (channel.name = "email" → channel.id ∈ state.bound)
  | .updateWebhook _ userId statusOnly body =>
      ∀ webhook, Json.decodeInto Webhook.jsonFields body {} = some webhook → statusOnly = "" →
        (getWebhookById state.webhooks webhook.id userId).isOk → LegalName webhook.name
  | .emailBind env id email code timestamp =>
      (emailBind env id email code timestamp state.users state.channels).reply.success = true →
        ∀ row ∈ state.channels.rows, row.userId = id → row.name = "email" → row.type = typeEmail
  | _ => True

/-! ### Channels -/

/-- What is asked of one channel. -/
def ChannelKept (bound : List Int) (row : Model.Channel) : Prop :=
  LegalName row.name ∧ (row.name = "email" → row.id ∈ bound)

/-- The unique index takes care of the shared names. -/
theorem namesKept_iff {state : NameState} :
    NamesKept state ↔ (∀ row ∈ state.channels.rows, ChannelKept state.bound row) ∧
      ∀ row ∈ state.webhooks.rows, LegalName row.name := by
  constructor
  · intro kept
    exact ⟨fun row member => ⟨kept.channels row member, kept.reserved row member⟩, kept.webhooks⟩
  · rintro ⟨channels, webhooks⟩
    refine ⟨fun row member => (channels row member).1, webhooks, ?_,
      fun row member => (channels row member).2⟩
    intro left leftMem right rightMem owner named
    exact state.channels.eq_of_clash leftMem rightMem (decide_eq_true ⟨named, owner⟩)

section Requests

variable {state : NameState}

/-- One channel was written, and nothing else has changed but the ids of the created ones. -/
theorem NamesKept.written_iff (kept : NamesKept state) {users : Users} {next : Channels} {key : Int}
    {value : Option Model.Channel} {bound : List Int}
    (writes : state.channels.Rewrites next key value) (grows : ∀ id ∈ state.bound, id ∈ bound) :
    NamesKept { state with users, channels := next, bound } ↔
      ∀ row, value = some row → ChannelKept bound row := by
  obtain ⟨channels, webhooks⟩ := namesKept_iff.mp kept
  have grown : ∀ row ∈ state.channels.rows, ChannelKept bound row := fun row member =>
    ⟨(channels row member).1, fun named => grows _ ((channels row member).2 named)⟩
  rw [namesKept_iff]
  exact (and_iff_left webhooks).trans (writes.forall_rows_iff grown)

theorem NamesKept.of_subset (kept : NamesKept state) {next : NameState}
    (channels : ∀ row ∈ next.channels.rows, row ∈ state.channels.rows)
    (webhooks : ∀ row ∈ next.webhooks.rows, row ∈ state.webhooks.rows)
    (bound : next.bound = state.bound) : NamesKept next := by
  obtain ⟨channelsKept, webhooksKept⟩ := namesKept_iff.mp kept
  rw [namesKept_iff, bound]
  exact ⟨fun row member => channelsKept row (channels row member),
    fun row member => webhooksKept row (webhooks row member)⟩

theorem NamesKept.addChannel (kept : NamesKept state) (env : ChannelEnvironment) (userId : Int)
    (body : Option Json) : NamesKept (state.serve (.addChannel env userId body)) := by
  rcases addChannel_writes env userId body state.channels with
    same | ⟨row, filled, short, unreserved, writes⟩
  · rw [NameState.serve, same]
    exact kept
  · refine (kept.written_iff writes fun _ there => there).mpr ?_
    rintro _ ⟨⟩
    exact ⟨⟨filled, short⟩, fun named => absurd named unreserved⟩

/-- The names stay legal after a change of a channel exactly when the request allows it. -/
theorem NamesKept.updateChannel_iff (kept : NamesKept state) (env : ChannelEnvironment)
    (userId : Int) (statusOnly : String) (body : Option Json) :
    NamesKept (state.serve (.updateChannel env userId statusOnly body)) ↔
      KeepsNames state (.updateChannel env userId statusOnly body) := by
  have before := (namesKept_iff.mp kept).1
  cases admitted : admitUpdateChannel env userId statusOnly body state.channels with
  | error text =>
      have same : (updateChannel env userId statusOnly body state.channels).channels =
          state.channels := by
        rw [updateChannel, admitted]
        rfl
      refine iff_of_true ?_ fun channel _ _ through => ?_
      · rw [NameState.serve, same]
        exact kept
      · rw [admitted] at through
        cases through
  | ok pair =>
      obtain ⟨row, oldRow⟩ := pair
      refine (kept.written_iff (updateChannel_writes admitted) fun _ there => there).trans ?_
      obtain ⟨channel, decoded, loaded, change⟩ := admitUpdateChannel_cases admitted
      have old := before oldRow (Table.rowAt_mem (getChannelById_ok loaded).2.1)
      rcases change with ⟨status, rfl⟩ | ⟨full, rfl, renamed⟩
      · refine iff_of_true ?_ fun _ _ full => absurd full status
        rintro _ ⟨⟩
        exact old
      · have filled : 1 ≤ byteLength channel.name := by
          by_cases same : channel.name = oldRow.name
          · rw [same]
            exact old.1.1
          · exact byteLength_pos (channelNameExists_false (renamed same)).1
        have oldId : oldRow.id = channel.id := getChannelById_id loaded
        have sameId : (updatedChannel channel oldRow).id = channel.id := oldId
        constructor
        · intro written other decodedOther _ _
          obtain rfl := Option.some.inj (decoded.symm.trans decodedOther)
          obtain ⟨legal, reserved⟩ := written _ rfl
          rw [sameId] at reserved
          exact ⟨legal.2, reserved⟩
        · rintro keeps _ ⟨⟩
          obtain ⟨short, reserved⟩ := keeps channel decoded full (by rw [admitted]; rfl)
          refine ⟨⟨filled, short⟩, ?_⟩
          rw [sameId]
          exact reserved

/-! ### Webhooks -/

theorem NamesKept.addWebhook (kept : NamesKept state) (env : WebhookEnvironment) (userId : Int)
    (body : Option Json) : NamesKept (state.serve (.addWebhook env userId body)) := by
  obtain ⟨channels, webhooks⟩ := namesKept_iff.mp kept
  rw [namesKept_iff]
  refine ⟨channels, ?_⟩
  rcases addWebhook_writes env userId body state.webhooks with same | ⟨row, filled, short, writes⟩
  · rw [NameState.serve, same]
    exact webhooks
  · refine (writes.forall_rows_iff webhooks).mpr ?_
    rintro _ ⟨⟩
    exact ⟨filled, short⟩

theorem NamesKept.updateWebhook_iff (kept : NamesKept state) (env : WebhookEnvironment)
    (userId : Int) (statusOnly : String) (body : Option Json) :
    NamesKept (state.serve (.updateWebhook env userId statusOnly body)) ↔
      KeepsNames state (.updateWebhook env userId statusOnly body) := by
  obtain ⟨channels, webhooks⟩ := namesKept_iff.mp kept
  have unchanged : (updateWebhook env userId statusOnly body state.webhooks).webhooks =
      state.webhooks → NamesKept (state.serve (.updateWebhook env userId statusOnly body)) := by
    intro same
    rw [NameState.serve, same]
    exact kept
  cases decoded : Json.decodeInto Webhook.jsonFields body {} with
  | none =>
      refine iff_of_true (unchanged (by rw [updateWebhook, decoded]; rfl)) ?_
      intro webhook found
      rw [decoded] at found
      cases found
  | some webhook =>
      cases loaded : getWebhookById state.webhooks webhook.id userId with
      | error text =>
          have same : (updateWebhook env userId statusOnly body state.webhooks).webhooks =
              state.webhooks := by
            simp [updateWebhook, decoded, loaded, refuseWebhook]
          refine iff_of_true (unchanged same) fun other found _ through => ?_
          obtain rfl := Option.some.inj (decoded.symm.trans found)
          rw [loaded] at through
          cases through
      | ok oldWebhook =>
          have writes : state.webhooks.Rewrites
              (updateWebhook env userId statusOnly body state.webhooks).webhooks oldWebhook.id
              (some (cleanWebhook statusOnly webhook oldWebhook)) :=
            updateWebhook_writes decoded loaded
          have old := webhooks oldWebhook (Table.rowAt_mem (getWebhookById_ok loaded).2.1)
          rw [namesKept_iff]
          refine (and_iff_right channels).trans ((writes.forall_rows_iff webhooks).trans ?_)
          by_cases full : statusOnly = ""
          · have name : (cleanWebhook statusOnly webhook oldWebhook).name = webhook.name := by
              rw [cleanWebhook, if_neg (not_not.mpr full)]
              rfl
            constructor
            · intro written other found _ _
              obtain rfl := Option.some.inj (decoded.symm.trans found)
              exact name ▸ written _ rfl
            · rintro keeps _ ⟨⟩
              rw [name]
              exact keeps webhook decoded full (by rw [loaded]; rfl)
          · have name : (cleanWebhook statusOnly webhook oldWebhook).name = oldWebhook.name := by
              rw [cleanWebhook, if_pos full]
            refine iff_of_true ?_ fun _ _ same => absurd same full
            rintro _ ⟨⟩
            rw [name]
            exact old

/-! ### The email channel -/

/-- A user gets the channel exactly when none of that name is there. -/
theorem emailChannel_insertable_iff (id timestamp : Int) (channels : Channels) :
    channels.Insertable (emailChannel { id } timestamp).withDefaults ↔
      ∀ row ∈ channels.rows, row.userId = id → row.name ≠ "email" := by
  refine (Table.insertable_iff_of_unset rfl).trans (forall₂_congr fun row _ => ?_)
  refine decide_eq_false_iff_not.trans ⟨fun apart owner named => ?_, fun apart both => ?_⟩
  · exact apart ⟨named.symm, owner.symm⟩
  · exact apart both.2.symm both.1.symm

/-- `EmailBind` keeps the names, as the channel that it creates is counted. -/
theorem NamesKept.emailBind (kept : NamesKept state) (env : UserEnvironment) (id : Int)
    (email code : String) (timestamp : Int) :
    NamesKept (state.serve (.emailBind env id email code timestamp)) := by
  rw [NameState.serve]
  have unchanged : ∀ users : Users, NamesKept
      { state with users, bound := state.bound ++ newChannels state.channels state.channels } :=
    fun users => kept.of_subset (fun _ member => member) (fun _ member => member) (by
      simp [newChannels])
  rcases emailBind_channels env id email code timestamp state.users state.channels with
    ⟨-, same⟩ | ⟨-, done⟩
  · rw [same]
    exact unchanged _
  · rw [done]
    rcases (emailChannel { id } timestamp).insert_cases state.channels with
      ⟨same, -⟩ | ⟨row, fields, writes, -, fresh⟩
    · rw [same]
      exact unchanged _
    · refine (kept.written_iff writes fun _ => List.mem_append_left _).mpr ?_
      rintro _ ⟨⟩
      have name : row.name = "email" := by rw [fields]; rfl
      refine ⟨by rw [name]; decide, fun _ => List.mem_append_right _ ?_⟩
      have member : row ∈ ((emailChannel { id } timestamp).insert state.channels).1.rows :=
        Table.rowAt_mem writes.at_key
      exact List.mem_map_of_mem (List.mem_filter.mpr ⟨member, by simpa using fresh⟩)

/-- After a success the user has the channel exactly when none of that name and of another type was
there. -/
theorem bindGives_iff (env : UserEnvironment) (id : Int) (email code : String) (timestamp : Int) :
    BindGives state (.emailBind env id email code timestamp) ↔
      KeepsNames state (.emailBind env id email code timestamp) := by
  refine imp_congr_right fun succeeds => ?_
  rcases emailBind_channels env id email code timestamp state.users state.channels with
    ⟨failed, -⟩ | ⟨-, done⟩
  · rw [failed] at succeeds
    cases succeeds
  · rw [done]
    rcases (emailChannel { id } timestamp).insert_cases state.channels with
      ⟨same, refused⟩ | ⟨row, fields, writes, accepted, -⟩
    · rw [same]
      rw [emailChannel_insertable_iff] at refused
      push Not at refused
      obtain ⟨row, member, owner, named⟩ := refused
      have only : ∀ other ∈ state.channels.rows, other.userId = id → other.name = "email" →
          other = row := fun other there owned called =>
        state.channels.eq_of_clash there member
          (decide_eq_true ⟨called.trans named.symm, owned.trans owner.symm⟩)
      constructor
      · rintro ⟨found, there, owned, called, typed⟩ other otherThere otherOwned otherCalled
        rw [only other otherThere otherOwned otherCalled, ← only found there owned called]
        exact typed
      · exact fun typed => ⟨row, member, owner, named, typed row member owner named⟩
    · have absent := (emailChannel_insertable_iff id timestamp state.channels).mp accepted
      refine iff_of_true ⟨row, Table.rowAt_mem writes.at_key, ?_⟩
        fun other there owned called => absurd called (absent other there owned)
      rw [fields]
      exact ⟨rfl, rfl, rfl⟩

/-! ### The type of the email channel -/

/-- Where the row that a request writes into the table of channels comes from. -/
inductive ChannelWrite (state : NameState) (row : Model.Channel) : NameRequest → Prop where
  | added {env userId body} (unreserved : row.name ≠ "email") :
      ChannelWrite state row (.addChannel env userId body)
  | changed {env userId statusOnly body oldRow}
      (admitted : admitUpdateChannel env userId statusOnly body state.channels =
        .ok (row, oldRow)) :
      ChannelWrite state row (.updateChannel env userId statusOnly body)
  | bound {env id email code timestamp} (typed : row.type = typeEmail) :
      ChannelWrite state row (.emailBind env id email code timestamp)

/-- A request writes at most one channel. -/
theorem serve_channels (state : NameState) (request : NameRequest) :
    (∀ row ∈ (state.serve request).channels.rows, row ∈ state.channels.rows) ∨
      ∃ row, ChannelWrite state row request ∧
        state.channels.Rewrites (state.serve request).channels row.id (some row) := by
  have unchanged : ∀ {channels : Channels}, channels = state.channels →
      ∀ row ∈ channels.rows, row ∈ state.channels.rows := by
    rintro _ rfl row member
    exact member
  cases request with
  | addChannel env userId body =>
      rcases addChannel_writes env userId body state.channels with
        same | ⟨row, -, -, unreserved, writes⟩
      · exact .inl (unchanged same)
      · exact .inr ⟨row, .added unreserved, writes⟩
  | updateChannel env userId statusOnly body =>
      cases admitted : admitUpdateChannel env userId statusOnly body state.channels with
      | error text =>
          refine .inl (unchanged ?_)
          rw [NameState.serve, updateChannel, admitted]
          rfl
      | ok pair =>
          obtain ⟨row, oldRow⟩ := pair
          exact .inr ⟨row, .changed admitted, updateChannel_writes admitted⟩
  | deleteChannel userId idParam => exact .inl (deleteChannel_subset userId idParam state.channels)
  | addWebhook => exact .inl (unchanged rfl)
  | updateWebhook => exact .inl (unchanged rfl)
  | deleteWebhook => exact .inl (unchanged rfl)
  | emailBind env id email code timestamp =>
      rcases emailBind_channels env id email code timestamp state.users state.channels with
        ⟨-, same⟩ | ⟨-, done⟩
      · exact .inl (unchanged same)
      · rcases (emailChannel { id } timestamp).insert_cases state.channels with
          ⟨same, -⟩ | ⟨row, fields, writes, -, -⟩
        · exact .inl (unchanged (done.trans same))
        · refine .inr ⟨row, .bound (by rw [fields]; rfl), ?_⟩
          rw [NameState.serve, done]
          exact writes

/-- No full update that is let through gives a channel named `email` another type. -/
def KeepsType (state : NameState) : NameRequest → Prop
  | .updateChannel env userId statusOnly body =>
      ∀ channel, Json.decodeInto Channel.jsonFields body {} = some channel → statusOnly = "" →
        (admitUpdateChannel env userId statusOnly body state.channels).isOk →
          channel.name = "email" → channel.type = typeEmail
  | _ => True

/-- A channel named `email` is of that type. -/
def EmailTyped (row : Model.Channel) : Prop := row.name = "email" → row.type = typeEmail

theorem emailTyped_of_write {state : NameState} {request : NameRequest} {row : Model.Channel}
    (typed : ∀ row ∈ state.channels.rows, EmailTyped row) (permitted : KeepsType state request)
    (write : ChannelWrite state row request) : EmailTyped row := by
  cases write with
  | added unreserved => exact fun named => absurd named unreserved
  | bound type => exact fun _ => type
  | @changed _ _ _ _ oldRow admitted =>
      obtain ⟨channel, decoded, loaded, change⟩ := admitUpdateChannel_cases admitted
      have old := typed oldRow (Table.rowAt_mem (getChannelById_ok loaded).2.1)
      rcases change with ⟨-, rfl⟩ | ⟨full, rfl, -⟩
      · exact old
      · exact permitted channel decoded full (by rw [admitted]; rfl)

/-- As long as the updates leave the type, every email that is bound gives its user the channel. -/
theorem binds_give {state : NameState} (reachable : (nameSystem.guard KeepsType).Reachable state)
    (request : NameRequest) : BindGives state request := by
  have typed : ∀ row ∈ state.channels.rows, EmailTyped row := by
    apply reachable.invariant
    · rintro start ⟨channels, -, -⟩
      rw [channels]
      simp
    · rintro before request _ typed ⟨permitted, rfl⟩
      rcases serve_channels before request with subset | ⟨row, write, writes⟩
      · exact fun row member => typed row (subset row member)
      · apply (writes.forall_rows_iff typed).mpr
        rintro _ ⟨⟩
        exact emailTyped_of_write typed permitted write
  cases request with
  | emailBind env id email code timestamp =>
      exact (bindGives_iff env id email code timestamp).mpr
        fun _ row member _ named => typed row member named
  | _ => trivial

/-! ### Runs -/

/-- A request keeps the names, and gives the user of a bound email the channel, exactly when it
meets its condition. -/
theorem NamesKept.serve_iff (kept : NamesKept state) (request : NameRequest) :
    NamesKept (state.serve request) ∧ BindGives state request ↔ KeepsNames state request := by
  cases request with
  | addChannel env userId body =>
      exact iff_of_true ⟨kept.addChannel env userId body, trivial⟩ trivial
  | updateChannel env userId statusOnly body =>
      exact (and_iff_left trivial).trans (kept.updateChannel_iff env userId statusOnly body)
  | deleteChannel userId idParam =>
      refine iff_of_true ⟨kept.of_subset ?_ (fun _ member => member) rfl, trivial⟩ trivial
      exact deleteChannel_subset userId idParam state.channels
  | addWebhook env userId body =>
      exact iff_of_true ⟨kept.addWebhook env userId body, trivial⟩ trivial
  | updateWebhook env userId statusOnly body =>
      exact (and_iff_left trivial).trans (kept.updateWebhook_iff env userId statusOnly body)
  | deleteWebhook userId idParam =>
      refine iff_of_true ⟨kept.of_subset (fun _ member => member) ?_ rfl, trivial⟩ trivial
      exact deleteWebhook_subset userId idParam state.webhooks
  | emailBind env id email code timestamp =>
      exact (and_iff_right (kept.emailBind env id email code timestamp)).trans
        (bindGives_iff env id email code timestamp)

end Requests

/-- In every run whose requests meet their condition the names are kept and every bound email gives
its user the channel; and a request that does not meet it ends that. -/
theorem requests_keep_names {state : NameState}
    (reachable : (nameSystem.guard KeepsNames).Reachable state) :
    NamesKept state ∧ ∀ request,
      NamesKept (state.serve request) ∧ BindGives state request ↔ KeepsNames state request := by
  have kept : NamesKept state := by
    refine reachable.invariant ?_ ?_
    · rintro start ⟨channels, webhooks, -⟩
      rw [namesKept_iff, channels, webhooks]
      simp
    · rintro before request _ kept ⟨permitted, rfl⟩
      exact ((kept.serve_iff request).mpr permitted).1
  exact ⟨kept, kept.serve_iff⟩

/-! ### Two runs -/

/-- One user, and neither channels nor webhooks. -/
def freshNames : NameState where
  users :=
    { rows := [{ id := 1, username := "a" }]
      counter := 1
      sorted := by decide
      unique := by decide
      counterNonneg := Int.one_nonneg
      bounded := by decide }
  channels := .empty
  webhooks := .empty
  bound := []

theorem freshNames_initial : nameSystem.Initial freshNames := ⟨rfl, rfl, rfl⟩

/-- The body of a request about a channel of the type `lark`. -/
def larkBody (id name : String) : Option Json :=
  some (.object [("id", .number id), ("type", .string typeLark), ("name", .string name)])

/-- Every code is accepted. -/
def trustingEnvironment : UserEnvironment where
  passwords := { hash := .ok, validate := fun _ _ => false }
  verifyCode _ _ := true

/-- An email is bound, and a channel is added and renamed. A name of 21 bytes would be too long. -/
theorem requests_keep_names_renamed :
    let bound := freshNames.serve (.emailBind trustingEnvironment 1 "a@b.c" "1" 0)
    let added := bound.serve (.addChannel {} 1 (larkBody "0" "a"))
    let renamed := added.serve (.updateChannel {} 1 "" (larkBody "2" "b"))
    NamesKept renamed ∧ renamed.bound = [1] ∧
      renamed.channels.rows.map (fun row => row.name) = ["email", "b"] ∧
      ¬ NamesKept
        (renamed.serve (.updateChannel {} 1 "" (larkBody "2" "abcdefghijklmnopqrstu"))) := by
  intro bound added renamed
  have started : (nameSystem.guard KeepsNames).Reachable freshNames := .initial freshNames_initial
  have binds : KeepsNames freshNames (.emailBind trustingEnvironment 1 "a@b.c" "1" 0) := by
    rintro - row member
    cases member
  have adds : KeepsNames bound (.addChannel {} 1 (larkBody "0" "a")) := trivial
  have renames : KeepsNames added (.updateChannel {} 1 "" (larkBody "2" "b")) := by
    rintro channel decoded - -
    cases decoded
    decide
  have reachable : (nameSystem.guard KeepsNames).Reachable renamed :=
    ((started.step ⟨binds, rfl⟩).step ⟨adds, rfl⟩).step ⟨renames, rfl⟩
  have result := requests_keep_names reachable
  refine ⟨result.1, by decide, by decide, fun kept => ?_⟩
  have permitted := (result.2 (.updateChannel {} 1 "" _)).mp ⟨kept, trivial⟩
  exact absurd (permitted _ rfl rfl (by decide)).1 (by decide)

/-- A channel is renamed to the reserved name. -/
theorem channel_takes_reserved_name :
    ¬ ∀ state, nameSystem.Reachable state →
      NamesKept state ∧ ∀ request, BindGives state request := by
  intro claimed
  let added := freshNames.serve (.addChannel {} 1 (larkBody "0" "a"))
  let renamed := added.serve (.updateChannel {} 1 "" (larkBody "1" "email"))
  have reachable : nameSystem.Reachable renamed :=
    ((System.Reachable.initial freshNames_initial).step rfl).step rfl
  have reserved := (claimed renamed reachable).1.reserved
  have stolen : ∃ row ∈ renamed.channels.rows, row.name = "email" ∧ row.id ∉ renamed.bound := by
    decide
  obtain ⟨row, member, named, apart⟩ := stolen
  exact apart (reserved row member named)

end MessagePusher.Access
