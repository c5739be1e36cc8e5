import Mathlib.Data.List.Nodup
import MessagePusher.Middleware.Auth
import MessagePusher.Model.Option
import MessagePusher.Semantics.Transition

/-!
# Switches and the settings they need

`UpdateOption` of `controller/option.go` in front of the function of the same name in `model`. A
server is the table `options` and the memory, and may start again from the table at any time.
-/

namespace MessagePusher.Model

open Common

namespace OptionTable

variable (table : OptionTable) (key value : String)

/-- The key of the row that `UpdateOption` writes: of the row that the query of `FirstOrCreate`
finds, else the key asked for. -/
def named : String := ((table.first key).map Prod.fst).getD key

/-- The table after `UpdateOption`, which ignores the errors of both operations. -/
def written : OptionTable :=
  match table.firstOrCreate key with
  | none => (table.save key value).getD table
  | some (made, found) => (made.save found value).getD made

variable {table} {key}

/-- A key is created once. -/
theorem create_eq_none_iff : table.create key value = none ↔ key ∈ table.keys := by
  unfold create
  split_ifs with absent
  · simp [absent]
  · simpa using absent

theorem mem_keys_of_mem {row : String × String} (listed : row ∈ table.rows) :
    row.1 ∈ table.keys :=
  List.mem_map.mpr ⟨row, listed, rfl⟩

/-- A key has one row. -/
theorem row_unique {row other : String × String} (listed : row ∈ table.rows)
    (also : other ∈ table.rows) (same : other.1 = row.1) : other = row :=
  List.inj_on_of_nodup_map table.unique also listed same

/-- The row under `name` has this text in `next`, and the others are as before. -/
structure Writes (table next : OptionTable) (name text : String) : Prop where
  rows : ∀ row ∈ next.rows, row = (name, text) ∨ row ∈ table.rows ∧ row.1 ≠ name
  present : name ∈ next.keys
  grows : ∀ other ∈ table.keys, other ∈ next.keys

/-- A table writes each of its own rows. -/
theorem writes_self {row : String × String} (listed : row ∈ table.rows) :
    table.Writes table row.1 row.2 where
  rows other there := by
    by_cases same : other.1 = row.1
    · exact .inl (row_unique listed there same)
    · exact .inr ⟨there, same⟩
  present := mem_keys_of_mem listed
  grows _ there := there

/-- A creation writes the row of its key. -/
theorem writes_create {made : OptionTable} (created : table.create key value = some made) :
    table.Writes made key value := by
  obtain ⟨rows, absent⟩ := create_rows created
  have keys_ : made.keys = table.keys ++ [key] := by
    rw [keys, rows, List.map_append]
    rfl
  constructor
  · intro row there
    rw [rows, List.mem_append, List.mem_singleton] at there
    rcases there with before | same
    · exact .inr ⟨before, fun same => absent (same ▸ mem_keys_of_mem before)⟩
    · exact .inl same
  · rw [keys_]
    exact List.mem_append_right _ (List.mem_singleton_self key)
  · intro other there
    rw [keys_]
    exact List.mem_append_left _ there

/-- `Save` of a key that is there, after anything was written under it. -/
theorem Writes.set {made : OptionTable} {old : String} (writes : table.Writes made key old)
    (value : String) : table.Writes (made.set key value) key value := by
  constructor
  · intro row there
    rcases mem_set there with same | ⟨before, apart⟩
    · exact .inl same
    · rcases writes.rows row before with same | stays
      · exact absurd (congrArg Prod.fst same) apart
      · exact .inr stays
  · rw [keys_set]
    exact writes.present
  · rw [keys_set]
    exact writes.grows

/-- What `Save` makes of the row that `FirstOrCreate` answers: without a key the row stays, as it
cannot be created again. -/
theorem Writes.save {made : OptionTable} {old : String} (writes : table.Writes made key old)
    (value : String) :
    ∃ text, (key ≠ "" → text = value) ∧
      table.Writes ((made.save key value).getD made) key text := by
  by_cases blank : key = ""
  · have refused : made.create key value = none := (create_eq_none_iff value).mpr writes.present
    rw [OptionTable.save, if_pos blank, refused]
    exact ⟨old, fun filled => absurd blank filled, writes⟩
  · rw [OptionTable.save, if_neg blank, if_pos writes.present]
    exact ⟨value, fun _ => rfl, writes.set value⟩

theorem first_mem {row : String × String} (queried : table.first key = some row) :
    row ∈ table.rows := by
  unfold first at queried
  split_ifs at queried
  · exact List.mem_of_find?_eq_some queried
  · exact List.mem_of_find?_eq_some queried

/-- One row is written, and the others stay. A row without a key may keep its text. -/
theorem written_spec (table : OptionTable) (key value : String) :
    ∃ text, (table.named key ≠ "" → text = value) ∧
      table.Writes (table.written key value) (table.named key) text := by
  unfold named written firstOrCreate
  cases queried : table.first key with
  | some row => exact (writes_self (first_mem queried)).save value
  | none =>
      cases created : table.create key "" with
      | some made => exact (writes_create _ created).save value
      | none =>
          obtain ⟨row, listed, same⟩ := List.mem_map.mp ((create_eq_none_iff "").mp created)
          subst same
          exact (writes_self listed).save value

end OptionTable

/-! ### What a restart reads -/

/-- The order in which the rows are read does not matter. -/
theorem initOptionMap_perm {rows others : OptionRows} (distinct : (rows.map Prod.fst).Nodup)
    (listed : others.Perm rows) : initOptionMap {} others = initOptionMap {} rows := by
  have also : (others.map Prod.fst).Nodup := (listed.map Prod.fst).nodup_iff.mpr distinct
  apply updateOptionMap_independent.eq_assignAll
  · exact fun past there => ⟨past, listed.mem_iff.mp there, rfl⟩
  · exact fun row there =>
      updateOptionMap_independent.assignAll_settles also (listed.mem_iff.mpr there) _

/-- A restart after a write reads the row that was written. -/
theorem initOptionMap_written (table : OptionTable) (key value : String) :
    ∃ text, (table.named key ≠ "" → text = value) ∧
      initOptionMap {} (table.written key value).rows =
        updateOptionMap (initOptionMap {} table.rows) (table.named key) text := by
  obtain ⟨text, same, rows, present, grows⟩ := table.written_spec key value
  refine ⟨text, same, ?_⟩
  have history : updateOptionMap (initOptionMap {} table.rows) (table.named key) text =
      Store.assignAll updateOptionMap (Options.withDefaults {})
        (table.rows ++ [(table.named key, text)]) := by
    rw [Store.assignAll_append]
    rfl
  rw [history]
  symm
  apply updateOptionMap_independent.eq_assignAll
  · intro past there
    rw [List.mem_append, List.mem_singleton] at there
    have listed : past.1 ∈ (table.written key value).keys := by
      rcases there with before | rfl
      · exact grows _ (OptionTable.mem_keys_of_mem before)
      · exact present
    obtain ⟨row, there, named⟩ := List.mem_map.mp listed
    exact ⟨row, there, named⟩
  · intro row there
    rw [← history]
    rcases rows row there with rfl | ⟨before, apart⟩
    · exact updateOptionMap_independent.overwrites _ _ _ _
    · rw [updateOptionMap_independent.commutes _ _ _ _ _ (Ne.symm apart)]
      have settled := updateOptionMap_independent.assignAll_settles table.unique before
        (Options.withDefaults {})
      exact congrArg (updateOptionMap · (table.named key) text) settled

end MessagePusher.Model

namespace MessagePusher.Controller

open Common Model Semantics Middleware

/-! ### The features -/

/-- The features that are refused while their setting is empty. -/
inductive Feature where
  | gitHub
  | weChat
  | turnstile
deriving DecidableEq

namespace Feature

/-- The key of the switch. -/
def flag : Feature → String
  | gitHub => "GitHubOAuthEnabled"
  | weChat => "WeChatAuthEnabled"
  | turnstile => "TurnstileCheckEnabled"

/-- The key of the setting. -/
def key : Feature → String
  | gitHub => "GitHubClientId"
  | weChat => "WeChatServerAddress"
  | turnstile => "TurnstileSiteKey"

/-- The switch of a feature. -/
def enabled : Feature → Settings → Bool
  | gitHub => Settings.gitHubOAuthEnabled
  | weChat => Settings.weChatAuthEnabled
  | turnstile => Settings.turnstileCheckEnabled

/-- The setting that a feature cannot do without. -/
def setting : Feature → Settings → String
  | gitHub => Settings.gitHubClientId
  | weChat => Settings.weChatServerAddress
  | turnstile => Settings.turnstileSiteKey

/-- An enabled feature has its setting. -/
def Sound (feature : Feature) (settings : Settings) : Prop :=
  feature.enabled settings = true → feature.setting settings ≠ ""

/-- No switch is a setting. -/
theorem flag_ne_key (feature other : Feature) : feature.flag ≠ other.key := by
  cases feature <;> cases other <;> decide

/-- No switch and no setting has a blank key. -/
theorem named_ne_empty (feature : Feature) : feature.flag ≠ "" ∧ feature.key ≠ "" := by
  cases feature <;> decide

/-- An option changes the permission, the switch or the variable of its key. -/
theorem settings_updateOptionMap (options : Options) (key value : String) :
    (updateOptionMap options key value).settings =
      updateVariable (updateEnabled (updatePermission options.settings key value) key value)
        key value :=
  rfl

/-- A switch is changed by its own key only. -/
theorem enabled_update (feature : Feature) (options : Options) (key value : String) :
    feature.enabled (updateOptionMap options key value).settings =
      if key = feature.flag then decide (value = "true") else feature.enabled options.settings := by
  rw [settings_updateOptionMap, updateVariable_eq, updateEnabled_eq, updatePermission_eq]
  cases feature
  · exact Eq.refl (if key = "GitHubOAuthEnabled" then _ else _)
  · exact Eq.refl (if key = "WeChatAuthEnabled" then _ else _)
  · exact Eq.refl (if key = "TurnstileCheckEnabled" then _ else _)

/-- A setting is changed by its own key only. -/
theorem setting_update (feature : Feature) (options : Options) (key value : String) :
    feature.setting (updateOptionMap options key value).settings =
      if key = feature.key then value else feature.setting options.settings := by
  rw [settings_updateOptionMap, updateVariable_eq, updateEnabled_eq, updatePermission_eq]
  cases feature
  · exact Eq.refl (if key = "GitHubClientId" then _ else _)
  · exact Eq.refl (if key = "WeChatServerAddress" then _ else _)
  · exact Eq.refl (if key = "TurnstileSiteKey" then _ else _)

/-- What an update may not do to a feature: empty its setting while it is on, or switch it on while
its setting is empty. -/
theorem sound_update_iff {feature : Feature} {options : Options} {key value : String}
    (sound : feature.Sound options.settings) :
    feature.Sound (updateOptionMap options key value).settings ↔
      (key = feature.key → value = "" → feature.enabled options.settings = false) ∧
        (key = feature.flag → value = "true" → feature.setting options.settings ≠ "") := by
  unfold Sound
  rw [enabled_update, setting_update]
  by_cases flag : key = feature.flag
  · have other : key ≠ feature.key := fun same => feature.flag_ne_key feature (flag.symm.trans same)
    rw [if_pos flag, if_neg other]
    simp [flag, feature.flag_ne_key feature]
  · rw [if_neg flag]
    by_cases setting : key = feature.key
    · rw [if_pos setting]
      constructor
      · intro after
        refine ⟨fun _ empty => ?_, fun same => absurd same flag⟩
        by_contra on
        exact after (by simpa using on) empty
      · intro both on empty
        rw [both.1 setting empty] at on
        cases on
    · rw [if_neg setting]
      exact iff_of_true sound ⟨fun same => absurd same setting, fun same => absurd same flag⟩

end Feature

/-! ### The handler -/

/-- The process and its database. -/
structure OptionServer where
  table : OptionTable
  options : Options

/-- The JSON fields of `model.Option`, as key and value. -/
def optionFields : List (Json.Field (String × String)) :=
  [ Json.stringField "key" fun key option => (key, option.2),
    Json.stringField "value" fun value option => (option.1, value) ]

/-- The check of `UpdateOption`. -/
def refuseOption (settings : Settings) (key value : String) : Option String :=
  if key = "GitHubOAuthEnabled" then
    if value = "true" ∧ settings.gitHubClientId = "" then
      some "无法启用 GitHub OAuth，请先填入 GitHub Client ID 以及 GitHub Client Secret！"
    else none
  else if key = "WeChatAuthEnabled" then
    if value = "true" ∧ settings.weChatServerAddress = "" then
      some "无法启用微信登录，请先填入微信登录相关配置信息！"
    else none
  else if key = "TurnstileCheckEnabled" then
    if value = "true" ∧ settings.turnstileSiteKey = "" then
      some "无法启用 Turnstile 校验，请先填入 Turnstile 校验相关配置信息！"
    else none
  else none

/-- `model.UpdateOption`: the table first, then the memory. -/
def OptionServer.update (server : OptionServer) (key value : String) : OptionServer where
  table := server.table.written key value
  options := updateOptionMap server.options key value

/-- `UpdateOption`. -/
def updateOption (server : OptionServer) (body : Option Json) : OptionServer × Reply Unit :=
  match Json.decodeInto optionFields body ("", "") with
  | none => (server, { httpStatus := 400, message := "无效的参数" })
  | some (key, value) =>
      match refuseOption server.options.settings key value with
      | some text => (server, { message := text })
      | none => (server.update key value, { success := true })

/-- The check refuses exactly the switching on of a feature without its setting. -/
theorem refuseOption_none_iff {settings : Settings} {key value : String} :
    refuseOption settings key value = none ↔
      ∀ feature : Feature, key = feature.flag → value = "true" → feature.setting settings ≠ "" := by
  constructor
  · rintro passed feature rfl rfl
    cases feature <;> simpa [refuseOption, Feature.flag, Feature.setting] using passed
  · intro each
    have gitHub := each .gitHub
    have weChat := each .weChat
    have turnstile := each .turnstile
    simp only [Feature.flag, Feature.setting] at gitHub weChat turnstile
    unfold refuseOption
    split_ifs with first bad second bad third bad
    · exact absurd bad.2 (gitHub first bad.1)
    · rfl
    · exact absurd bad.2 (weChat second bad.1)
    · rfl
    · exact absurd bad.2 (turnstile third bad.1)
    · rfl
    · rfl

/-! ### Runs -/

/-- Requests to the handler, and restarts, which read the rows in any order. -/
inductive OptionEvent where
  | update (body : Option Json)
  | restart (rows : OptionRows)

/-- A request, or a restart that reads the rows of the table in any order. -/
inductive OptionServerStep (server : OptionServer) : OptionEvent → OptionServer → Prop where
  | update {body} : OptionServerStep server (.update body) (updateOption server body).1
  | restart {rows} (listed : rows.Perm server.table.rows) :
      OptionServerStep server (.restart rows) { server with options := initOptionMap {} rows }

/-- Enabled features have their settings, in memory and after a restart. -/
structure Configured (server : OptionServer) : Prop where
  memory : ∀ feature : Feature, feature.Sound server.options.settings
  restarted : ∀ (feature : Feature) (rows : OptionRows), rows.Perm server.table.rows →
    feature.Sound (initOptionMap {} rows).settings

/-- The settings that a restart would read. -/
def OptionServer.stored (server : OptionServer) : Settings :=
  (initOptionMap {} server.table.rows).settings

/-- The update leaves the features that are on their settings, in memory and in the table. An
update without a key writes the row with the least key. -/
structure Leaves (server : OptionServer) (key value : String) : Prop where
  emptied : ∀ feature : Feature, key = feature.key → value = "" →
    feature.enabled server.options.settings = false
  cleared : ∀ feature : Feature, server.table.named key = feature.key → value = "" →
    feature.enabled server.stored = false
  switched : ∀ feature : Feature, server.table.named key = feature.flag → value = "true" →
    feature.setting server.stored ≠ ""

/-- Every update that passes the check leaves the settings. -/
def Permitted (server : OptionServer) : OptionEvent → Prop
  | .update body => ∀ key value, Json.decodeInto optionFields body ("", "") = some (key, value) →
      refuseOption server.options.settings key value = none → Leaves server key value
  | .restart _ => True

/-- A server whose options are in order, and any run from it. -/
def optionServers : System OptionServer OptionEvent where
  Initial := Configured
  Step := OptionServerStep

/-- The server is configured when every feature is sound, in memory and in the table. -/
theorem configured_iff (server : OptionServer) :
    Configured server ↔ ∀ feature : Feature,
      feature.Sound server.options.settings ∧ feature.Sound server.stored := by
  constructor
  · exact fun configured feature =>
      ⟨configured.memory feature, configured.restarted feature _ (.refl _)⟩
  · refine fun each => ⟨fun feature => (each feature).1, fun feature rows listed => ?_⟩
    rw [initOptionMap_perm server.table.unique listed]
    exact (each feature).2

/-- An update that passes the check keeps the features configured exactly when it leaves them their
settings. -/
theorem Configured.update_iff {server : OptionServer} (configured : Configured server)
    {key value : String} (passed : refuseOption server.options.settings key value = none) :
    Configured (server.update key value) ↔ Leaves server key value := by
  have each := (configured_iff server).mp configured
  obtain ⟨text, same, restart⟩ := initOptionMap_written server.table key value
  have stored : (server.update key value).stored =
      (updateOptionMap (initOptionMap {} server.table.rows) (server.table.named key)
        text).settings :=
    congrArg Options.settings restart
  have memory : ∀ feature : Feature, feature.Sound (server.update key value).options.settings ↔
      (key = feature.key → value = "" → feature.enabled server.options.settings = false) := by
    intro feature
    refine (Feature.sound_update_iff (each feature).1).trans (and_iff_left ?_)
    exact fun flag on => refuseOption_none_iff.mp passed feature flag on
  have table : ∀ feature : Feature, feature.Sound (server.update key value).stored ↔
      (server.table.named key = feature.key → value = "" → feature.enabled server.stored = false) ∧
        (server.table.named key = feature.flag → value = "true" →
          feature.setting server.stored ≠ "") := by
    intro feature
    rw [stored, Feature.sound_update_iff (each feature).2]
    constructor
    · refine fun both => ⟨fun named => ?_, fun named => ?_⟩
      · exact same (named ▸ feature.named_ne_empty.2) ▸ both.1 named
      · exact same (named ▸ feature.named_ne_empty.1) ▸ both.2 named
    · refine fun both => ⟨fun named => ?_, fun named => ?_⟩
      · exact same (named ▸ feature.named_ne_empty.2) ▸ both.1 named
      · exact same (named ▸ feature.named_ne_empty.1) ▸ both.2 named
  rw [configured_iff]
  constructor
  · exact fun after => ⟨fun feature => (memory feature).mp (after feature).1,
      fun feature => ((table feature).mp (after feature).2).1,
      fun feature => ((table feature).mp (after feature).2).2⟩
  · exact fun leaves feature => ⟨(memory feature).mpr (leaves.emptied feature),
      (table feature).mpr ⟨leaves.cleared feature, leaves.switched feature⟩⟩

/-- A step keeps the server configured exactly when it is permitted. -/
theorem Configured.step_iff {server next : OptionServer} {event : OptionEvent}
    (configured : Configured server) (step : optionServers.Step server event next) :
    Configured next ↔ Permitted server event := by
  cases step with
  | @update body =>
      unfold updateOption
      cases decoded : Json.decodeInto optionFields body ("", "") with
      | none =>
          refine iff_of_true configured fun key value found => ?_
          rw [decoded] at found
          cases found
      | some option =>
          obtain ⟨key, value⟩ := option
          dsimp only
          cases passed : refuseOption server.options.settings key value with
          | some text =>
              refine iff_of_true configured fun other text found allowed => ?_
              rw [decoded] at found
              cases found
              rw [passed] at allowed
              cases allowed
          | none =>
              refine (configured.update_iff passed).trans ⟨fun leaves other text found _ => ?_, ?_⟩
              · rw [decoded] at found
                cases found
                exact leaves
              · exact fun all => all key value decoded passed
  | @restart rows listed =>
      refine iff_of_true ⟨fun feature => configured.restarted feature rows listed, ?_⟩ trivial
      exact configured.restarted

/-- In every run whose updates all leave the settings, enabled features stay configured; and a
step that does not meet the condition ends that. -/
theorem updates_keep_configured {server : OptionServer}
    (reachable : (optionServers.guard Permitted).Reachable server) :
    Configured server ∧ ∀ event next, optionServers.Step server event next →
      (Configured next ↔ Permitted server event) := by
  have configured : Configured server :=
    reachable.invariant (fun initial => initial)
      fun configured step => (configured.step_iff step.2).mpr step.1
  exact ⟨configured, fun event next step => configured.step_iff step⟩

/-! ### An update that is not checked -/

/-- The body that names one option. -/
def optionBody (key value : String) : Option Json :=
  some (.object [("key", .string key), ("value", .string value)])

/-- A body is read as its key and value. -/
theorem decodeInto_optionBody (key value : String) :
    Json.decodeInto optionFields (optionBody key value) ("", "") = some (key, value) := by
  simp [optionBody, optionFields, Json.decodeInto, Json.decodeMember, Json.fieldFor,
    Json.stringField]

/-- A server that has started from these rows. -/
def OptionServer.started (table : OptionTable) : OptionServer where
  table
  options := initOptionMap {} table.rows

/-- GitHub is on, with a client id. -/
def gitHubServer : OptionServer :=
  .started
    { rows := [("GitHubClientId", "x"), ("GitHubOAuthEnabled", "true")]
      unique := by decide }

/-- GitHub is enabled, with its client. -/
theorem gitHubServer_configured : Configured gitHubServer := by
  rw [configured_iff]
  intro feature
  have sound : feature.Sound gitHubServer.stored := by
    show feature.Sound (updateOptionMap (updateOptionMap (Options.withDefaults {})
      "GitHubClientId" "x") "GitHubOAuthEnabled" "true").settings
    unfold Feature.Sound
    rw [Feature.enabled_update, Feature.setting_update, Feature.enabled_update,
      Feature.setting_update]
    cases feature <;> simp [Feature.flag, Feature.key, Feature.enabled, Feature.setting,
      Options.withDefaults]
  exact ⟨sound, sound⟩

/-- The client id of an enabled login is emptied, as only the switch is checked. -/
theorem clientId_is_emptied :
    ¬ ∀ (server : OptionServer), optionServers.Reachable server → Configured server := by
  intro each
  have started : optionServers.Reachable gitHubServer := .initial gitHubServer_configured
  have event : optionServers.Step gitHubServer (.update (optionBody "GitHubClientId" ""))
      (updateOption gitHubServer (optionBody "GitHubClientId" "")).1 := .update
  have permitted := (gitHubServer_configured.step_iff event).mp (each _ (started.step event))
  have passed : refuseOption gitHubServer.options.settings "GitHubClientId" "" = none := by
    simp [refuseOption]
  have leaves := permitted _ _ (decodeInto_optionBody _ _) passed
  have off := leaves.emptied .gitHub rfl rfl
  revert off
  show (updateOptionMap (updateOptionMap (Options.withDefaults {}) "GitHubClientId" "x")
    "GitHubOAuthEnabled" "true").settings.gitHubOAuthEnabled ≠ false
  have on := Feature.enabled_update .gitHub
    (updateOptionMap (Options.withDefaults {}) "GitHubClientId" "x") "GitHubOAuthEnabled" "true"
  simp only [Feature.flag, Feature.enabled, if_true, decide_true] at on
  rw [on]
  decide

/-- A client id that is exchanged for another. -/
theorem updates_keep_configured_exchanged :
    Configured (gitHubServer.update "GitHubClientId" "y") := by
  have passed : refuseOption gitHubServer.options.settings "GitHubClientId" "y" = none := by
    simp [refuseOption]
  have exchanged : (updateOption gitHubServer (optionBody "GitHubClientId" "y")).1 =
      gitHubServer.update "GitHubClientId" "y" := by
    rw [updateOption, decodeInto_optionBody]
    simp only [passed]
  have event : optionServers.Step gitHubServer (.update (optionBody "GitHubClientId" "y"))
      (gitHubServer.update "GitHubClientId" "y") := exchanged ▸ .update
  have permitted : Permitted gitHubServer (.update (optionBody "GitHubClientId" "y")) := by
    intro key value decoded _
    rw [decodeInto_optionBody] at decoded
    cases decoded
    refine ⟨fun _ _ empty => absurd empty (by decide), fun _ _ empty => absurd empty (by decide),
      fun _ _ on => absurd on (by decide)⟩
  have started : (optionServers.guard Permitted).Reachable gitHubServer :=
    .initial gitHubServer_configured
  exact (updates_keep_configured (started.step ⟨permitted, event⟩)).1

end MessagePusher.Controller
