import MessagePusher.Common.Constants
import MessagePusher.Store.Assignments
import Mathlib.Logic.Function.Basic

/-!
# Options

`model/option.go`: the option map, the settings that go with it, and the table `options`.
`Notice` and `About` have no variable and are in the map alone.
-/

namespace MessagePusher.Model

open Common

/-- `OptionMap` and the variables of the package `common`. -/
structure Options where
  optionMap : String → Option String := fun _ => none
  settings : Settings := {}

/-- What `InitOptionMap` puts into the map before it reads the table. The numbers are the
texts of `RoleGuestUser` and of the SMTP port. -/
def defaultOptionMap : List (String × String) :=
  [ ("FileUploadPermission", "0"), ("FileDownloadPermission", "0"), ("ImageUploadPermission", "0"),
    ("ImageDownloadPermission", "0"), ("PasswordLoginEnabled", "true"),
    ("PasswordRegisterEnabled", "true"), ("EmailVerificationEnabled", "false"),
    ("GitHubOAuthEnabled", "false"), ("WeChatAuthEnabled", "false"),
    ("TurnstileCheckEnabled", "false"), ("RegisterEnabled", "true"),
    ("MessagePersistenceEnabled", "true"), ("MessageRenderEnabled", "true"), ("SMTPServer", ""),
    ("SMTPAccount", ""), ("SMTPPort", "587"), ("SMTPToken", ""), ("Notice", ""), ("About", ""),
    ("Footer", ""), ("HomePageLink", ""), ("ServerAddress", ""), ("GitHubClientId", ""),
    ("GitHubClientSecret", ""), ("WeChatServerAddress", ""), ("WeChatServerToken", ""),
    ("WeChatAccountQRCodeImageURL", ""), ("TurnstileSiteKey", ""), ("TurnstileSecretKey", "") ]

/-- The options when `InitOptionMap` begins to read the table. -/
def Options.withDefaults (options : Options) : Options :=
  { options with optionMap := fun key => defaultOptionMap.lookup key }

/-- `strings.HasSuffix`. -/
def hasSuffix (text suffix : String) : Bool :=
  suffix.toList.isSuffixOf text.toList

/-- The variable of a permission. What is not a number counts as 0. -/
def updatePermission (settings : Settings) (key value : String) : Settings :=
  if hasSuffix key "Permission" then
    let intValue := (Text.parseInt value).1
    if key = "FileUploadPermission" then { settings with fileUploadPermission := intValue }
    else if key = "FileDownloadPermission" then { settings with fileDownloadPermission := intValue }
    else if key = "ImageUploadPermission" then { settings with imageUploadPermission := intValue }
    else if key = "ImageDownloadPermission" then { settings with imageDownloadPermission := intValue }
    else settings
  else settings

/-- The variable of a switch. -/
def updateEnabled (settings : Settings) (key value : String) : Settings :=
  if hasSuffix key "Enabled" then
    let boolValue := decide (value = "true")
    if key = "PasswordRegisterEnabled" then { settings with passwordRegisterEnabled := boolValue }
    else if key = "PasswordLoginEnabled" then { settings with passwordLoginEnabled := boolValue }
    else if key = "EmailVerificationEnabled" then { settings with emailVerificationEnabled := boolValue }
    else if key = "GitHubOAuthEnabled" then { settings with gitHubOAuthEnabled := boolValue }
    else if key = "WeChatAuthEnabled" then { settings with weChatAuthEnabled := boolValue }
    else if key = "TurnstileCheckEnabled" then { settings with turnstileCheckEnabled := boolValue }
    else if key = "RegisterEnabled" then { settings with registerEnabled := boolValue }
    else if key = "MessagePersistenceEnabled" then { settings with messagePersistenceEnabled := boolValue }
    else if key = "MessageRenderEnabled" then { settings with messageRenderEnabled := boolValue }
    else settings
  else settings

/-- The other variables. -/
def updateVariable (settings : Settings) (key value : String) : Settings :=
  if key = "SMTPServer" then { settings with smtpServer := value }
  else if key = "SMTPPort" then { settings with smtpPort := (Text.parseInt value).1 }
  else if key = "SMTPAccount" then { settings with smtpAccount := value }
  else if key = "SMTPToken" then { settings with smtpToken := value }
  else if key = "ServerAddress" then { settings with serverAddress := value }
  else if key = "GitHubClientId" then { settings with gitHubClientId := value }
  else if key = "GitHubClientSecret" then { settings with gitHubClientSecret := value }
  else if key = "Footer" then { settings with footer := value }
  else if key = "HomePageLink" then { settings with homePageLink := value }
  else if key = "WeChatServerAddress" then { settings with weChatServerAddress := value }
  else if key = "WeChatServerToken" then { settings with weChatServerToken := value }
  else if key = "WeChatAccountQRCodeImageURL" then
    { settings with weChatAccountQRCodeImageURL := value }
  else if key = "TurnstileSiteKey" then { settings with turnstileSiteKey := value }
  else if key = "TurnstileSecretKey" then { settings with turnstileSecretKey := value }
  else settings

/-- `updateOptionMap`. -/
def updateOptionMap (options : Options) (key value : String) : Options where
  optionMap := Function.update options.optionMap key (some value)
  settings :=
    updateVariable (updateEnabled (updatePermission options.settings key value) key value) key value

/-! ### One variable for each key -/

theorem updatePermission_eq (settings : Settings) (key value : String) :
    updatePermission settings key value =
      { settings with
        fileUploadPermission :=
          if key = "FileUploadPermission" then (Text.parseInt value).1 else settings.fileUploadPermission
        fileDownloadPermission :=
          if key = "FileDownloadPermission" then (Text.parseInt value).1
          else settings.fileDownloadPermission
        imageUploadPermission :=
          if key = "ImageUploadPermission" then (Text.parseInt value).1
          else settings.imageUploadPermission
        imageDownloadPermission :=
          if key = "ImageDownloadPermission" then (Text.parseInt value).1
          else settings.imageDownloadPermission } := by
  by_cases known : key ∈ ["FileUploadPermission", "FileDownloadPermission",
      "ImageUploadPermission", "ImageDownloadPermission"]
  · simp only [List.mem_cons, List.not_mem_nil, or_false] at known
    rcases known with rfl | rfl | rfl | rfl
    all_goals rfl
  · simp only [List.mem_cons, List.not_mem_nil, or_false, not_or] at known
    simp only [updatePermission, known, if_false, ite_self]

theorem updateEnabled_eq (settings : Settings) (key value : String) :
    updateEnabled settings key value =
      { settings with
        passwordRegisterEnabled :=
          if key = "PasswordRegisterEnabled" then decide (value = "true")
          else settings.passwordRegisterEnabled
        passwordLoginEnabled :=
          if key = "PasswordLoginEnabled" then decide (value = "true")
          else settings.passwordLoginEnabled
        emailVerificationEnabled :=
          if key = "EmailVerificationEnabled" then decide (value = "true")
          else settings.emailVerificationEnabled
        gitHubOAuthEnabled :=
          if key = "GitHubOAuthEnabled" then decide (value = "true")
          else settings.gitHubOAuthEnabled
        weChatAuthEnabled :=
          if key = "WeChatAuthEnabled" then decide (value = "true")
          else settings.weChatAuthEnabled
        turnstileCheckEnabled :=
          if key = "TurnstileCheckEnabled" then decide (value = "true")
          else settings.turnstileCheckEnabled
        registerEnabled :=
          if key = "RegisterEnabled" then decide (value = "true") else settings.registerEnabled
        messagePersistenceEnabled :=
          if key = "MessagePersistenceEnabled" then decide (value = "true")
          else settings.messagePersistenceEnabled
        messageRenderEnabled :=
          if key = "MessageRenderEnabled" then decide (value = "true")
          else settings.messageRenderEnabled } := by
  by_cases known : key ∈ ["PasswordRegisterEnabled", "PasswordLoginEnabled",
      "EmailVerificationEnabled", "GitHubOAuthEnabled", "WeChatAuthEnabled",
      "TurnstileCheckEnabled", "RegisterEnabled", "MessagePersistenceEnabled",
      "MessageRenderEnabled"]
  · simp only [List.mem_cons, List.not_mem_nil, or_false] at known
    rcases known with rfl | rfl | rfl | rfl | rfl | rfl | rfl | rfl | rfl
    all_goals rfl
  · simp only [List.mem_cons, List.not_mem_nil, or_false, not_or] at known
    simp only [updateEnabled, known, if_false, ite_self]

theorem updateVariable_eq (settings : Settings) (key value : String) :
    updateVariable settings key value =
      { settings with
        smtpServer := if key = "SMTPServer" then value else settings.smtpServer
        smtpPort := if key = "SMTPPort" then (Text.parseInt value).1 else settings.smtpPort
        smtpAccount := if key = "SMTPAccount" then value else settings.smtpAccount
        smtpToken := if key = "SMTPToken" then value else settings.smtpToken
        serverAddress := if key = "ServerAddress" then value else settings.serverAddress
        gitHubClientId := if key = "GitHubClientId" then value else settings.gitHubClientId
        gitHubClientSecret :=
          if key = "GitHubClientSecret" then value else settings.gitHubClientSecret
        footer := if key = "Footer" then value else settings.footer
        homePageLink := if key = "HomePageLink" then value else settings.homePageLink
        weChatServerAddress :=
          if key = "WeChatServerAddress" then value else settings.weChatServerAddress
        weChatServerToken := if key = "WeChatServerToken" then value else settings.weChatServerToken
        weChatAccountQRCodeImageURL :=
          if key = "WeChatAccountQRCodeImageURL" then value
          else settings.weChatAccountQRCodeImageURL
        turnstileSiteKey := if key = "TurnstileSiteKey" then value else settings.turnstileSiteKey
        turnstileSecretKey :=
          if key = "TurnstileSecretKey" then value else settings.turnstileSecretKey } := by
  by_cases known : key ∈ ["SMTPServer", "SMTPPort", "SMTPAccount", "SMTPToken", "ServerAddress",
      "GitHubClientId", "GitHubClientSecret", "Footer", "HomePageLink", "WeChatServerAddress",
      "WeChatServerToken", "WeChatAccountQRCodeImageURL", "TurnstileSiteKey", "TurnstileSecretKey"]
  · simp only [List.mem_cons, List.not_mem_nil, or_false] at known
    rcases known with rfl | rfl | rfl | rfl | rfl | rfl | rfl | rfl | rfl | rfl | rfl | rfl | rfl | rfl
    all_goals rfl
  · simp only [List.mem_cons, List.not_mem_nil, or_false, not_or] at known
    simp only [updateVariable, known, if_false]

/-- An option that is set twice has its last value. -/
theorem update_overwrites {α : Type} (named : Prop) [Decidable named] (later earlier before : α) :
    (if named then later else if named then earlier else before) =
      if named then later else before := by
  split_ifs <;> rfl

theorem update_commutes {α : Type} {first second : String} (apart : first ≠ second)
    (name : String) (left right before : α) :
    (if second = name then right else if first = name then left else before) =
      if first = name then left else if second = name then right else before := by
  apply ite_ite_comm
  intro named other
  exact apart (other.trans named.symm)

/-- No two keys share an entry of the map or a variable. -/
theorem updateOptionMap_independent : Store.Independent updateOptionMap where
  overwrites options key earlier later := by
    simp only [updateOptionMap, updateVariable_eq, updateEnabled_eq, updatePermission_eq,
      update_overwrites, Function.update_idem]
  commutes options first second value other apart := by
    simp only [updateOptionMap, updateVariable_eq, updateEnabled_eq, updatePermission_eq,
      update_commutes apart, Function.update_comm apart.symm]

/-! ### The table -/

/-- The rows of the table `options`, keys and values. -/
abbrev OptionRows := List (String × String)

/-- The options after the loop of `InitOptionMap` over these rows. -/
def loadOptions (options : Options) (rows : OptionRows) : Options :=
  rows.foldl (fun options row => updateOptionMap options row.1 row.2) options

/-- `InitOptionMap`. -/
def initOptionMap (options : Options) (rows : OptionRows) : Options :=
  loadOptions options.withDefaults rows

/-- A key without a row has the entry that it had before. -/
theorem loadOptions_absent {rows : OptionRows} {key : String}
    (absent : ∀ row ∈ rows, row.1 ≠ key) (options : Options) :
    (loadOptions options rows).optionMap key = options.optionMap key := by
  induction rows generalizing options with
  | nil => rfl
  | cons row rest ih =>
      have apart : key ≠ row.1 := (absent row (List.mem_cons_self ..)).symm
      have later : ∀ other ∈ rest, other.1 ≠ key :=
        fun other listed => absent other (List.mem_cons_of_mem _ listed)
      show (loadOptions (updateOptionMap options row.1 row.2) rest).optionMap key = _
      rw [ih later]
      exact Function.update_of_ne apart ..

/-- The table `options`; its primary key is the key. -/
structure OptionTable where
  rows : OptionRows
  unique : (rows.map Prod.fst).Nodup

namespace OptionTable

variable (table : OptionTable)

def keys : List String := table.rows.map Prod.fst

/-- `Create`. -/
def create (key value : String) : Option OptionTable :=
  if absent : key ∉ table.keys then
    some
      { rows := table.rows ++ [(key, value)]
        unique := by
          rw [List.map_append]
          exact List.nodup_append.mpr ⟨table.unique, by simp, by
            rintro _ listed _ (_ | _) rfl
            · exact absent listed
            · contradiction⟩ }
  else none

/-- A row after the update of `Save`. -/
def setRow (key value : String) (row : String × String) : String × String :=
  if row.1 = key then (key, value) else row

theorem fst_setRow (key value : String) : Prod.fst ∘ setRow key value = Prod.fst := by
  funext row
  by_cases named : row.1 = key <;> simp [setRow, named]

/-- The update of `Save`. -/
def set (key value : String) : OptionTable where
  rows := table.rows.map (setRow key value)
  unique := by
    rw [List.map_map, fst_setRow]
    exact table.unique

/-- The query of `FirstOrCreate`. An empty key is no condition, and then the row with the
least key is the first. -/
def first (key : String) : Option (String × String) :=
  if key = "" then
    table.rows.find? fun row => table.rows.all fun other => decide ¬ other.1 < row.1
  else table.rows.find? fun row => row.1 = key

/-- `FirstOrCreate`: the table, and the key of the option that it found or made. -/
def firstOrCreate (key : String) : Option (OptionTable × String) :=
  match table.first key with
  | some row => some (table, row.1)
  | none => (table.create key "").map fun created => (created, key)

/-- `Save`. Without a primary key it creates a row. -/
def save (key value : String) : Option OptionTable :=
  if key = "" then table.create key value
  else if key ∈ table.keys then some (table.set key value)
  else table.create key value

/-- What `UpdateOption` does to the table; `none` if an operation fails. -/
def updateOption (key value : String) : Option OptionTable :=
  (table.firstOrCreate key).bind fun found => found.1.save found.2 value

variable {table next : OptionTable} {key value : String}

theorem create_rows (created : table.create key value = some next) :
    next.rows = table.rows ++ [(key, value)] ∧ key ∉ table.keys := by
  unfold create at created
  split_ifs at created with absent
  obtain rfl := Option.some.inj created
  exact ⟨rfl, absent⟩

theorem mem_set {row : String × String} (listed : row ∈ (table.set key value).rows) :
    row = (key, value) ∨ row ∈ table.rows ∧ row.1 ≠ key := by
  obtain ⟨old, there, rfl⟩ := List.mem_map.mp listed
  by_cases named : old.1 = key
  · exact .inl (if_pos named)
  · rw [setRow, if_neg named]
    exact .inr ⟨there, named⟩

theorem keys_set (table : OptionTable) (key value : String) :
    (table.set key value).keys = table.keys := by
  rw [keys, set, List.map_map, fst_setRow]
  rfl

/-- `FirstOrCreate` with a key leaves a row of that key, and nothing else is new. -/
theorem firstOrCreate_spec {found : String} (named : key ≠ "")
    (done : table.firstOrCreate key = some (next, found)) :
    found = key ∧ key ∈ next.keys ∧ (∀ row ∈ next.rows, row.1 ≠ key → row ∈ table.rows) ∧
      ∀ other ∈ table.keys, other ∈ next.keys := by
  unfold firstOrCreate first at done
  rw [if_neg named] at done
  cases queried : table.rows.find? fun row => row.1 = key with
  | some row =>
      rw [queried] at done
      cases done
      have same : row.1 = key := by simpa using List.find?_some queried
      have listed : row ∈ table.rows := List.mem_of_find?_eq_some queried
      exact ⟨same, List.mem_map.mpr ⟨row, listed, same⟩, fun _ there _ => there, fun _ there => there⟩
  | none =>
      rw [queried] at done
      obtain ⟨created, made, same⟩ := Option.map_eq_some_iff.mp done
      cases same
      obtain ⟨rows, -⟩ := create_rows made
      refine ⟨rfl, ?_, ?_, ?_⟩
      · simp [keys, rows]
      · intro row there apart
        rw [rows, List.mem_append, List.mem_singleton] at there
        rcases there with old | rfl
        · exact old
        · exact absurd rfl apart
      · intro other there
        rw [keys, rows, List.map_append]
        exact List.mem_append_left _ there

/-- A write with a key replaces the row of the key and leaves the others. -/
theorem updateOption_spec (named : key ≠ "") (done : table.updateOption key value = some next) :
    (∀ row ∈ next.rows, row = (key, value) ∨ row ∈ table.rows ∧ row.1 ≠ key) ∧
      key ∈ next.keys ∧ ∀ other ∈ table.keys, other ∈ next.keys := by
  obtain ⟨⟨made, found⟩, first, saved⟩ := Option.bind_eq_some_iff.mp done
  obtain ⟨rfl, present, others, grows⟩ := firstOrCreate_spec named first
  simp only [save, if_neg named, if_pos present, Option.some.injEq] at saved
  subst saved
  rw [keys_set]
  refine ⟨fun row listed => ?_, present, grows⟩
  rcases mem_set listed with same | ⟨there, apart⟩
  · exact .inl same
  · exact .inr ⟨others row there apart, apart⟩

theorem empty_lt {text : String} (filled : text ≠ "") : "" < text := by
  cases chars : text.toList with
  | nil => exact absurd (String.toList_eq_nil_iff.mp chars) filled
  | cons head tail =>
      rw [String.lt_iff, chars]
      exact List.nil_lt_cons ..

/-- There is a row with the least key. -/
theorem exists_least {rows : OptionRows} (filled : rows ≠ []) :
    ∃ row ∈ rows, ∀ other ∈ rows, ¬ other.1 < row.1 := by
  induction rows with
  | nil => exact absurd rfl filled
  | cons head tail ih =>
      by_cases last : tail = []
      · subst last
        refine ⟨head, List.mem_singleton_self _, fun other listed => ?_⟩
        rw [List.mem_singleton.mp listed]
        exact String.lt_irrefl _
      · obtain ⟨least, listed, below⟩ := ih last
        by_cases smaller : head.1 < least.1
        · refine ⟨head, List.mem_cons_self .., fun other there => ?_⟩
          rcases List.mem_cons.mp there with rfl | there
          · exact String.lt_irrefl _
          · exact fun lower => below other there (String.lt_trans lower smaller)
        · refine ⟨least, List.mem_cons_of_mem _ listed, fun other there => ?_⟩
          rcases List.mem_cons.mp there with rfl | there
          · exact smaller
          · exact below other there

/-- Without a key there is a first row, unless there is none at all. -/
theorem first_blank_eq_none_iff : table.first "" = none ↔ table.rows = [] := by
  constructor
  · intro missing
    by_contra filled
    obtain ⟨row, listed, least⟩ := exists_least filled
    have refused := List.find?_eq_none.mp missing row listed
    simp only [List.all_eq_true, decide_eq_true_eq] at refused
    exact refused least
  · intro nothing
    rw [first, if_pos rfl, nothing]
    rfl

/-- Without a key the first row is taken, and one without a key would come first. -/
theorem firstOrCreate_blank {found : String} (done : table.firstOrCreate "" = some (next, found)) :
    found ∈ next.keys ∧ (found ≠ "" → "" ∉ next.keys) := by
  unfold firstOrCreate at done
  cases queried : table.first "" with
  | some row =>
      rw [queried] at done
      cases done
      refine ⟨List.mem_map.mpr ⟨row, List.mem_of_find?_eq_some queried, rfl⟩, ?_⟩
      intro filled blank
      obtain ⟨other, listed, unnamed⟩ := List.mem_map.mp blank
      have least := List.find?_some queried
      simp only [List.all_eq_true, decide_eq_true_eq] at least
      exact least other listed (unnamed ▸ empty_lt filled)
  | none =>
      rw [queried] at done
      obtain ⟨created, creates, same⟩ := Option.map_eq_some_iff.mp done
      cases same
      exact ⟨by simp [keys, (create_rows creates).1], fun filled => absurd rfl filled⟩

/-- A write without a key that succeeds is one to a row that has a key. -/
theorem updateOption_blank (done : table.updateOption "" value = some next) :
    "" ∉ next.keys := by
  obtain ⟨⟨made, found⟩, first, saved⟩ := Option.bind_eq_some_iff.mp done
  obtain ⟨present, least⟩ := firstOrCreate_blank first
  by_cases blank : found = ""
  · subst blank
    exact absurd present (create_rows saved).2
  · simp only [save, if_neg blank, if_pos present, Option.some.injEq] at saved
    subst saved
    rw [keys_set]
    exact least blank

end OptionTable

end MessagePusher.Model
