import MessagePusher.Common.Json
import MessagePusher.Common.Constants
import MessagePusher.Common.Sql
import MessagePusher.Model.Message

/-!
# Webhooks

The struct of `model/webhook.go` is also its row; links are unique.
-/

namespace MessagePusher.Model

open Common Store

/-- The Go struct `Webhook`. -/
structure Webhook where
  id : Int := 0
  userId : Int := 0
  name : String := ""
  status : Int := 0
  link : String := ""
  createdTime : Int := 0
  extractRule : String := ""
  constructRule : String := ""
  channel : String := ""
  preScriptEnabled : Bool := false
  preScript : String := ""
deriving DecidableEq

instance : Record Webhook where
  id := Webhook.id
  withId key row := { row with id := key }
  clash left right := left.link = right.link
  id_withId _ _ := rfl
  withId_id _ := rfl
  clash_comm left right := by simp only [eq_comm]

@[simp] theorem Webhook.record_id (webhook : Webhook) : Record.id webhook = webhook.id := rfl

@[simp] theorem Webhook.record_withId (key : Int) (webhook : Webhook) :
    Record.withId key webhook = { webhook with id := key } := rfl

abbrev Webhooks := Table Webhook

/-- The JSON names of the fields of `Webhook`. -/
def Webhook.jsonFields : List (Json.Field Webhook) :=
  [ Json.intField "id" fun value webhook => { webhook with id := value },
    Json.intField "user_id" fun value webhook => { webhook with userId := value },
    Json.stringField "name" fun value webhook => { webhook with name := value },
    Json.intField "status" fun value webhook => { webhook with status := value },
    Json.stringField "link" fun value webhook => { webhook with link := value },
    Json.intField "created_time" fun value webhook => { webhook with createdTime := value },
    Json.stringField "extract_rule" fun value webhook => { webhook with extractRule := value },
    Json.stringField "construct_rule" fun value webhook => { webhook with constructRule := value },
    Json.stringField "channel" fun value webhook => { webhook with channel := value },
    Json.boolField "pre_script_enabled" fun value webhook =>
      { webhook with preScriptEnabled := value },
    Json.stringField "pre_script" fun value webhook => { webhook with preScript := value } ]

def getWebhookById (webhooks : Webhooks) (id userId : Int) : Except String Webhook :=
  if id = 0 ∨ userId = 0 then .error "id 或 userId 为空！"
  else match webhooks.first fun row => row.id = id ∧ row.userId = userId with
    | some row => .ok row
    | none => .error recordNotFound

def getWebhookByLink (webhooks : Webhooks) (link : String) : Except String Webhook :=
  if link = "" then .error "link 为空！"
  else match webhooks.first fun row => row.link = link with
    | some row => .ok row
    | none => .error recordNotFound

def getWebhooksByUserId (webhooks : Webhooks) (userId startIdx num : Int) : List Webhook :=
  page (webhooks.select fun row => row.userId = userId).reverse startIdx num

/-- `SearchWebhooks`, in key order, as no other is asked for. -/
def searchWebhooks (dialect : Dialect) (webhooks : Webhooks) (userId : Int) (keyword : String) :
    List Webhook :=
  webhooks.select fun row => row.userId = userId ∧
    (dialect.equalsId row.id keyword ∨ row.link = keyword ∨
      dialect.like row.name (keyword ++ "%"))

/-- `Create` writes the declared default of the status. -/
def Webhook.withDefaults (webhook : Webhook) : Webhook :=
  { webhook with
    status := if webhook.status = 0 then webhookStatusEnabled else webhook.status }

/-- `Webhook.Insert`, answering the stored row. -/
def Webhook.insert (webhook : Webhook) (webhooks : Webhooks) :
    Webhooks × Except String Webhook :=
  match Table.insert webhooks webhook.withDefaults with
  | some (next, stored) => (next, .ok stored)
  | none => (webhooks, .error uniqueViolation)

/-- The columns that `Webhook.Update` selects, zero values included. -/
def Webhook.applySelected (webhook row : Webhook) : Webhook :=
  { row with
    status := webhook.status
    name := webhook.name
    extractRule := webhook.extractRule
    constructRule := webhook.constructRule
    channel := webhook.channel
    preScriptEnabled := webhook.preScriptEnabled
    preScript := webhook.preScript }

/-- `Webhook.Update`. -/
def Webhook.update (webhook : Webhook) (webhooks : Webhooks) : Webhooks × Option String :=
  if webhook.id = 0 then (webhooks, some missingWhereClause)
  else match Table.update webhooks webhook.id webhook.applySelected with
    | some next => (next, none)
    | none => (webhooks, some uniqueViolation)

/-- `DeleteWebhookById`, answering the deleted row. -/
def deleteWebhookById (webhooks : Webhooks) (id userId : Int) :
    Webhooks × Except String Webhook :=
  if id = 0 ∨ userId = 0 then (webhooks, .error "id 或 userId 为空！")
  else match webhooks.first fun row => row.id = id ∧ row.userId = userId with
    | some row => (webhooks.delete row.id, .ok row)
    | none => (webhooks, .error recordNotFound)

theorem getWebhookById_id {webhooks : Webhooks} {id userId : Int} {webhook : Webhook}
    (found : getWebhookById webhooks id userId = .ok webhook) : webhook.id = id := by
  unfold getWebhookById at found
  by_cases blank : id = 0 ∨ userId = 0
  · simp [blank] at found
  · rw [if_neg blank] at found
    split at found
    · next row first =>
      have accepted := Table.first_accepts first
      simp only [decide_eq_true_eq] at accepted
      cases found
      exact accepted.1
    · cases found

/-- A webhook loaded by id is the user's row with that id. -/
theorem getWebhookById_ok {webhooks : Webhooks} {id userId : Int} {webhook : Webhook}
    (found : getWebhookById webhooks id userId = .ok webhook) :
    webhook.id ≠ 0 ∧ webhooks.rowAt webhook.id = some webhook ∧ webhook.userId = userId := by
  unfold getWebhookById at found
  by_cases blank : id = 0 ∨ userId = 0
  · simp [blank] at found
  · simp only [blank, if_false] at found
    cases first : webhooks.first fun row => row.id = id ∧ row.userId = userId with
    | none =>
        rw [first] at found
        cases found
    | some row =>
        rw [first] at found
        obtain rfl := Except.ok.inj found
        have accepted := Table.first_accepts first
        simp only [decide_eq_true_eq] at accepted
        obtain ⟨rfl, owned⟩ := accepted
        exact ⟨fun unset => blank (.inl unset), Table.rowAt_of_mem (Table.first_mem first), owned⟩

/-- An insertion writes a new row, unless an index refuses it. -/
theorem Webhook.insert_cases (webhook : Webhook) (webhooks : Webhooks) :
    (webhook.insert webhooks).1 = webhooks ∨
      ∃ stored : Webhook, stored = { webhook.withDefaults with id := stored.id } ∧
        webhooks.Rewrites (webhook.insert webhooks).1 stored.id (some stored) := by
  unfold Webhook.insert
  cases inserted : Table.insert webhooks webhook.withDefaults with
  | none => exact .inl rfl
  | some pair =>
      obtain ⟨next, stored⟩ := pair
      obtain ⟨-, same, -⟩ := Table.insert_spec inserted
      refine .inr ⟨stored, ?_, Table.rewrites_insert inserted⟩
      rw [same]
      rfl

/-- A deletion removes one row at most. -/
theorem deleteWebhookById_subset (webhooks : Webhooks) (id userId : Int) :
    ∀ row ∈ (deleteWebhookById webhooks id userId).1.rows, row ∈ webhooks.rows := by
  unfold deleteWebhookById
  split_ifs
  · exact fun row member => member
  · split
    · exact fun row member => (Table.mem_delete.mp member).1
    · exact fun row member => member

/-- An update of a row writes its selected columns; links stay, so nothing clashes. -/
theorem Webhook.update_rewrites {webhooks : Webhooks} {row oldRow : Webhook} (set : row.id ≠ 0)
    (present : webhooks.rowAt row.id = some oldRow) (selected : row.applySelected oldRow = row) :
    ∃ next, row.update webhooks = (next, none) ∧ webhooks.Rewrites next row.id (some row) := by
  have accepted : ∃ next, Table.update webhooks row.id row.applySelected = some next :=
    Table.update_isSome fun _ _ _ _ => rfl
  obtain ⟨next, updated⟩ := accepted
  have writes := Table.rewrites_update updated present
  rw [selected] at writes
  exact ⟨next, by rw [Webhook.update, if_neg set, updated], writes⟩

end MessagePusher.Model
