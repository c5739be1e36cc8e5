import MessagePusher.Model.ConstructRule

/-!
# The custom keys of a message

What `SetExtraVariables` stores is read back by `ExtraVariables`, also after the message has been
through the table and whatever is written there later.
-/

namespace MessagePusher.Model

open Common JsonText Store

variable {constructRule text : String} {extracted : List (String × String)}
  {rule : WebhookConstructRule} {members : List (String × Json)}

/-- `SetExtraVariables`; `none` is an error, which leaves the message as it was. -/
def Message.setExtraVariables (message : Message) (vars : List (String × Json)) : Option Message :=
  (extraText vars).map fun text => { message with extra := text }

/-- `ExtraVariables` with the difference between an empty map and the nil map, which is `none`. -/
def Message.extraMap (message : Message) : Option (List (String × Json)) :=
  if message.extra = "" then none
  else match decodeValue message.extra with
    | some (.object members) => some members
    | _ => none

theorem Message.extraVariables_eq (message : Message) :
    message.extraVariables = message.extraMap.getD [] := by
  rw [Message.extraVariables, Message.extraMap]
  split_ifs
  · rfl
  · rw [decodeMap]
    cases decodeValue message.extra with
    | none => rfl
    | some value => cases value <;> rfl

/-! ### What is rendered can be stored -/

theorem decoded_object (decoded : decodeMap text = some members) : Decoded (.object members) := by
  unfold decodeMap at decoded
  split at decoded
  · next whole =>
    cases decoded
    exact decoded_of_decodeValue whole
  · cases decoded
    refine ⟨?_, by decide, .object .nil (by simp)⟩
    rintro literal within
    rcases within_object.mp within with same | ⟨member, listed, -⟩
    · cases same
    · cases listed
  · cases decoded

/-- A map without some of its members is as well decoded. -/
theorem decoded_filter (decoded : Decoded (.object members)) (keep : String × Json → Bool) :
    Decoded (.object (members.filter keep)) where
  numbers := by
    intro literal within
    rcases within_object.mp within with same | ⟨member, listed, inside⟩
    · cases same
    · exact decoded.numbers literal (.member (List.mem_of_mem_filter listed) inside)
  shallow := by
    refine Nat.le_trans (depth_object_le fun member listed => ?_) decoded.shallow
    exact ⟨member, List.mem_of_mem_filter listed, Nat.le_refl _⟩
  maps := by
    refine .object ((decoded.maps members .self).filter keep) ?_
    intro member listed
    exact decoded.maps.member (List.mem_of_mem_filter listed)

/-- The custom keys of a rendered rule are a map as the decoder makes them. -/
theorem decoded_extra (rendered : renderWebhookConstructRule constructRule extracted = some rule) :
    Decoded (.object rule.extra) := by
  obtain ⟨raw, decoded, rfl⟩ := Option.map_eq_some_iff.mp rendered
  have custom := decoded_filter (decoded_object decoded) fun member => member.1 ∉ messageKeys
  have rendered := custom.mapLeaves (replaceInText (sortedWebhookVariables extracted))
  rw [mapLeaves, mapLeafMembers_eq] at rendered
  exact rendered

/-- The map as Go has it: nil when there are no custom keys. -/
def extraOf (vars : List (String × Json)) : Option (List (String × Json)) :=
  if vars = [] then none else some vars

/-- The custom keys can be stored, and are read back as they are. -/
theorem extraMap_extraText {vars : List (String × Json)} (decoded : Decoded (.object vars)) :
    ∃ text, extraText vars = some text ∧
      ∀ message : Message, message.extra = text → message.extraMap = extraOf vars := by
  by_cases empty : vars = []
  · refine ⟨"", if_pos empty, fun message stored => ?_⟩
    rw [Message.extraMap, if_pos stored, extraOf, if_pos empty]
  · obtain ⟨text, written, -, readBack⟩ := decoded.marshal
    have some_ : text ≠ "" := by
      rintro rfl
      have nothing : decodeValue "" = none := by decide
      cases nothing.symm.trans readBack
    refine ⟨text, (if_neg empty).trans written, fun message stored => ?_⟩
    rw [Message.extraMap, stored, if_neg some_, readBack, extraOf, if_neg empty]

/-! ### The table -/

/-- A write to the table `messages`. -/
inductive MessageWrite where
  | insert (message : Message) (userId now : Int) (failure : Option String)
  | updateStatus (message : Message) (status : Int) (failure : Option String)
  | delete (id userId : Int)
  | deleteAll

/-- The table after a write. -/
def MessageWrite.run (messages : Messages) : MessageWrite → Messages
  | insert message userId now failure => (message.updateAndInsert userId now failure messages).2.1
  | updateStatus message status failure => (message.updateStatus status failure messages).1
  | delete id userId => (deleteMessageById messages id userId).1
  | deleteAll => deleteAllMessages messages

/-- The write deletes the row with the key, if anything. -/
def MessageWrite.Deletes (key : Int) : MessageWrite → Prop
  | delete id _ => id = key
  | deleteAll => True
  | _ => False

variable {messages : Messages} {row : MessageRow} {key : Int}

/-- A write that does not delete a row changes nothing of it but its status. -/
theorem rowAt_run (found : messages.rowAt key = some row) (write : MessageWrite)
    (kept : ¬ write.Deletes key) :
    ∃ status, (write.run messages).rowAt key = some (row.setStatus status) := by
  have same : messages.rowAt key = some (row.setStatus row.status) := found
  cases write with
  | insert message userId now failure =>
      rw [MessageWrite.run]
      rcases message.updateAndInsert_cases userId now failure messages with
        ⟨text, failed⟩ | ⟨next, stored, inserted, done⟩
      · rw [failed]
        exact ⟨_, same⟩
      · have apart : key ≠ Record.id stored := by
          rintro rfl
          cases (Table.insert_fresh inserted).symm.trans found
        rw [done]
        dsimp only
        rw [Table.rowAt_insert inserted, if_neg apart]
        exact ⟨_, same⟩
  | updateStatus message status failure =>
      rw [MessageWrite.run]
      rcases rowAt_updateStatus message status failure messages key with unchanged | ⟨-, -, set⟩
      · rw [unchanged]
        exact ⟨_, same⟩
      · rw [set, found]
        exact ⟨status, rfl⟩
  | delete id userId =>
      rw [MessageWrite.run, deleteMessageById]
      cases loaded : getMessageByIds messages id userId with
      | error text => exact ⟨_, same⟩
      | ok message =>
          obtain ⟨other, -, sameId, -, rfl⟩ := getMessageByIds_ok loaded
          have apart : key ≠ other.id := fun equal => kept (sameId.symm.trans equal.symm)
          dsimp only
          rw [Table.rowAt_delete]
          exact ⟨_, (if_neg apart).trans same⟩
  | deleteAll => exact absurd trivial kept

/-- However often the table is written, a row that is not deleted changes only its status. -/
theorem rowAt_writes (writes : List MessageWrite) (found : messages.rowAt key = some row)
    (kept : ∀ write ∈ writes, ¬ write.Deletes key) :
    ∃ status, (writes.foldl MessageWrite.run messages).rowAt key = some (row.setStatus status) := by
  induction writes generalizing messages row with
  | nil => exact ⟨row.status, found⟩
  | cons write writes ih =>
      rw [List.forall_mem_cons] at kept
      obtain ⟨status, after⟩ := rowAt_run found write kept.1
      obtain ⟨last, final⟩ := ih after kept.2
      exact ⟨last, final⟩

theorem extra_updateAndInsert {message stored : Message} {userId now : Int}
    {failure : Option String} {next : Messages}
    (inserted : message.updateAndInsert userId now failure messages = (stored, next, none)) :
    stored.extra = message.extra := by
  rcases message.updateAndInsert_cases userId now failure messages with
    ⟨text, failed⟩ | ⟨table, row, -, done⟩
  · rw [failed] at inserted
    cases inserted
  · rw [done] at inserted
    cases inserted
    rfl

/-- A message that was stored is loaded later with the columns it was stored with. -/
theorem getMessageById_writes {message stored : Message} {userId now : Int}
    {failure : Option String} {next : Messages} (writes : List MessageWrite)
    (inserted : message.updateAndInsert userId now failure messages = (stored, next, none))
    (kept : ∀ write ∈ writes, ¬ write.Deletes stored.id) :
    ∃ status, getMessageById (writes.foldl MessageWrite.run next) stored.id =
      .ok (Message.ofRow (stored.toRow.setStatus status)) := by
  rcases message.updateAndInsert_cases userId now failure messages with
    ⟨text, failed⟩ | ⟨table, row, accepted, done⟩
  · rw [failed] at inserted
    cases inserted
  · rw [done] at inserted
    cases inserted
    obtain ⟨-, placed, -, -⟩ := Table.insert_spec accepted
    have whole : row = ({ message.stamped userId now with id := row.id } : Message).toRow := by
      rw [placed]
      rfl
    have found : next.rowAt row.id = some row :=
      (Table.rowAt_insert accepted).trans (if_pos rfl)
    obtain ⟨status, after⟩ := rowAt_writes writes found kept
    have numbered : row.id ≠ 0 := Table.insert_id_ne_zero accepted
    refine ⟨status, ?_⟩
    rw [getMessageById, if_neg numbered]
    dsimp only
    rw [after, ← whole]

end MessagePusher.Model
