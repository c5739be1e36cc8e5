import MessagePusher.Controller.PushIsolation
import MessagePusher.Web.DeletedRows

/-!
# The rows of live messages

A sequence of pushes, the events that it causes and the table of a page that gets them in order.
The table tells rows apart by the id of the message, which only a saved message gets from the
database, and which is a float to the page: `pushIds` are the ids that the requests and the counter
of the table lead to, and `NumbersApart` is the condition on them under which every push keeps a row
of its own. Among ids that a float tells apart, only unsaved messages can share one.
-/

namespace MessagePusher.Web

open Common Model Controller Semantics Float64
open Store (Table)
open Store.KeyedList (DistinctKeys upsertAll)

/-- A push request with the state of the server that it meets, its messages apart. -/
structure Push where
  env : Environment
  users : Users
  channels : Channels
  request : PushRequest

def Push.run (push : Push) (messages : Messages) : Outcome × Response :=
  pushMessage push.env push.users push.channels messages push.request

/-- What the pushes do, one after the other. -/
def pushAll : List Push → Messages → List (Outcome × Response)
  | [], _ => []
  | push :: pushes, messages => push.run messages :: pushAll pushes (push.run messages).1.messages

/-- Every push is one for the user and is accepted. -/
def AllAccepted (userId : Int) (pushes : List Push) (messages : Messages) : Prop :=
  (∀ push ∈ pushes, ∃ user,
    AuthorisedFor push.env push.users push.channels push.request user ∧ user.id = userId) ∧
      ∀ result ∈ pushAll pushes messages, result.2.success = true

/-- The events in the order of the pushes. -/
def pushEvents (pushes : List Push) (messages : Messages) : List Message :=
  (pushAll pushes messages).filterMap fun result => result.1.synced

/-- The events as the page inserts them. -/
def pushLabels (pushes : List Push) (messages : Messages) : List PageLabel :=
  (pushEvents pushes messages).map fun event => .insertNewMessage (parsed event)

/-- Every push has its event in a row of its own. -/
def EachHasItsRow (pushes : List Push) (messages : Messages) (page : Page) : Prop :=
  ((pushAll pushes messages).map fun result => result.1.synced.map parsed).Subperm
    (page.messages.map some)

/-- Whether a push is saved, and the id that its request brings along. -/
def Push.entry (push : Push) : Option (Bool × Int) :=
  match admitPush push.env push.users push.channels push.request with
  | .error _ => none
  | .ok (user, message, _) => some (decide (persists push.env user), message.id)

/-- The id of a new row, when the counter of the table is `counter`. -/
def givenId (counter id : Int) : Int := if id = 0 then counter + 1 else id

/-- Whether the pushes are saved, and the ids of their messages. -/
def pushIds : Int → List Push → List (Bool × Int)
  | _, [] => []
  | counter, push :: pushes =>
      match push.entry with
      | none => pushIds counter pushes
      | some (true, id) =>
          (true, givenId counter id) :: pushIds (max counter (givenId counter id)) pushes
      | some (false, id) => (false, id) :: pushIds counter pushes

/-- No two pushes have ids that are one number to the page. -/
def NumbersApart (ids : List (Bool × Int)) : Prop :=
  ids.Pairwise fun first second => roundInt first.2 ≠ roundInt second.2

/-- A push that is not saved shares its id with no other one. -/
def UnsavedApart (ids : List (Bool × Int)) : Prop :=
  ids.Pairwise fun first second => first.1 = true ∧ second.1 = true ∨ first.2 ≠ second.2

instance (ids : List (Bool × Int)) : Decidable (UnsavedApart ids) :=
  inferInstanceAs (Decidable (ids.Pairwise _))

instance (ids : List (Bool × Int)) : Decidable (NumbersApart ids) :=
  inferInstanceAs (Decidable (ids.Pairwise _))

variable {localeCompare : String → String → Int} {page shown : Page} {userId : Int}
  {push : Push} {pushes : List Push} {messages : Messages}

/-! ### What an accepted push does -/

/-- The rows that a table has, it still has after an accepted insertion and its status update. -/
def KeepsKeys (before after : Messages) : Prop :=
  ∀ key, (before.rowAt key).isSome → (after.rowAt key).isSome

theorem KeepsKeys.refl (messages : Messages) : KeepsKeys messages messages :=
  fun _ present => present

theorem KeepsKeys.updateStatus {before after : Messages} (keeps : KeepsKeys before after)
    (message : Message) (status : Int) (failure : Option String) :
    KeepsKeys before (message.updateStatus status failure after).1 := by
  intro key present
  have there := keeps key present
  rcases rowAt_updateStatus message status failure after key with same | ⟨-, -, written⟩
  · rw [same]
    exact there
  · rw [written, Option.isSome_map]
    exact there

theorem respond_success_iff {outcome : Outcome} :
    (respond outcome).success = true ↔ outcome.error = none := by
  unfold respond
  cases outcome.error with
  | none => exact iff_of_true rfl rfl
  | some text => exact iff_of_false Bool.false_ne_true (Option.some_ne_none text)

/-- A saved message gets a key that no row had, and its row stays. -/
theorem saveAndSendMessage_saved {env : Environment} {user : User} {message : Message}
    {channel : Model.Channel} (stored : persists env user)
    (accepted : (saveAndSendMessage env user message channel messages).error = none) :
    ∃ event, (saveAndSendMessage env user message channel messages).synced = some event ∧
      event.id = givenId messages.counter message.id ∧
      messages.rowAt event.id = none ∧
      ((saveAndSendMessage env user message channel messages).messages.rowAt event.id).isSome ∧
      KeepsKeys messages (saveAndSendMessage env user message channel messages).messages ∧
      (saveAndSendMessage env user message channel messages).messages.counter =
        max messages.counter event.id := by
  unfold saveAndSendMessage at accepted ⊢
  by_cases disabled : channel.status ≠ channelStatusEnabled
  · simp [disabled] at accepted
  rw [if_neg disabled] at accepted ⊢
  simp only [stored, if_true] at accepted ⊢
  rcases Message.updateAndInsert_cases (linkMessage env message) user.id env.now
    env.faults.insert messages with ⟨text, refused⟩ | ⟨next, row, inserted, updated⟩
  · rw [refused] at accepted
    cases accepted
  · rw [updated]
    obtain ⟨-, rfl, counter, -⟩ := Table.insert_spec inserted
    have fresh := Table.insert_fresh inserted
    have keeps : KeepsKeys messages next := by
      intro key present
      rw [Table.rowAt_insert inserted]
      split_ifs
      · rfl
      · exact present
    refine ⟨_, rfl, rfl, fresh, ?_, keeps.updateStatus _ _ _, ?_⟩
    · have there : (next.rowAt (Table.keyFor messages
          ((linkMessage env message).stamped user.id env.now).toRow)).isSome := by
        rw [Table.rowAt_insert inserted]
        simp
      exact (KeepsKeys.refl next).updateStatus _ _ _ _ there
    · exact (counter_updateStatus _ _ _ _).trans counter

/-- A message that is not saved keeps the id it came with. -/
theorem saveAndSendMessage_unsaved {env : Environment} {user : User} {message : Message}
    {channel : Model.Channel} (unsaved : ¬ persists env user)
    (accepted : (saveAndSendMessage env user message channel messages).error = none) :
    ∃ event, (saveAndSendMessage env user message channel messages).synced = some event ∧
      event.id = message.id ∧
      (saveAndSendMessage env user message channel messages).messages = messages := by
  unfold saveAndSendMessage at accepted ⊢
  by_cases disabled : channel.status ≠ channelStatusEnabled
  · simp [disabled] at accepted
  rw [if_neg disabled] at accepted ⊢
  simp only [unsaved, if_false] at accepted ⊢
  split_ifs at accepted ⊢ with async
  exact ⟨_, rfl, rfl, rfl⟩

/-- What an accepted push leaves behind: its event, and a row with a new key when it is saved. -/
structure Push.Done (push : Push) (messages : Messages) (event : Message) (saved : Bool) :
    Prop where
  synced : (push.run messages).1.synced = some event
  keeps : KeepsKeys messages (push.run messages).1.messages
  fresh : saved = true → messages.rowAt event.id = none ∧
    ((push.run messages).1.messages.rowAt event.id).isSome
  ids : ∀ rest, pushIds messages.counter (push :: rest) =
    (saved, event.id) :: pushIds (push.run messages).1.messages.counter rest

theorem Push.run_accepted
    (authorised : ∃ user,
      AuthorisedFor push.env push.users push.channels push.request user ∧ user.id = userId)
    (accepted : (push.run messages).2.success = true) :
    ∃ event saved, push.Done messages event saved := by
  obtain ⟨user, ⟨message, channel, admitted⟩, -⟩ := authorised
  have result : push.run messages =
      (saveAndSendMessage push.env user message channel messages,
        respond (saveAndSendMessage push.env user message channel messages)) := by
    unfold Push.run
    rw [pushMessage_eq, admitted]
  have entry : push.entry = some (decide (persists push.env user), message.id) := by
    unfold Push.entry
    rw [admitted]
  rw [result] at accepted
  have done := respond_success_iff.mp accepted
  by_cases stored : persists push.env user
  · obtain ⟨event, synced, given, absent, present, keeps, counter⟩ :=
      saveAndSendMessage_saved stored done
    rw [decide_eq_true stored] at entry
    refine ⟨event, true, ?_, ?_, ?_, ?_⟩
    · rw [result]
      exact synced
    · rw [result]
      exact keeps
    · rw [result]
      exact fun _ => ⟨absent, present⟩
    · intro rest
      rw [result, counter, given]
      simp only [pushIds, entry]
  · obtain ⟨event, synced, same, unchanged⟩ := saveAndSendMessage_unsaved stored done
    rw [decide_eq_false stored] at entry
    refine ⟨event, false, ?_, ?_, ?_, ?_⟩
    · rw [result]
      exact synced
    · rw [result, unchanged]
      exact KeepsKeys.refl messages
    · rintro ⟨⟩
    · intro rest
      rw [result, unchanged, same]
      simp only [pushIds, entry]

/-! ### A sequence of them -/

theorem AllAccepted.head (accepted : AllAccepted userId (push :: pushes) messages) :
    ∃ event saved, push.Done messages event saved :=
  Push.run_accepted (accepted.1 push List.mem_cons_self) (accepted.2 _ List.mem_cons_self)

theorem AllAccepted.tail (accepted : AllAccepted userId (push :: pushes) messages) :
    AllAccepted userId pushes (push.run messages).1.messages :=
  ⟨fun other member => accepted.1 other (List.mem_cons_of_mem _ member),
    fun result member => accepted.2 result (List.mem_cons_of_mem _ member)⟩

/-- Every accepted push has an event. -/
theorem AllAccepted.synced (accepted : AllAccepted userId pushes messages) :
    (pushAll pushes messages).map (fun result => result.1.synced.map parsed) =
      ((pushEvents pushes messages).map parsed).map some := by
  induction pushes generalizing messages with
  | nil => rfl
  | cons push pushes ih =>
      obtain ⟨event, saved, done⟩ := accepted.head
      unfold pushEvents at ih ⊢
      rw [pushAll, List.map_cons, ih accepted.tail, List.filterMap_cons, done.synced]
      rfl

/-- The ids of the events follow from the requests and the counter. -/
theorem AllAccepted.ids (accepted : AllAccepted userId pushes messages) :
    (pushEvents pushes messages).map Message.id =
      (pushIds messages.counter pushes).map Prod.snd := by
  induction pushes generalizing messages with
  | nil => rfl
  | cons push pushes ih =>
      obtain ⟨event, saved, done⟩ := accepted.head
      unfold pushEvents at ih ⊢
      rw [pushAll, List.filterMap_cons, done.synced, List.map_cons, ih accepted.tail, done.ids,
        List.map_cons]

/-- A saved message gets none of the keys that the table has. -/
theorem AllAccepted.fresh (accepted : AllAccepted userId pushes messages) {id : Int}
    (member : (true, id) ∈ pushIds messages.counter pushes) : messages.rowAt id = none := by
  induction pushes generalizing messages with
  | nil => cases member
  | cons push pushes ih =>
      obtain ⟨event, saved, done⟩ := accepted.head
      rw [done.ids] at member
      rcases List.mem_cons.mp member with here | later
      · obtain ⟨rfl, rfl⟩ := Prod.mk.inj here
        exact (done.fresh rfl).1
      · have absent := ih accepted.tail later
        have kept := done.keeps id
        rw [absent] at kept
        simpa using kept

/-- Two saved messages never share an id. -/
theorem AllAccepted.saved_apart (accepted : AllAccepted userId pushes messages) :
    (pushIds messages.counter pushes).Pairwise fun first second =>
      first.1 = true ∧ second.1 = true → first.2 ≠ second.2 := by
  induction pushes generalizing messages with
  | nil => exact .nil
  | cons push pushes ih =>
      obtain ⟨event, saved, done⟩ := accepted.head
      rw [done.ids]
      refine List.pairwise_cons.mpr ⟨?_, ih accepted.tail⟩
      rintro ⟨later, id⟩ member ⟨both, rfl⟩ rfl
      have present := (done.fresh both).2
      rw [accepted.tail.fresh member] at present
      cases present

/-- The page can tell the events apart exactly when their ids are different numbers to it. -/
theorem AllAccepted.distinct_iff (accepted : AllAccepted userId pushes messages) :
    DistinctKeys Message.id ((pushEvents pushes messages).map parsed) ↔
      NumbersApart (pushIds messages.counter pushes) := by
  have numbers : ((pushEvents pushes messages).map parsed).map Message.id =
      (pushIds messages.counter pushes).map fun push => roundInt push.2 := by
    calc ((pushEvents pushes messages).map parsed).map Message.id
        = ((pushEvents pushes messages).map Message.id).map roundInt := by
          rw [List.map_map, List.map_map]
          rfl
      _ = (pushIds messages.counter pushes).map fun push => roundInt push.2 := by
          rw [accepted.ids, List.map_map]
          rfl
  rw [DistinctKeys, numbers, List.Nodup, List.pairwise_map]
  rfl

/-- Where the ids are safe, saved messages are apart, so only the unsaved ones must be. -/
theorem AllAccepted.numbersApart_iff (accepted : AllAccepted userId pushes messages)
    (safe : ∀ push ∈ pushIds messages.counter pushes, Safe push.2) :
    NumbersApart (pushIds messages.counter pushes) ↔
      UnsavedApart (pushIds messages.counter pushes) := by
  have exact_ : NumbersApart (pushIds messages.counter pushes) ↔
      (pushIds messages.counter pushes).Pairwise fun first second => first.2 ≠ second.2 := by
    refine List.Pairwise.iff_of_mem fun {first second} firstMem secondMem => ?_
    rw [roundInt_safe (safe first firstMem), roundInt_safe (safe second secondMem)]
  rw [exact_]
  constructor
  · exact fun apart => apart.imp fun different => .inr different
  · intro apart
    refine (List.pairwise_and_iff.mpr ⟨apart, accepted.saved_apart⟩).imp ?_
    rintro first second ⟨both | different, savedApart⟩
    · exact savedApart both
    · exact different

/-- Where no request brings an id along, at most one push may be unsaved. -/
theorem unsavedApart_iff {counter : Int} (nonneg : 0 ≤ counter)
    (plain : ∀ push ∈ pushes, ∀ saved id, push.entry = some (saved, id) → id = 0) :
    UnsavedApart (pushIds counter pushes) ↔
      ((pushIds counter pushes).filter fun push => !push.1).length ≤ 1 := by
  have marked : ∀ entry ∈ pushIds counter pushes, entry.1 = false ↔ entry.2 = 0 := by
    induction pushes generalizing counter with
    | nil => rintro entry ⟨⟩
    | cons push pushes ih =>
        have rest : ∀ other ∈ pushes, ∀ saved id, other.entry = some (saved, id) → id = 0 :=
          fun other member => plain other (List.mem_cons_of_mem _ member)
        unfold pushIds
        split
        · exact ih nonneg rest
        · next id entry =>
          obtain rfl := plain push List.mem_cons_self true id entry
          refine List.forall_mem_cons.mpr ⟨?_, ih (Int.le_trans nonneg (Int.le_max_left _ _)) rest⟩
          simp only [givenId, if_true, Bool.true_eq_false, false_iff]
          omega
        · next id entry =>
          obtain rfl := plain push List.mem_cons_self false id entry
          exact List.forall_mem_cons.mpr ⟨iff_of_true rfl rfl, ih nonneg rest⟩
  have short : ∀ entries : List (Bool × Int),
      entries.Pairwise (fun _ _ => False) ↔ entries.length ≤ 1 := by
    rintro (_ | ⟨first, _ | ⟨second, rest⟩⟩)
    · simp
    · simp
    · exact iff_of_false (fun never => (List.pairwise_cons.mp never).1 second List.mem_cons_self)
        (by simp)
  rw [← short, List.pairwise_filter]
  refine List.Pairwise.iff_of_mem fun {first second} firstMem secondMem => ?_
  have firstZero := marked first firstMem
  have secondZero := marked second secondMem
  rcases first with ⟨_ | _, firstId⟩ <;> rcases second with ⟨_ | _, secondId⟩ <;> grind

/-! ### The page -/

/-- The page after a run of events. -/
theorem messages_of_events {labels : List PageLabel} {events : List Message}
    (runs : (messagesTable localeCompare).Runs page labels shown)
    (only : labels = events.map .insertNewMessage) :
    shown.messages = upsertAll Message.id page.messages events := by
  induction runs generalizing events with
  | refl =>
      obtain rfl : events = [] := List.map_eq_nil_iff.mp only.symm
      rfl
  | step prior transition ih =>
      obtain ⟨before, last, rfl, beforeLabels, lastLabel⟩ := List.append_eq_map_iff.mp only
      obtain ⟨event, rfl, rfl⟩ := List.map_eq_singleton_iff.mp lastLabel
      cases transition with
      | insertNewMessage =>
          show insertNewMessage event _ = upsertAll Message.id page.messages (before ++ [event])
          rw [ih beforeLabels.symm]
          unfold upsertAll
          rw [List.foldl_append]
          rfl

theorem pushLabels_eq (pushes : List Push) (messages : Messages) :
    pushLabels pushes messages =
      ((pushEvents pushes messages).map parsed).map .insertNewMessage := by
  rw [List.map_map]
  rfl

/-- Any events can reach the page. -/
theorem runs_events (page : Page) (events : List Message) :
    (messagesTable localeCompare).Runs page (events.map .insertNewMessage)
      { page with messages := upsertAll Message.id page.messages events } := by
  induction events generalizing page with
  | nil => exact .refl
  | cons event events ih =>
      exact .head .insertNewMessage
        (ih { page with messages := insertNewMessage event page.messages })

/-- No two rows of the server have ids that are one number to the page. -/
def TableApart (site : Site) (_ : SiteLabel) : Prop :=
  DistinctKeys (fun row : MessageRow => roundInt row.id) site.messages.rows

/-- Ids of rows that are apart stay so when they are parsed. -/
theorem distinct_parsed {site : Site} {label : SiteLabel} (apart : TableApart site label)
    {data : List Message} (distinct : (data.map Message.id).Nodup)
    (listed : ∀ message ∈ data, ∃ row ∈ site.messages.rows, row.id = message.id) :
    DistinctKeys Message.id (data.map parsed) := by
  have numbers : (data.map parsed).map Message.id = (data.map Message.id).map roundInt := by
    rw [List.map_map, List.map_map]
    rfl
  rw [DistinctKeys, numbers]
  refine distinct.map_on fun first firstMem second secondMem same => ?_
  obtain ⟨left, leftMem, rfl⟩ := List.mem_map.mp firstMem
  obtain ⟨right, rightMem, rfl⟩ := List.mem_map.mp secondMem
  obtain ⟨leftRow, leftKnown, leftSame⟩ := listed left leftMem
  obtain ⟨rightRow, rightKnown, rightSame⟩ := listed right rightMem
  rw [← leftSame, ← rightSame] at same ⊢
  rw [List.inj_on_of_nodup_map apart leftKnown rightKnown same]

/-- A server whose rows stay apart answers with rows whose ids do. -/
theorem answersDistinct {server : TableServer} {site next : Site} {label : PageLabel}
    (apart : TableApart site (.page label))
    (taken : SiteStep localeCompare server site (.page label) next) :
    AnswersDistinct site.page label := by
  cases taken with
  | acts own taken =>
      cases taken with
      | answerList waits => cases own
      | answerSearch waits => cases own
      | _ => trivial
  | @answerList request seq startIdx answer after waits reads taken =>
      rcases reads with rfl | rfl
      · trivial
      · refine distinct_parsed apart (getMessagesByUserId_ids_nodup _ _ _ _) fun message member => ?_
        obtain ⟨row, shown, rfl⟩ := List.mem_map.mp member
        have selected := (page_sublist _ _ _).subset shown
        exact ⟨row, (Table.mem_select.mp (List.mem_reverse.mp selected)).1, rfl⟩
  | @answerSearch request keyword answer after waits reads taken =>
      rcases reads with rfl | rfl
      · trivial
      · refine distinct_parsed apart (searchMessages_ids_nodup _ _ _) fun message member => ?_
        obtain ⟨row, shown, rfl⟩ := List.mem_map.mp member
        exact ⟨row, (Table.mem_select.mp (List.mem_reverse.mp shown)).1, rfl⟩
  | _ => trivial

/-- What a page together with its server reaches, the page reaches with such answers. -/
theorem site_page_reachable {server : TableServer} {site : Site}
    (reachable : ((messagesSite localeCompare server).guard TableApart).Reachable site) :
    ((messagesTable localeCompare).guard AnswersDistinct).Reachable site.page := by
  refine @System.Reachable.invariant _ _ _
    (fun site => ((messagesTable localeCompare).guard AnswersDistinct).Reachable site.page)
    ?_ ?_ _ reachable
  · rintro site ⟨opened, -⟩
    exact .initial opened
  · rintro site label next before ⟨apart, taken⟩
    have allowed : ∀ {page}, label = .page page → AnswersDistinct site.page page := by
      rintro page rfl
      exact answersDistinct apart taken
    cases taken with
    | acts own taken => exact before.permit taken (allowed rfl)
    | answerList waits reads taken => exact before.permit taken (allowed rfl)
    | answerSearch waits reads taken => exact before.permit taken (allowed rfl)
    | answerDelete waits deletes taken => exact before.permit taken (allowed rfl)
    | refuseDelete taken => exact before.permit taken (allowed rfl)
    | event sent taken => exact before.permit taken (allowed rfl)
    | push own fresh => exact before
    | change fresh => exact before

/-- The events of accepted pushes, in order and with nothing in between, give each push a row of
its own when their ids are different numbers to the page, and in a table of distinct rows only
then. -/
theorem each_has_its_row_iff (accepted : AllAccepted userId pushes messages)
    (runs : (messagesTable localeCompare).Runs page (pushLabels pushes messages) shown) :
    (NumbersApart (pushIds messages.counter pushes) → EachHasItsRow pushes messages shown) ∧
      (DistinctKeys Message.id page.messages →
        (EachHasItsRow pushes messages shown ↔
          NumbersApart (pushIds messages.counter pushes))) := by
  have rows := messages_of_events runs (pushLabels_eq pushes messages)
  unfold EachHasItsRow
  rw [accepted.synced, List.map_subperm_map_iff fun _ _ => Option.some.inj, rows,
    ← accepted.distinct_iff]
  exact ⟨Store.KeyedList.subperm_upsertAll, fun distinct =>
    Store.KeyedList.subperm_upsertAll_iff distinct⟩

/-! ### Two messages that are not saved -/

def liveUsers : Users where
  rows := [{ id := 1, username := "ann", role := roleCommonUser, status := userStatusEnabled }]
  counter := 1
  sorted := by decide
  unique := by decide
  counterNonneg := Int.one_nonneg
  bounded := by decide

def liveChannels : Channels where
  rows := [tableChannel]
  counter := 1
  sorted := by decide
  unique := by decide
  counterNonneg := Int.one_nonneg
  bounded := by decide

/-- `GET /push/ann?channel=n&title=…`, on a server that saves messages or not. -/
def livePush (saved : Bool) (title : String) : Push where
  env := { uuid := title, settings := { messagePersistenceEnabled := saved } }
  users := liveUsers
  channels := liveChannels
  request :=
    { isPost := false
      username := "ann"
      query := fun name => if name = "channel" then "n" else if name = "title" then title else "" }

theorem livePush_accepted (first second : Bool) :
    AllAccepted 1 [livePush first "a", livePush second "b"] Store.Table.empty := by
  refine ⟨?_, by cases first <;> cases second <;> decide⟩
  have authorised : ∀ saved title, ∃ user, AuthorisedFor (livePush saved title).env liveUsers
      liveChannels (livePush saved title).request user ∧ user.id = 1 := by
    intro saved title
    refine ⟨_, ⟨_, _, rfl⟩, rfl⟩
  intro push member
  rcases List.mem_pair.mp member with rfl | rfl
  · exact authorised first "a"
  · exact authorised second "b"

theorem livePushes_run (first second : Bool) : (messagesTable fun _ _ => 0).Runs {}
    (pushLabels [livePush first "a", livePush second "b"] Store.Table.empty)
    { messages := upsertAll Message.id []
        ((pushEvents [livePush first "a", livePush second "b"] Store.Table.empty).map parsed) } := by
  rw [pushLabels_eq]
  exact runs_events _ _

/-- A saved message and one that is not. -/
theorem each_has_its_row_iff_mixed :
    ∃ shown : Page, EachHasItsRow [livePush true "a", livePush false "b"] Store.Table.empty shown :=
  ⟨_, (@each_has_its_row_iff (fun _ _ => 0) {} _ _ _ _ (livePush_accepted true false)
    (livePushes_run true false)).1 (by decide)⟩

/-- Of two messages that are not saved, the second one takes the row of the first. -/
theorem unsaved_row_is_replaced :
    ¬ ∀ userId pushes messages shown, AllAccepted userId pushes messages →
      (messagesTable fun _ _ => 0).Runs {} (pushLabels pushes messages) shown →
      EachHasItsRow pushes messages shown := by
  intro claimed
  have placed := claimed _ _ _ _ (livePush_accepted false false) (livePushes_run false false)
  exact absurd placed.length_le (by decide)

end MessagePusher.Web
