import MessagePusher.Model.Message
import MessagePusher.Semantics.Transition
import MessagePusher.Store.KeyedList
import Mathlib.Logic.Function.Basic

/-!
# The message table

`web/src/components/MessagesTable.jsx`: the functions that change the `messages` state, and the
page with its requests under way. A function passed to `setMessages` gets the state of that
time; a handler that reads `messages` gets the state of the render it belongs to, `shown`.
-/

namespace MessagePusher.Web

open Common Model Semantics
open Store.KeyedList (DistinctKeys)

/-- What `loadMessages` makes of the data of a successful answer. -/
def loadedMessages (startIdx : Int) (data messages : List Message) : List Message :=
  if startIdx = 0 then data else Store.KeyedList.appendNew Message.id messages data

/-- The filter of `deleteMessage`. -/
def withoutMessage (id : Int) (messages : List Message) : List Message :=
  messages.filter fun message => message.id ≠ id

/-- The update of `insertNewMessage`. -/
def insertNewMessage (message : Message) (messages : List Message) : List Message :=
  Store.KeyedList.upsert Message.id message messages

/-- The columns with a `sortMessage` in their header. -/
inductive SortKey where
  | id
  | title
  | channel
  | timestamp
  | status
deriving DecidableEq

/-- `'' + message[key]`. -/
def SortKey.text (key : SortKey) (message : Message) : String :=
  match key with
  | .id => toString message.id
  | .title => message.title
  | .channel => message.channel
  | .timestamp => toString message.timestamp
  | .status => toString message.status

/-- The list that `sortMessage` sets, from the one of its render: sorted, or the other way round
when its first row was in front already. -/
def sortedMessages (localeCompare : String → String → Int) (key : SortKey)
    (messages : List Message) : List Message :=
  let sorted := messages.mergeSort fun left right =>
    localeCompare (key.text left) (key.text right) ≤ 0
  if sorted.head?.map Message.id = messages.head?.map Message.id then sorted.reverse else sorted

theorem sortedMessages_perm (localeCompare : String → String → Int) (key : SortKey)
    (messages : List Message) : messages.Perm (sortedMessages localeCompare key messages) := by
  unfold sortedMessages
  dsimp only
  split_ifs
  · exact ((List.reverse_perm _).trans (List.mergeSort_perm messages _)).symm
  · exact (List.mergeSort_perm messages _).symm

/-- A request of the page, from its call to the end. An answer without success is `none` or
`false`, whatever went wrong. -/
inductive PageRequest where
  | loading (seq : Nat) (startIdx : Int)
  | loaded (seq : Nat) (startIdx : Int) (answer : Option (List Message))
  | searching (keyword : String)
  | searched (answer : Option (List Message))
  | deleting (id : Int)
  | deleted (id : Int) (success : Bool)
  | done
deriving DecidableEq

/-- The page. `removed` are the ids that `deleteMessage` has filtered out after a success. -/
structure Page where
  messages : List Message := []
  shown : List Message := []
  loadSeq : Nat := 0
  requests : Nat → Option PageRequest := fun _ => none
  removed : List Int := []

namespace Page

variable (page : Page)

def put (request : Nat) (state : PageRequest) : Page :=
  { page with requests := Function.update page.requests request (some state) }

/-- `loadMessages` up to its `await`. -/
def loadMessages (request : Nat) (startIdx : Int) : Page :=
  { page.put request (.loading (page.loadSeq + 1) startIdx) with loadSeq := page.loadSeq + 1 }

/-- `loadMessages` after its `await`: only the newest request of a list may land. -/
def landList (request seq : Nat) (startIdx : Int) (answer : Option (List Message)) : Page :=
  if seq ≠ page.loadSeq then page.put request .done
  else match answer with
    | some data =>
        { page.put request .done with messages := loadedMessages startIdx data page.messages }
    | none => page.put request .done

/-- `searchMessages` after its `await`. -/
def landSearch (request : Nat) (answer : Option (List Message)) : Page :=
  match answer with
  | some data => { page.put request .done with messages := data }
  | none => page.put request .done

/-- `deleteMessage` after its `await`: after a success it goes on with a list. -/
def landDelete (request : Nat) (id : Int) (success : Bool) : Page :=
  if success then
    { page with
      messages := withoutMessage id page.messages
      removed := id :: page.removed }.loadMessages request 0
  else page.put request .done

end Page

inductive PageLabel where
  | loadMessages (request : Nat) (startIdx : Int)
  | searchMessages (request : Nat) (keyword : String)
  | deleteMessage (request : Nat) (id : Int)
  | answerList (request : Nat) (answer : Option (List Message))
  | answerSearch (request : Nat) (answer : Option (List Message))
  | answerDelete (request : Nat) (success : Bool)
  | land (request : Nat)
  | insertNewMessage (message : Message)
  | sortMessage (key : SortKey)
  | render

/-- The steps of the page, whatever the server answers and whenever. An automatic refresh, a
click on the pagination and the first load are calls of `loadMessages`, as is a search without
a keyword. -/
inductive PageStep (localeCompare : String → String → Int) (page : Page) :
    PageLabel → Page → Prop where
  | loadMessages {request startIdx} (fresh : page.requests request = none) :
      PageStep localeCompare page (.loadMessages request startIdx)
        (page.loadMessages request startIdx)
  | searchMessages {request keyword} (fresh : page.requests request = none) :
      PageStep localeCompare page (.searchMessages request keyword)
        (if keyword = "" then page.loadMessages request 0
          else page.put request (.searching keyword))
  | deleteMessage {request id} (fresh : page.requests request = none) :
      PageStep localeCompare page (.deleteMessage request id) (page.put request (.deleting id))
  | answerList {request seq startIdx answer}
      (waits : page.requests request = some (.loading seq startIdx)) :
      PageStep localeCompare page (.answerList request answer)
        (page.put request (.loaded seq startIdx answer))
  | answerSearch {request keyword answer}
      (waits : page.requests request = some (.searching keyword)) :
      PageStep localeCompare page (.answerSearch request answer)
        (page.put request (.searched answer))
  | answerDelete {request id success} (waits : page.requests request = some (.deleting id)) :
      PageStep localeCompare page (.answerDelete request success)
        (page.put request (.deleted id success))
  | landList {request seq startIdx answer}
      (here : page.requests request = some (.loaded seq startIdx answer)) :
      PageStep localeCompare page (.land request) (page.landList request seq startIdx answer)
  | landSearch {request answer} (here : page.requests request = some (.searched answer)) :
      PageStep localeCompare page (.land request) (page.landSearch request answer)
  | landDelete {request id success}
      (here : page.requests request = some (.deleted id success)) :
      PageStep localeCompare page (.land request) (page.landDelete request id success)
  | insertNewMessage {message} :
      PageStep localeCompare page (.insertNewMessage message)
        { page with messages := insertNewMessage message page.messages }
  | sortMessage {key} :
      PageStep localeCompare page (.sortMessage key)
        (if page.shown = [] then page
          else { page with messages := sortedMessages localeCompare key page.shown })
  | render : PageStep localeCompare page .render { page with shown := page.messages }

/-- A page that was just opened. -/
def messagesTable (localeCompare : String → String → Int) : System Page PageLabel where
  Initial page := page = {}
  Step := PageStep localeCompare

/-! ### Rows with distinct ids -/

/-- A list or a search is answered with rows whose ids are pairwise distinct. -/
def AnswersDistinct (_ : Page) : PageLabel → Prop
  | .answerList _ (some data) | .answerSearch _ (some data) => DistinctKeys Message.id data
  | _ => True

/-- The answers that are under way. -/
def PageRequest.answered : PageRequest → Option (List Message)
  | .loaded _ _ answer | .searched answer => answer
  | _ => none

/-- The table, its last render and the answers under way have distinct ids. -/
structure DistinctIds (page : Page) : Prop where
  messages : DistinctKeys Message.id page.messages
  shown : DistinctKeys Message.id page.shown
  answers : ∀ request state data, page.requests request = some state →
    state.answered = some data → DistinctKeys Message.id data

variable {localeCompare : String → String → Int} {page next : Page} {label : PageLabel}

namespace DistinctIds

theorem initial : DistinctIds {} where
  messages := List.nodup_nil
  shown := List.nodup_nil
  answers _ _ _ found := by cases found

theorem setMessages (distinct : DistinctIds page) {messages : List Message}
    (rows : DistinctKeys Message.id messages) : DistinctIds { page with messages } :=
  ⟨rows, distinct.shown, distinct.answers⟩

/-- A request goes on, with an answer whose ids are distinct. -/
theorem put (distinct : DistinctIds page) {request : Nat} {state : PageRequest}
    (answer : ∀ data, state.answered = some data → DistinctKeys Message.id data) :
    DistinctIds (page.put request state) where
  messages := distinct.messages
  shown := distinct.shown
  answers other shown data found answered := by
    by_cases own : other = request
    · subst own
      have same : some state = some shown := by simpa [Page.put] using found
      cases same
      exact answer data answered
    · have before : page.requests other = some shown := by simpa [Page.put, own] using found
      exact distinct.answers other shown data before answered

theorem loadMessages (distinct : DistinctIds page) {request : Nat} {startIdx : Int} :
    DistinctIds (page.loadMessages request startIdx) := by
  have put : DistinctIds (page.put request (.loading (page.loadSeq + 1) startIdx)) :=
    distinct.put (by rintro data ⟨⟩)
  exact ⟨put.messages, put.shown, put.answers⟩

theorem done (distinct : DistinctIds page) {request : Nat} :
    DistinctIds (page.put request .done) :=
  distinct.put (by rintro data ⟨⟩)

theorem landList (distinct : DistinctIds page) {request seq : Nat} {startIdx : Int}
    {answer : Option (List Message)}
    (here : page.requests request = some (.loaded seq startIdx answer)) :
    DistinctIds (page.landList request seq startIdx answer) := by
  unfold Page.landList
  split_ifs with stale
  · exact distinct.done
  · cases answer with
    | none => exact distinct.done
    | some data =>
        have rows : DistinctKeys Message.id data := distinct.answers request _ data here rfl
        apply distinct.done.setMessages
        unfold loadedMessages
        split_ifs
        · exact rows
        · exact distinct.messages.appendNew rows

theorem step (distinct : DistinctIds page) (permitted : AnswersDistinct page label)
    (taken : PageStep localeCompare page label next) : DistinctIds next := by
  cases taken with
  | loadMessages fresh => exact distinct.loadMessages
  | searchMessages fresh =>
      split_ifs
      · exact distinct.loadMessages
      · exact distinct.put (by rintro data ⟨⟩)
  | deleteMessage fresh => exact distinct.put (by rintro data ⟨⟩)
  | answerList waits =>
      apply distinct.put
      rintro data rfl
      exact permitted
  | answerSearch waits =>
      apply distinct.put
      rintro data rfl
      exact permitted
  | answerDelete waits => exact distinct.put (by rintro data ⟨⟩)
  | landList here => exact distinct.landList here
  | @landSearch request answer here =>
      cases answer with
      | none => exact distinct.done
      | some data => exact distinct.done.setMessages (distinct.answers request _ data here rfl)
  | @landDelete request id success here =>
      cases success with
      | false => exact distinct.done
      | true =>
          have filtered : DistinctIds { page with
              messages := withoutMessage id page.messages
              removed := id :: page.removed } :=
            ⟨distinct.messages.filter _, distinct.shown, distinct.answers⟩
          exact filtered.loadMessages
  | insertNewMessage => exact distinct.setMessages (distinct.messages.upsert _)
  | sortMessage =>
      split_ifs
      · exact distinct
      · exact distinct.setMessages (distinct.shown.perm (sortedMessages_perm localeCompare _ _))
  | render => exact ⟨distinct.messages, distinct.messages, distinct.answers⟩

end DistinctIds

/-- In every order of answers, events, deletions and sorts the rows have pairwise distinct ids. -/
theorem messages_distinct {localeCompare : String → String → Int} {page : Page}
    (reachable : ((messagesTable localeCompare).guard AnswersDistinct).Reachable page) :
    (page.messages.map Message.id).Nodup := by
  have distinct : DistinctIds page :=
    reachable.invariant (by rintro page rfl; exact .initial)
      fun distinct taken => distinct.step taken.1 taken.2
  exact distinct.messages

/-- An event that comes before the list it is in. -/
theorem messages_distinct_early_event :
    ∃ page : Page, page.messages = [{ id := 3, title := "b" }, { id := 2 }] ∧
      (page.messages.map Message.id).Nodup := by
  have start : ((messagesTable fun _ _ => 0).guard AnswersDistinct).Reachable {} := .initial rfl
  have asked := start.permit (@PageStep.loadMessages (fun _ _ => 0) _ 0 0 rfl) trivial
  have answered := asked.permit
    (@PageStep.answerList _ _ 0 _ _ (some [{ id := 3 }, { id := 2 }]) rfl)
    (by unfold AnswersDistinct DistinctKeys; decide)
  have pushed := answered.permit (@PageStep.insertNewMessage _ _ { id := 3, title := "a" }) trivial
  have landed := pushed.permit (@PageStep.landList _ _ 0 _ _ _ rfl) trivial
  have again := landed.permit (@PageStep.insertNewMessage _ _ { id := 3, title := "b" }) trivial
  exact ⟨_, rfl, messages_distinct again⟩

end MessagePusher.Web
