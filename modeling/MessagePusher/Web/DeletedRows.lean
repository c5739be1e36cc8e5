import MessagePusher.Controller.Push
import MessagePusher.Controller.Reads
import MessagePusher.Float64.RoundTrip
import MessagePusher.Web.Format
import MessagePusher.Web.MessagesTable

/-!
# Deleted rows

The page together with the server that it asks. The goroutine of `syncMessageToUser` may send
its event long after the push, and an answer may land long after it was read. What comes is JSON,
whose numbers are floats to a script, so the ids of two messages can be one number to the page.
`SparesRemoved` is the condition on what comes late under which a deleted row stays away.
-/

namespace MessagePusher.Web

open Common Model Controller Semantics Float64

/-- The user of the page, and what the server makes of a keyword. -/
structure TableServer where
  userId : Int
  dialect : Dialect := .sqlite
  keywordOf : String → String := id

/-- The page, the messages of the server and the events that are still to be sent. -/
structure Site where
  page : Page := {}
  messages : Messages
  events : List Message := []

/-- A change of the table that gives no id out again. -/
def NeverReuses (before after : Messages) : Prop :=
  before.counter ≤ after.counter ∧
    ∀ row ∈ after.rows, row.id ≤ before.counter → ∃ old ∈ before.rows, old.id = row.id

/-- The rows that an answer with data brings. -/
def rowsOf (reply : Middleware.Reply ReadData) : Option (List Message) :=
  match reply.data with
  | some (.messages list) => some list
  | _ => none

/-- What `JSON.parse` makes of a message in an answer or an event. `Extra` is not sent. -/
def parsed (message : Message) : Message :=
  { message with
    id := roundInt message.id
    userId := roundInt message.userId
    timestamp := roundInt message.timestamp
    status := roundInt message.status
    extra := "" }

/-- The text of a number in a path, as a template literal writes it. -/
def numberText (number : Int) : String := (ofInt number).elim "Infinity" numberToString

/-- The id that the handler reads in a path, whose error it drops. -/
def requestedId (id : Int) : Int := (Text.parseInt (numberText id)).1

/-- What happens on the server, on the way and on the page. -/
inductive SiteLabel where
  | page (label : PageLabel)
  | push (env : Environment) (user : User) (message : Message) (channel : Model.Channel)
  | change (messages : Messages)

/-- What the page does without the server. -/
def PageLabel.isOwn : PageLabel → Bool
  | .loadMessages _ _ | .searchMessages _ _ | .deleteMessage _ _ | .land _ | .sortMessage _
  | .render => true
  | .answerList _ _ | .answerSearch _ _ | .answerDelete _ _ | .insertNewMessage _ => false

/-- The steps of the page and of the server. The page gets what `parsed` leaves of a message, and
asks with the text of its numbers. Any request may fail. A push is an accepted call of
`saveAndSendMessage` for the user; whatever else writes to the table is a `change`. -/
inductive SiteStep (localeCompare : String → String → Int) (server : TableServer)
    (site : Site) : SiteLabel → Site → Prop where
  | acts {label next} (own : label.isOwn = true)
      (taken : PageStep localeCompare site.page label next) :
      SiteStep localeCompare server site (.page label) { site with page := next }
  | answerList {request seq startIdx answer next}
      (waits : site.page.requests request = some (.loading seq startIdx))
      (reads : answer = none ∨
        answer = (rowsOf (getUserMessages site.messages server.userId (numberText startIdx))).map
          (List.map parsed))
      (taken : PageStep localeCompare site.page (.answerList request answer) next) :
      SiteStep localeCompare server site (.page (.answerList request answer))
        { site with page := next }
  | answerSearch {request keyword answer next}
      (waits : site.page.requests request = some (.searching keyword))
      (reads : answer = none ∨
        answer = (rowsOf (searchMessagesReply server.dialect site.messages
          (server.keywordOf keyword))).map (List.map parsed))
      (taken : PageStep localeCompare site.page (.answerSearch request answer) next) :
      SiteStep localeCompare server site (.page (.answerSearch request answer))
        { site with page := next }
  | answerDelete {request id messages next}
      (waits : site.page.requests request = some (.deleting id))
      (deletes : deleteMessageById site.messages (requestedId id) server.userId = (messages, none))
      (taken : PageStep localeCompare site.page (.answerDelete request true) next) :
      SiteStep localeCompare server site (.page (.answerDelete request true))
        { site with page := next, messages }
  | refuseDelete {request next}
      (taken : PageStep localeCompare site.page (.answerDelete request false) next) :
      SiteStep localeCompare server site (.page (.answerDelete request false))
        { site with page := next }
  | event {message next} (sent : message ∈ site.events)
      (taken : PageStep localeCompare site.page (.insertNewMessage (parsed message)) next) :
      SiteStep localeCompare server site (.page (.insertNewMessage (parsed message)))
        { site with page := next, events := site.events.erase message }
  | push {env user message channel} (own : user.id = server.userId)
      (fresh : NeverReuses site.messages
        (saveAndSendMessage env user message channel site.messages).messages) :
      SiteStep localeCompare server site (.push env user message channel)
        { site with
          messages := (saveAndSendMessage env user message channel site.messages).messages
          events := site.events ++
            (saveAndSendMessage env user message channel site.messages).synced.toList }
  | change {messages} (fresh : NeverReuses site.messages messages) :
      SiteStep localeCompare server site (.change messages) { site with messages }

/-- A page that was just opened, and no event under way. -/
def messagesSite (localeCompare : String → String → Int) (server : TableServer) :
    System Site SiteLabel where
  Initial site := site.page = {} ∧ site.events = []
  Step := SiteStep localeCompare server

/-- No row that was deleted and removed is in the table. -/
def RemovedStayGone (page : Page) : Prop :=
  ∀ message ∈ page.messages, message.id ∉ page.removed

/-- The row is not the one that the server was asked to delete, but its id is the same number to
the page as that of a removed row. -/
def TakenForRemoved (page : Page) (row : MessageRow) : Prop :=
  roundInt row.id ∈ page.removed ∧ row.id ≠ requestedId (roundInt row.id)

/-- What comes late brings no removed row: an event is not one of a removed message, a search that
lands was not read with one, and the render whose handler sorts does not show one. The newest list
is not read with a row that is taken for a removed one. -/
def SparesRemoved (site : Site) : SiteLabel → Prop
  | .page (.insertNewMessage message) => message.id ∉ site.page.removed
  | .page (.answerList request (some data)) => ∀ startIdx,
      site.page.requests request = some (.loading site.page.loadSeq startIdx) →
      ∀ message ∈ data, ∀ row ∈ site.messages.rows, roundInt row.id = message.id →
        ¬ TakenForRemoved site.page row
  | .page (.land request) => ∀ data, site.page.requests request = some (.searched (some data)) →
      ∀ message ∈ data, message.id ∉ site.page.removed
  | .page (.sortMessage _) => ∀ message ∈ site.page.shown, message.id ∉ site.page.removed
  | _ => True

/-- The server gave the id out and has no row with it any more. -/
def Absent (messages : Messages) (id : Int) : Prop :=
  id ≤ messages.counter ∧ ∀ row ∈ messages.rows, row.id ≠ id

/-- The number of a list request. -/
def PageRequest.seq? : PageRequest → Option Nat
  | .loading seq _ | .loaded seq _ _ => some seq
  | _ => none

/-- No removed row is in the newest list that is under way. -/
def NewestSpares (page : Page) : Prop :=
  ∀ request startIdx data,
    page.requests request = some (.loaded page.loadSeq startIdx (some data)) →
      ∀ message ∈ data, message.id ∉ page.removed

/-- What holds of a page in every order: the server lacks what it was asked to delete, and no list
request has a number above the newest one. -/
structure RemovedInv (page : Page) (messages : Messages) : Prop where
  absent : ∀ id ∈ page.removed, Absent messages (requestedId id)
  deleted : ∀ request id, page.requests request = some (.deleted id true) →
    Absent messages (requestedId id)
  numbered : ∀ request state seq, page.requests request = some state → state.seq? = some seq →
    seq ≤ page.loadSeq

variable {localeCompare : String → String → Int} {server : TableServer} {site next : Site}
  {page after : Page} {messages later : Messages} {label : SiteLabel} {request : Nat}

/-- What is gone stays so while no id is given again. -/
theorem Absent.mono {id : Int} (absent : Absent messages id) (never : NeverReuses messages later) :
    Absent later id := by
  refine ⟨Int.le_trans absent.1 never.1, ?_⟩
  rintro row member rfl
  obtain ⟨old, known, same⟩ := never.2 row member absent.1
  exact absent.2 old known same

/-- A deletion that goes through leaves its id absent, and gives none out. -/
theorem deleteMessageById_absent {id userId : Int}
    (deletes : deleteMessageById messages id userId = (later, none)) :
    Absent later id ∧ NeverReuses messages later := by
  have done : (deleteMessageById messages id userId).2 = none := by rw [deletes]
  obtain ⟨⟨row, member, same⟩, gone⟩ := deleteMessageById_found done
  rw [deletes] at gone
  subst gone
  have known : id ≤ messages.counter := by
    rw [← same]
    exact messages.bounded row member
  refine ⟨⟨known, fun other kept => (Store.Table.mem_delete.mp kept).2⟩, Int.le_refl _, ?_⟩
  intro other kept _
  exact ⟨other, (Store.Table.mem_delete.mp kept).1, rfl⟩

/-- A list shows rows of the table. -/
theorem rowsOf_getUserMessages {userId : Int} {p : String} {data : List Message}
    (answer : some data = (rowsOf (getUserMessages messages userId p)).map (List.map parsed))
    {message : Message} (member : message ∈ data) :
    ∃ row ∈ messages.rows, roundInt row.id = message.id := by
  obtain rfl := Option.some.inj answer
  obtain ⟨sent, listed, rfl⟩ := List.mem_map.mp member
  obtain ⟨row, shown, rfl⟩ := List.mem_map.mp listed
  refine ⟨row, ?_, rfl⟩
  have selected : row ∈ (messages.select fun row => row.userId = userId).reverse :=
    (page_sublist _ _ _).subset shown
  exact (Store.Table.mem_select.mp (List.mem_reverse.mp selected)).1

/-- A request after one of them went on. -/
theorem Page.requests_put {state shown : PageRequest} {other : Nat}
    (found : (page.put request state).requests other = some shown) :
    other = request ∧ state = shown ∨ other ≠ request ∧ page.requests other = some shown := by
  by_cases own : other = request
  · subst own
    have same : some state = some shown := by simpa [Page.put] using found
    exact .inl ⟨rfl, Option.some.inj same⟩
  · exact .inr ⟨own, by simpa [Page.put, own] using found⟩

namespace RemovedInv

/-- Nothing has been removed from a page that was just opened. -/
theorem initial (messages : Messages) : RemovedInv {} messages where
  absent _ member := by cases member
  deleted _ _ found := by cases found
  numbered _ _ _ found := by cases found

/-- The server may change its messages as long as it gives no id again. -/
theorem change (inv : RemovedInv page messages) (never : NeverReuses messages later) :
    RemovedInv page later where
  absent id member := (inv.absent id member).mono never
  deleted request id found := (inv.deleted request id found).mono never
  numbered := inv.numbered

/-- Which rows are shown says nothing about the server. -/
theorem setRows (inv : RemovedInv page messages) (rows shown : List Message) :
    RemovedInv { page with messages := rows, shown } messages :=
  ⟨inv.absent, inv.deleted, inv.numbered⟩

/-- A request goes on. -/
theorem put (inv : RemovedInv page messages) {state : PageRequest}
    (deleted : ∀ id, state = .deleted id true → Absent messages (requestedId id))
    (numbered : ∀ seq, state.seq? = some seq → seq ≤ page.loadSeq) :
    RemovedInv (page.put request state) messages := by
  refine ⟨inv.absent, ?_, ?_⟩
  · intro other id found
    rcases Page.requests_put found with ⟨-, same⟩ | ⟨-, before⟩
    · exact deleted id same
    · exact inv.deleted other id before
  · intro other shown seq found numberedAs
    rcases Page.requests_put found with ⟨-, rfl⟩ | ⟨-, before⟩
    · exact numbered seq numberedAs
    · exact inv.numbered other shown seq before numberedAs

/-- A request that goes on without a number. -/
theorem putPlain (inv : RemovedInv page messages) {state : PageRequest}
    (deleted : ∀ id, state = .deleted id true → Absent messages (requestedId id))
    (plain : state.seq? = none) : RemovedInv (page.put request state) messages := by
  refine inv.put deleted ?_
  intro seq numbered
  rw [plain] at numbered
  cases numbered

/-- An answer that was handled tells nothing more. -/
theorem done (inv : RemovedInv page messages) : RemovedInv (page.put request .done) messages :=
  inv.putPlain (by rintro id ⟨⟩) rfl

/-- A list that is asked for has the highest number. -/
theorem loadMessages (inv : RemovedInv page messages) {startIdx : Int} :
    RemovedInv (page.loadMessages request startIdx) messages := by
  have raised : RemovedInv { page with loadSeq := page.loadSeq + 1 } messages := by
    refine ⟨inv.absent, inv.deleted, ?_⟩
    intro other state seq found numberedAs
    exact Nat.le_succ_of_le (inv.numbered other state seq found numberedAs)
  have put : RemovedInv (Page.put { page with loadSeq := page.loadSeq + 1 } request
      (.loading (page.loadSeq + 1) startIdx)) messages := by
    refine raised.put (by rintro id ⟨⟩) ?_
    rintro seq ⟨⟩
    exact Nat.le_refl _
  exact put

/-- A list that lands removes nothing. -/
theorem landList (inv : RemovedInv page messages) (seq : Nat) (startIdx : Int)
    (answer : Option (List Message)) :
    RemovedInv (page.landList request seq startIdx answer) messages := by
  unfold Page.landList
  split_ifs
  · exact inv.done
  · cases answer with
    | none => exact inv.done
    | some data => exact inv.done.setRows _ _

/-- A deletion that lands was carried out on the server. -/
theorem landDelete (inv : RemovedInv page messages) {id : Int} {success : Bool}
    (here : page.requests request = some (.deleted id success)) :
    RemovedInv (page.landDelete request id success) messages := by
  cases success with
  | false => exact inv.done
  | true =>
      have loads : RemovedInv (page.loadMessages request 0) messages := inv.loadMessages
      refine ⟨?_, loads.deleted, loads.numbered⟩
      intro other member
      rcases List.mem_cons.mp member with rfl | older
      · exact inv.deleted request other here
      · exact inv.absent other older

/-- What a page does without the server keeps it. -/
theorem acts (inv : RemovedInv page messages) {label : PageLabel} (own : label.isOwn = true)
    (taken : PageStep localeCompare page label after) : RemovedInv after messages := by
  cases taken with
  | loadMessages fresh => exact inv.loadMessages
  | searchMessages fresh =>
      split_ifs
      · exact inv.loadMessages
      · exact inv.putPlain (by rintro id ⟨⟩) rfl
  | deleteMessage fresh => exact inv.putPlain (by rintro id ⟨⟩) rfl
  | answerList waits => cases own
  | answerSearch waits => cases own
  | answerDelete waits => cases own
  | landList here => exact inv.landList _ _ _
  | @landSearch request answer here =>
      cases answer with
      | none => exact inv.done
      | some data => exact inv.done.setRows _ _
  | landDelete here => exact inv.landDelete here
  | insertNewMessage => cases own
  | sortMessage =>
      split_ifs
      · exact inv
      · exact inv.setRows _ _
  | render => exact inv.setRows _ _

/-- Every step keeps what the page knows of the server. -/
theorem step (inv : RemovedInv site.page site.messages)
    (taken : SiteStep localeCompare server site label next) :
    RemovedInv next.page next.messages := by
  cases taken with
  | acts own taken => exact inv.acts own taken
  | @answerList request seq startIdx answer after waits reads taken =>
      cases taken with
      | answerList waits' =>
          rw [waits] at waits'
          cases waits'
          refine inv.put (by rintro id ⟨⟩) ?_
          rintro number ⟨⟩
          exact inv.numbered request _ seq waits rfl
  | answerSearch waits reads taken =>
      cases taken with
      | answerSearch waits' => exact inv.putPlain (by rintro id ⟨⟩) rfl
  | @answerDelete request id later after waits deletes taken =>
      obtain ⟨absent, never⟩ := deleteMessageById_absent deletes
      cases taken with
      | answerDelete waits' =>
          rw [waits] at waits'
          cases waits'
          refine (inv.change never).putPlain ?_ rfl
          rintro other ⟨⟩
          exact absent
  | refuseDelete taken =>
      cases taken with
      | answerDelete waits => exact inv.putPlain (by rintro id ⟨⟩) rfl
  | event sent taken =>
      cases taken with
      | insertNewMessage => exact inv.setRows _ _
  | push own fresh => exact inv.change fresh
  | change fresh => exact inv.change fresh

/-- What the page has removed is gone, in every order. -/
theorem reachable (reachable : (messagesSite localeCompare server).Reachable site) :
    RemovedInv site.page site.messages := by
  refine @System.Reachable.invariant _ _ _ (fun site => RemovedInv site.page site.messages)
    ?_ (fun inv taken => inv.step taken) _ reachable
  rintro site ⟨opened, -⟩
  rw [opened]
  exact .initial _

end RemovedInv

/-! ### The newest list -/

namespace NewestSpares

/-- A request that is no list goes on. -/
theorem putPlain (spares : NewestSpares page) {state : PageRequest} (plain : state.seq? = none) :
    NewestSpares (page.put request state) := by
  intro other startIdx data found
  rcases Page.requests_put found with ⟨-, same⟩ | ⟨-, before⟩
  · have numbered := congrArg PageRequest.seq? same
    rw [plain] at numbered
    cases numbered
  · exact spares other startIdx data before

theorem done (spares : NewestSpares page) : NewestSpares (page.put request .done) :=
  spares.putPlain rfl

/-- A list that is asked for makes the ones before it stale, whatever has been removed. -/
theorem loadMessages (inv : RemovedInv page messages) (startIdx : Int) (removed : List Int) :
    NewestSpares { page.loadMessages request startIdx with removed } := by
  intro other start data found
  rcases @Page.requests_put page request _ _ other found with ⟨-, same⟩ | ⟨-, before⟩
  · cases same
  · have old : page.loadSeq + 1 ≤ page.loadSeq := inv.numbered other _ _ before rfl
    omega

/-- What a page does without the server keeps it. -/
theorem acts (spares : NewestSpares page) (inv : RemovedInv page messages) {label : PageLabel}
    (own : label.isOwn = true) (taken : PageStep localeCompare page label after) :
    NewestSpares after := by
  cases taken with
  | loadMessages fresh => exact loadMessages inv _ _
  | searchMessages fresh =>
      split_ifs
      · exact loadMessages inv _ _
      · exact spares.putPlain rfl
  | deleteMessage fresh => exact spares.putPlain rfl
  | answerList waits => cases own
  | answerSearch waits => cases own
  | answerDelete waits => cases own
  | @landList request seq startIdx answer here =>
      unfold Page.landList
      split_ifs
      · exact spares.done
      · cases answer with
        | none => exact spares.done
        | some data => exact spares.done
  | @landSearch request answer here =>
      cases answer with
      | none => exact spares.done
      | some data => exact spares.done
  | @landDelete request id success here =>
      cases success with
      | false => exact spares.done
      | true => exact loadMessages inv 0 (id :: page.removed)
  | insertNewMessage => cases own
  | sortMessage =>
      split_ifs
      · exact spares
      · exact spares
  | render => exact spares

/-- A list that is answered has a removed row exactly when it is the newest and was read with a row
that is taken for it: the server has no row with the id that was deleted. -/
theorem answerList_iff (spares : NewestSpares site.page)
    (inv : RemovedInv site.page site.messages) {seq : Nat} {startIdx : Int}
    {answer : Option (List Message)}
    (waits : site.page.requests request = some (.loading seq startIdx))
    (reads : answer = none ∨
      answer = (rowsOf (getUserMessages site.messages server.userId (numberText startIdx))).map
        (List.map parsed)) :
    NewestSpares (site.page.put request (.loaded seq startIdx answer)) ↔
      SparesRemoved site (.page (.answerList request answer)) := by
  cases answer with
  | none =>
      refine iff_of_true ?_ trivial
      intro other start data found
      rcases Page.requests_put found with ⟨-, same⟩ | ⟨-, before⟩
      · cases (PageRequest.loaded.inj same).2.2
      · exact spares other start data before
  | some data =>
      have read := reads.resolve_left (Option.some_ne_none data)
      constructor
      · intro later start newest message member row known same taken
        rw [waits] at newest
        cases newest
        have put : (site.page.put request (.loaded site.page.loadSeq startIdx (some data))).requests
            request = some (.loaded site.page.loadSeq startIdx (some data)) := by simp [Page.put]
        exact later request startIdx data put message member (same ▸ taken.1)
      · intro spared other start shown found message member removed
        rcases Page.requests_put found with ⟨-, same⟩ | ⟨-, before⟩
        · obtain ⟨newest, -, answered⟩ := PageRequest.loaded.inj same
          obtain rfl : seq = site.page.loadSeq := newest
          obtain rfl := Option.some.inj answered
          obtain ⟨row, known, same⟩ := rowsOf_getUserMessages read member
          refine spared startIdx waits message member row known same ⟨same ▸ removed, ?_⟩
          rw [same]
          exact (inv.absent message.id removed).2 row known
        · exact spares other start shown before message member removed

end NewestSpares

/-! ### Which steps bring a row back -/

namespace RemovedStayGone

/-- A row that comes in is one that was removed, or brings none back. -/
theorem insertNewMessage_iff (gone : RemovedStayGone page) {message : Message} :
    RemovedStayGone { page with messages := insertNewMessage message page.messages } ↔
      message.id ∉ page.removed := by
  constructor
  · intro stays
    exact stays message (Store.KeyedList.mem_upsert_self message page.messages)
  · intro spared shown member
    rcases Store.KeyedList.eq_or_mem_of_mem_upsert member with rfl | before
    · exact spared
    · exact gone shown before

theorem landList (gone : RemovedStayGone page) (spares : NewestSpares page) {seq : Nat}
    {startIdx : Int} {answer : Option (List Message)}
    (here : page.requests request = some (.loaded seq startIdx answer)) :
    RemovedStayGone (page.landList request seq startIdx answer) := by
  unfold Page.landList
  split_ifs with stale
  · exact gone
  · obtain rfl : seq = page.loadSeq := by simpa using stale
    cases answer with
    | none => exact gone
    | some data =>
        have fresh := spares request startIdx data here
        intro shown member
        have listed : shown ∈ loadedMessages startIdx data page.messages := member
        unfold loadedMessages at listed
        split_ifs at listed
        · exact fresh shown listed
        · rcases List.mem_append.mp listed with before | added
          · exact gone shown before
          · exact fresh shown (List.mem_filter.mp added).1

theorem landDelete (gone : RemovedStayGone page) (id : Int) (success : Bool) :
    RemovedStayGone (page.landDelete request id success) := by
  cases success with
  | false => exact gone
  | true =>
      intro shown member removed
      obtain ⟨before, different⟩ := List.mem_filter.mp member
      rcases List.mem_cons.mp removed with same | older
      · simp [same] at different
      · exact gone shown before older

/-- The only own steps that can bring a row back are the end of a search and a sort. -/
theorem acts_iff (gone : RemovedStayGone site.page) (spares : NewestSpares site.page)
    {label : PageLabel} (own : label.isOwn = true)
    (taken : PageStep localeCompare site.page label after) :
    RemovedStayGone after ↔ SparesRemoved site (.page label) := by
  cases taken with
  | loadMessages fresh => exact iff_of_true gone trivial
  | searchMessages fresh =>
      split_ifs
      · exact iff_of_true gone trivial
      · exact iff_of_true gone trivial
  | deleteMessage fresh => exact iff_of_true gone trivial
  | answerList waits => cases own
  | answerSearch waits => cases own
  | answerDelete waits => cases own
  | landList here =>
      refine iff_of_true (gone.landList spares here) ?_
      intro data searched
      rw [here] at searched
      cases searched
  | @landSearch request answer here =>
      cases answer with
      | none =>
          refine iff_of_true gone ?_
          intro data searched
          rw [here] at searched
          cases searched
      | some data =>
          constructor
          · intro stays found searched
            rw [here] at searched
            cases searched
            exact stays
          · intro spared
            exact spared data here
  | landDelete here =>
      refine iff_of_true (gone.landDelete _ _) ?_
      intro data searched
      rw [here] at searched
      cases searched
  | insertNewMessage => cases own
  | @sortMessage key =>
      split_ifs with empty
      · refine iff_of_true gone ?_
        intro shown member
        rw [empty] at member
        cases member
      · have same := sortedMessages_perm localeCompare key site.page.shown
        exact ⟨fun stays shown member => stays shown (same.mem_iff.mp member),
          fun spared shown member => spared shown (same.mem_iff.mpr member)⟩
  | render => exact iff_of_true gone trivial

/-- A step keeps removed rows out of the table and of the newest list exactly when what it brings
late is none of them. -/
theorem step_iff (gone : RemovedStayGone site.page) (spares : NewestSpares site.page)
    (inv : RemovedInv site.page site.messages)
    (taken : SiteStep localeCompare server site label next) :
    RemovedStayGone next.page ∧ NewestSpares next.page ↔ SparesRemoved site label := by
  cases taken with
  | acts own taken =>
      rw [and_iff_left (spares.acts inv own taken)]
      exact gone.acts_iff spares own taken
  | answerList waits reads taken =>
      cases taken with
      | answerList waits' =>
          rw [waits] at waits'
          cases waits'
          rw [and_iff_right (show RemovedStayGone (site.page.put _ _) from gone)]
          exact spares.answerList_iff inv waits reads
  | answerSearch waits reads taken =>
      cases taken with
      | answerSearch waits' => exact iff_of_true ⟨gone, spares.putPlain rfl⟩ trivial
  | answerDelete waits deletes taken =>
      cases taken with
      | answerDelete waits' => exact iff_of_true ⟨gone, spares.putPlain rfl⟩ trivial
  | refuseDelete taken =>
      cases taken with
      | answerDelete waits => exact iff_of_true ⟨gone, spares.putPlain rfl⟩ trivial
  | event sent taken =>
      cases taken with
      | insertNewMessage =>
          exact ⟨fun both => gone.insertNewMessage_iff.mp both.1,
            fun spared => ⟨gone.insertNewMessage_iff.mpr spared, spares⟩⟩
  | push own fresh => exact iff_of_true ⟨gone, spares⟩ trivial
  | change fresh => exact iff_of_true ⟨gone, spares⟩ trivial

end RemovedStayGone

/-- In every run in which nothing late brings a removed row, removed rows stay away. The first step
that does brings it back, or leads to a list that will. -/
theorem deleted_rows_stay_gone {localeCompare : String → String → Int} {server : TableServer}
    {site : Site}
    (reachable : ((messagesSite localeCompare server).guard SparesRemoved).Reachable site) :
    RemovedStayGone site.page ∧ ∀ label next,
      (messagesSite localeCompare server).Step site label next →
        (RemovedStayGone next.page ∧ NewestSpares next.page ↔ SparesRemoved site label) := by
  have gone : RemovedStayGone site.page ∧ NewestSpares site.page :=
    @System.Reachable.guardInvariant _ _ _ _ (fun site => RemovedInv site.page site.messages)
      (fun site => RemovedStayGone site.page ∧ NewestSpares site.page) RemovedInv.reachable
      (by
        rintro site ⟨opened, -⟩
        rw [opened]
        exact ⟨by rintro message ⟨⟩, by rintro request startIdx data ⟨⟩⟩)
      (fun inv gone permitted taken => (gone.1.step_iff gone.2 inv taken).mpr permitted) _ reachable
  exact ⟨gone.1, fun _ _ taken =>
    gone.1.step_iff gone.2 (RemovedInv.reachable reachable.ofGuard) taken⟩

/-! ### A late event -/

/-- A user whose messages are saved. -/
def tableUser : User :=
  { id := 1, username := "ann", saveMessageToDatabase := saveMessageToDatabaseAllowed }

/-- The channel of that user. -/
def tableChannel : Model.Channel :=
  { id := 1, userId := 1, name := "n", status := channelStatusEnabled }

/-- The server of that user. -/
def tableServer : TableServer := { userId := 1 }

/-- The server after the first push, whose event is under way. -/
def pushedOutcome : Outcome :=
  saveAndSendMessage { uuid := "u" } tableUser {} tableChannel Store.Table.empty

/-- The first message, as the event has it. -/
def pushedMessage : Message :=
  { id := 1, userId := 1, link := "u", url := "http://localhost:3000/message/u",
    status := messageSendStatusPending }

theorem pushed_fresh : NeverReuses Store.Table.empty pushedOutcome.messages := by
  unfold NeverReuses
  decide

theorem pushed_event : pushedMessage ∈ pushedOutcome.synced.toList := by decide

theorem pushed_reachable (permitted : Site → SiteLabel → Prop)
    (pushes : permitted { messages := Store.Table.empty }
      (.push { uuid := "u" } tableUser {} tableChannel)) :
    ((messagesSite (fun _ _ => 0) tableServer).guard permitted).Reachable
      { messages := pushedOutcome.messages, events := pushedOutcome.synced.toList } := by
  have start : ((messagesSite (fun _ _ => 0) tableServer).guard permitted).Reachable
      { messages := Store.Table.empty } := .initial ⟨rfl, rfl⟩
  have push : SiteStep (fun _ _ => 0) tableServer { messages := Store.Table.empty }
      (.push { uuid := "u" } tableUser {} tableChannel)
      { messages := pushedOutcome.messages, events := pushedOutcome.synced.toList } :=
    .push rfl pushed_fresh
  exact start.permit push pushes

/-- The server after the second push. -/
def secondOutcome : Outcome :=
  saveAndSendMessage { uuid := "v" } tableUser {} tableChannel pushedOutcome.messages

theorem second_fresh : NeverReuses pushedOutcome.messages secondOutcome.messages := by
  unfold NeverReuses
  decide

/-- The event of a message comes before the message is deleted, and the list that the page asks for
then has another message. -/
theorem deleted_rows_stay_gone_event_in_time :
    ∃ site : Site, site.page.removed = [1] ∧ site.page.messages.map Message.id = [2] ∧
      RemovedStayGone site.page := by
  have pushed := pushed_reachable SparesRemoved trivial
  have shown := pushed.permit (@SiteStep.event _ _ _ pushedMessage _ pushed_event .insertNewMessage)
    List.not_mem_nil
  have again := shown.permit (@SiteStep.push _ _ _ { uuid := "v" } tableUser {} tableChannel rfl
    second_fresh) trivial
  have deletes := again.permit (.acts rfl (@PageStep.deleteMessage _ _ 0 1 rfl)) trivial
  have deleted := deletes.permit
    (.answerDelete rfl rfl (@PageStep.answerDelete _ _ 0 _ _ rfl)) trivial
  have removed := deleted.permit (.acts rfl (@PageStep.landDelete _ _ 0 _ _ rfl))
    fun _ searched => by cases searched
  have answered := removed.permit
    (.answerList rfl (.inr rfl) (@PageStep.answerList _ _ 0 _ _ _ rfl)) <| by
      intro startIdx _ message _ row known _ taken
      obtain rfl := List.mem_singleton.mp known
      exact absurd taken.1 (by decide)
  have landed := answered.permit (.acts rfl (@PageStep.landList _ _ 0 _ _ _ rfl))
    fun _ searched => by cases searched
  exact ⟨_, rfl, by decide, (deleted_rows_stay_gone landed).1⟩

/-- The event of a message comes after the message was deleted. -/
theorem deleted_row_comes_back :
    ¬ ∀ site, (messagesSite (fun _ _ => 0) tableServer).Reachable site →
      RemovedStayGone site.page := by
  intro claimed
  have pushed := (pushed_reachable (fun _ _ => True) trivial).ofGuard
  have asked := pushed.step (.acts rfl (@PageStep.loadMessages _ _ 0 0 rfl))
  have answered := asked.step (.answerList rfl (.inr rfl) (@PageStep.answerList _ _ 0 _ _ _ rfl))
  have landed := answered.step (.acts rfl (@PageStep.landList _ _ 0 _ _ _ rfl))
  have deletes := landed.step (.acts rfl (@PageStep.deleteMessage _ _ 1 1 rfl))
  have deleted := deletes.step (.answerDelete rfl rfl (@PageStep.answerDelete _ _ 1 _ _ rfl))
  have removed := deleted.step (.acts rfl (@PageStep.landDelete _ _ 1 _ _ rfl))
  have late := removed.step
    (@SiteStep.event _ _ _ pushedMessage _ List.mem_cons_self .insertNewMessage)
  exact claimed _ late pushedMessage List.mem_cons_self List.mem_cons_self

end MessagePusher.Web
