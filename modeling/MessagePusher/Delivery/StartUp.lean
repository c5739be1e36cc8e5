import MessagePusher.Delivery.AsyncQueue
import MessagePusher.Model.Option
import MessagePusher.TokenStore.FirstRefresh

/-!
# Start-up beside the queue workers

`main` from the open database on: it starts `LoadAsyncMessages` as a goroutine, then loads
the options, then starts the token store, whose goroutine fills the map and refreshes it.
The workers run from the beginning, and nothing holds them back until all this is done.
-/

namespace MessagePusher.Delivery

open Common Model Channel TokenStore Semantics

/-- What the program finds in the database. -/
structure Site where
  users : Users
  channels : Channels
  rows : OptionRows

/-- How far `main` is. -/
inductive MainPhase where
  | databaseOpen
  | loaderStarted
  | defaultsSet
  | loadingOptions (rows : OptionRows)
  | optionsLoaded
  | storeStarted
deriving DecidableEq

/-- How far a worker is with the id it took from the queue. -/
inductive StartWorker where
  | idle
  | taken (id : Int)
  | loaded (message : Message)
  /-- The call of `SendMessage` runs. -/
  | calling (call : SendCall)
  | finishing (message : Message) (status : Int)

structure StartState where
  main : MainPhase := .databaseOpen
  options : Options := {}
  /-- The token store, once its map is made. -/
  store : Option StoreState := none
  /-- The rounds of its loop that are over. -/
  rounds : Nat := 0
  loader : Option Loader := none
  queue : List Int := []
  workers : List StartWorker := List.replicate asyncMessageSenderNum .idle
  messages : Messages

inductive StartLabel where
  | main
  | loop (label : StoreLabel)
  | query
  | load
  | take
  | fetch
  | skip
  | call (call : SendCall)
  | fail
  | settle
  | finish

/-- One step of `main`. -/
inductive MainStep (site : Site) (state : StartState) : StartState → Prop where
  | startLoader (at_ : state.main = .databaseOpen) :
      MainStep site state { state with main := .loaderStarted, loader := some .starting }
  | setDefaults (at_ : state.main = .loaderStarted) :
      MainStep site state { state with main := .defaultsSet, options := state.options.withDefaults }
  | queryOptions (at_ : state.main = .defaultsSet) :
      MainStep site state { state with main := .loadingOptions site.rows }
  | setOption {key value rest} (at_ : state.main = .loadingOptions ((key, value) :: rest)) :
      MainStep site state
        { state with
          main := .loadingOptions rest
          options := updateOptionMap state.options key value }
  | optionsDone (at_ : state.main = .loadingOptions []) :
      MainStep site state { state with main := .optionsLoaded }
  | startStore (at_ : state.main = .optionsLoaded) :
      MainStep site state
        { state with
          main := .storeStarted
          store := some { loop := .loading (tokenStoreInitItems site.channels) } }

/-- One step of one party. -/
inductive StartStep (site : Site) (state : StartState) : StartLabel → StartState → Prop where
  | main {next} (moves : MainStep site state next) : StartStep site state .main next
  | loop {store next label} (at_ : state.store = some store) (moves : StoreStep store label next)
      (undisturbed : Undisturbed store label) :
      StartStep site state (.loop label)
        { state with store := some next, rounds := roundsAfter state.rounds label }
  | query (at_ : state.loader = some .starting) :
      StartStep site state .query
        { state with loader := some (.enqueueing (getAsyncPendingMessageIds state.messages)) }
  | load {id rest} (at_ : state.loader = some (.enqueueing (id :: rest)))
      (room : state.queue.length < asyncMessageQueueSize) :
      StartStep site state .load
        { state with queue := state.queue ++ [id], loader := some (.enqueueing rest) }
  | take {before after id rest} (at_ : state.workers = before ++ .idle :: after)
      (first : state.queue = id :: rest) :
      StartStep site state .take
        { state with queue := rest, workers := before ++ .taken id :: after }
  | fetch {before after id message} (at_ : state.workers = before ++ .taken id :: after)
      (found : getMessageById state.messages id = .ok message) :
      StartStep site state .fetch { state with workers := before ++ .loaded message :: after }
  | skip {before after id text} (at_ : state.workers = before ++ .taken id :: after)
      (failed : getMessageById state.messages id = .error text) :
      StartStep site state .skip { state with workers := before ++ .idle :: after }
  | call {before after message call} (at_ : state.workers = before ++ .loaded message :: after)
      (ready : asyncMessageSenderHelper site.users site.channels message = .ok call) :
      StartStep site state (.call call) { state with workers := before ++ .calling call :: after }
  | fail {before after message text} (at_ : state.workers = before ++ .loaded message :: after)
      (failed : asyncMessageSenderHelper site.users site.channels message = .error text) :
      StartStep site state .fail
        { state with workers := before ++ .finishing message messageSendStatusFailed :: after }
  | settle {before after call error} (at_ : state.workers = before ++ .calling call :: after) :
      StartStep site state .settle
        { state with workers := before ++ .finishing call.message (asyncStatus error) :: after }
  | finish {before after message status failure}
      (at_ : state.workers = before ++ .finishing message status :: after) :
      StartStep site state .finish
        { state with
          messages := (message.updateStatus status failure state.messages).1
          workers := before ++ .idle :: after }

/-- The program with its database open and its workers waiting. -/
def startUp (site : Site) : System StartState StartLabel where
  Initial state := state = { messages := state.messages }
  Step := StartStep site

/-- A call for a WeChat channel with complete credentials finds the options loaded and a token
that was refreshed. -/
def SafeCall (site : Site) (state : StartState) (call : SendCall) : Prop :=
  ∀ item, channel2item call.channel = some item → item.isFilled = true →
    state.options = initOptionMap {} site.rows ∧
      ∃ store, state.store = some store ∧ Refreshed store item.key

def CallsSafe (site : Site) (state : StartState) : Prop :=
  ∀ call, .calling call ∈ state.workers → SafeCall site state call

/-- The condition on a step. When a call begins, the loop of the token store has refreshed the
item of the channel's key. -/
def CallsInOrder (state : StartState) : StartLabel → Prop
  | .call call => ∀ item, channel2item call.channel = some item → item.isFilled = true →
      ∃ store, state.store = some store ∧ HasRefreshed store state.rounds item.key
  | _ => True

/-- The options at every point of `main`. -/
def OptionsAt (site : Site) (options : Options) : MainPhase → Prop
  | .databaseOpen | .loaderStarted => options = {}
  | .defaultsSet => options = initOptionMap {} []
  | .loadingOptions rest => ∃ done, site.rows = done ++ rest ∧ options = initOptionMap {} done
  | .optionsLoaded | .storeStarted => options = initOptionMap {} site.rows

/-- What start-up keeps. -/
structure Started (site : Site) (state : StartState) : Prop where
  options : OptionsAt site state.options state.main
  store : ∀ store, state.store = some store → state.main = .storeStarted ∧
    Filled (tokenStoreInitItems site.channels) store state.rounds
  fresh : state.store = none → state.rounds = 0
  calls : CallsSafe site state

section Steps

variable {site : Site} {state next : StartState} {label : StartLabel}

theorem Started.initial (valid : (startUp site).Initial state) : Started site state := by
  have start : state = { messages := state.messages } := valid
  rw [start]
  constructor
  · rfl
  · rintro store ⟨⟩
  · exact fun _ => rfl
  · intro call member
    simp [asyncMessageSenderNum] at member

/-- A call reads a row of the channels table, whose item the token store loads. -/
theorem item_loaded {message : Message} {call : SendCall} {item : TokenStoreItem}
    (ready : asyncMessageSenderHelper site.users site.channels message = .ok call)
    (isItem : channel2item call.channel = some item) :
    item ∈ tokenStoreInitItems site.channels := by
  unfold asyncMessageSenderHelper at ready
  cases loaded : getUserById site.users message.userId false with
  | error text => simp [loaded, bind, Except.bind] at ready
  | ok user =>
      cases found : getChannelByName site.channels message.channel user.id with
      | error text => simp [loaded, found, bind, Except.bind] at ready
      | ok channel =>
          simp only [loaded, found, bind, Except.bind, pure, Except.pure, Except.ok.injEq] at ready
          subst ready
          have typed : channel.type = typeWeChatCorpAccount ∨ channel.type = typeWeChatTestAccount := by
            unfold channel2item at isItem
            split_ifs at isItem with test corp
            · exact .inr test
            · exact .inl corp
          refine List.mem_filterMap.mpr ⟨channel, ?_, isItem⟩
          simp [getTokenStoreChannels, (getChannelByName_ok found).1, typed]

/-- A worker that moves to a phase other than a call leaves the calls as they are. -/
theorem CallsSafe.replaced {before after : List StartWorker} {old new : StartWorker}
    (safe : CallsSafe site state) (at_ : state.workers = before ++ old :: after)
    (noCall : ∀ call, new ≠ .calling call) {messages : Messages} {queue : List Int} :
    CallsSafe site { state with workers := before ++ new :: after, messages, queue } := by
  intro call member
  have held : StartWorker.calling call ∈ state.workers := by
    rw [at_]
    rcases List.mem_append.mp member with early | late
    · exact List.mem_append_left _ early
    · rcases List.mem_cons.mp late with same | late
      · exact absurd same.symm (noCall call)
      · exact List.mem_append_right _ (List.mem_cons_of_mem _ late)
  exact safe call held

/-- While a call for a WeChat channel is safe, `main` has nothing left to do. -/
theorem Started.main (started : Started site state) (moves : MainStep site state next) :
    Started site next := by
  have unstarted : state.main ≠ .storeStarted := by
    intro done
    cases moves <;> simp_all
  have noStore : state.store = none := by
    cases present : state.store with
    | none => rfl
    | some store => exact absurd (started.store store present).1 unstarted
  have untouched : ∀ {after : StartState}, after.workers = state.workers →
      CallsSafe site after := by
    intro after workers call member item isItem filled
    rw [workers] at member
    obtain ⟨-, store, present, -⟩ := started.calls call member item isItem filled
    rw [noStore] at present
    cases present
  have options := started.options
  cases moves with
  | startLoader at_ =>
      rw [at_] at options
      exact ⟨options, (fun store present => by simp [noStore] at present), started.fresh,
        untouched rfl⟩
  | setDefaults at_ =>
      rw [at_] at options
      refine ⟨?_, (fun store present => by simp [noStore] at present), started.fresh, untouched rfl⟩
      exact congrArg Options.withDefaults options
  | queryOptions at_ =>
      rw [at_] at options
      exact ⟨⟨[], rfl, options⟩, (fun store present => by simp [noStore] at present), started.fresh,
        untouched rfl⟩
  | @setOption key value rest at_ =>
      rw [at_] at options
      obtain ⟨done, whole, loaded⟩ := options
      refine ⟨⟨done ++ [(key, value)], ?_, ?_⟩, (fun store present => by simp [noStore] at present),
        started.fresh, untouched rfl⟩
      · rw [whole, List.append_assoc]
        rfl
      · rw [loaded, initOptionMap, initOptionMap, loadOptions, loadOptions, List.foldl_append]
        rfl
  | optionsDone at_ =>
      rw [at_] at options
      obtain ⟨done, whole, loaded⟩ := options
      rw [List.append_nil] at whole
      refine ⟨?_, (fun store present => by simp [noStore] at present), started.fresh,
        untouched rfl⟩
      dsimp only [OptionsAt]
      rw [whole]
      exact loaded
  | startStore at_ =>
      rw [at_] at options
      refine ⟨options, ?_, (fun absent => by cases absent), untouched rfl⟩
      rintro store ⟨⟩
      refine ⟨rfl, ?_⟩
      dsimp only
      rw [started.fresh noStore]
      exact Filled.initial _

theorem Started.step (started : Started site state) (inOrder : CallsInOrder state label)
    (transition : (startUp site).Step state label next) : Started site next := by
  obtain ⟨options, store, fresh, calls⟩ := started
  cases transition with
  | main moves => exact Started.main ⟨options, store, fresh, calls⟩ moves
  | @loop before after label at_ moves undisturbed =>
      obtain ⟨running, filled⟩ := store before at_
      refine ⟨options, ?_, (fun absent => by cases absent), ?_⟩
      · rintro held ⟨⟩
        exact ⟨running, filled.step undisturbed moves⟩
      · intro call member item isItem complete
        obtain ⟨loaded, held, present, refreshed⟩ := calls call member item isItem complete
        obtain rfl := Option.some.inj (at_.symm.trans present)
        exact ⟨loaded, after, rfl, filled.keeps_refreshed undisturbed moves refreshed⟩
  | query at_ => exact ⟨options, store, fresh, calls⟩
  | load at_ room => exact ⟨options, store, fresh, calls⟩
  | take at_ first => exact ⟨options, store, fresh, calls.replaced at_ (by simp)⟩
  | fetch at_ found => exact ⟨options, store, fresh, calls.replaced at_ (by simp)⟩
  | skip at_ failed => exact ⟨options, store, fresh, calls.replaced at_ (by simp)⟩
  | @call before after message call at_ ready =>
      refine ⟨options, store, fresh, ?_⟩
      intro other member
      rcases List.mem_append.mp member with early | late
      · exact calls other (by rw [at_]; exact List.mem_append_left _ early)
      · rcases List.mem_cons.mp late with same | late
        · obtain rfl := StartWorker.calling.inj same
          intro item isItem complete
          obtain ⟨held, present, passed⟩ := inOrder item isItem complete
          obtain ⟨running, filled⟩ := store held present
          rw [running] at options
          exact ⟨options, held, present, filled.refreshed (item_loaded ready isItem) passed⟩
        · exact calls other (by
            rw [at_]
            exact List.mem_append_right _ (List.mem_cons_of_mem _ late))
  | fail at_ failed => exact ⟨options, store, fresh, calls.replaced at_ (by simp)⟩
  | settle at_ => exact ⟨options, store, fresh, calls.replaced at_ (by simp)⟩
  | finish at_ => exact ⟨options, store, fresh, calls.replaced at_ (by simp)⟩

/-- A step of the cut-down system, its condition last. -/
theorem StartStep.permitted {permitted : StartState → StartLabel → Prop}
    (transition : StartStep site state label next) (allowed : permitted state label) :
    ((startUp site).guard permitted).Step state label next :=
  ⟨allowed, transition⟩

/-- The loop of the token store runs as it does on its own, whatever the others do. -/
theorem loop_runs {store after : StoreState} {labels : List StoreLabel}
    (running : state.store = some store)
    (runs : (tokenStore.guard Undisturbed).Runs store labels after) :
    ((startUp site).guard CallsInOrder).Runs state (labels.map .loop)
      { state with store := some after, rounds := labels.foldl roundsAfter state.rounds } := by
  induction runs with
  | refl =>
      rw [← running]
      exact .refl
  | @step labels middle label last prior transition ih =>
      rw [List.map_append, List.foldl_append]
      exact ih.step ((StartStep.loop rfl transition.2 transition.1).permitted trivial)

end Steps

/-- In every run in which the workers call in order, each call for a WeChat channel with
complete credentials finds the options loaded and a token that was refreshed. -/
theorem calls_safe_of_calls_in_order {site : Site} {state : StartState}
    (reachable : ((startUp site).guard CallsInOrder).Reachable state) : CallsSafe site state := by
  have initial : ∀ {state}, ((startUp site).guard CallsInOrder).Initial state →
      Started site state := Started.initial
  have preserved : ∀ {state label next}, Started site state →
      ((startUp site).guard CallsInOrder).Step state label next → Started site next :=
    fun started transition => started.step transition.1 transition.2
  exact (reachable.invariant initial preserved).calls

/-! ### A message that was pending before the start -/

def pendingSite : Site where
  users :=
    { rows := [{ id := 1, username := "ann", status := 1 }], counter := 1, sorted := by decide
      unique := by decide, counterNonneg := Int.one_nonneg, bounded := by decide }
  channels :=
    { rows := [{ id := 1, type := typeWeChatTestAccount, userId := 1, name := "wx", status := 1
                 secret := "secret", appId := "app" }]
      counter := 1, sorted := by decide, unique := by decide, counterNonneg := Int.one_nonneg
      bounded := by decide }
  rows := [("ServerAddress", "https://push.example")]

def pendingRow : MessageRow where
  id := 1
  userId := 1
  title := "late"
  description := ""
  content := ""
  url := ""
  channel := "wx"
  timestamp := 0
  link := "l"
  to_ := ""
  status := messageSendStatusAsyncPending
  renderMode := ""
  msgType := ""
  extra := ""

def pendingMessages : Messages where
  rows := [pendingRow]
  counter := 1
  sorted := by decide
  unique := by decide
  counterNonneg := Int.one_nonneg
  bounded := by decide

def pendingMessage : Message := Message.ofRow pendingRow

def pendingCall : SendCall where
  message := pendingMessage
  user := { id := 1, username := "ann", status := 1 }
  channel :=
    { id := 1, type := typeWeChatTestAccount, userId := 1, name := "wx", status := 1
      secret := "secret", appId := "app" }

def pendingItem : TokenStoreItem := .weChatTestAccount "app" "secret"

/-- The loader is started and the workers wait; `main` and the token store are anywhere. -/
def waiting (base : StartState) : StartState :=
  { base with
    loader := some .starting, queue := [], workers := [.idle, .idle], messages := pendingMessages }

def messageLoaded (base : StartState) : StartState :=
  { base with
    loader := some (.enqueueing []), queue := [], workers := [.loaded pendingMessage, .idle]
    messages := pendingMessages }

def messageCalled (base : StartState) : StartState :=
  { base with
    loader := some (.enqueueing []), queue := [], workers := [.calling pendingCall, .idle]
    messages := pendingMessages }

/-- Nothing but the condition on the call keeps the message from being sent. -/
theorem pending_message_is_called {permitted : StartState → StartLabel → Prop} (base : StartState)
    (others : ∀ state label, (∀ call, label ≠ .call call) → permitted state label)
    (begins : permitted (messageLoaded base) (.call pendingCall)) :
    ((startUp pendingSite).guard permitted).Runs (waiting base)
      [.query, .load, .take, .fetch, .call pendingCall] (messageCalled base) := by
  exact
    .head ((StartStep.query rfl).permitted (others _ _ (by simp))) <|
    .head ((@StartStep.load _ _ 1 [] rfl (by exact Nat.succ_pos 127)).permitted (others _ _ (by simp))) <|
    .head ((@StartStep.take _ _ [] [.idle] 1 [] rfl rfl).permitted (others _ _ (by simp))) <|
    .head ((@StartStep.fetch _ _ [] [.idle] 1 pendingMessage rfl rfl).permitted
      (others _ _ (by simp))) <|
    .single ((@StartStep.call _ _ [] [.idle] pendingMessage pendingCall rfl rfl).permitted begins)

/-- The message is sent before `main` has come to the options. -/
theorem pending_message_is_called_early :
    ¬ ∀ (site : Site) (state : StartState), (startUp site).Reachable state → CallsSafe site state := by
  intro claimed
  have started : (startUp pendingSite).Reachable { messages := pendingMessages } := .initial rfl
  have loading := started.step (.main (.startLoader rfl))
  have called := @pending_message_is_called (fun _ _ => True)
    { main := .loaderStarted, messages := pendingMessages } (fun _ _ _ => trivial) trivial
  have safe := claimed pendingSite _ (loading.runs called.ofGuard) pendingCall (by simp [messageCalled])
  obtain ⟨-, store, absent, -⟩ := safe pendingItem rfl rfl
  cases absent

/-- The token store after its first round over the one item of the site. -/
def firstRound : StoreState where
  map := Function.update (fun _ => none) pendingItem.key (some 0)
  stamps := Function.update (fun _ => 0) 0 1
  allocated := 1
  clock := 1
  loop := .refreshing [(pendingItem.key, 0)] []

/-- `main` has done its part when the database holds the message. -/
theorem store_starts :
    ((startUp pendingSite).guard CallsInOrder).Reachable (waiting
      { main := .storeStarted, options := initOptionMap {} pendingSite.rows
        store := some { loop := .loading [pendingItem] }, messages := pendingMessages }) :=
  ⟨{ messages := pendingMessages }, _, rfl,
    .head ((StartStep.main (.startLoader rfl)).permitted trivial) <|
    .head ((StartStep.main (.setDefaults rfl)).permitted trivial) <|
    .head ((StartStep.main (.queryOptions rfl)).permitted trivial) <|
    .head ((StartStep.main (@MainStep.setOption _ _ _ _ [] rfl)).permitted trivial) <|
    .head ((StartStep.main (.optionsDone rfl)).permitted trivial) <|
    .single ((StartStep.main (.startStore rfl)).permitted trivial)⟩

theorem first_round_runs :
    (tokenStore.guard Undisturbed).Runs { loop := .loading [pendingItem] }
      [.load pendingItem.key, .loaded, .copy pendingItem.key, .snapshot, .refresh true, .store]
      firstRound := by
  have listed : ∀ key, (Function.update (fun _ => none) pendingItem.key (some 0) key).isSome →
      (List.lookup key [(pendingItem.key, 0)]).isSome := by
    intro key present
    by_cases same : key = pendingItem.key
    · simp [same]
    · simp [same] at present
  exact
    .head ⟨trivial, @StoreStep.load _ pendingItem [] rfl⟩ <|
    .head ⟨trivial, .loaded rfl⟩ <|
    .head ⟨trivial, @StoreStep.copy _ [] pendingItem.key 0 rfl rfl rfl⟩ <|
    .head ⟨listed, @StoreStep.snapshot _ [(pendingItem.key, 0)] rfl⟩ <|
    .head ⟨rfl, @StoreStep.refreshOk _ [(pendingItem.key, 0)] [] [] pendingItem.key 0 rfl⟩ <|
    .single ⟨trivial, @StoreStep.store _ [(pendingItem.key, 0)] [] 0 1 rfl⟩

/-- The message is sent after the first round. -/
theorem pending_message_is_called_in_order :
    ∃ state, .calling pendingCall ∈ state.workers ∧ CallsSafe pendingSite state := by
  have stored := store_starts.runs (loop_runs rfl first_round_runs)
  have called := @pending_message_is_called CallsInOrder
    { main := .storeStarted, options := initOptionMap {} pendingSite.rows, store := some firstRound
      messages := pendingMessages } (fun state label other => ?_) ?_
  · exact ⟨_, List.mem_cons_self, calls_safe_of_calls_in_order (stored.runs called)⟩
  · cases label with
    | call call => exact absurd rfl (other call)
    | _ => trivial
  · rintro item ⟨⟩ -
    refine ⟨firstRound, rfl, .inr ⟨trivial, ?_⟩⟩
    rintro held - ⟨⟩

end MessagePusher.Delivery
