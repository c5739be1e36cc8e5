import MessagePusher.WebSocket.Clients

/-!
# One client for each channel and user

A registration looks its key up, ends the client it finds and puts its own into the map, in
three separate critical sections, and the clean-up of a client tells its own entry by the
millisecond of its creation. `ComesAlone` is the condition on registrations under which one
client is left.
-/

namespace MessagePusher.WebSocket

open Common Model Channel Semantics

/-- No call of `RegisterClient` is in progress. -/
def Settled (state : ClientState) : Prop :=
  ∀ call register, state.registers call = some register → register.stage = .returned

/-- The client is one of the channel and user, and its writer is in its loop. -/
def Serves (state : ClientState) (channelName : String) (userId : Int) (number : Nat) : Prop :=
  ∃ client, state.clients number = some client ∧ client.key = clientKey channelName userId ∧
    client.writer.isRunning = true

/-- For each channel and user at most one client is running, and the map has it. -/
structure OneClient (state : ClientState) : Prop where
  single : ∀ channelName userId first second, Serves state channelName userId first →
    Serves state channelName userId second → first = second
  mapped : ∀ channelName userId number, Serves state channelName userId number →
    state.clientMap (clientKey channelName userId) = some number

/-- A clean-up leaves the entries of other clients that are running. -/
def SparesOthers (settings : Settings) (state : ClientState) : Prop :=
  ∀ number next, ClientStep settings state (.cleanup number) next →
    ∀ key other, state.clientMap key = some other → other ≠ number → state.Runs other →
      next.clientMap key = some other

/-- A client is not made in the millisecond of another one of its key that is still to clean
up, and does not take the place of a running one in the map. -/
def ComesAlone (state : ClientState) : ClientLabel → Prop
  | .create call _ now => ∀ register other client, state.registers call = some register →
      state.clients other = some client → client.key = register.key →
        client.writer.isUncleaned = true → client.timestamp ≠ now
  | .add call => ∀ register other, state.registers call = some register →
      state.clientMap register.key = some other → ¬ state.Runs other
  | _ => True

/-- Running clients are in the map or about to come into it, and clients that are still to clean
up have times of their own. -/
structure Apart (state : ClientState) : Prop where
  known : ∀ number client, state.clients number = some client →
    client.writer.isRunning = true → state.clientMap client.key = some number ∨
      ∃ call register, state.registers call = some register ∧ register.stage = .adding number
  times : ∀ first second client other, state.clients first = some client →
    state.clients second = some other → client.key = other.key →
      client.writer.isUncleaned = true → other.writer.isUncleaned = true →
        client.timestamp = other.timestamp → first = second

variable {settings : Settings} {state next : ClientState} {label : ClientLabel}
  {number call : Nat} {client after : WebSocketClient} {register : RegisterCall}

theorem runs_iff : state.Runs number ↔
    ∃ client, state.clients number = some client ∧ client.writer.isRunning = true := by
  simp [ClientState.Runs, ClientState.writerOf]

namespace Apart

theorem initial : Apart {} where
  known _ _ found := by cases found
  times _ _ _ _ found := by cases found

/-- A step that makes no client, leaves the map alone and lets the registrations that are to add
a client stay. -/
theorem moves (apart : Apart state) (moves : Moves state next)
    (sameMap : next.clientMap = state.clientMap)
    (adding : ∀ call register number, state.registers call = some register →
      register.stage = .adding number → next.registers call = some register) : Apart next where
  known number after found runs := by
    obtain ⟨client, before, key, -, ran, -⟩ := moves.back number after found
    rcases apart.known number client before (ran runs) with entry | ⟨call, register, there, stage⟩
    · rw [sameMap, ← key]
      exact .inl entry
    · exact .inr ⟨call, register, adding call register number there stage, stage⟩
  times first second after other found there same uncleaned uncleaned' time := by
    obtain ⟨client, before, key, stamp, -, was⟩ := moves.back first after found
    obtain ⟨client', before', key', stamp', -, was'⟩ := moves.back second other there
    exact apart.times first second client client' before before'
      (key.trans (same.trans key'.symm)) (was uncleaned) (was' uncleaned')
      (stamp.trans (time.trans stamp'.symm))

/-- A registration that adds no client goes on. -/
theorem putRegister (apart : Apart state)
    (quiet : ∀ before number, state.registers call = some before →
      before.stage ≠ .adding number) : Apart (state.putRegister call register) := by
  refine apart.moves (.refl rfl) rfl ?_
  intro other shown number there stage
  have different : other ≠ call := by
    rintro rfl
    exact quiet shown number there stage
  rw [putRegister_of_ne _ _ different]
  exact there

theorem create (apart : Apart state) (found : state.registers call = some register)
    (stage : register.stage = .creating) (fresh : state.clients number = none) {now : Int}
    (permitted : ComesAlone state (.create call number now)) :
    Apart { (state.putClient number { key := register.key, timestamp := now }).putRegister call
      { register with stage := .adding number } with clock := now } where
  known other shown there runs := by
    by_cases own : other = number
    · subst own
      exact .inr ⟨call, _, putRegister_self .., rfl⟩
    · have before : state.clients other = some shown := by
        rw [← putClient_of_ne state number own]
        exact there
      rcases apart.known other shown before runs with entry | ⟨caller, adder, known, adding⟩
      · exact .inl entry
      · have different : caller ≠ call := by
          rintro rfl
          rw [found] at known
          cases known
          rw [stage] at adding
          cases adding
        exact .inr ⟨caller, adder, (putRegister_of_ne _ _ different).trans known, adding⟩
  times first second shown other there there' same uncleaned uncleaned' time := by
    have older : ∀ place entry, place ≠ number →
        (state.putClient number { key := register.key, timestamp := now }).clients place =
          some entry → state.clients place = some entry := by
      intro place entry different known
      rwa [putClient_of_ne _ _ different] at known
    by_cases own : first = number
    · by_cases own' : second = number
      · rw [own, own']
      · subst own
        have made := Option.some.inj ((putClient_self state first).symm.trans there)
        subst made
        exact absurd time.symm
          (permitted register second other found (older second other own' there') same.symm
            uncleaned')
    · by_cases own' : second = number
      · subst own'
        have made := Option.some.inj ((putClient_self state second).symm.trans there')
        subst made
        exact absurd time
          (permitted register first shown found (older first shown own there) same uncleaned)
      · exact apart.times first second shown other (older first shown own there)
          (older second other own' there') same uncleaned uncleaned' time

theorem add (apart : Apart state) (inv : ClientInv state)
    (found : state.registers call = some register)
    (stage : register.stage = .adding number) (permitted : ComesAlone state (.add call)) :
    Apart (state.add call number register) where
  known other shown there runs := by
    have before : state.clients other = some shown := there
    rcases apart.known other shown before runs with entry | ⟨caller, adder, known, adding⟩
    · have elsewhere : shown.key ≠ register.key := by
        intro same
        rw [same] at entry
        exact permitted register other found entry (runs_iff.mpr ⟨shown, before, runs⟩)
      exact .inl (by simpa [ClientState.add, elsewhere] using entry)
    · by_cases own : caller = call
      · subst own
        rw [found] at known
        cases known
        rw [stage] at adding
        cases adding
        obtain ⟨own, there, key⟩ :=
          inv.held caller register number found (by simp [RegisterCall.holds, stage])
        have same := Option.some.inj (before.symm.trans there)
        subst same
        exact .inl (by simp [ClientState.add, key])
      · exact .inr ⟨caller, adder, (putRegister_of_ne _ _ own).trans known, adding⟩
  times := apart.times

/-- The clean-up of a client takes no entry of another that is still to clean up. -/
theorem keeps_entry (apart : Apart state) (found : state.clients number = some client)
    (writer : client.writer = .left) {key : String} {other : Nat} {shown : WebSocketClient}
    (entry : state.clientMap key = some other) (there : state.clients other = some shown)
    (own : shown.key = key) (uncleaned : shown.writer.isUncleaned = true)
    (different : other ≠ number) :
    (state.cleanup number client).clientMap key = some other := by
  show Channel.cleanup state.clients state.clientMap client key = some other
  unfold Channel.cleanup
  cases mapped : state.clientMap client.key with
  | none => exact entry
  | some removed =>
      dsimp only
      split_ifs with sameTime
      · by_cases same : key = client.key
        · subst same
          rw [entry] at mapped
          cases mapped
          rw [there, Option.map_some, Option.some.injEq] at sameTime
          exact absurd (apart.times other number shown client there found own uncleaned
            (by rw [writer]; rfl) sameTime) different
        · rw [Function.update_of_ne same]
          exact entry
      · exact entry

theorem cleanup (apart : Apart state) (found : state.clients number = some client)
    (writer : client.writer = .left) : Apart (state.cleanup number client) := by
  have moves : Moves state (state.putClient number { client with writer := .cleaned }) :=
    .put found rfl rfl (fun runs => by cases runs) (fun _ => by rw [writer]; rfl)
  have put := apart.moves moves rfl fun _ _ _ there _ => there
  constructor
  · intro other shown there runs
    rcases put.known other shown there runs with entry | adding
    · obtain ⟨before, was, key, -, ran, -⟩ := moves.back other shown there
      have different : other ≠ number := by
        rintro rfl
        have cleaned := Option.some.inj ((putClient_self state other).symm.trans there)
        subst cleaned
        cases runs
      exact .inl (apart.keeps_entry found writer entry was key
        (Writer.isUncleaned_of_isRunning (ran runs)) different)
    · exact .inr adding
  · exact put.times

theorem step (apart : Apart state) (inv : ClientInv state) (permitted : ComesAlone state label)
    (taken : ClientStep settings state label next) : Apart next := by
  cases taken with
  | registerClient fresh =>
      apply apart.putRegister
      intro before number there
      rw [fresh] at there
      cases there
  | lookup found stage =>
      apply apart.putRegister
      intro before number there
      rw [found] at there
      cases there
      rw [stage]
      simp
  | create found stage fresh later => exact apart.create found stage fresh permitted
  | add found stage => exact apart.add inv found stage permitted
  | sendClientMessage fresh => exact apart.moves (.refl rfl) rfl fun _ _ _ there _ => there
  | find found stage => exact apart.moves (.refl rfl) rfl fun _ _ _ there _ => there
  | @rendezvous party number item offers selects =>
      exact apart.moves (moves_rendezvous selects) (by cases party <;> rfl)
        fun call register other there stage => advance_adding party there stage
  | tick found writer =>
      exact apart.moves (.put found rfl rfl (fun _ => by rw [writer]; rfl)
        (fun _ => by rw [writer]; rfl)) rfl fun _ _ _ there _ => there
  | write found writer => exact apart.moves (moves_write found writer) rfl fun _ _ _ there _ => there
  | writeClose found writer =>
      exact apart.moves (.put found rfl rfl (fun runs => by cases runs)
        (fun _ => by rw [writer]; rfl)) rfl fun _ _ _ there _ => there
  | cleanup found writer => exact apart.cleanup found writer
  | closeConn found writer =>
      exact apart.moves (.put found rfl rfl (fun runs => by cases runs)
        (fun uncleaned => by cases uncleaned)) rfl fun _ _ _ there _ => there
  | read found reader =>
      exact apart.moves (.put found rfl rfl id id) rfl fun _ _ _ there _ => there

/-- Once no registration is in progress, whoever runs is in the map. -/
theorem oneClient (apart : Apart state) (settled : Settled state) : OneClient state := by
  have mapped : ∀ channelName userId number, Serves state channelName userId number →
      state.clientMap (clientKey channelName userId) = some number := by
    rintro channelName userId number ⟨client, found, key, runs⟩
    rcases apart.known number client found runs with entry | ⟨call, register, there, stage⟩
    · rwa [key] at entry
    · have done := settled call register there
      rw [stage] at done
      cases done
  constructor
  · intro channelName userId first second one two
    have entry := mapped channelName userId first one
    rw [mapped channelName userId second two] at entry
    exact (Option.some.inj entry).symm
  · exact mapped

theorem sparesOthers (apart : Apart state) (inv : ClientInv state) :
    SparesOthers settings state := by
  intro number next taken key other entry different runs
  cases taken with
  | @cleanup _ client found writer =>
      obtain ⟨shown, there, running⟩ := runs_iff.mp runs
      obtain ⟨mapped, known, own⟩ := inv.mapped key other entry
      rw [there] at known
      cases known
      exact apart.keeps_entry found writer entry there own
        (Writer.isUncleaned_of_isRunning running) different

end Apart

/-- In every run whose clients come alone, one client for each channel and user is left whenever
no registration is in progress, and a clean-up takes no other client's entry. -/
theorem one_client_of_coming_alone {settings : Settings} {state : ClientState}
    (reachable : ((webSocketClients settings).guard ComesAlone).Reachable state) :
    (Settled state → OneClient state) ∧ SparesOthers settings state := by
  have apart : Apart state :=
    reachable.guardInvariant ClientInv.reachable (by rintro state rfl; exact .initial)
      fun inv apart permitted taken => apart.step inv permitted taken
  exact ⟨apart.oneClient, apart.sparesOthers (ClientInv.reachable reachable.ofGuard)⟩

/-- A client that came second: the first one was told to stop, and its clean-up is to come. -/
theorem one_client_of_coming_alone_second :
    ∃ state, Settled state ∧ Serves state "client" 1 1 ∧
      state.writerOf 0 = some .left ∧ OneClient state ∧ SparesOthers {} state := by
  have start : ((webSocketClients {}).guard ComesAlone).Reachable {} := .initial rfl
  have called := start.permit (@ClientStep.registerClient {} _ 0 "client" 1 rfl) trivial
  have looked := called.permit (@ClientStep.lookup {} _ 0 _ rfl rfl) trivial
  have created := looked.permit (@ClientStep.create {} _ 0 0 0 _ rfl rfl rfl (Int.le_refl 0))
    fun _ _ _ _ there => by cases there
  have added := created.permit (@ClientStep.add {} _ 0 0 _ rfl rfl)
    fun _ _ there entry => by cases there; cases entry
  have greeted := added.permit (@ClientStep.rendezvous {} _ (.register 0) 0 _ rfl rfl) trivial
  have written := greeted.permit (@ClientStep.write {} _ 0 _ _ true rfl rfl) trivial
  have calledAgain := written.permit (@ClientStep.registerClient {} _ 1 "client" 1 rfl) trivial
  have lookedAgain := calledAgain.permit (@ClientStep.lookup {} _ 1 _ rfl rfl) trivial
  have warned := lookedAgain.permit (@ClientStep.rendezvous {} _ (.register 1) 0 _ rfl rfl) trivial
  have told := warned.permit (@ClientStep.write {} _ 0 _ _ true rfl rfl) trivial
  have kicked := told.permit (@ClientStep.rendezvous {} _ (.register 1) 0 _ rfl rfl) trivial
  have createdAgain := kicked.permit (@ClientStep.create {} _ 1 1 5 _ rfl rfl rfl (by decide))
    fun _ other _ _ there _ _ => by
      match other with
      | 0 => cases there; decide
      | _ + 1 => cases there
  have addedAgain := createdAgain.permit (@ClientStep.add {} _ 1 1 _ rfl rfl)
    fun _ _ there entry runs => by
      cases there
      cases entry
      obtain ⟨writer, found, running⟩ := runs
      cases found
      cases running
  have greetedAgain :=
    addedAgain.permit (@ClientStep.rendezvous {} _ (.register 1) 1 _ rfl rfl) trivial
  have closed := greetedAgain.permit (@ClientStep.writeClose {} _ 0 _ true rfl rfl) trivial
  have result := one_client_of_coming_alone closed
  refine ⟨_, ?settled, ⟨_, rfl, rfl, rfl⟩, rfl, result.1 ?settled, result.2⟩
  case settled =>
    intro call register there
    match call with
    | 0 => cases there; rfl
    | 1 => cases there; rfl
    | _ + 2 => cases there

/-! ### Two registrations at once -/

/-- Both look the key up before either has put its client into the map. -/
theorem two_clients_run : ¬ ∀ state, (webSocketClients {}).Reachable state → Settled state →
    OneClient state ∧ SparesOthers {} state := by
  intro claimed
  have start : (webSocketClients {}).Reachable {} := .initial rfl
  have called := start.step (@ClientStep.registerClient {} _ 0 "client" 1 rfl)
  have calledAgain := called.step (@ClientStep.registerClient {} _ 1 "client" 1 rfl)
  have looked := calledAgain.step (@ClientStep.lookup {} _ 0 _ rfl rfl)
  have lookedAgain := looked.step (@ClientStep.lookup {} _ 1 _ rfl rfl)
  have created := lookedAgain.step (@ClientStep.create {} _ 0 0 0 _ rfl rfl rfl (Int.le_refl 0))
  have createdAgain := created.step
    (@ClientStep.create {} _ 1 1 5 _ rfl rfl rfl (by decide))
  have added := createdAgain.step (@ClientStep.add {} _ 0 0 _ rfl rfl)
  have addedAgain := added.step (@ClientStep.add {} _ 1 1 _ rfl rfl)
  have greeted := addedAgain.step (@ClientStep.rendezvous {} _ (.register 0) 0 _ rfl rfl)
  have greetedAgain := greeted.step (@ClientStep.rendezvous {} _ (.register 1) 1 _ rfl rfl)
  have settled := claimed _ greetedAgain fun call register there => by
    match call with
    | 0 => cases there; rfl
    | 1 => cases there; rfl
    | _ + 2 => cases there
  have one := settled.1.single "client" 1 0 1 ⟨_, rfl, rfl, rfl⟩ ⟨_, rfl, rfl, rfl⟩
  cases one

end MessagePusher.WebSocket
