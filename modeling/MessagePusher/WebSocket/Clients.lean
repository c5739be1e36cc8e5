import MessagePusher.Channel.Client
import MessagePusher.Semantics.Transition

/-!
# Clients, registrations and pushes, step by step

Any number of calls of `RegisterClient` and `SendClientMessage` with the readers and writers
of all clients, in any order. `ClientInv` holds whatever the order.
-/

namespace MessagePusher.WebSocket

open Common Model Channel Semantics

/-- A goroutine that sends to a writer. -/
inductive Party where
  | register (call : Nat)
  | send (call : Nat)
  | reader (client : Nat)
deriving DecidableEq

/-- Clients and calls by number, the map, and the time in milliseconds. -/
structure ClientState where
  clients : Nat → Option WebSocketClient := fun _ => none
  clientMap : ClientMap := fun _ => none
  registers : Nat → Option RegisterCall := fun _ => none
  sends : Nat → Option SendClientCall := fun _ => none
  clock : Int := 0

namespace ClientState

variable (state : ClientState)

/-- A client in the place of the one of its number. -/
def putClient (number : Nat) (client : WebSocketClient) : ClientState :=
  { state with clients := Function.update state.clients number (some client) }

/-- A registration in the place of the one of its number. -/
def putRegister (number : Nat) (call : RegisterCall) : ClientState :=
  { state with registers := Function.update state.registers number (some call) }

/-- A push in the place of the one of its number. -/
def putSend (number : Nat) (call : SendClientCall) : ClientState :=
  { state with sends := Function.update state.sends number (some call) }

/-- The send that a goroutine waits at. -/
def offers (settings : Settings) : Party → Option (Nat × Item)
  | .register call => (state.registers call).bind fun register => register.offers settings
  | .send call => (state.sends call).bind SendClientCall.offers
  | .reader number =>
      (state.clients number).bind fun client => client.readerOffers.map fun item => (number, item)

/-- The state after the send of a goroutine. -/
def advance : Party → ClientState
  | .register call => { state with
      registers := Function.update state.registers call
        ((state.registers call).map RegisterCall.advance) }
  | .send call => { state with
      sends := Function.update state.sends call ((state.sends call).map SendClientCall.advance) }
  | .reader number => { state with
      clients := Function.update state.clients number
        ((state.clients number).map WebSocketClient.advanceReader) }

/-- The receive of the writer. -/
def receive (number : Nat) (item : Item) : ClientState :=
  { state with
    clients := Function.update state.clients number
      ((state.clients number).map fun client => client.receive item) }

/-- The critical section of `RegisterClient` with `clientMap[key] = newClient`. -/
def add (call number : Nat) (register : RegisterCall) : ClientState :=
  { state.putRegister call { register with stage := .greeting number } with
    clientMap := Function.update state.clientMap register.key (some number) }

/-- The critical section of the deferred function of `handleDataWriting`. -/
def cleanup (number : Nat) (client : WebSocketClient) : ClientState :=
  { state.putClient number { client with writer := .cleaned } with
    clientMap := Channel.cleanup state.clients state.clientMap client }

/-- The phase of the writer of a client. -/
def writerOf (number : Nat) : Option Writer :=
  (state.clients number).map WebSocketClient.writer

/-- The client has a writer in its loop. -/
def Runs (number : Nat) : Prop := ∃ writer, state.writerOf number = some writer ∧ writer.isRunning

/-- The goroutine has a send to the client at hand or ahead of it. -/
def Holds (number : Nat) : Party → Prop
  | .register call => (state.registers call).bind RegisterCall.holds = some number
  | .send call => ∃ send, state.sends call = some send ∧ send.stage = .sending number
  | .reader client =>
      client = number ∧ ∃ found, state.clients client = some found ∧ found.reader ≠ .returned

end ClientState

/-- Who does which step. -/
inductive ClientLabel where
  | registerClient (call : Nat) (channelName : String) (userId : Int)
  | lookup (call : Nat)
  | create (call number : Nat) (now : Int)
  | add (call : Nat)
  | sendClientMessage (call : Nat) (message : Message) (channelName : String) (userId : Int)
  | find (call : Nat)
  | rendezvous (party : Party)
  | tick (number : Nat)
  | write (number : Nat) (succeeds : Bool)
  | writeClose (number : Nat) (succeeds : Bool)
  | cleanup (number : Nat)
  | closeConn (number : Nat)
  | read (number : Nat) (outcome : ReadOutcome)

/-- The steps of registrations and pushes, and of the goroutines of clients. -/
inductive ClientStep (settings : Settings) (state : ClientState) :
    ClientLabel → ClientState → Prop where
  | registerClient {call channelName userId} (fresh : state.registers call = none) :
      ClientStep settings state (.registerClient call channelName userId)
        (state.putRegister call { key := clientKey channelName userId })
  | lookup {call register} (found : state.registers call = some register)
      (stage : register.stage = .looking) :
      ClientStep settings state (.lookup call)
        (state.putRegister call (register.lookup state.clientMap))
  | create {call number now register} (found : state.registers call = some register)
      (stage : register.stage = .creating) (fresh : state.clients number = none)
      (later : state.clock ≤ now) :
      ClientStep settings state (.create call number now)
        { (state.putClient number { key := register.key, timestamp := now }).putRegister call
            { register with stage := .adding number } with
          clock := now }
  | add {call number register} (found : state.registers call = some register)
      (stage : register.stage = .adding number) :
      ClientStep settings state (.add call) (state.add call number register)
  | sendClientMessage {call message channelName userId} (fresh : state.sends call = none) :
      ClientStep settings state (.sendClientMessage call message channelName userId)
        (state.putSend call { key := clientKey channelName userId, message })
  | find {call send} (found : state.sends call = some send) (stage : send.stage = .looking) :
      ClientStep settings state (.find call) (state.putSend call (send.lookup state.clientMap))
  | rendezvous {party number item} (offers : state.offers settings party = some (number, item))
      (selects : state.writerOf number = some .selecting) :
      ClientStep settings state (.rendezvous party) ((state.advance party).receive number item)
  | tick {number client} (found : state.clients number = some client)
      (writer : client.writer = .selecting) :
      ClientStep settings state (.tick number)
        (state.putClient number { client with writer := .writing .ping })
  | write {number client frame succeeds} (found : state.clients number = some client)
      (writer : client.writer = .writing frame) :
      ClientStep settings state (.write number succeeds)
        (state.putClient number (client.write frame succeeds))
  | writeClose {number client succeeds} (found : state.clients number = some client)
      (writer : client.writer = .stopping) :
      ClientStep settings state (.writeClose number succeeds)
        (state.putClient number (client.writeClose succeeds))
  | cleanup {number client} (found : state.clients number = some client)
      (writer : client.writer = .left) :
      ClientStep settings state (.cleanup number) (state.cleanup number client)
  | closeConn {number client} (found : state.clients number = some client)
      (writer : client.writer = .cleaned) :
      ClientStep settings state (.closeConn number)
        (state.putClient number { client with writer := .returned })
  | read {number client outcome} (found : state.clients number = some client)
      (reader : client.reader = .reading) :
      ClientStep settings state (.read number outcome)
        (state.putClient number { client with reader := .after outcome })

/-- A process before its first registration. -/
def webSocketClients (settings : Settings) : System ClientState ClientLabel where
  Initial state := state = {}
  Step := ClientStep settings

/-! ### What holds in every order -/

/-- What the map points to, and what a registration goes on with, is a client of the key. -/
structure ClientInv (state : ClientState) : Prop where
  mapped : ∀ key number, state.clientMap key = some number →
    ∃ client, state.clients number = some client ∧ client.key = key
  held : ∀ call register number, state.registers call = some register →
    register.holds = some number →
      ∃ client, state.clients number = some client ∧ client.key = register.key

variable {settings : Settings} {state next : ClientState} {label : ClientLabel}
  {number call : Nat} {client after : WebSocketClient} {register : RegisterCall}

section Puts

variable (state) (number) (call)

@[simp] theorem putClient_self : (state.putClient number after).clients number = some after :=
  Function.update_self ..

theorem putClient_of_ne {other : Nat} (apart : other ≠ number) :
    (state.putClient number after).clients other = state.clients other :=
  Function.update_of_ne apart ..

@[simp] theorem putRegister_self :
    (state.putRegister call register).registers call = some register :=
  Function.update_self ..

theorem putRegister_of_ne {other : Nat} (apart : other ≠ call) :
    (state.putRegister call register).registers other = state.registers other :=
  Function.update_of_ne apart ..

@[simp] theorem putSend_self {send : SendClientCall} :
    (state.putSend call send).sends call = some send :=
  Function.update_self ..

theorem putSend_of_ne {send : SendClientCall} {other : Nat} (apart : other ≠ call) :
    (state.putSend call send).sends other = state.sends other :=
  Function.update_of_ne apart ..

end Puts

/-- What a step that makes no client does to the clients: each keeps its key and its time, and a
writer never gets back into its loop. -/
structure Moves (state next : ClientState) : Prop where
  forward : ∀ number client, state.clients number = some client →
    ∃ after, next.clients number = some after ∧ after.key = client.key
  back : ∀ number after, next.clients number = some after →
    ∃ client, state.clients number = some client ∧ client.key = after.key ∧
      client.timestamp = after.timestamp ∧
      (after.writer.isRunning = true → client.writer.isRunning = true) ∧
      (after.writer.isUncleaned = true → client.writer.isUncleaned = true)

namespace Moves

/-- Without a change of the clients nothing moves. -/
theorem refl (same : next.clients = state.clients) : Moves state next where
  forward number client found := ⟨client, by rw [same, found], rfl⟩
  back number after found := by
    rw [same] at found
    exact ⟨after, found, rfl, rfl, id, id⟩

/-- Moves are made one after the other. -/
theorem trans {last : ClientState} (first : Moves state next) (second : Moves next last) :
    Moves state last where
  forward number client found := by
    obtain ⟨middle, foundMiddle, sameMiddle⟩ := first.forward number client found
    obtain ⟨after, foundAfter, sameAfter⟩ := second.forward number middle foundMiddle
    exact ⟨after, foundAfter, sameAfter.trans sameMiddle⟩
  back number after found := by
    obtain ⟨middle, foundMiddle, key, time, runs, uncleaned⟩ := second.back number after found
    obtain ⟨client, foundClient, key', time', runs', uncleaned'⟩ :=
      first.back number middle foundMiddle
    exact ⟨client, foundClient, key'.trans key, time'.trans time, runs' ∘ runs,
      uncleaned' ∘ uncleaned⟩

/-- A change of one client. -/
theorem put (found : state.clients number = some client) (key : after.key = client.key)
    (time : after.timestamp = client.timestamp)
    (runs : after.writer.isRunning = true → client.writer.isRunning = true)
    (uncleaned : after.writer.isUncleaned = true → client.writer.isUncleaned = true) :
    Moves state (state.putClient number after) where
  forward other there known := by
    by_cases own : other = number
    · subst own
      rw [found] at known
      cases known
      exact ⟨after, putClient_self .., key⟩
    · exact ⟨there, (putClient_of_ne _ _ own).trans known, rfl⟩
  back other there known := by
    by_cases own : other = number
    · subst own
      rw [putClient_self] at known
      cases known
      exact ⟨client, found, key.symm, time.symm, runs, uncleaned⟩
    · rw [putClient_of_ne _ _ own] at known
      exact ⟨there, known, rfl, rfl, id, id⟩

end Moves

/-- The send of a goroutine changes at most the reader of a client. -/
theorem moves_advance (party : Party) : Moves state (state.advance party) := by
  cases party with
  | register call => exact .refl rfl
  | send call => exact .refl rfl
  | reader number =>
      cases found : state.clients number with
      | none =>
          apply Moves.refl
          funext other
          by_cases own : other = number
          · subst own
            simp [ClientState.advance, found]
          · simp [ClientState.advance, own]
      | some client =>
          have same : state.advance (.reader number) =
              state.putClient number client.advanceReader := by
            simp [ClientState.advance, ClientState.putClient, found]
          rw [same]
          exact .put found rfl rfl id id

/-- The send of a goroutine leaves the writers where they are. -/
@[simp]
theorem writerOf_advance (party : Party) (number : Nat) :
    (state.advance party).writerOf number = state.writerOf number := by
  cases party with
  | register call => rfl
  | send call => rfl
  | reader client =>
      by_cases own : number = client
      · subst own
        cases found : state.clients number <;>
          simp [ClientState.advance, ClientState.writerOf, WebSocketClient.advanceReader, found]
      · simp [ClientState.advance, ClientState.writerOf, own]

/-- A writer that receives was in its loop. -/
theorem moves_receive {item : Item} (selects : state.writerOf number = some .selecting) :
    Moves state (state.receive number item) := by
  obtain ⟨client, found, writer⟩ := Option.map_eq_some_iff.mp selects
  have same : state.receive number item = state.putClient number (client.receive item) := by
    simp [ClientState.receive, ClientState.putClient, found]
  rw [same]
  exact .put found rfl rfl (fun _ => by rw [writer]; rfl) (fun _ => by rw [writer]; rfl)

/-- A send moves its receiver only. -/
theorem moves_rendezvous {party : Party} {item : Item}
    (selects : state.writerOf number = some .selecting) :
    Moves state ((state.advance party).receive number item) :=
  (moves_advance party).trans (moves_receive (by simpa using selects))

/-- A write leaves the loop or stays in it. -/
theorem moves_write {frame : Frame} {succeeds : Bool} (found : state.clients number = some client)
    (writer : client.writer = .writing frame) :
    Moves state (state.putClient number (client.write frame succeeds)) := by
  cases succeeds with
  | true => exact .put found rfl rfl (fun _ => by rw [writer]; rfl) (fun _ => by rw [writer]; rfl)
  | false => exact .put found rfl rfl (fun runs => by cases runs) (fun _ => by rw [writer]; rfl)

/-! ### Which registration has which client ahead of it -/

/-- A send leaves a registration at most with the client that it had. -/
theorem holds_advance (held : register.advance.holds = some number) :
    register.holds = some number := by
  unfold RegisterCall.advance RegisterCall.holds at held
  unfold RegisterCall.holds
  cases stage : register.stage with
  | warning old | adding new =>
      rw [stage] at held
      exact held
  | kicking old | greeting new | looking | creating | returned =>
      rw [stage] at held
      cases held

/-- A registration holds the client that it has found. -/
theorem holds_lookup {clientMap : ClientMap} :
    (register.lookup clientMap).holds = clientMap register.key := by
  unfold RegisterCall.lookup RegisterCall.holds
  cases clientMap register.key with
  | none => rfl
  | some old => rfl

/-- A lookup keeps the key. -/
@[simp]
theorem key_lookup {clientMap : ClientMap} : (register.lookup clientMap).key = register.key := by
  unfold RegisterCall.lookup
  cases clientMap register.key with
  | none => rfl
  | some old => rfl

/-- The registrations after a send, each from the one before. -/
theorem registers_advance (party : Party) {register : RegisterCall}
    (found : (state.advance party).registers call = some register) :
    ∃ before, state.registers call = some before ∧ before.key = register.key ∧
      (register = before ∨ register = before.advance) := by
  cases party with
  | register own =>
      by_cases same : call = own
      · subst same
        obtain ⟨before, known, rfl⟩ : ∃ before, state.registers call = some before ∧
            before.advance = register := by simpa [ClientState.advance] using found
        exact ⟨before, known, rfl, .inr rfl⟩
      · exact ⟨register, by simpa [ClientState.advance, same] using found, rfl, .inl rfl⟩
  | send own => exact ⟨register, found, rfl, .inl rfl⟩
  | reader client => exact ⟨register, found, rfl, .inl rfl⟩

/-- A registration that is to add its client waits at no send. -/
theorem advance_adding (party : Party) (found : state.registers call = some register)
    (stage : register.stage = .adding number) :
    (state.advance party).registers call = some register := by
  cases party with
  | register own =>
      by_cases same : call = own
      · subst same
        obtain ⟨key, shown⟩ := register
        cases stage
        simp [ClientState.advance, RegisterCall.advance, found]
      · simpa [ClientState.advance, same] using found
  | send own => exact found
  | reader client => exact found

/-- A clean-up adds nothing to the map. -/
theorem cleanup_subset {clients : Nat → Option WebSocketClient} {clientMap : ClientMap}
    {key : String} (kept : Channel.cleanup clients clientMap client key = some number) :
    clientMap key = some number := by
  unfold Channel.cleanup at kept
  cases entry : clientMap client.key with
  | none =>
      rw [entry] at kept
      exact kept
  | some other =>
      simp only [entry] at kept
      split_ifs at kept
      · by_cases own : key = client.key
        · subst own
          simp at kept
        · simpa [own] using kept
      · exact kept

namespace ClientInv

/-- Without clients nothing is mapped. -/
theorem initial : ClientInv {} where
  mapped _ _ known := by cases known
  held _ _ _ known := by cases known

/-- A step that makes no client and leaves the map alone. -/
theorem moves (inv : ClientInv state) (moves : Moves state next)
    (sameMap : next.clientMap = state.clientMap)
    (calls : ∀ call register number, next.registers call = some register →
      register.holds = some number → ∃ client, state.clients number = some client ∧
        client.key = register.key) : ClientInv next where
  mapped key number known := by
    rw [sameMap] at known
    obtain ⟨client, found, rfl⟩ := inv.mapped key number known
    exact moves.forward number client found
  held call register number known holds := by
    obtain ⟨client, found, key⟩ := calls call register number known holds
    obtain ⟨after, foundAfter, keyAfter⟩ := moves.forward number client found
    exact ⟨after, foundAfter, keyAfter.trans key⟩

/-- One registration goes on to a stage with a client of its key. -/
theorem putRegister (inv : ClientInv state)
    (holds : ∀ number, register.holds = some number →
      ∃ client, state.clients number = some client ∧ client.key = register.key) :
    ClientInv (state.putRegister call register) := by
  refine inv.moves (.refl rfl) rfl ?_
  intro other shown number known held
  by_cases own : other = call
  · subst own
    rw [putRegister_self] at known
    cases known
    exact holds number held
  · rw [putRegister_of_ne _ _ own] at known
    exact inv.held other shown number known held

/-- A registration holds the client that it has made. -/
theorem create (inv : ClientInv state) (fresh : state.clients number = none) {now : Int} :
    ClientInv { (state.putClient number { key := register.key, timestamp := now }).putRegister call
      { register with stage := .adding number } with clock := now } := by
  have older : ∀ other client, state.clients other = some client →
      (state.putClient number { key := register.key, timestamp := now }).clients other =
        some client := by
    intro other client found
    have apart : other ≠ number := by
      rintro rfl
      rw [fresh] at found
      cases found
    exact (putClient_of_ne _ _ apart).trans found
  have made : ClientInv (state.putClient number { key := register.key, timestamp := now }) :=
    { mapped := fun key other known => by
        obtain ⟨client, found, same⟩ := inv.mapped key other known
        exact ⟨client, older other client found, same⟩
      held := fun other shown client known held => by
        obtain ⟨found, there, same⟩ := inv.held other shown client known held
        exact ⟨found, older client found there, same⟩ }
  have added : ClientInv (ClientState.putRegister _ call { register with stage := .adding number }) :=
    made.putRegister (by
      rintro other ⟨⟩
      exact ⟨_, putClient_self .., rfl⟩)
  exact ⟨added.mapped, added.held⟩

/-- The map gets a client of the key. -/
theorem add (inv : ClientInv state) (found : state.registers call = some register)
    (stage : register.stage = .adding number) : ClientInv (state.add call number register) := by
  have own := inv.held call register number found (by simp [RegisterCall.holds, stage])
  have greeting : ClientInv (state.putRegister call { register with stage := .greeting number }) :=
    inv.putRegister (by
      rintro other ⟨⟩
      exact own)
  constructor
  · intro key other known
    by_cases same : key = register.key
    · subst same
      have this : some number = some other := by simpa [ClientState.add] using known
      cases this
      exact own
    · exact inv.mapped key other (by simpa [ClientState.add, same] using known)
  · exact greeting.held

/-- The map after the critical section of a writer's end. -/
theorem cleanup (inv : ClientInv state) (found : state.clients number = some client)
    (writer : client.writer = .left) : ClientInv (state.cleanup number client) := by
  have moves : Moves state (state.putClient number { client with writer := .cleaned }) :=
    .put found rfl rfl (fun runs => by cases runs) (fun _ => by rw [writer]; rfl)
  have put := inv.moves moves rfl inv.held
  constructor
  · intro key other known
    refine put.mapped key other ?_
    show state.clientMap key = some other
    exact cleanup_subset known
  · exact put.held

/-- Every step keeps what is mapped and held. -/
theorem step (inv : ClientInv state) (taken : ClientStep settings state label next) :
    ClientInv next := by
  cases taken with
  | registerClient fresh => exact inv.putRegister (by rintro number ⟨⟩)
  | lookup found stage =>
      apply inv.putRegister
      intro number holds
      rw [holds_lookup] at holds
      rw [key_lookup]
      exact inv.mapped _ number holds
  | create found stage fresh later => exact inv.create fresh
  | add found stage => exact inv.add found stage
  | sendClientMessage fresh => exact inv.moves (.refl rfl) rfl inv.held
  | find found stage => exact inv.moves (.refl rfl) rfl inv.held
  | @rendezvous party number item offers selects =>
      refine inv.moves (moves_rendezvous selects) (by cases party <;> rfl) ?_
      intro call register other known holds
      obtain ⟨before, there, key, rfl | rfl⟩ := registers_advance party known
      · exact inv.held call register other there holds
      · exact inv.held call before other there (holds_advance holds)
  | tick found writer =>
      exact inv.moves (.put found rfl rfl (fun _ => by rw [writer]; rfl)
        (fun _ => by rw [writer]; rfl)) rfl inv.held
  | write found writer => exact inv.moves (moves_write found writer) rfl inv.held
  | writeClose found writer =>
      exact inv.moves (.put found rfl rfl (fun runs => by cases runs)
        (fun _ => by rw [writer]; rfl)) rfl inv.held
  | cleanup found writer => exact inv.cleanup found writer
  | closeConn found writer =>
      exact inv.moves (.put found rfl rfl (fun runs => by cases runs)
        (fun uncleaned => by cases uncleaned)) rfl inv.held
  | read found reader => exact inv.moves (.put found rfl rfl id id) rfl inv.held

/-- The invariant holds in every order. -/
theorem reachable (reachable : (webSocketClients settings).Reachable state) : ClientInv state :=
  reachable.invariant (by rintro state rfl; exact .initial) fun inv taken => inv.step taken

end ClientInv

end MessagePusher.WebSocket
