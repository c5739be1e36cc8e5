import MessagePusher.WebSocket.Clients

/-!
# Who waits on which writer

Nothing receives from the channels of a client whose writer has left its loop. `EndsAlone` is
the condition on the ends of writers and on lookups under which no goroutine is left waiting.
-/

namespace MessagePusher.WebSocket

open Common Model Channel Semantics

/-- A goroutine waits at a send to a client whose writer has returned. -/
def Stuck (settings : Settings) (state : ClientState) (party : Party) : Prop :=
  ∃ number item, state.offers settings party = some (number, item) ∧
    state.writerOf number = some .returned

/-- A writer leaves its loop only when no goroutine has a send to its client ahead of it, and a
lookup finds only clients with a writer in its loop. -/
def EndsAlone (settings : Settings) (state : ClientState) : ClientLabel → Prop
  | .rendezvous party => ∀ number, state.offers settings party = some (number, .stop) →
      ∀ other, ¬ (state.advance party).Holds number other
  | .write number false => ∀ other, ¬ state.Holds number other
  | .lookup call => ∀ register number, state.registers call = some register →
      state.clientMap register.key = some number → state.Runs number
  | .find call => ∀ send number, state.sends call = some send →
      state.clientMap send.key = some number → state.Runs number
  | _ => True

/-- Whoever has a send to a client ahead has a writer to take it. -/
def Served (state : ClientState) : Prop :=
  ∀ party number, state.Holds number party → state.Runs number

variable {settings : Settings} {state next : ClientState} {label : ClientLabel} {party : Party}
  {number call : Nat} {client after : WebSocketClient} {register : RegisterCall} {item : Item}

/-- A goroutine at a send has that send ahead of it. -/
theorem holds_of_offers (offers : state.offers settings party = some (number, item)) :
    state.Holds number party := by
  cases party with
  | register call =>
      obtain ⟨register, found, offered⟩ := Option.bind_eq_some_iff.mp offers
      show (state.registers call).bind RegisterCall.holds = some number
      rw [found, Option.bind_some]
      unfold RegisterCall.offers at offered
      unfold RegisterCall.holds
      cases stage : register.stage <;> rw [stage] at offered <;> cases offered <;> rfl
  | send call =>
      obtain ⟨send, found, offered⟩ := Option.bind_eq_some_iff.mp offers
      refine ⟨send, found, ?_⟩
      unfold SendClientCall.offers at offered
      cases stage : send.stage <;> rw [stage] at offered <;> cases offered
      rfl
  | reader own =>
      obtain ⟨found, there, offered⟩ := Option.bind_eq_some_iff.mp offers
      obtain ⟨sent, reads, same⟩ := Option.map_eq_some_iff.mp offered
      cases same
      refine ⟨rfl, found, there, ?_⟩
      intro done
      simp [WebSocketClient.readerOffers, done] at reads

/-- A send takes at most one send from what a goroutine has ahead of it. -/
theorem holds_of_advance {other : Party} (holds : (state.advance party).Holds number other) :
    state.Holds number other := by
  cases other with
  | register call =>
      obtain ⟨register, found, held⟩ := Option.bind_eq_some_iff.mp holds
      obtain ⟨before, there, -, rfl | rfl⟩ := registers_advance party found
      · exact Option.bind_eq_some_iff.mpr ⟨register, there, held⟩
      · exact Option.bind_eq_some_iff.mpr ⟨before, there, holds_advance held⟩
  | send call =>
      obtain ⟨send, found, sending⟩ := holds
      cases party with
      | register own => exact ⟨send, found, sending⟩
      | reader own => exact ⟨send, found, sending⟩
      | send own =>
          by_cases same : call = own
          · subst same
            obtain ⟨before, -, rfl⟩ : ∃ before, state.sends call = some before ∧
                before.advance = send := by simpa [ClientState.advance] using found
            cases sending
          · exact ⟨send, by simpa [ClientState.advance, same] using found, sending⟩
  | reader client =>
      obtain ⟨rfl, shown, found, reads⟩ := holds
      cases party with
      | register own => exact ⟨rfl, shown, found, reads⟩
      | send own => exact ⟨rfl, shown, found, reads⟩
      | reader own =>
          by_cases same : client = own
          · subst same
            obtain ⟨before, there, rfl⟩ : ∃ before, state.clients client = some before ∧
                before.advanceReader = shown := by simpa [ClientState.advance] using found
            refine ⟨rfl, before, there, ?_⟩
            intro done
            exact reads (by simp [WebSocketClient.advanceReader, done])
          · exact ⟨rfl, shown, by simpa [ClientState.advance, same] using found, reads⟩

/-- A receive leaves everybody with the sends that they have ahead. -/
theorem holds_of_receive {own : Nat} {other : Party}
    (holds : (state.receive own item).Holds number other) : state.Holds number other := by
  cases other with
  | register call => exact holds
  | send call => exact holds
  | reader client =>
      obtain ⟨rfl, shown, found, reads⟩ := holds
      by_cases same : client = own
      · subst same
        obtain ⟨before, there, rfl⟩ : ∃ before, state.clients client = some before ∧
            before.receive item = shown := by simpa [ClientState.receive] using found
        exact ⟨rfl, before, there, reads⟩
      · exact ⟨rfl, shown, by simpa [ClientState.receive, same] using found, reads⟩

theorem runs_putClient_of_ne {other : Nat} (apart : other ≠ number) :
    (state.putClient number after).Runs other ↔ state.Runs other := by
  simp only [ClientState.Runs, ClientState.writerOf, putClient_of_ne _ _ apart]

theorem runs_putClient_self :
    (state.putClient number after).Runs number ↔ after.writer.isRunning = true := by
  simp [ClientState.Runs, ClientState.writerOf]

theorem runs_of_found (found : state.clients number = some client) :
    state.Runs number ↔ client.writer.isRunning = true := by
  simp [ClientState.Runs, ClientState.writerOf, found]

/-- After a receive that does not end it, a writer is in its loop. -/
theorem runs_receive (selects : state.writerOf number = some .selecting) (goesOn : item ≠ .stop) :
    (state.receive number item).Runs number := by
  obtain ⟨client, found, -⟩ := Option.map_eq_some_iff.mp selects
  refine ⟨.receive item, by simp [ClientState.writerOf, ClientState.receive, found,
    WebSocketClient.receive], ?_⟩
  cases item with
  | message message => rfl
  | pong => rfl
  | stop => exact absurd rfl goesOn

theorem runs_receive_of_ne {other : Nat} (apart : other ≠ number) :
    (state.receive number item).Runs other ↔ state.Runs other := by
  simp [ClientState.Runs, ClientState.writerOf, ClientState.receive, apart]

namespace Served

theorem initial : Served {} := by
  intro party number holds
  cases party with
  | register call => cases holds
  | send call =>
      obtain ⟨send, found, -⟩ := holds
      cases found
  | reader client =>
      obtain ⟨-, found, there, -⟩ := holds
      cases there

/-- Nobody waits at a send to a writer that is not in its loop. -/
theorem not_stuck (served : Served state) (party : Party) : ¬ Stuck settings state party := by
  rintro ⟨number, item, offers, writer⟩
  obtain ⟨shown, there, runs⟩ := served party number (holds_of_offers offers)
  rw [writer] at there
  cases there
  cases runs

/-- A change of one client, whose writer stays in its loop or has nobody to serve. -/
theorem putClient (served : Served state) (found : state.clients number = some client)
    (reads : after.reader ≠ .returned → client.reader ≠ .returned)
    (runs : client.writer.isRunning = true →
      after.writer.isRunning = true ∨ ∀ party, ¬ state.Holds number party) :
    Served (state.putClient number after) := by
  intro party other holds
  have before : state.Holds other party := by
    cases party with
    | register call => exact holds
    | send call => exact holds
    | reader own =>
        obtain ⟨rfl, shown, there, open_⟩ := holds
        by_cases same : own = number
        · subst same
          rw [putClient_self] at there
          cases there
          exact ⟨rfl, client, found, reads open_⟩
        · rw [putClient_of_ne _ _ same] at there
          exact ⟨rfl, shown, there, open_⟩
  have ran := served party other before
  by_cases same : other = number
  · subst same
    rcases runs ((runs_of_found found).mp ran) with still | nobody
    · exact runs_putClient_self.mpr still
    · exact absurd before (nobody party)
  · exact (runs_putClient_of_ne same).mpr ran

/-- One registration goes on to a stage whose client runs. -/
theorem putRegister (served : Served state)
    (runs : ∀ number, register.holds = some number → state.Runs number) :
    Served (state.putRegister call register) := by
  intro party number holds
  cases party with
  | register other =>
      obtain ⟨shown, there, held⟩ := Option.bind_eq_some_iff.mp holds
      by_cases same : other = call
      · subst same
        rw [putRegister_self] at there
        cases there
        exact runs number held
      · rw [putRegister_of_ne _ _ same] at there
        exact served (.register other) number (Option.bind_eq_some_iff.mpr ⟨shown, there, held⟩)
  | send other => exact served (.send other) number holds
  | reader client => exact served (.reader client) number holds

/-- One push goes on to a stage whose client runs. -/
theorem putSend (served : Served state) {send : SendClientCall}
    (runs : ∀ number, send.stage = .sending number → state.Runs number) :
    Served (state.putSend call send) := by
  intro party number holds
  cases party with
  | register other => exact served (.register other) number holds
  | send other =>
      obtain ⟨shown, there, sending⟩ := holds
      by_cases same : other = call
      · subst same
        rw [putSend_self] at there
        cases there
        exact runs number sending
      · rw [putSend_of_ne _ _ same] at there
        exact served (.send other) number ⟨shown, there, sending⟩
  | reader client => exact served (.reader client) number holds

/-- A new client comes with its writer. -/
theorem newClient (served : Served state) (fresh : state.clients number = none)
    (runs : after.writer.isRunning = true) : Served (state.putClient number after) := by
  intro party other holds
  by_cases same : other = number
  · subst same
    exact runs_putClient_self.mpr runs
  · refine (runs_putClient_of_ne same).mpr (served party other ?_)
    cases party with
    | register call => exact holds
    | send call => exact holds
    | reader own =>
        obtain ⟨rfl, shown, there, reads⟩ := holds
        rw [putClient_of_ne _ _ same] at there
        exact ⟨rfl, shown, there, reads⟩

theorem rendezvous (served : Served state)
    (offers : state.offers settings party = some (number, item))
    (selects : state.writerOf number = some .selecting)
    (permitted : EndsAlone settings state (.rendezvous party)) :
    Served ((state.advance party).receive number item) := by
  intro other held holds
  have advanced := holds_of_receive holds
  have ran := served other held (holds_of_advance advanced)
  by_cases same : held = number
  · subst same
    apply runs_receive (by simpa using selects)
    rintro rfl
    exact permitted held offers other advanced
  · rw [runs_receive_of_ne same]
    simpa [ClientState.Runs] using ran

theorem step (served : Served state) (permitted : EndsAlone settings state label)
    (taken : ClientStep settings state label next) : Served next := by
  cases taken with
  | registerClient fresh => exact served.putRegister (by rintro number ⟨⟩)
  | @lookup call register found stage =>
      apply served.putRegister
      intro number holds
      rw [holds_lookup] at holds
      exact permitted register number found holds
  | @create call number now register found stage fresh later =>
      have made : Served (state.putClient number { key := register.key, timestamp := now }) :=
        served.newClient fresh rfl
      have adding : Served (ClientState.putRegister _ call
          { register with stage := .adding number }) :=
        made.putRegister (by
          rintro other ⟨⟩
          exact runs_putClient_self.mpr rfl)
      exact adding
  | @add call number register found stage =>
      have held : state.Holds number (.register call) := by
        simp [ClientState.Holds, RegisterCall.holds, found, stage]
      have greeting : Served (state.putRegister call { register with stage := .greeting number }) :=
        served.putRegister (by
          rintro other ⟨⟩
          exact served (.register call) number held)
      exact greeting
  | sendClientMessage fresh => exact served.putSend (by rintro number ⟨⟩)
  | @find call send found stage =>
      apply served.putSend
      intro number sending
      unfold SendClientCall.lookup at sending
      cases entry : state.clientMap send.key with
      | none =>
          rw [entry] at sending
          cases sending
      | some there =>
          rw [entry] at sending
          cases sending
          exact permitted send number found entry
  | rendezvous offers selects => exact served.rendezvous offers selects permitted
  | tick found writer => exact served.putClient found id fun _ => .inl rfl
  | @write number client frame succeeds found writer =>
      cases succeeds with
      | true => exact served.putClient found id fun _ => .inl rfl
      | false => exact served.putClient found id fun _ => .inr permitted
  | writeClose found writer =>
      exact served.putClient found id fun runs => by rw [writer] at runs; cases runs
  | @cleanup number client found writer =>
      have cleaned : Served (state.putClient number { client with writer := .cleaned }) :=
        served.putClient found id fun runs => by rw [writer] at runs; cases runs
      exact cleaned
  | closeConn found writer =>
      exact served.putClient found id fun runs => by rw [writer] at runs; cases runs
  | read found reader =>
      exact served.putClient found (fun _ => by rw [reader]; simp) fun runs => .inl runs

end Served

/-- In every run whose writers end alone, no goroutine waits on a writer that has returned. -/
theorem never_stuck_of_ending_alone {settings : Settings} {state : ClientState}
    (reachable :
      ((webSocketClients settings).guard (EndsAlone settings)).Reachable state)
    (party : Party) : ¬ Stuck settings state party := by
  have served : Served state :=
    reachable.invariant (by rintro state rfl; exact .initial)
      fun served taken => served.step taken.1 taken.2
  exact served.not_stuck party

/-- A client whose peer goes away when nobody else is busy with it. -/
theorem never_stuck_of_ending_alone_goodbye :
    ∃ state, state.writerOf 0 = some .stopping ∧ ∀ party, ¬ Stuck {} state party := by
  have start : ((webSocketClients {}).guard (EndsAlone {})).Reachable {} := .initial rfl
  have called := start.permit (@ClientStep.registerClient {} _ 0 "client" 1 rfl) trivial
  have looked := called.permit (@ClientStep.lookup {} _ 0 _ rfl rfl)
    fun _ _ there entry => by cases there; cases entry
  have created := looked.permit (@ClientStep.create {} _ 0 0 0 _ rfl rfl rfl (Int.le_refl 0))
    trivial
  have added := created.permit (@ClientStep.add {} _ 0 0 _ rfl rfl) trivial
  have greeted := added.permit (@ClientStep.rendezvous {} _ (.register 0) 0 _ rfl rfl)
    fun _ stops => by cases stops
  have written := greeted.permit (@ClientStep.write {} _ 0 _ _ true rfl rfl) trivial
  have gone := written.permit (@ClientStep.read {} _ 0 _ .failed rfl rfl) trivial
  have closed := gone.permit (@ClientStep.rendezvous {} _ (.reader 0) 0 _ rfl rfl) (by
    rintro _ ⟨⟩ other holds
    cases other with
    | register call =>
        match call with
        | 0 => cases holds
        | _ + 1 => cases holds
    | send call =>
        obtain ⟨_, there, -⟩ := holds
        cases there
    | reader client =>
        obtain ⟨rfl, _, there, open_⟩ := holds
        cases there
        exact open_ rfl)
  exact ⟨_, rfl, never_stuck_of_ending_alone closed⟩

/-! ### A write that fails -/

/-- The reader calls `close` after its writer is gone. -/
theorem reader_gets_stuck : ¬ ∀ state, (webSocketClients {}).Reachable state →
    ∀ party, ¬ Stuck {} state party := by
  intro claimed
  have start : (webSocketClients {}).Reachable {} := .initial rfl
  have called := start.step (@ClientStep.registerClient {} _ 0 "client" 1 rfl)
  have looked := called.step (@ClientStep.lookup {} _ 0 _ rfl rfl)
  have created := looked.step (@ClientStep.create {} _ 0 0 0 _ rfl rfl rfl (Int.le_refl 0))
  have added := created.step (@ClientStep.add {} _ 0 0 _ rfl rfl)
  have greeted := added.step (@ClientStep.rendezvous {} _ (.register 0) 0 _ rfl rfl)
  have failed := greeted.step (@ClientStep.write {} _ 0 _ _ false rfl rfl)
  have cleaned := failed.step (@ClientStep.cleanup {} _ 0 _ rfl rfl)
  have closed := cleaned.step (@ClientStep.closeConn {} _ 0 _ rfl rfl)
  have read := closed.step (@ClientStep.read {} _ 0 _ .failed rfl rfl)
  exact claimed _ read (.reader 0) ⟨0, .stop, rfl, rfl⟩

end MessagePusher.WebSocket
