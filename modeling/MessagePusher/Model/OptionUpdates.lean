import MessagePusher.Model.Option
import MessagePusher.Semantics.Transition
import Mathlib.Data.List.Nodup

/-!
# Concurrent updates of options

`UpdateOption` writes the table and then calls `updateOptionMap`, and nothing holds the two
together. `InOrder` is the condition on the second step under which memory ends up with what
a restart would read.
-/

namespace MessagePusher.Model

open Semantics Store

/-- A call of `UpdateOption`, with whether the table has been written. -/
structure OptionCall where
  key : String
  value : String
  saved : Bool := false
deriving DecidableEq

/-- The table, the memory, and the calls in progress. -/
structure OptionState where
  table : OptionTable
  options : Options
  calls : List OptionCall := []

inductive OptionLabel where
  | call (key value : String)
  | save (key value : String)
  | updateMap (key value : String)

inductive OptionStep (state : OptionState) : OptionLabel → OptionState → Prop where
  | call {key value} :
      OptionStep state (.call key value) { state with calls := state.calls ++ [{ key, value }] }
  | save {key value before after table}
      (running : state.calls = before ++ { key, value } :: after)
      (written : state.table.updateOption key value = some table) :
      OptionStep state (.save key value)
        { state with table, calls := before ++ { key, value, saved := true } :: after }
  | updateMap {key value before after}
      (running : state.calls = before ++ { key, value, saved := true } :: after) :
      OptionStep state (.updateMap key value)
        { state with
          options := updateOptionMap state.options key value
          calls := before ++ after }

namespace OptionState

variable (state : OptionState)

/-- The options are those of a process that starts on the table, in whatever order it reads
the rows. -/
def AsRestarted : Prop :=
  ∀ rows : OptionRows, rows.Perm state.table.rows → state.options = initOptionMap {} rows

/-- A call has written this row and has still to update the map. -/
def Pending (key value : String) : Prop :=
  { key, value, saved := true } ∈ state.calls

end OptionState

/-- A process that has read its options, before the first update. -/
def optionUpdates : System OptionState OptionLabel where
  Initial state :=
    (∃ rows : OptionRows, rows.Perm state.table.rows ∧ state.options = initOptionMap {} rows) ∧
      state.calls = []
  Step := OptionStep

/-- Keys are not empty, and a call that updates the map finds its value in the table, or that
of a call that is still to update the map. -/
def InOrder (state : OptionState) : OptionLabel → Prop
  | .call _ _ => True
  | .save key _ => key ≠ ""
  | .updateMap key value => ∃ row ∈ state.table.rows, row.1 = key ∧
      (row.2 = value ∨ state.Pending key row.2)

/-- Only keys of the table were ever updated, and the memory has the value of each row, or a
call will give it to it. -/
structure Coherent (state : OptionState) : Prop where
  loaded : ∃ history : OptionRows, state.options = initOptionMap {} history ∧
    ∀ past ∈ history, ∃ row ∈ state.table.rows, row.1 = past.1
  kept : ∀ row ∈ state.table.rows,
    updateOptionMap state.options row.1 row.2 = state.options ∨ state.Pending row.1 row.2
  saved : ∀ key value, state.Pending key value → ∃ row ∈ state.table.rows, row.1 = key

variable {state next : OptionState}

theorem Coherent.initial (started : optionUpdates.Initial state) : Coherent state := by
  obtain ⟨⟨rows, listed, restarted⟩, idle⟩ := started
  have distinct : (rows.map Prod.fst).Nodup :=
    (listed.map Prod.fst).nodup_iff.mpr state.table.unique
  refine ⟨⟨rows, restarted, fun past there => ⟨past, listed.mem_iff.mp there, rfl⟩⟩, ?_, ?_⟩
  · intro row there
    left
    rw [restarted]
    exact updateOptionMap_independent.assignAll_settles distinct (listed.mem_iff.mpr there) _
  · intro key value pending
    rw [OptionState.Pending, idle] at pending
    cases pending

/-- Where no call is in progress, the memory is that of a restart. -/
theorem Coherent.asRestarted (coherent : Coherent state) (idle : state.calls = []) :
    state.AsRestarted := by
  intro rows listed
  obtain ⟨history, loaded, covered⟩ := coherent.loaded
  have settled : ∀ row ∈ rows, updateOptionMap state.options row.1 row.2 = state.options := by
    intro row there
    rcases coherent.kept row (listed.mem_iff.mp there) with same | pending
    · exact same
    · rw [OptionState.Pending, idle] at pending
      cases pending
  rw [loaded] at settled ⊢
  refine updateOptionMap_independent.eq_assignAll (fun past there => ?_) settled
  obtain ⟨row, present, named⟩ := covered past there
  exact ⟨row, listed.mem_iff.mpr present, named⟩

/-! ### The calls that wait -/

section Waiting

variable {key value : String} {before after : List OptionCall}

theorem pending_call (key value name text : String) :
    OptionState.Pending { state with calls := state.calls ++ [{ key, value }] } name text ↔
      state.Pending name text := by
  simp [OptionState.Pending]

/-- The call that has written waits beside the others. -/
theorem pending_save (running : state.calls = before ++ { key, value } :: after)
    (name text : String) :
    { key := name, value := text, saved := true } ∈
        before ++ { key, value, saved := true } :: after ↔
      (name = key ∧ text = value) ∨ state.Pending name text := by
  simp only [OptionState.Pending, running, List.mem_append, List.mem_cons, OptionCall.mk.injEq]
  simp
  tauto

/-- The call that is done waits no more. -/
theorem pending_updateMap
    (running : state.calls = before ++ { key, value, saved := true } :: after)
    (name text : String) :
    state.Pending name text ↔ (name = key ∧ text = value) ∨
      { key := name, value := text, saved := true } ∈ before ++ after := by
  simp only [OptionState.Pending, running, List.mem_append, List.mem_cons, OptionCall.mk.injEq]
  tauto

end Waiting

namespace Coherent

/-- A later call does not touch what is there. -/
theorem call (coherent : Coherent state) (key value : String) :
    Coherent { state with calls := state.calls ++ [{ key, value }] } := by
  refine ⟨coherent.loaded, fun row there => ?_, fun name text pending => ?_⟩
  · exact (coherent.kept row there).imp_right (pending_call key value _ _).mpr
  · exact coherent.saved name text ((pending_call key value _ _).mp pending)

/-- The row that was written is pending, and the others are what they were. -/
theorem save {key value : String} {before after : List OptionCall} {table : OptionTable}
    (coherent : Coherent state) (named : key ≠ "")
    (running : state.calls = before ++ { key, value } :: after)
    (written : state.table.updateOption key value = some table) :
    Coherent { state with table, calls := before ++ { key, value, saved := true } :: after } := by
  obtain ⟨rows, present, grows⟩ := OptionTable.updateOption_spec named written
  have kept : ∀ name, (∃ row ∈ state.table.rows, row.1 = name) → ∃ row ∈ table.rows, row.1 = name :=
    fun name there => List.mem_map.mp (grows name (List.mem_map.mpr there))
  refine ⟨?_, fun row there => ?_, fun name text waits => ?_⟩
  · obtain ⟨history, loaded, covered⟩ := coherent.loaded
    exact ⟨history, loaded, fun past there => kept _ (covered past there)⟩
  · rcases rows row there with rfl | ⟨old, -⟩
    · exact .inr ((pending_save running _ _).mpr (.inl ⟨rfl, rfl⟩))
    · exact (coherent.kept row old).imp_right fun waits => (pending_save running _ _).mpr (.inr waits)
  · rcases (pending_save running _ _).mp waits with ⟨rfl, -⟩ | waits
    · exact List.mem_map.mp present
    · exact kept _ (coherent.saved name text waits)

/-- A row after an update of the map that comes in order: that of the key has the value or a
call waits with its own, and the others are not concerned. -/
theorem kept_updateMap {key value : String} {before after : List OptionCall}
    (coherent : Coherent state)
    (running : state.calls = before ++ { key, value, saved := true } :: after)
    (inOrder : InOrder state (.updateMap key value)) {row : String × String}
    (listed : row ∈ state.table.rows) :
    updateOptionMap (updateOptionMap state.options key value) row.1 row.2 =
        updateOptionMap state.options key value ∨
      { key := row.1, value := row.2, saved := true } ∈ before ++ after := by
  have still : ¬ (row.1 = key ∧ row.2 = value) → state.Pending row.1 row.2 →
      { key := row.1, value := row.2, saved := true } ∈ before ++ after :=
    fun apart waits => ((pending_updateMap running _ _).mp waits).resolve_left apart
  by_cases same : row.1 = key
  · obtain ⟨own, there, named, settles⟩ := inOrder
    obtain rfl : row = own :=
      List.inj_on_of_nodup_map state.table.unique listed there (same.trans named.symm)
    by_cases new : row.2 = value
    · left
      rw [same, new]
      exact updateOptionMap_independent.overwrites ..
    · have waits : state.Pending row.1 row.2 := by
        rw [same]
        exact settles.resolve_left new
      exact .inr (still (fun both => new both.2) waits)
  · rcases coherent.kept row listed with unchanged | waits
    · left
      rw [updateOptionMap_independent.commutes _ _ _ _ _ (Ne.symm same), unchanged]
    · exact .inr (still (fun both => same both.1) waits)

/-- An update of the map keeps the memory coherent exactly when it comes in order. -/
theorem updateMap_iff {key value : String} {before after : List OptionCall}
    (coherent : Coherent state)
    (running : state.calls = before ++ { key, value, saved := true } :: after) :
    Coherent { state with
        options := updateOptionMap state.options key value
        calls := before ++ after } ↔
      InOrder state (.updateMap key value) := by
  have waited : ∀ name text, { key := name, value := text, saved := true } ∈ before ++ after →
      state.Pending name text := fun name text waits => (pending_updateMap running _ _).mpr (.inr waits)
  constructor
  · intro after
    have own : state.Pending key value := (pending_updateMap running _ _).mpr (.inl ⟨rfl, rfl⟩)
    obtain ⟨row, there, named⟩ := coherent.saved key value own
    refine ⟨row, there, named, ?_⟩
    rcases after.kept row there with same | waits
    · left
      have entry := congrFun (congrArg Options.optionMap same) key
      simpa [updateOptionMap, named] using entry
    · exact .inr (named ▸ waited _ _ waits)
  · intro inOrder
    refine ⟨?_, fun row listed => coherent.kept_updateMap running inOrder listed,
      fun name text waits => coherent.saved name text (waited _ _ waits)⟩
    obtain ⟨history, loaded, covered⟩ := coherent.loaded
    obtain ⟨row, there, named, -⟩ := inOrder
    refine ⟨history ++ [(key, value)], ?_, fun past member => ?_⟩
    · show updateOptionMap state.options key value = _
      rw [loaded, initOptionMap, initOptionMap, loadOptions, loadOptions, List.foldl_append]
      rfl
    · rcases List.mem_append.mp member with old | new
      · exact covered past old
      · rw [List.mem_singleton.mp new]
        exact ⟨row, there, named⟩

/-- What the steps in order preserve. -/
theorem step {label : OptionLabel} (coherent : Coherent state)
    (inOrder : InOrder state label) (step : optionUpdates.Step state label next) :
    Coherent next := by
  cases step with
  | call => exact coherent.call _ _
  | save running written => exact coherent.save inOrder running written
  | updateMap running => exact (coherent.updateMap_iff running).mpr inOrder

end Coherent

theorem coherent_of_reachable (reachable : (optionUpdates.guard InOrder).Reachable state) :
    Coherent state := by
  have base : ∀ {state}, optionUpdates.Reachable state → True := fun _ => trivial
  exact reachable.guardInvariant base Coherent.initial
    fun _ coherent inOrder step => coherent.step inOrder step

/-- In every run whose updates come in order, the memory is that of a restart wherever no call
is in progress; and an update of the map keeps it coherent only if it comes in order. -/
theorem updateOption_agrees (reachable : (optionUpdates.guard InOrder).Reachable state) :
    (state.calls = [] → state.AsRestarted) ∧
      ∀ key value next, optionUpdates.Step state (.updateMap key value) next →
        (Coherent next ↔ InOrder state (.updateMap key value)) := by
  have coherent : Coherent state := coherent_of_reachable reachable
  refine ⟨coherent.asRestarted, fun key value next step => ?_⟩
  cases step with
  | updateMap running => exact coherent.updateMap_iff running

/-! ### Calls without a key -/

/-- A call without a key that has written the table wrote to a row with a key. -/
def BlankApart (state : OptionState) : Prop :=
  ∀ value, state.Pending "" value → "" ∉ state.table.keys

theorem BlankApart.step {label : OptionLabel} (apart : BlankApart state)
    (step : optionUpdates.Step state label next) : BlankApart next := by
  cases step with
  | call => exact fun text pending => apart text ((pending_call _ _ _ _).mp pending)
  | @save key value before after table running written =>
      intro text pending
      by_cases named : key = ""
      · subst named
        exact OptionTable.updateOption_blank written
      · rcases (pending_save running _ _).mp pending with ⟨blank, -⟩ | waits
        · exact absurd blank.symm named
        · intro blank
          obtain ⟨row, listed, unnamed⟩ := List.mem_map.mp blank
          obtain ⟨rows, -, -⟩ := OptionTable.updateOption_spec named written
          rcases rows row listed with rfl | ⟨old, -⟩
          · exact named unnamed
          · exact apart text waits (List.mem_map.mpr ⟨row, old, unnamed⟩)
  | updateMap running =>
      exact fun text pending => apart text ((pending_updateMap running _ _).mpr (.inr pending))

/-- A call without a key leaves an entry in the map that no restart makes. -/
theorem updateOption_blank_disagrees {value : String} (reachable : optionUpdates.Reachable state)
    (step : optionUpdates.Step state (.updateMap "" value) next) : ¬ next.AsRestarted := by
  have apart : BlankApart state := by
    refine reachable.invariant (fun started text pending => ?_) BlankApart.step
    rw [OptionState.Pending, started.2] at pending
    cases pending
  cases step with
  | updateMap running =>
      intro restarted
      have same := congrFun (congrArg Options.optionMap (restarted _ (.refl _))) ""
      have absent : ∀ row ∈ state.table.rows, row.1 ≠ "" := fun row listed unnamed =>
        apart value (by simp [OptionState.Pending, running])
          (List.mem_map.mpr ⟨row, listed, unnamed⟩)
      rw [initOptionMap, loadOptions_absent absent] at same
      simp [updateOptionMap, Options.withDefaults, defaultOptionMap, List.lookup_cons] at same

/-! ### Calls that end out of order -/

/-- The table with a footer. -/
def footerTable (footer : String) : OptionTable where
  rows := [("Footer", footer)]
  unique := List.nodup_singleton _

/-- A process that starts on the table. -/
def footerStart : OptionState where
  table := footerTable "a"
  options := initOptionMap {} [("Footer", "a")]

theorem footerStart_initial : optionUpdates.Initial footerStart :=
  ⟨⟨_, .refl _, rfl⟩, rfl⟩

/-- The call that writes first updates the map last. -/
theorem updateOption_crosses : ¬ ∀ state, optionUpdates.Reachable state → state.calls = [] →
    state.AsRestarted := by
  intro claimed
  have start : optionUpdates.Reachable footerStart := .initial footerStart_initial
  have first := start.step (@OptionStep.call _ "Footer" "b")
  have second := first.step (@OptionStep.call _ "Footer" "c")
  have third := second.step
    (@OptionStep.save _ "Footer" "b" [] [{ key := "Footer", value := "c" }] (footerTable "b") rfl rfl)
  have fourth := third.step
    (@OptionStep.save _ "Footer" "c" [{ key := "Footer", value := "b", saved := true }] []
      (footerTable "c") rfl rfl)
  have fifth := fourth.step
    (@OptionStep.updateMap _ "Footer" "c" [{ key := "Footer", value := "b", saved := true }] [] rfl)
  have sixth := fifth.step (@OptionStep.updateMap _ "Footer" "b" [] [] rfl)
  have same := claimed _ sixth rfl [("Footer", "c")] (.refl _)
  have footers := congrArg (fun options => options.settings.footer) same
  revert footers
  decide

/-- One call at a time is in order. -/
theorem updateOption_agrees_footer :
    OptionState.AsRestarted
      { footerStart with
        table := footerTable "b"
        options := updateOptionMap footerStart.options "Footer" "b" } := by
  have start : (optionUpdates.guard InOrder).Reachable footerStart := .initial footerStart_initial
  have called : InOrder footerStart (.call "Footer" "b") := trivial
  have first := start.step ⟨called, .call⟩
  have named : InOrder { footerStart with calls := [{ key := "Footer", value := "b" }] }
      (.save "Footer" "b") := show "Footer" ≠ "" by decide
  have second := first.step
    ⟨named, @OptionStep.save _ "Footer" "b" [] [] (footerTable "b") rfl rfl⟩
  have settled : InOrder
      { footerStart with
        table := footerTable "b"
        calls := [{ key := "Footer", value := "b", saved := true }] }
      (.updateMap "Footer" "b") := ⟨("Footer", "b"), by decide, rfl, .inl rfl⟩
  have third := second.step ⟨settled, @OptionStep.updateMap _ "Footer" "b" [] [] rfl⟩
  exact (updateOption_agrees third).1 rfl

end MessagePusher.Model
