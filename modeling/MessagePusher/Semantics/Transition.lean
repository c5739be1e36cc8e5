import Mathlib.Tactic.Common

/-!
# Labelled transition systems and guarded runs

`Runs` is the only notion of execution. `Guard` cuts a system down to the steps
that meet a condition on the state before the step and on the label, so that
"every run whose steps all meet the condition" is a run of the guarded system.
-/

namespace MessagePusher.Semantics

universe u v

/-- A labelled transition system with its initial states. -/
structure System (State : Type u) (Label : Type v) where
  Initial : State → Prop
  Step : State → Label → State → Prop

namespace System

variable {State : Type u} {Label : Type v} {system : System State Label}

/-- Zero or more steps, with the labels in the order in which they were taken. -/
inductive Runs (system : System State Label) : State → List Label →
    State → Prop where
  | refl {state} : Runs system state [] state
  | step {state labels current label next}
      (prior : Runs system state labels current)
      (transition : system.Step current label next) :
      Runs system state (labels ++ [label]) next

/-- Runs that meet at one state compose. -/
theorem Runs.trans {first middle last : State} {before after : List Label}
    (left : system.Runs first before middle) (right : system.Runs middle after last) :
    system.Runs first (before ++ after) last := by
  induction right with
  | refl => simpa using left
  | step _ transition ih => simpa [List.append_assoc] using Runs.step ih transition

/-- A single step is a run. -/
theorem Runs.single {state next : State} {label : Label}
    (transition : system.Step state label next) : system.Runs state [label] next :=
  Runs.step .refl transition

/-- A step put in front of a run. -/
theorem Runs.head {state middle last : State} {label : Label}
    {labels : List Label} (transition : system.Step state label middle)
    (rest : system.Runs middle labels last) : system.Runs state (label :: labels) last :=
  (Runs.single transition).trans rest

/-- A state some run from an initial state ends in. -/
def Reachable (system : System State Label) (state : State) : Prop :=
  ∃ start labels, system.Initial start ∧ system.Runs start labels state

theorem Reachable.initial {state : State} (valid : system.Initial state) :
    system.Reachable state :=
  ⟨state, [], valid, .refl⟩

theorem Reachable.step {state next : State} {label : Label}
    (reachable : system.Reachable state) (transition : system.Step state label next) :
    system.Reachable next := by
  obtain ⟨start, labels, valid, runs⟩ := reachable
  exact ⟨start, labels ++ [label], valid, runs.step transition⟩

theorem Reachable.runs {state next : State} {labels : List Label}
    (reachable : system.Reachable state) (runs : system.Runs state labels next) :
    system.Reachable next := by
  obtain ⟨start, before, valid, prior⟩ := reachable
  exact ⟨start, before ++ labels, valid, prior.trans runs⟩

/-- What every step preserves, every run preserves. -/
theorem Runs.invariant {Inv : State → Prop}
    (preserved : ∀ {state label next}, Inv state → system.Step state label next → Inv next)
    {state next : State} {labels : List Label}
    (runs : system.Runs state labels next) (holds : Inv state) : Inv next := by
  induction runs with
  | refl => exact holds
  | step _ transition ih => exact preserved ih transition

/-- Where every step lowers a rank, a run is no longer than the rank in its first state. -/
theorem Runs.length_le {rank : State → Nat}
    (lowers : ∀ {state label next}, system.Step state label next → rank next < rank state)
    {state next : State} {labels : List Label} (runs : system.Runs state labels next) :
    labels.length + rank next ≤ rank state := by
  induction runs with
  | refl => simp
  | step _ transition ih =>
      have lower := lowers transition
      rw [List.length_append, List.length_singleton]
      omega

/-- The invariant rule: true initially and preserved, hence true of every reachable state. -/
theorem Reachable.invariant {Inv : State → Prop}
    (initial : ∀ {state}, system.Initial state → Inv state)
    (preserved : ∀ {state label next}, Inv state → system.Step state label next → Inv next)
    {state : State} (reachable : system.Reachable state) : Inv state := by
  obtain ⟨start, labels, valid, runs⟩ := reachable
  exact runs.invariant preserved (initial valid)

/-- Every step of every run from `start` has a property. -/
def Always (system : System State Label) (property : State → Label → State → Prop)
    (start : State) : Prop :=
  ∀ ⦃labels state label next⦄, system.Runs start labels state →
    system.Step state label next → property state label next

/-- The system cut down to the steps a condition permits. -/
def guard (system : System State Label) (permitted : State → Label → Prop) :
    System State Label where
  Initial := system.Initial
  Step state label next := permitted state label ∧ system.Step state label next

variable {permitted : State → Label → Prop}

/-- Forgetting the condition gives a run of the whole system. -/
theorem Runs.ofGuard {state next : State} {labels : List Label}
    (runs : (system.guard permitted).Runs state labels next) :
    system.Runs state labels next := by
  induction runs with
  | refl => exact .refl
  | step _ transition ih => exact ih.step transition.2

theorem Reachable.ofGuard {state : State}
    (reachable : (system.guard permitted).Reachable state) : system.Reachable state := by
  obtain ⟨start, labels, valid, runs⟩ := reachable
  exact ⟨start, labels, valid, runs.ofGuard⟩

/-- A permitted step of the whole system is one of the guarded system. -/
theorem Reachable.permit {state next : State} {label : Label}
    (reachable : (system.guard permitted).Reachable state)
    (transition : system.Step state label next) (allowed : permitted state label) :
    (system.guard permitted).Reachable next :=
  reachable.step ⟨allowed, transition⟩

/-- The invariant rule for guarded runs, with an auxiliary invariant of the whole
system at hand in the step. -/
theorem Reachable.guardInvariant {Base Inv : State → Prop}
    (base : ∀ {state}, system.Reachable state → Base state)
    (initial : ∀ {state}, system.Initial state → Inv state)
    (preserved : ∀ {state label next}, Base state → Inv state → permitted state label →
      system.Step state label next → Inv next)
    {state : State} (reachable : (system.guard permitted).Reachable state) :
    Inv state := by
  obtain ⟨start, labels, valid, runs⟩ := reachable
  induction runs with
  | refl => exact initial valid
  | @step _ current _ _ prior transition ih =>
      have whole : system.Reachable current :=
        Reachable.ofGuard ⟨start, _, valid, prior⟩
      exact preserved (base whole) ih transition.1 transition.2

end System

end MessagePusher.Semantics
