import Mathlib.Data.List.Infix
import Mathlib.Data.List.Count
import Mathlib.Tactic.Ring

/-!
# Replacing a marked name

Every occurrence of a text is replaced, from left to right. The text is a mark with a name that
the mark is not in, so no two occurrences overlap.
-/

namespace MessagePusher.Substitution

variable {α : Type} [DecidableEq α]

/-- Every occurrence of `old` replaced by `new`, after leaving out the symbols that are used up. -/
def replace (old new : List α) : Nat → List α → List α
  | _, [] => []
  | skip + 1, _ :: rest => replace old new skip rest
  | 0, symbol :: rest =>
      if old.isPrefixOf (symbol :: rest) then new ++ replace old new (old.length - 1) rest
      else symbol :: replace old new 0 rest

/-- How often `old` starts within a text. -/
def starts (old : List α) : List α → Nat
  | [] => 0
  | symbol :: rest => (if old.isPrefixOf (symbol :: rest) then 1 else 0) + starts old rest

variable {mark : α} {name new text part rest : List α} {symbol : α}

/-! ### One step of the scan -/

theorem replace_skip (old new : List α) (skip : Nat) (text : List α) :
    replace old new skip text = replace old new 0 (text.drop skip) := by
  induction text generalizing skip with
  | nil => cases skip <;> rfl
  | cons symbol rest ih =>
      cases skip with
      | zero => rfl
      | succ skip => exact ih skip

theorem replace_occurrence (mark : α) (name new rest : List α) :
    replace (mark :: name) new 0 (mark :: (name ++ rest)) =
      new ++ replace (mark :: name) new 0 rest := by
  have fits : (mark :: name).isPrefixOf (mark :: (name ++ rest)) :=
    List.isPrefixOf_iff_prefix.mpr (List.prefix_append _ _)
  rw [replace, if_pos fits, List.length_cons, Nat.add_sub_cancel, replace_skip, List.drop_left]

theorem replace_cons {old : List α} (misses : ¬ old <+: symbol :: rest) :
    replace old new 0 (symbol :: rest) = symbol :: replace old new 0 rest := by
  rw [replace, if_neg (fun fits => misses (List.isPrefixOf_iff_prefix.mp fits))]

theorem starts_occurrence {old : List α} (fits : old <+: symbol :: rest) :
    starts old (symbol :: rest) = 1 + starts old rest := by
  rw [starts, if_pos (List.isPrefixOf_iff_prefix.mpr fits)]

theorem starts_cons {old : List α} (misses : ¬ old <+: symbol :: rest) :
    starts old (symbol :: rest) = starts old rest := by
  rw [starts, if_neg (fun fits => misses (List.isPrefixOf_iff_prefix.mp fits)), Nat.zero_add]

theorem starts_le_append (old part rest : List α) : starts old rest ≤ starts old (part ++ rest) := by
  induction part with
  | nil => exact Nat.le_refl _
  | cons symbol part ih => exact Nat.le_trans ih (Nat.le_add_left _ _)

/-- A text is scanned symbol by symbol, and by whole occurrences. -/
theorem scan_induction (mark : α) (name : List α) {motive : List α → Prop} (nil : motive [])
    (occurrence : ∀ rest, motive rest → motive (mark :: (name ++ rest)))
    (cons : ∀ symbol rest, ¬ mark :: name <+: symbol :: rest → motive rest →
      motive (symbol :: rest)) (text : List α) : motive text := by
  induction length : text.length using Nat.strong_induction_on generalizing text with
  | _ length ih =>
    cases text with
    | nil => exact nil
    | cons symbol rest =>
        rw [List.length_cons] at length
        by_cases fits : mark :: name <+: symbol :: rest
        · obtain ⟨after, same⟩ := fits
          obtain ⟨rfl, whole⟩ := List.cons.inj same
          have whole : rest = name ++ after := whole.symm
          subst whole
          refine occurrence after (ih _ ?_ after rfl)
          rw [← length, List.length_append]
          omega
        · exact cons symbol rest fits (ih _ (by omega) rest rfl)

/-! ### Where nothing is replaced -/

/-- A part of a text in which no occurrence starts is left alone. -/
theorem replace_append {old : List α}
    (misses : ∀ front back, part = front ++ back → back ≠ [] → ¬ old <+: back ++ rest) :
    replace old new 0 (part ++ rest) = part ++ replace old new 0 rest := by
  induction part with
  | nil => rfl
  | cons symbol part ih =>
      have first : ¬ old <+: symbol :: (part ++ rest) := misses [] _ rfl (List.cons_ne_nil _ _)
      rw [List.cons_append, replace_cons first, ih]
      · rfl
      · intro front back whole some_
        exact misses (symbol :: front) back (by rw [whole, List.cons_append]) some_

/-- No occurrence starts where no mark is. -/
theorem starts_append_marked (part rest : List α) (free : mark ∉ part) :
    starts (mark :: name) (part ++ rest) = starts (mark :: name) rest := by
  induction part with
  | nil => rfl
  | cons symbol part ih =>
      rw [List.mem_cons, not_or] at free
      rw [List.cons_append, starts_cons, ih free.2]
      rintro ⟨after, same⟩
      exact free.1 (List.cons.inj same).1

/-! ### What is in the result -/

/-- Each replacement takes the symbols of the old text out and puts those of the new one in. -/
theorem count_replace (alone : mark ∉ name) {counted : α} (absent : counted ∉ mark :: name)
    (new text : List α) :
    (replace (mark :: name) new 0 text).count counted =
      text.count counted + starts (mark :: name) text * new.count counted := by
  induction text using scan_induction mark name with
  | nil => simp [replace, starts]
  | occurrence rest ih =>
      have fits : mark :: name <+: mark :: (name ++ rest) := List.prefix_append _ _
      have inName : name.count counted = 0 :=
        List.count_eq_zero.mpr fun member => absent (List.mem_cons_of_mem _ member)
      have notMark : counted ≠ mark := fun same => absent (same ▸ List.mem_cons_self)
      rw [replace_occurrence, starts_occurrence fits, starts_append_marked _ _ alone,
        List.count_append, ih, List.count_cons_of_ne notMark.symm, List.count_append, inName]
      ring
  | cons symbol rest misses ih =>
      rw [replace_cons misses, starts_cons misses, List.count_cons, List.count_cons, ih]
      omega

/-- A beginning of the result without the new symbol was there before. -/
theorem prefix_of_prefix_replace {old : List α} {fresh : α} (free : fresh ∉ part)
    (fits : part <+: replace old [fresh] 0 text) : part <+: text := by
  induction part generalizing text with
  | nil => exact List.nil_prefix
  | cons symbol part ih =>
      rw [List.mem_cons, not_or] at free
      cases text with
      | nil => exact fits
      | cons first rest =>
          rw [replace] at fits
          split_ifs at fits
          · exact absurd (List.cons_prefix_cons.mp fits).1.symm free.1
          · obtain ⟨rfl, later⟩ := List.cons_prefix_cons.mp fits
            exact List.cons_prefix_cons.mpr ⟨rfl, ih free.2 later⟩

/-- What is replaced by a new symbol is gone. -/
theorem not_infix_replace {fresh : α} (absent : fresh ∉ mark :: name) (text : List α) :
    ¬ mark :: name <:+: replace (mark :: name) [fresh] 0 text := by
  induction text using scan_induction mark name with
  | nil => simp [replace]
  | occurrence rest ih =>
      rw [replace_occurrence, List.singleton_append, List.infix_cons_iff, not_or]
      refine ⟨fun fits => ?_, ih⟩
      exact absent ((List.cons_prefix_cons.mp fits).1 ▸ List.mem_cons_self)
  | cons symbol rest misses ih =>
      rw [replace_cons misses, List.infix_cons_iff, not_or]
      refine ⟨fun fits => misses ?_, ih⟩
      obtain ⟨rfl, later⟩ := List.cons_prefix_cons.mp fits
      have free : fresh ∉ name := fun member => absent (List.mem_cons_of_mem _ member)
      exact List.cons_prefix_cons.mpr ⟨rfl, prefix_of_prefix_replace free later⟩

end MessagePusher.Substitution
