import MessagePusher.Channel.Telegram
import MessagePusher.Semantics.Cursor

/-!
# The ends of the chunks

Where the two rules cut a text: in front of the last rune that starts within the limit, or behind
the last newline. No chunk ends outside of the text, and none in front of its own start.
-/

namespace MessagePusher.Telegram

open Channel Semantics.Cursor

/-- A rune starts at this byte of the text. -/
def StartsRune (text : Bytes) (idx : Nat) : Prop := text[idx]?.any runeStart = true

def IsNewline (text : Bytes) (idx : Nat) : Prop := text[idx]? = some 0x0a

/-- A line behind a newline starts at this byte. -/
def StartsLine (text : Bytes) (idx : Nat) : Prop := 0 < idx ∧ IsNewline text (idx - 1)

instance (text : Bytes) : DecidablePred (StartsRune text) :=
  fun idx => inferInstanceAs (Decidable (text[idx]?.any runeStart = true))

instance (text : Bytes) : DecidablePred (IsNewline text) :=
  fun idx => inferInstanceAs (Decidable (text[idx]? = some 0x0a))

instance (text : Bytes) : DecidablePred (StartsLine text) :=
  fun _ => inferInstanceAs (Decidable (_ ∧ _))

variable {text : Bytes} {mode : String} {idx limit passes : Nat}

/-! ### The two rules -/

/-- Plain text is cut in front of the last rune that starts within the limit. -/
theorem getPlainTextNearestValidSplit_eq (inside : idx < text.length) :
    getPlainTextNearestValidSplit text idx = Nat.findGreatest (StartsRune text) idx := by
  induction idx with
  | zero => rfl
  | succ idx ih =>
      have byte : text[idx + 1]? = some text[idx + 1] := List.getElem?_eq_getElem inside
      rw [getPlainTextNearestValidSplit, Nat.findGreatest_succ, ih (Nat.lt_of_succ_lt inside), byte]
      simp only [StartsRune, byte, Option.any_some]

theorem newlineBack_eq (text : Bytes) (idx : Nat) :
    (newlineBack text idx).elim 0 (· + 1) = Nat.findGreatest (StartsLine text) (idx + 1) := by
  induction idx with
  | zero =>
      simp only [newlineBack, Nat.findGreatest_succ, StartsLine, IsNewline, Nat.findGreatest_zero]
      split_ifs with newline
      all_goals simp_all
  | succ idx ih =>
      rw [newlineBack, Nat.findGreatest_succ]
      simp only [StartsLine, IsNewline, Nat.add_sub_cancel, Nat.zero_lt_succ, true_and]
      split_ifs with newline
      · rfl
      · exact ih

/-- Markdown is cut behind the last newline up to the limit, or at the limit if there is none. -/
theorem getMarkdownNearestValidSplit_eq (inside : idx < text.length) (positive : 0 < idx) :
    getMarkdownNearestValidSplit text idx =
      if Nat.findGreatest (StartsLine text) (idx + 1) = 0 then idx
      else Nat.findGreatest (StartsLine text) (idx + 1) := by
  rw [getMarkdownNearestValidSplit, if_neg (Nat.not_le.mpr inside),
    if_neg (Nat.ne_of_gt positive), ← newlineBack_eq]
  cases newlineBack text idx with
  | none => rfl
  | some newline => rfl

/-! ### The end of a chunk -/

/-- What is left fits into one chunk. -/
theorem nextIdx_of_le (rest : text.length ≤ idx + telegramMaxMessageLength) :
    nextIdx text mode idx = text.length := by
  unfold nextIdx
  split_ifs with short
  · rfl
  · have whole : idx + telegramMaxMessageLength = text.length :=
      Nat.le_antisymm (Nat.not_lt.mp short) rest
    rw [whole, getNearestValidSplit]
    split_ifs with markdown
    · exact if_pos (Nat.le_refl _)
    · cases atEnd : text.length with
      | zero => rfl
      | succ last =>
          have beyond : text[last + 1]? = none := List.getElem?_eq_none (Nat.le_of_eq atEnd)
          rw [getPlainTextNearestValidSplit, beyond]

theorem nextIdx_plain (plain : mode ≠ "markdown")
    (long : idx + telegramMaxMessageLength < text.length) :
    nextIdx text mode idx =
      Nat.findGreatest (StartsRune text) (idx + telegramMaxMessageLength) := by
  rw [nextIdx, if_neg (Nat.lt_asymm long), getNearestValidSplit, if_neg plain,
    getPlainTextNearestValidSplit_eq long]

theorem nextIdx_markdown (long : idx + telegramMaxMessageLength < text.length) :
    nextIdx text "markdown" idx =
      if Nat.findGreatest (StartsLine text) (idx + telegramMaxMessageLength + 1) = 0 then
        idx + telegramMaxMessageLength
      else Nat.findGreatest (StartsLine text) (idx + telegramMaxMessageLength + 1) := by
  rw [nextIdx, if_neg (Nat.lt_asymm long), getNearestValidSplit, if_pos rfl,
    getMarkdownNearestValidSplit_eq long (Nat.add_pos_right _ (by decide))]

/-- No chunk ends behind the text. -/
theorem nextIdx_le (text : Bytes) (mode : String) (idx : Nat) :
    nextIdx text mode idx ≤ text.length := by
  by_cases rest : text.length ≤ idx + telegramMaxMessageLength
  · exact Nat.le_of_eq (nextIdx_of_le rest)
  · have long := Nat.not_le.mp rest
    by_cases markdown : mode = "markdown"
    · rw [markdown, nextIdx_markdown long]
      split_ifs
      · exact Nat.le_of_lt long
      · exact Nat.le_trans (Nat.findGreatest_le _) long
    · rw [nextIdx_plain markdown long]
      exact Nat.le_of_lt (Nat.lt_of_le_of_lt (Nat.findGreatest_le _) long)

/-! ### The starts of the chunks -/

/-- The start of a chunk, by the number of chunks in front of it. -/
def chunkStart (text : Bytes) (mode : String) (passes : Nat) : Nat :=
  position (nextIdx text mode) text.length passes

/-- Where a chunk may start: a rune or a line starts there, or in Markdown no line has yet. -/
def Landed (text : Bytes) (mode : String) (idx : Nat) : Prop :=
  idx < text.length →
    if mode = "markdown" then StartsLine text idx ∨ ∀ before ≤ idx, ¬ StartsLine text before
    else idx = 0 ∨ StartsRune text idx

theorem landed_nextIdx (text : Bytes) (mode : String) (idx : Nat) :
    Landed text mode (nextIdx text mode idx) := by
  intro ends
  by_cases rest : text.length ≤ idx + telegramMaxMessageLength
  · rw [nextIdx_of_le rest] at ends
    exact absurd ends (Nat.lt_irrefl _)
  · have long := Nat.not_le.mp rest
    split_ifs with markdown
    · rw [markdown, nextIdx_markdown long]
      split_ifs with lineless
      · refine .inr fun before within starts => ?_
        exact Nat.findGreatest_eq_zero_iff.mp lineless starts.1 (Nat.le_succ_of_le within) starts
      · exact .inl (Nat.findGreatest_of_ne_zero rfl lineless)
    · rw [nextIdx_plain markdown long]
      exact or_iff_not_imp_left.mpr fun some_ => Nat.findGreatest_of_ne_zero rfl some_

theorem landed_chunkStart (text : Bytes) (mode : String) (passes : Nat) :
    Landed text mode (chunkStart text mode passes) := by
  refine position_invariant ?_ (fun idx _ _ => landed_nextIdx text mode idx) passes
  intro _
  split_ifs
  · refine .inr fun before start starts => ?_
    exact absurd starts.1 (Nat.not_lt.mpr start)
  · exact .inl rfl

/-- No chunk ends in front of where it starts. -/
theorem Landed.le_nextIdx (landed : Landed text mode idx) (inside : idx < text.length) :
    idx ≤ nextIdx text mode idx := by
  have known := landed inside
  by_cases rest : text.length ≤ idx + telegramMaxMessageLength
  · rw [nextIdx_of_le rest]
    exact Nat.le_of_lt inside
  · have long := Nat.not_le.mp rest
    split_ifs at known with markdown
    · rw [markdown, nextIdx_markdown long]
      split_ifs with lineless
      · exact Nat.le_add_right _ _
      · rcases known with starts | linelessSoFar
        · exact Nat.le_findGreatest (Nat.le_succ_of_le (Nat.le_add_right _ _)) starts
        · by_contra back
          exact linelessSoFar _ (Nat.le_of_lt (Nat.not_le.mp back))
            (Nat.findGreatest_of_ne_zero rfl lineless)
    · rw [nextIdx_plain markdown long]
      rcases known with rfl | starts
      · exact Nat.zero_le _
      · exact Nat.le_findGreatest (Nat.le_add_right _ _) starts

theorem chunkStart_le_nextIdx (inside : chunkStart text mode passes < text.length) :
    chunkStart text mode passes ≤ nextIdx text mode (chunkStart text mode passes) :=
  (landed_chunkStart text mode passes).le_nextIdx inside

end MessagePusher.Telegram
