import MessagePusher.Telegram.Posts

/-!
# Progress through a text

Both rules search for the end of a chunk from its limit backwards, past the start of the chunk if
need be. A run of bytes without a rune start, or a line, that is longer than a chunk holds the loop
where it is: it posts empty texts for ever.
-/

namespace MessagePusher.Telegram

open Channel Semantics.Cursor

/-- Behind each byte that is not in the last chunk, a rune starts within the limit. -/
def RunesFit (text : Bytes) : Prop :=
  ∀ idx, idx + telegramMaxMessageLength < text.length →
    ∃ start, idx < start ∧ start ≤ idx + telegramMaxMessageLength ∧ StartsRune text start

/-- Each line behind a newline that does not start in the last chunk ends within the limit. -/
def LinesFit (text : Bytes) : Prop :=
  ∀ line, StartsLine text line → line + telegramMaxMessageLength < text.length →
    ∃ newline, line ≤ newline ∧ newline ≤ line + telegramMaxMessageLength ∧
      IsNewline text newline

/-- The text has a place to cut it where the rule of its mode needs one. -/
def Fits (mode : String) (text : Bytes) : Prop :=
  if mode = "markdown" then LinesFit text else RunesFit text

/-- Each pass of the call takes a slice of the text that is not empty, and moves on to its end;
after some passes the call returns. -/
structure MovesOn (url : String) (request : TelegramMessageRequest) (replies : Replies) : Prop where
  slices : ∀ passes, (sendPasses url request replies passes).outcome = none →
    (sendPasses url request replies passes).idx < request.text.length →
      let idx := (sendPasses url request replies passes).idx
      let next := nextIdx request.text request.parseMode idx
      idx < next ∧ next ≤ request.text.length ∧
        (sendPasses url request replies (passes + 1)).idx = next
  ends : ∃ passes, (sendPasses url request replies passes).outcome = some (.returned none)

variable {text : Bytes} {mode url : String} {request : TelegramMessageRequest} {replies : Replies}

/-! ### Where the loop moves on -/

theorem IsNewline.startsLine {newline : Nat} (is : IsNewline text newline) :
    StartsLine text (newline + 1) := ⟨Nat.succ_pos _, is⟩

/-- A cut behind the start of a line has a newline of the line in front of it. -/
theorem exists_newline_of_lastLine {line limit : Nat}
    (behind : line < Nat.findGreatest (StartsLine text) (limit + 1)) :
    ∃ newline, line ≤ newline ∧ newline ≤ limit ∧ IsNewline text newline := by
  have some_ := Nat.ne_of_gt (Nat.lt_of_le_of_lt (Nat.zero_le line) behind)
  have starts : StartsLine text _ := Nat.findGreatest_of_ne_zero rfl some_
  have upTo : Nat.findGreatest (StartsLine text) (limit + 1) ≤ limit + 1 := Nat.findGreatest_le _
  exact ⟨_, Nat.le_sub_one_of_lt behind, Nat.sub_le_of_le_add upTo, starts.2⟩

theorem advances_of_runesFit (plain : mode ≠ "markdown") (fits : RunesFit text) :
    Advances (nextIdx text mode) text.length := by
  intro passes inside
  by_cases rest : text.length ≤ position (nextIdx text mode) text.length passes +
      telegramMaxMessageLength
  · rw [nextIdx_of_le rest]
    exact inside
  · have long := Nat.not_le.mp rest
    obtain ⟨start, behind, within, starts⟩ := fits _ long
    rw [nextIdx_plain plain long]
    exact Nat.lt_of_lt_of_le behind (Nat.le_findGreatest within starts)

theorem runesFit_of_advances (plain : mode ≠ "markdown")
    (advances : Advances (nextIdx text mode) text.length) : RunesFit text := by
  intro idx within
  have inside := Nat.lt_of_le_of_lt (Nat.le_add_right _ _) within
  obtain ⟨passes, before, behind⟩ := advances.crosses inside
  have limit := Nat.add_le_add_right before telegramMaxMessageLength
  rw [nextIdx_plain plain (Nat.lt_of_le_of_lt limit within)] at behind
  exact ⟨_, behind, Nat.le_trans (Nat.findGreatest_le _) limit,
    Nat.findGreatest_of_ne_zero rfl (Nat.ne_of_gt (Nat.lt_of_le_of_lt (Nat.zero_le _) behind))⟩

theorem advances_of_linesFit (fits : LinesFit text) :
    Advances (nextIdx text "markdown") text.length := by
  intro passes inside
  have landed := landed_chunkStart text "markdown" passes inside
  rw [if_pos rfl] at landed
  by_cases rest : text.length ≤ position (nextIdx text "markdown") text.length passes +
      telegramMaxMessageLength
  · rw [nextIdx_of_le rest]
    exact inside
  · have long := Nat.not_le.mp rest
    rw [nextIdx_markdown long]
    split_ifs with lineless
    · exact Nat.lt_add_of_pos_right (by decide)
    · rcases landed with starts | linelessSoFar
      · obtain ⟨newline, behind, within, is⟩ := fits _ starts long
        exact Nat.lt_of_le_of_lt behind
          (Nat.le_findGreatest (Nat.succ_le_succ within) is.startsLine)
      · by_contra back
        exact linelessSoFar _ (Nat.not_lt.mp back) (Nat.findGreatest_of_ne_zero rfl lineless)

theorem linesFit_of_advances (advances : Advances (nextIdx text "markdown") text.length) :
    LinesFit text := by
  intro line starts within
  have inside := Nat.lt_of_le_of_lt (Nat.le_add_right _ _) within
  obtain ⟨passes, before, behind⟩ := advances.crosses inside
  have limit := Nat.add_le_add_right before telegramMaxMessageLength
  rw [nextIdx_markdown (Nat.lt_of_le_of_lt limit within)] at behind
  split_ifs at behind with lineless
  · exact absurd starts
      (Nat.findGreatest_eq_zero_iff.mp lineless starts.1 (Nat.le_succ_of_le (Nat.le_of_lt behind)))
  · obtain ⟨newline, after, upTo, is⟩ := exists_newline_of_lastLine behind
    exact ⟨newline, after, Nat.le_trans upTo limit, is⟩

theorem advances_iff : Advances (nextIdx text mode) text.length ↔ Fits mode text := by
  unfold Fits
  split_ifs with markdown
  · rw [markdown]
    exact ⟨linesFit_of_advances, advances_of_linesFit⟩
  · exact ⟨runesFit_of_advances markdown, advances_of_runesFit markdown⟩

/-! ### The call -/

theorem movesOn_iff_advances (answered : Answered replies) :
    MovesOn url request replies ↔
      Advances (nextIdx request.text request.parseMode) request.text.length := by
  constructor
  · intro moves pass inside
    have before : ∀ earlier < pass, HasChunk request earlier := fun earlier less =>
      lt_of_position_lt inside (Nat.le_of_lt less)
    have now := sendPasses_of_answered url answered before
    have step := moves.slices pass
    rw [now] at step
    exact (step rfl inside).1
  · intro advances
    refine ⟨fun passes going inside => ?_, ?_⟩
    · obtain ⟨now, before⟩ := (posted_sendPasses url request replies passes).going going
      rw [now] at inside ⊢
      have whole : ∀ pass < passes + 1, HasChunk request pass := fun pass within =>
        lt_of_position_lt inside (Nat.le_of_lt_succ within)
      refine ⟨advances passes inside, nextIdx_le _ _ _, ?_⟩
      rw [sendPasses_of_answered url answered whole]
      exact position_succ_of_lt inside
    · obtain ⟨passes, arrived, first⟩ := advances.first_arrival
      have noChunk : ¬ HasChunk request passes := Nat.not_lt.mpr arrived
      refine ⟨passes + 1, ?_⟩
      rw [sendPasses, sendPasses_of_answered url answered first, step_inLoop, if_neg noChunk]

/-- Where every post is accepted, the call moves on through the text and returns if and only if
the text has the places to cut it. -/
theorem send_moves_on_iff (answered : Answered replies) :
    MovesOn url request replies ↔ Fits request.parseMode request.text :=
  (movesOn_iff_advances answered).trans advances_iff

/-- Two lines that need two posts. -/
def twoLines : Bytes := List.replicate 3000 0x61 ++ 0x0a :: List.replicate 3000 0x61

theorem linesFit_twoLines : LinesFit twoLines := by
  intro line starts long
  have length : twoLines.length = 6001 := by
    rw [twoLines, List.length_append, List.length_cons, List.length_replicate]
  have early : line - 1 < 3000 := by
    rw [length, telegramMaxMessageLength] at long
    omega
  have byte : twoLines[line - 1]? = some 0x61 := by
    rw [twoLines, List.getElem?_append_left (by rwa [List.length_replicate]),
      List.getElem?_replicate, if_pos early]
  exact absurd (Option.some.inj (byte.symm.trans starts.2)) (by decide)

theorem send_moves_on_iff_two_lines : MovesOn "url" ⟨"7", twoLines, "markdown"⟩ accepting :=
  (send_moves_on_iff answered_accepting).mpr linesFit_twoLines

/-- A newline with a long line behind it. -/
def longLine : Bytes := 0x0a :: List.replicate 5000 0x61

theorem not_linesFit_longLine : ¬ LinesFit longLine := by
  intro fits
  have length : longLine.length = 5001 := by
    rw [longLine, List.length_cons, List.length_replicate]
  have starts : StartsLine longLine 1 := ⟨Nat.one_pos, rfl⟩
  obtain ⟨newline, behind, within, is⟩ := fits 1 starts (by rw [length]; decide)
  obtain ⟨idx, rfl⟩ := Nat.exists_eq_add_of_le' behind
  have short : idx < 5000 := by
    rw [telegramMaxMessageLength] at within
    omega
  have byte : longLine[idx + 1]? = some 0x61 := by
    rw [longLine, List.getElem?_cons_succ, List.getElem?_replicate, if_pos short]
  exact absurd (Option.some.inj (byte.symm.trans is)) (by decide)

theorem not_movesOn {chatId : String} (long : ¬ LinesFit text) :
    ¬ MovesOn url ⟨chatId, text, "markdown"⟩ accepting := by
  intro moves
  exact long (linesFit_of_advances ((movesOn_iff_advances answered_accepting).mp moves))

/-- A Markdown text of a newline and a long line: the loop stays behind the newline. -/
theorem long_line_holds_the_loop :
    ¬ ∀ url request replies, Answered replies → MovesOn url request replies := by
  intro claimed
  exact not_movesOn not_linesFit_longLine
    (claimed "url" ⟨"7", longLine, "markdown"⟩ accepting answered_accepting)

end MessagePusher.Telegram
