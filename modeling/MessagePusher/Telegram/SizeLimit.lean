import MessagePusher.Telegram.Posts

/-!
# The size of the posts

Plain text is cut in front of a byte within the limit. Markdown is cut behind a newline, which may
be the byte at the limit itself: then the chunk is one byte longer than a message may be.
-/

namespace MessagePusher.Telegram

open Channel Semantics.Cursor

/-- Where a Markdown text is cut: at its start, then behind the last newline up to the limit, or
at the limit while no newline has come. -/
inductive MarkdownCut (text : Bytes) : Nat → Prop where
  | start : MarkdownCut text 0
  | limit {idx} (prior : MarkdownCut text idx)
      (long : idx + telegramMaxMessageLength < text.length)
      (lineless : ∀ newline ≤ idx + telegramMaxMessageLength, ¬ IsNewline text newline) :
      MarkdownCut text (idx + telegramMaxMessageLength)
  | newline {idx newline} (prior : MarkdownCut text idx)
      (long : idx + telegramMaxMessageLength < text.length)
      (is : IsNewline text newline) (within : newline ≤ idx + telegramMaxMessageLength)
      (last : ∀ later, newline < later → later ≤ idx + telegramMaxMessageLength →
        ¬ IsNewline text later) : MarkdownCut text (newline + 1)

/-- No chunk has a newline at its limit. -/
def LimitsSpared (text : Bytes) : Prop :=
  ∀ idx, MarkdownCut text idx → ¬ IsNewline text (idx + telegramMaxMessageLength)

/-- Every post has at most as many bytes as a message may have, whatever the replies are. -/
def PostsBounded (url : String) (request : TelegramMessageRequest) : Prop :=
  ∀ replies passes, ∀ post ∈ (sendPasses url request replies passes).posted,
    post.request.text.length ≤ telegramMaxMessageLength

variable {text : Bytes} {mode url : String} {request : TelegramMessageRequest} {idx pass : Nat}

/-! ### One chunk -/

theorem chunk_length (text : Bytes) (mode : String) (pass : Nat) :
    (chunk text mode pass).length =
      nextIdx text mode (chunkStart text mode pass) - chunkStart text mode pass := by
  rw [chunk, List.length_drop, List.length_take, Nat.min_eq_left (nextIdx_le _ _ _)]

theorem chunk_length_le_iff : (chunk text mode pass).length ≤ telegramMaxMessageLength ↔
    nextIdx text mode (chunkStart text mode pass) ≤
      chunkStart text mode pass + telegramMaxMessageLength := by
  rw [chunk_length, Nat.sub_le_iff_le_add, Nat.add_comm]

theorem IsNewline.inside (is : IsNewline text idx) : idx < text.length := by
  by_contra outside
  have beyond : text[idx]? = none := List.getElem?_eq_none (Nat.not_lt.mp outside)
  cases beyond.symm.trans is

/-- A chunk of plain text ends within its limit. -/
theorem nextIdx_le_of_plain (plain : mode ≠ "markdown") :
    nextIdx text mode idx ≤ idx + telegramMaxMessageLength := by
  by_cases rest : text.length ≤ idx + telegramMaxMessageLength
  · rw [nextIdx_of_le rest]
    exact rest
  · rw [nextIdx_plain plain (Nat.not_le.mp rest)]
    exact Nat.findGreatest_le _

/-- A chunk of Markdown ends within its limit unless a newline is there. -/
theorem nextIdx_le_iff_of_markdown :
    nextIdx text "markdown" idx ≤ idx + telegramMaxMessageLength ↔
      ¬ IsNewline text (idx + telegramMaxMessageLength) := by
  by_cases rest : text.length ≤ idx + telegramMaxMessageLength
  · rw [nextIdx_of_le rest]
    exact iff_of_true rest fun is => Nat.not_lt.mpr rest is.inside
  · rw [nextIdx_markdown (Nat.not_le.mp rest)]
    have next : StartsLine text (idx + telegramMaxMessageLength + 1) ↔
        IsNewline text (idx + telegramMaxMessageLength) := and_iff_right (Nat.succ_pos _)
    by_cases is : IsNewline text (idx + telegramMaxMessageLength)
    · rw [Nat.findGreatest_eq (next.mpr is), if_neg (Nat.succ_ne_zero _)]
      exact iff_of_false (Nat.not_succ_le_self _) (not_not.mpr is)
    · rw [Nat.findGreatest_of_not (mt next.mp is)]
      refine iff_of_true ?_ is
      split_ifs
      · exact Nat.le_refl _
      · exact Nat.findGreatest_le _

/-! ### The cuts of a text -/

theorem findGreatest_startsLine {limit newline : Nat} (is : IsNewline text newline)
    (within : newline ≤ limit)
    (last : ∀ later, newline < later → later ≤ limit → ¬ IsNewline text later) :
    Nat.findGreatest (StartsLine text) (limit + 1) = newline + 1 := by
  refine Nat.findGreatest_eq_iff.mpr ⟨Nat.succ_le_succ within, fun _ => ⟨Nat.succ_pos _, is⟩, ?_⟩
  intro line behind upTo starts
  exact last (line - 1) (Nat.lt_sub_of_add_lt behind) (Nat.sub_le_of_le_add upTo) starts.2

theorem findGreatest_startsLine_eq_zero_iff {limit : Nat} :
    Nat.findGreatest (StartsLine text) (limit + 1) = 0 ↔
      ∀ newline ≤ limit, ¬ IsNewline text newline := by
  rw [Nat.findGreatest_eq_zero_iff]
  constructor
  · intro lineless newline within is
    exact lineless (Nat.succ_pos newline) (Nat.succ_le_succ within) ⟨Nat.succ_pos _, is⟩
  · intro lineless line _ within starts
    exact lineless (line - 1) (Nat.sub_le_of_le_add within) starts.2

/-- Where more than a message is left, another chunk follows. -/
theorem chunkStart_succ (long : chunkStart text mode pass + telegramMaxMessageLength < text.length) :
    chunkStart text mode (pass + 1) = nextIdx text mode (chunkStart text mode pass) :=
  position_succ_of_lt (Nat.lt_of_le_of_lt (Nat.le_add_right _ _) long)

/-- Every cut starts a chunk. -/
theorem MarkdownCut.exists_pass (cut : MarkdownCut text idx) :
    ∃ pass, chunkStart text "markdown" pass = idx := by
  induction cut with
  | start => exact ⟨0, rfl⟩
  | @limit idx _ long lineless ih =>
      obtain ⟨pass, rfl⟩ := ih
      refine ⟨pass + 1, (chunkStart_succ long).trans ?_⟩
      rw [nextIdx_markdown long, if_pos (findGreatest_startsLine_eq_zero_iff.mpr lineless)]
  | @newline idx newline _ long is within last ih =>
      obtain ⟨pass, rfl⟩ := ih
      refine ⟨pass + 1, (chunkStart_succ long).trans ?_⟩
      rw [nextIdx_markdown long, findGreatest_startsLine is within last,
        if_neg (Nat.succ_ne_zero _)]

/-- Behind the last newline of a chunk the text is cut. -/
theorem MarkdownCut.lastLine (prior : MarkdownCut text idx)
    (long : idx + telegramMaxMessageLength < text.length)
    (some_ : Nat.findGreatest (StartsLine text) (idx + telegramMaxMessageLength + 1) ≠ 0) :
    MarkdownCut text (Nat.findGreatest (StartsLine text) (idx + telegramMaxMessageLength + 1)) := by
  have starts : StartsLine text _ := Nat.findGreatest_of_ne_zero rfl some_
  have upTo : Nat.findGreatest (StartsLine text) (idx + telegramMaxMessageLength + 1) ≤
      idx + telegramMaxMessageLength + 1 := Nat.findGreatest_le _
  rw [← Nat.sub_add_cancel starts.1]
  refine .newline prior long starts.2 (Nat.sub_le_of_le_add upTo) fun later behind within is => ?_
  have next : StartsLine text (later + 1) := ⟨Nat.succ_pos _, is⟩
  have beyond := (Nat.sub_lt_iff_lt_add starts.1).mp behind
  exact Nat.findGreatest_is_greatest beyond (Nat.succ_le_succ within) next

/-- Every chunk starts at a cut. -/
theorem markdownCut_chunkStart (inside : chunkStart text "markdown" pass < text.length) :
    MarkdownCut text (chunkStart text "markdown" pass) := by
  induction pass with
  | zero => exact .start
  | succ pass ih =>
      have before : chunkStart text "markdown" pass < text.length :=
        lt_of_position_lt inside (Nat.le_succ pass)
      have moved : chunkStart text "markdown" (pass + 1) =
          nextIdx text "markdown" (chunkStart text "markdown" pass) := position_succ_of_lt before
      rw [moved] at inside ⊢
      have cut := ih before
      by_cases rest : text.length ≤ chunkStart text "markdown" pass + telegramMaxMessageLength
      · rw [nextIdx_of_le rest] at inside
        exact absurd inside (Nat.lt_irrefl _)
      · have long := Nat.not_le.mp rest
        rw [nextIdx_markdown long]
        split_ifs with lineless
        · exact .limit cut long (findGreatest_startsLine_eq_zero_iff.mp lineless)
        · exact cut.lastLine long lineless

/-! ### All posts -/

theorem limitsSpared_of_postsBounded (markdown : request.parseMode = "markdown")
    (bounded : PostsBounded url request) : LimitsSpared request.text := by
  intro idx cut is
  obtain ⟨pass, rfl⟩ := cut.exists_pass
  have inside : chunkStart request.text "markdown" pass < request.text.length :=
    Nat.lt_of_le_of_lt (Nat.le_add_right _ _) is.inside
  have whole : ∀ earlier < pass + 1, HasChunk request earlier := by
    intro earlier within
    rw [HasChunk, markdown]
    exact lt_of_position_lt inside (Nat.le_of_lt_succ within)
  have posted : postOf url request pass ∈
      (sendPasses url request accepting (pass + 1)).posted := by
    rw [sendPasses_of_answered url answered_accepting whole]
    exact List.mem_map_of_mem (List.mem_range.mpr (Nat.lt_succ_self pass))
  have short := chunk_length_le_iff.mp (bounded accepting (pass + 1) _ posted)
  rw [markdown] at short
  exact nextIdx_le_iff_of_markdown.mp short is

/-- Every post of a text keeps to the limit if and only if the text is plain, or none of the
chunks that its newlines give it has one more at its limit. -/
theorem posts_bounded_iff : PostsBounded url request ↔
    (request.parseMode = "markdown" → LimitsSpared request.text) := by
  refine ⟨fun bounded markdown => limitsSpared_of_postsBounded markdown bounded, ?_⟩
  intro spared replies passes post posted
  obtain ⟨count, posts, inside⟩ := (posted_sendPasses url request replies passes).posts
  rw [posts] at posted
  obtain ⟨pass, among, rfl⟩ := List.mem_map.mp posted
  have starts := inside pass (List.mem_range.mp among)
  refine chunk_length_le_iff.mpr ?_
  by_cases markdown : request.parseMode = "markdown"
  · rw [HasChunk, markdown] at starts
    rw [markdown]
    exact nextIdx_le_iff_of_markdown.mpr (spared markdown _ (markdownCut_chunkStart starts))
  · exact nextIdx_le_of_plain markdown

/-- A line of 4096 bytes with its newline, and one byte more. -/
def fullLine : Bytes := List.replicate 4096 0x61 ++ [0x0a, 0x61]

theorem not_limitsSpared_fullLine : ¬ LimitsSpared fullLine := by
  intro spared
  refine spared 0 .start ?_
  rw [IsNewline, fullLine, telegramMaxMessageLength,
    List.getElem?_append_right (Nat.le_of_eq List.length_replicate), List.length_replicate]
  rfl

/-- A Markdown text with a newline behind its first 4096 bytes: the first post has 4097. -/
theorem full_line_exceeds_the_limit :
    ¬ ∀ url request, PostsBounded url request := by
  intro claimed
  have bounded := claimed "url" ⟨"7", fullLine, "markdown"⟩
  exact not_limitsSpared_fullLine (limitsSpared_of_postsBounded rfl bounded)

end MessagePusher.Telegram
