import MessagePusher.JsonText.Decode
import MessagePusher.Telegram.Progress
import MessagePusher.Telegram.SizeLimit
import MessagePusher.Utf8.Runes

/-!
# Whole characters

Plain text is cut where a character starts. Markdown without a newline is cut at its limit, be it
within a character: then both posts have a part of the character that the encoder replaces.
-/

namespace MessagePusher.Telegram

open Channel Semantics.Cursor Utf8 JsonText Common

/-! ### The body of a post -/

/-- The value of a request that `json.Marshal` writes; a byte of no character is replaced. -/
def requestJson (request : TelegramMessageRequest) : Json :=
  .object [("chat_id", .string request.chatId),
    ("text", .string (String.ofList (characters request.text))),
    ("parse_mode", .string request.parseMode)]

/-- The text that the receiver of a post decodes. -/
def decodedText (post : TelegramPost) : Option String :=
  match (marshal (requestJson post.request)).bind (decode maxNestingDepth) with
  | some (.object members) =>
      match members.lookup "text" with
      | some (.string text) => some text
      | _ => none
  | _ => none

theorem decodedText_eq (post : TelegramPost) :
    decodedText post = some (String.ofList (characters post.request.text)) := by
  have numbers : NumbersValid (requestJson post.request) := by
    intro literal within
    rcases within_object.mp within with same | ⟨member, listed, within⟩
    · cases same
    · simp only [List.mem_cons, List.not_mem_nil, or_false] at listed
      rcases listed with rfl | rfl | rfl <;> cases within
  have shallow : depth (requestJson post.request) ≤ maxNestingDepth :=
    Nat.le_of_ble_eq_true rfl
  have written : marshal (requestJson post.request) =
      some (String.ofList (text (escapeTree (requestJson post.request)))) := if_pos numbers
  have read := decode_marshal written shallow
  unfold decodedText
  rw [written, Option.bind_some, read]
  rfl

/-! ### Cuts between characters -/

/-- What a call keeps of the characters: it cuts between two of them, the chunks are valid, and
their decoded texts are together the beginning of the text. -/
structure CharactersKept (text : Bytes) (sending : Sending) : Prop where
  cut : Boundary text sending.idx
  chunks : ∀ post ∈ sending.posted, Valid post.request.text
  decoded : ∃ texts : List String, sending.posted.map decodedText = texts.map some ∧
    encode (texts.flatMap String.toList) <+: text

/-- The first limits, as long as no newline comes, are in front of a rune. -/
def LimitsStartRunes (text : Bytes) : Prop :=
  ∀ count, 0 < count → telegramMaxMessageLength * count < text.length →
    (∀ newline ≤ telegramMaxMessageLength * count, ¬ IsNewline text newline) →
    StartsRune text (telegramMaxMessageLength * count)

variable {text : Bytes} {mode url : String} {request : TelegramMessageRequest} {idx pass : Nat}

theorem startsRune_iff : StartsRune text idx ↔ ∃ byte, text[idx]? = some byte ∧ ¬ Continues byte := by
  rw [StartsRune, Option.any_eq_true]
  simp only [runeStart, decide_eq_true_eq, Continues]

theorem boundary_iff_startsRune (valid : Valid text) (inside : idx < text.length) :
    Boundary text idx ↔ StartsRune text idx := by
  rw [valid.boundary_iff, startsRune_iff, or_iff_right (Nat.ne_of_lt inside)]

theorem boundary_zero (valid : Valid text) : Boundary text 0 := by
  obtain ⟨chars, rfl⟩ := valid
  exact .start chars

theorem boundary_length (valid : Valid text) : Boundary text text.length :=
  valid.boundary_iff.mpr (.inl rfl)

/-- A newline is a character of its own. -/
theorem boundary_behind_newline (valid : Valid text) (is : IsNewline text idx) :
    Boundary text (idx + 1) := by
  have here : Boundary text idx :=
    valid.boundary_iff.mpr (.inr ⟨_, is, by decide⟩)
  obtain ⟨before, after, whole, rfl⟩ := here
  cases after with
  | nil =>
      rw [whole, encode_nil, List.append_nil] at is
      exact absurd is.inside (Nat.lt_irrefl _)
  | cons char after =>
      refine ⟨before ++ [char], after, by simp [whole], ?_⟩
      rw [IsNewline, whole, List.getElem?_append_right (Nat.le_refl _), Nat.sub_self] at is
      obtain ⟨first, more, bytes, -, -, -⟩ := utf8EncodeChar_eq char
      rw [encode_cons, bytes] at is
      obtain rfl : first = 0x0a := Option.some.inj is
      have single := utf8EncodeChar_of_ascii_mem (by decide) (bytes ▸ List.mem_cons_self)
      rw [encode_append, List.length_append, encode_cons, single]
      rfl

/-! ### Where the chunks start -/

/-- While no newline has come, the cuts are the multiples of the limit. -/
theorem MarkdownCut.multiple (cut : MarkdownCut text idx) :
    (∃ newline < idx, IsNewline text newline) ∨ ∃ count, idx = telegramMaxMessageLength * count := by
  induction cut with
  | start => exact .inr ⟨0, rfl⟩
  | limit _ _ lineless ih =>
      rcases ih with ⟨newline, before, is⟩ | ⟨count, rfl⟩
      · exact absurd is (lineless newline (Nat.le_add_right_of_le (Nat.le_of_lt before)))
      · exact .inr ⟨count + 1, rfl⟩
  | newline _ _ is => exact .inl ⟨_, Nat.lt_succ_self _, is⟩

theorem markdownCut_multiple {count : Nat}
    (inside : telegramMaxMessageLength * count < text.length)
    (lineless : ∀ newline ≤ telegramMaxMessageLength * count, ¬ IsNewline text newline) :
    MarkdownCut text (telegramMaxMessageLength * count) := by
  induction count with
  | zero => exact .start
  | succ count ih =>
      rw [Nat.mul_succ] at inside lineless ⊢
      have before := Nat.lt_of_le_of_lt (Nat.le_add_right _ _) inside
      exact .limit (ih before fun newline within => lineless newline (Nat.le_add_right_of_le within))
        inside lineless

theorem MarkdownCut.boundary (valid : Valid text) (starts : LimitsStartRunes text)
    (cut : MarkdownCut text idx) : Boundary text idx := by
  cases cut with
  | start => exact boundary_zero valid
  | newline _ _ is => exact boundary_behind_newline valid is
  | limit prior long lineless =>
      rcases prior.multiple with ⟨newline, before, is⟩ | ⟨count, rfl⟩
      · exact absurd is (lineless newline (Nat.le_add_right_of_le (Nat.le_of_lt before)))
      · exact (boundary_iff_startsRune valid long).mpr
          (starts (count + 1) (Nat.succ_pos _) long lineless)

theorem chunkStart_le (text : Bytes) (mode : String) (pass : Nat) :
    chunkStart text mode pass ≤ text.length :=
  @position_invariant _ _ (· ≤ text.length) (Nat.zero_le _)
    (fun idx _ _ => nextIdx_le text mode idx) pass

theorem boundary_chunkStart_markdown (valid : Valid text) (starts : LimitsStartRunes text)
    (pass : Nat) : Boundary text (chunkStart text "markdown" pass) := by
  rcases Nat.lt_or_eq_of_le (chunkStart_le text "markdown" pass) with inside | arrived
  · exact (markdownCut_chunkStart inside).boundary valid starts
  · rw [arrived]
    exact boundary_length valid

theorem boundary_chunkStart_plain (valid : Valid text) (plain : mode ≠ "markdown") (pass : Nat) :
    Boundary text (chunkStart text mode pass) := by
  rcases Nat.lt_or_eq_of_le (chunkStart_le text mode pass) with inside | arrived
  · have landed := landed_chunkStart text mode pass inside
    rw [if_neg plain] at landed
    rcases landed with first | starts
    · rw [first]
      exact boundary_zero valid
    · exact (boundary_iff_startsRune valid inside).mpr starts
  · rw [arrived]
    exact boundary_length valid

/-! ### The chunks together -/

/-- The chunks in front of a start are the text up to it. -/
theorem flatMap_chunk (text : Bytes) (mode : String) {passes : Nat}
    (before : ∀ pass < passes, chunkStart text mode pass < text.length) :
    (List.range passes).flatMap (chunk text mode) = text.take (chunkStart text mode passes) := by
  induction passes with
  | zero => rfl
  | succ passes ih =>
      have inside := before passes (Nat.lt_succ_self _)
      have moved : chunkStart text mode (passes + 1) =
          nextIdx text mode (chunkStart text mode passes) := position_succ_of_lt inside
      have forward := chunkStart_le_nextIdx inside
      rw [List.range_succ, List.flatMap_append, ih fun pass earlier =>
        before pass (Nat.lt_succ_of_lt earlier), List.flatMap_singleton, chunk, moved]
      have front : text.take (chunkStart text mode passes) =
          (text.take (nextIdx text mode (chunkStart text mode passes))).take
            (chunkStart text mode passes) := by
        rw [List.take_take, Nat.min_eq_left forward]
      rw [front, List.take_append_drop]

theorem valid_chunk (boundary : ∀ pass, Boundary text (chunkStart text mode pass))
    (inside : chunkStart text mode pass < text.length) : Valid (chunk text mode pass) := by
  have moved : chunkStart text mode (pass + 1) = nextIdx text mode (chunkStart text mode pass) :=
    position_succ_of_lt inside
  have upper := boundary (pass + 1)
  rw [moved] at upper
  exact (boundary pass).valid_slice upper (chunkStart_le_nextIdx inside)

/-- Valid chunks are decoded to the part of the text that they are. -/
theorem decoded_chunks (url : String) (request : TelegramMessageRequest) {passes : Nat}
    (valid : ∀ pass < passes, Valid (chunk request.text request.parseMode pass)) :
    ∃ texts : List String,
      ((List.range passes).map (postOf url request)).map decodedText = texts.map some ∧
      encode (texts.flatMap String.toList) =
        (List.range passes).flatMap (chunk request.text request.parseMode) := by
  refine ⟨(List.range passes).map fun pass =>
    String.ofList (characters (chunk request.text request.parseMode pass)), ?_, ?_⟩
  · simp only [List.map_map, Function.comp_def, decodedText_eq, postOf]
  · induction passes with
    | zero => rfl
    | succ passes ih =>
        have last := valid_iff.mp (valid passes (Nat.lt_succ_self _))
        rw [List.range_succ, List.map_append, List.flatMap_append, List.flatMap_append, encode_append,
          ih fun pass earlier => valid pass (Nat.lt_succ_of_lt earlier)]
        simp [last]

/-! ### A call -/

/-- A call is at the start of a chunk or at the end of its text. -/
theorem exists_idx_sendPasses (url : String) (request : TelegramMessageRequest) (replies : Replies)
    (passes : Nat) : ∃ pass, (sendPasses url request replies passes).idx =
      chunkStart request.text request.parseMode pass := by
  induction passes with
  | zero => exact ⟨0, rfl⟩
  | succ passes ih =>
      rw [sendPasses]
      by_cases going : (sendPasses url request replies passes).outcome = none
      · rw [((posted_sendPasses url request replies passes).going going).1, step_inLoop]
        split_ifs
        · exact ⟨passes + 1, rfl⟩
        · exact ⟨passes, rfl⟩
      · rw [step_ended going]
        exact ih

/-- Where every chunk starts in front of a character, the call keeps the characters. -/
theorem charactersKept_of_boundary
    (boundary : ∀ pass, Boundary request.text (chunkStart request.text request.parseMode pass))
    (replies : Replies) (passes : Nat) :
    CharactersKept request.text (sendPasses url request replies passes) := by
  obtain ⟨count, posts, inside⟩ := (posted_sendPasses url request replies passes).posts
  have valid : ∀ pass < count, Valid (chunk request.text request.parseMode pass) :=
    fun pass among => valid_chunk boundary (inside pass among)
  obtain ⟨pass, at_⟩ := exists_idx_sendPasses url request replies passes
  obtain ⟨texts, decoded, together⟩ := decoded_chunks url request valid
  refine ⟨at_ ▸ boundary pass, ?_, texts, posts ▸ decoded, ?_⟩
  · intro post posted
    rw [posts] at posted
    obtain ⟨pass, among, rfl⟩ := List.mem_map.mp posted
    exact valid pass (List.mem_range.mp among)
  · rw [together, flatMap_chunk _ _ inside]
    exact List.take_prefix _ _

theorem limitsStartRunes_of_kept (valid : Valid request.text)
    (markdown : request.parseMode = "markdown")
    (kept : ∀ passes, CharactersKept request.text (sendPasses url request accepting passes)) :
    LimitsStartRunes request.text := by
  intro count _ inside lineless
  obtain ⟨pass, starts⟩ := (markdownCut_multiple inside lineless).exists_pass
  have before : ∀ earlier < pass, HasChunk request earlier := by
    intro earlier less
    rw [HasChunk, markdown]
    exact lt_of_position_lt (Nat.lt_of_le_of_lt (Nat.le_of_eq starts) inside) (Nat.le_of_lt less)
  have cut := (kept pass).cut
  rw [sendPasses_of_answered url answered_accepting before, inLoop, markdown, starts] at cut
  exact (boundary_iff_startsRune valid inside).mp cut

/-- A Markdown text keeps its characters, whatever the replies are, if and only if a rune starts
at each multiple of the limit that no newline comes in front of. -/
theorem markdown_keeps_characters_iff (valid : Valid request.text)
    (markdown : request.parseMode = "markdown") :
    (∀ replies passes, CharactersKept request.text (sendPasses url request replies passes)) ↔
      LimitsStartRunes request.text := by
  refine ⟨fun kept => limitsStartRunes_of_kept valid markdown (kept accepting), fun starts => ?_⟩
  refine charactersKept_of_boundary fun pass => ?_
  rw [markdown]
  exact boundary_chunkStart_markdown valid starts pass

theorem valid_ascii (count : Nat) : Valid (List.replicate count 0x61) := by
  induction count with
  | zero => exact ⟨[], rfl⟩
  | succ count ih =>
      have letter : Valid [0x61] := ⟨['a'], rfl⟩
      exact letter.append ih

theorem markdown_keeps_characters_iff_two_lines :
    (∀ replies passes, CharactersKept twoLines
      (sendPasses "url" ⟨"7", twoLines, "markdown"⟩ replies passes)) ↔
      LimitsStartRunes twoLines :=
  @markdown_keeps_characters_iff "url" ⟨"7", twoLines, "markdown"⟩
    ((valid_ascii 3000).append (Valid.append ⟨['\n'], rfl⟩ (valid_ascii 3000))) rfl

/-- A character of two bytes across the limit. -/
def acrossLimit : Bytes := List.replicate 4095 0x61 ++ [0xc3, 0xa9]

theorem valid_acrossLimit : Valid acrossLimit := (valid_ascii 4095).append ⟨['é'], rfl⟩

theorem not_limitsStartRunes_acrossLimit : ¬ LimitsStartRunes acrossLimit := by
  have length : acrossLimit.length = 4097 := by
    rw [acrossLimit, List.length_append, List.length_replicate]
    rfl
  have byte : acrossLimit[4096]? = some 0xa9 := by
    have front : (List.replicate 4095 (0x61 : UInt8)).length ≤ 4096 := by
      rw [List.length_replicate]
      decide
    rw [acrossLimit, List.getElem?_append_right front, List.length_replicate]
    rfl
  have lineless : ∀ newline, ¬ IsNewline acrossLimit newline := by
    intro newline is
    have listed := List.mem_of_getElem? is
    rw [acrossLimit, List.mem_append, List.mem_replicate] at listed
    revert listed
    decide
  intro starts
  have found := starts 1 Nat.one_pos (by rw [length]; decide) fun newline _ => lineless newline
  rw [telegramMaxMessageLength, Nat.mul_one, StartsRune, byte] at found
  exact absurd found (by decide)

/-- A valid Markdown text with a character across its limit: the first post ends within it. -/
theorem limit_cuts_a_character :
    ¬ ∀ url request, Valid request.text → request.parseMode = "markdown" →
      ∀ replies passes, CharactersKept request.text (sendPasses url request replies passes) := by
  intro claimed
  exact not_limitsStartRunes_acrossLimit (limitsStartRunes_of_kept valid_acrossLimit rfl
    (claimed "url" ⟨"7", acrossLimit, "markdown"⟩ valid_acrossLimit rfl accepting))

/-! ### Plain text -/

/-- What a call does with a plain text, whatever the replies are: it ends, and its chunks are not
empty, within the limit, valid, and together the text if every post is accepted. -/
structure Lossless (url : String) (request : TelegramMessageRequest) : Prop where
  ends : ∀ replies, ∃ passes err,
    (sendPasses url request replies passes).outcome = some (.returned err)
  chunks : ∀ replies passes, ∀ post ∈ (sendPasses url request replies passes).posted,
    post.request.text ≠ [] ∧ post.request.text.length ≤ telegramMaxMessageLength ∧
      Valid post.request.text
  whole : ∀ replies, Answered replies → ∃ passes,
    (sendPasses url request replies passes).outcome = some (.returned none) ∧
      (sendPasses url request replies passes).posted.flatMap (·.request.text) = request.text

/-- Within a valid text a rune starts within the limit. -/
theorem runesFit_of_valid (valid : Valid text) : RunesFit text := by
  intro idx within
  have room : idx + 1 + 3 < text.length := by
    rw [telegramMaxMessageLength] at within
    omega
  obtain ⟨start, behind, near, starts⟩ := valid.starts_within_four room
  refine ⟨start, behind, ?_, startsRune_iff.mpr starts⟩
  rw [telegramMaxMessageLength]
  omega

/-- A call ends, whatever the replies are, where its loop moves on. -/
theorem ends_of_advances
    (advances : Advances (nextIdx request.text request.parseMode) request.text.length)
    (replies : Replies) : ∃ passes err,
      (sendPasses url request replies passes).outcome = some (.returned err) := by
  obtain ⟨passes, arrived, -⟩ := advances.first_arrival
  have posted := posted_sendPasses url request replies (passes + 1)
  cases ended : (sendPasses url request replies (passes + 1)).outcome with
  | none => exact absurd ((posted.going ended).2 passes (Nat.lt_succ_self _)) (Nat.not_lt.mpr arrived)
  | some outcome =>
      cases outcome with
      | returned err => exact ⟨passes + 1, err, ended⟩
      | panicked => exact absurd ended posted.sound

/-- The whole text has been posted when an accepted call ends. -/
theorem whole_of_advances
    (advances : Advances (nextIdx request.text request.parseMode) request.text.length)
    {replies : Replies} (answered : Answered replies) : ∃ passes,
      (sendPasses url request replies passes).outcome = some (.returned none) ∧
        (sendPasses url request replies passes).posted.flatMap (·.request.text) =
          request.text := by
  obtain ⟨passes, arrived, first⟩ := advances.first_arrival
  have noChunk : ¬ HasChunk request passes := Nat.not_lt.mpr arrived
  refine ⟨passes + 1, ?_⟩
  rw [sendPasses, sendPasses_of_answered url answered first, step_inLoop, if_neg noChunk]
  refine ⟨rfl, ?_⟩
  show ((List.range passes).map (postOf url request)).flatMap (·.request.text) = request.text
  rw [List.flatMap_map]
  exact (flatMap_chunk _ _ first).trans (List.take_of_length_le arrived)

/-- A valid plain text is posted without loss. -/
theorem plain_is_lossless (valid : Valid request.text) (plain : request.parseMode ≠ "markdown") :
    Lossless url request := by
  have advances := advances_of_runesFit plain (runesFit_of_valid valid)
  refine ⟨ends_of_advances advances, ?_, fun replies => whole_of_advances advances⟩
  intro replies passes post posted
  obtain ⟨count, posts, inside⟩ := (posted_sendPasses url request replies passes).posts
  rw [posts] at posted
  obtain ⟨pass, among, rfl⟩ := List.mem_map.mp posted
  have starts := inside pass (List.mem_range.mp among)
  have boundary := boundary_chunkStart_plain valid plain
  refine ⟨?_, chunk_length_le_iff.mpr (nextIdx_le_of_plain plain), valid_chunk boundary starts⟩
  have positive : 0 < (chunk request.text request.parseMode pass).length := by
    rw [chunk_length]
    exact Nat.sub_pos_of_lt (advances pass starts)
  exact List.ne_nil_of_length_pos positive

theorem plain_is_lossless_across_limit : Lossless "url" ⟨"7", acrossLimit, ""⟩ :=
  plain_is_lossless valid_acrossLimit (by decide)

end MessagePusher.Telegram
