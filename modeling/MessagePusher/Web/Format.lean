import Mathlib.Data.List.TakeWhile
import MessagePusher.Float64.Nearest
import MessagePusher.JsonText.OwnMembers
import MessagePusher.JsonText.Pretty
import MessagePusher.Web.EditMessage

/-!
# Formatting

`formatJSON` of `web/src/helpers/format.js` parses a text and writes it with an indentation. The
numbers of a script are floats, which not every number of a text is.
-/

namespace MessagePusher.Web

open Common Float64 JsonText

/-! ### The values of a script -/

/-- `Number::toString`, which writes no sign before zero. -/
def numberToString (float : Float64.Float) : String :=
  if float.magnitude.significand = 0 then "0" else String.ofList (floatText float)

/-- What `JSON.stringify` writes of the number that `JSON.parse` reads: a number beyond the floats is
infinite, and `null` when it is written. -/
def scriptNumber (literal : String) : Json :=
  (parseFloat literal).elim .null fun float => .number (numberToString float)

/-- The tree that is written of the value that is read. -/
def scriptValue (tree : Json) : Json := ownTree (bindNumbers scriptNumber (quoteTree tree))

/-- `formatJSON`. -/
def formatJSON (parseError : String → String) (source : String) : Except String String :=
  if jsTrim source = "" then .error "内容为空"
  else match syntaxTree source.length source with
    | none => .error (parseError source)
    | some parsed => .ok (String.ofList (prettyText 0 (scriptValue parsed)))

/-! ### What a document denotes -/

/-- A text that is one JSON value, however deep. -/
def Document (text : String) : Prop := ∃ limit tree, syntaxTree limit text = some tree

/-- The value of a document: objects are maps, strings are their code units, numbers are exact. -/
def documentMeaning (text : String) : Option Denotation :=
  (syntaxTree text.length text).map fun tree => meaning (quoteTree tree)

/-- The numbers of that value, without those of members that later ones replace. -/
def documentNumbers (text : String) : List String :=
  ((syntaxTree text.length text).map fun tree => numbers (toMaps (quoteTree tree))).getD []

/-- The float of the number has exactly its value, as it is written. -/
def FloatExact (literal : String) : Prop :=
  ∃ float, parseFloat literal = some float ∧
    literalValue (numberToString float) = literalValue literal

/-- The text is formatted to one of the same value, which formatting leaves as it is. -/
def FormatsFaithfully (parseError : String → String) (text : String) : Prop :=
  ∃ formatted, formatJSON parseError text = .ok formatted ∧
    documentMeaning formatted = documentMeaning text ∧
    formatJSON parseError formatted = .ok formatted

/-! ### Numbers -/

variable {literal : String}

theorem isNumber_numberToString (float : Float64.Float) : isNumber (numberToString float).toList := by
  unfold numberToString
  split_ifs with zero
  · rfl
  · rw [String.toList_ofList]
    exact isNumber_floatText float

theorem scriptNumber_eq {float : Float64.Float} (read : parseFloat literal = some float) :
    scriptNumber literal = .number (numberToString float) := by
  rw [scriptNumber, read, Option.elim_some]

theorem scriptNumber_scalar (literal : String) :
    (∃ float, parseFloat literal = some float ∧
      scriptNumber literal = .number (numberToString float)) ∨ scriptNumber literal = .null := by
  cases read : parseFloat literal with
  | none => exact .inr (by rw [scriptNumber, read, Option.elim_none])
  | some float => exact .inl ⟨float, rfl, scriptNumber_eq read⟩

theorem toMaps_scriptNumber (literal : String) :
    toMaps (scriptNumber literal) = scriptNumber literal := by
  rcases scriptNumber_scalar literal with ⟨float, -, found⟩ | found
  · rw [found, toMaps]
  · rw [found, toMaps]

theorem strings_scriptNumber (literal : String) : strings (scriptNumber literal) = [] := by
  rcases scriptNumber_scalar literal with ⟨float, -, found⟩ | found
  · rw [found, strings]
  · rw [found, strings]

theorem isNumber_scriptNumber {written : String}
    (within : Within (.number written) (scriptNumber literal)) : isNumber written.toList := by
  rcases scriptNumber_scalar literal with ⟨float, -, found⟩ | found
  · rw [found] at within
    rw [within_number within]
    exact isNumber_numberToString float
  · rw [found] at within
    cases within

/-- A number denotes the same after it has been a float exactly if it has the value of the float. -/
theorem denote_scriptNumber_iff :
    denote (scriptNumber literal) = .number (literalValue literal) ↔ FloatExact literal := by
  constructor
  · intro same
    rcases scriptNumber_scalar literal with ⟨float, read, found⟩ | found
    · rw [found, denote, Denotation.number.injEq] at same
      exact ⟨float, read, same⟩
    · rw [found, denote] at same
      cases same
  · rintro ⟨float, read, same⟩
    rw [scriptNumber_eq read, denote, same]

/-- The text of a float of the same value is read as it again. -/
theorem scriptNumber_of_exact {written : String} (exact_ : FloatExact literal)
    (within : Within (.number written) (scriptNumber literal)) :
    scriptNumber written = .number written := by
  obtain ⟨float, read, same⟩ := exact_
  rw [scriptNumber_eq read] at within
  rw [within_number within]
  by_cases nothing : float.magnitude.significand = 0
  · rw [numberToString, if_pos nothing]
    rfl
  · have nonzero := literalValue_ne_zero read nothing
    have again : parseFloat (numberToString float) = some float :=
      (parseFloat_congr (same.trans_ne nonzero) same).trans read
    exact scriptNumber_eq again

/-! ### The value of a script -/

variable {tree : Json}

/-- The strings of a script value are quoted. -/
theorem quoted_scriptValue : ∀ raw ∈ strings (scriptValue tree),
    ∃ source : String, raw = overChars quoteLiteral source := by
  intro raw inside
  have listed := mem_strings_ownTree inside
  rw [strings_bindNumbers strings_scriptNumber, quoteTree, strings_mapStrings] at listed
  obtain ⟨source, -, rfl⟩ := List.mem_map.mp listed
  exact ⟨source, rfl⟩

/-- Its numbers are written of those of the value of the document. -/
theorem within_number_scriptValue {written : String}
    (within : Within (.number written) (scriptValue tree)) :
    ∃ source, Within (.number source) (toMaps (quoteTree tree)) ∧
      Within (.number written) (scriptNumber source) := by
  have inside := within_number_ownTree within
  rw [toMaps_bindNumbers toMaps_scriptNumber] at inside
  exact within_number_bindNumbers inside

theorem numbersValid_scriptValue : NumbersValid (scriptValue tree) := by
  intro written within
  obtain ⟨source, -, inside⟩ := within_number_scriptValue within
  exact isNumber_scriptNumber inside

/-- It denotes what the document does exactly if the numbers of that are exact. -/
theorem meaning_scriptValue_iff :
    meaning (quoteTree (scriptValue tree)) = meaning (quoteTree tree) ↔
      ∀ literal, Within (.number literal) (toMaps (quoteTree tree)) → FloatExact literal := by
  have numbersOnly : toMaps (scriptValue tree) = bindNumbers scriptNumber (toMaps (quoteTree tree)) := by
    rw [scriptValue, toMaps_ownTree, toMaps_bindNumbers toMaps_scriptNumber]
  rw [quoteTree_of_quoted quoted_scriptValue, meaning, meaning, numbersOnly, denote_bindNumbers_iff]
  exact forall_congr' fun literal => imp_congr_right fun _ => denote_scriptNumber_iff

/-- A script value is one again, where the numbers are exact. -/
theorem scriptValue_scriptValue
    (exact_ : ∀ literal, Within (.number literal) (toMaps (quoteTree tree)) → FloatExact literal) :
    scriptValue (scriptValue tree) = scriptValue tree := by
  have numbers : bindNumbers scriptNumber (scriptValue tree) = scriptValue tree := by
    refine bindNumbers_id fun written within => ?_
    obtain ⟨source, inside, found⟩ := within_number_scriptValue within
    exact scriptNumber_of_exact (exact_ source inside) found
  have members : ownTree (scriptValue tree) = scriptValue tree := ownTree_ownTree _
  calc scriptValue (scriptValue tree)
      = ownTree (bindNumbers scriptNumber (quoteTree (scriptValue tree))) := rfl
    _ = ownTree (bindNumbers scriptNumber (scriptValue tree)) := by
        rw [quoteTree_of_quoted quoted_scriptValue]
    _ = scriptValue tree := by rw [numbers, members]

/-! ### Formatting a document -/

theorem isJsSpace_solid {char : Char} (space : isJsSpace char) : start char = ([], some .idle) ∨
    start char = ([], none) := by
  rcases step : start char with ⟨tokens, next⟩
  obtain ⟨emitted, goesOn⟩ := start_spec step
  have marks : ∀ entry ∈ punctuation, isJsSpace entry.1 = false := by decide
  have letters : ∀ entry ∈ words, isJsSpace entry.1 = false := by decide
  have empty : tokens = [] := by
    rcases emitted with rfl | ⟨token, -, listed⟩
    · rfl
    · exact absurd space (Bool.eq_false_iff.mp (marks _ listed))
  subst empty
  cases next with
  | none => exact .inr rfl
  | some mode =>
      rcases goesOn mode rfl with rfl | ⟨rfl, -⟩ | ⟨token, left, -, listed⟩ | ⟨phase, -, starts⟩
      · exact .inl rfl
      · cases space
      · exact absurd space (Bool.eq_false_iff.mp (letters _ listed))
      · unfold NumberPhase.start at starts
        split_ifs at starts with minus zero digit
        · subst minus
          cases space
        · subst zero
          cases space
        · have range : 48 ≤ char.toNat ∧ char.toNat ≤ 57 := by
            rw [Char.isDigit, Bool.and_eq_true, decide_eq_true_eq, decide_eq_true_eq] at digit
            exact ⟨UInt32.le_iff_toNat_le.mp digit.1, UInt32.le_iff_toNat_le.mp digit.2⟩
          simp only [isJsSpace, List.contains_cons, List.contains_nil, Bool.or_eq_true, beq_iff_eq,
            Bool.and_eq_true, decide_eq_true_eq, Bool.or_false] at space
          omega

/-- White space of a script alone is no document. -/
theorem lex_of_isJsSpace {text : List Char} (blank : ∀ char ∈ text, isJsSpace char) :
    lex text = [] ∨ lex text = [.bad] := by
  induction text with
  | nil => exact .inl rfl
  | cons char text ih =>
      rw [List.forall_mem_cons] at blank
      rcases isJsSpace_solid blank.1 with step | step
      · have idle : Mode.idle.step char = ([], some .idle) := step
        rw [lex, lexFrom_cons idle, List.nil_append]
        exact ih blank.2
      · have idle : Mode.idle.step char = ([], none) := step
        exact .inr (lexFrom_stuck idle text)

theorem isJsSpace_of_jsTrim {text : String} (empty : jsTrim text = "") :
    ∀ char ∈ text.toList, isJsSpace char := by
  have trimmed := congrArg String.toList empty
  rw [jsTrim, String.toList_ofList, String.toList_empty, List.reverse_eq_nil_iff,
    List.dropWhile_eq_nil_iff] at trimmed
  rw [← List.dropWhile_eq_nil_iff]
  by_contra more
  have first := List.head_dropWhile_not isJsSpace more
  rw [trimmed _ (List.mem_reverse.mpr (List.head_mem more))] at first
  cases first

/-- A document has text in it. -/
theorem jsTrim_ne_empty {limit : Nat} {text : String} (found : syntaxTree limit text = some tree) :
    jsTrim text ≠ "" := by
  intro empty
  obtain ⟨parsed, -⟩ := checked_eq_some_iff.mp found
  rcases lex_of_isJsSpace (isJsSpace_of_jsTrim empty) with none | none
  · rw [none] at parsed
    cases parsed
  · rw [none] at parsed
    cases parsed

section Formatting

variable (parseError : String → String)

theorem formatJSON_of_syntaxTree {text : String}
    (found : syntaxTree text.length text = some tree) :
    formatJSON parseError text = .ok (String.ofList (prettyText 0 (scriptValue tree))) := by
  rw [formatJSON, if_neg (jsTrim_ne_empty found), found]

/-- What is formatted is a document, of the value that the script has. -/
theorem syntaxTree_formatted (tree : Json) :
    syntaxTree (String.ofList (prettyText 0 (scriptValue tree))).length
      (String.ofList (prettyText 0 (scriptValue tree))) = some (scriptValue tree) :=
  syntaxTree_length (syntaxTree_prettyText numbersValid_scriptValue
    (literalsValid_of_quoted quoted_scriptValue) (Nat.le_refl _))

theorem formatsFaithfully_iff {text : String} (found : syntaxTree text.length text = some tree) :
    FormatsFaithfully parseError text ↔
      ∀ literal, Within (.number literal) (toMaps (quoteTree tree)) → FloatExact literal := by
  have formatted := formatJSON_of_syntaxTree parseError found
  have again := formatJSON_of_syntaxTree parseError (syntaxTree_formatted tree)
  have same : documentMeaning (String.ofList (prettyText 0 (scriptValue tree))) =
      documentMeaning text ↔
        meaning (quoteTree (scriptValue tree)) = meaning (quoteTree tree) := by
    rw [documentMeaning, documentMeaning, found, syntaxTree_formatted, Option.map_some,
      Option.map_some, Option.some.injEq]
  rw [← meaning_scriptValue_iff]
  constructor
  · rintro ⟨output, written, keeps, -⟩
    obtain rfl := Except.ok.inj (formatted.symm.trans written)
    exact same.mp keeps
  · intro keeps
    refine ⟨_, formatted, same.mpr keeps, ?_⟩
    rw [again, scriptValue_scriptValue (meaning_scriptValue_iff.mp keeps)]

/-- Formatting keeps the value of a document, and what is formatted, exactly if every number of the
value is that of its float as it is written. -/
theorem formatJSON_faithful_iff (text : String) (document : Document text) :
    FormatsFaithfully parseError text ↔ ∀ literal ∈ documentNumbers text, FloatExact literal := by
  obtain ⟨limit, tree, parsed⟩ := document
  have found := syntaxTree_length parsed
  rw [formatsFaithfully_iff parseError found, documentNumbers, found]
  exact forall_congr' fun literal => imp_congr_left mem_numbers_iff.symm

end Formatting

theorem formatJSON_faithful_iff_shortened :
    FormatsFaithfully (fun _ => "") "[10.50,1e2]" ↔
      ∀ literal ∈ documentNumbers "[10.50,1e2]", FloatExact literal := by
  have spelled : JsonText.text (.array [.number "10.50", .number "1e2"]) = "[10.50,1e2]".toList := by
    decide
  have parsed := @syntaxTree_text 1 (.array [.number "10.50", .number "1e2"]) (by decide) (by decide)
    (by decide)
  rw [spelled, String.ofList_toList] at parsed
  exact formatJSON_faithful_iff _ _ ⟨_, _, parsed⟩

/-! ### A number between two floats -/

def largeRule : String := "\x7b\"n\":9007199254740993\x7d"

theorem syntaxTree_largeRule : syntaxTree largeRule.length largeRule =
    some (.object [("n", .number "9007199254740993")]) := by
  have spelled : JsonText.text (.object [("n", .number "9007199254740993")]) = largeRule.toList := by
    decide
  have parsed := @syntaxTree_text 1 (.object [("n", .number "9007199254740993")]) (by decide)
    (by decide) (by decide)
  rw [spelled, String.ofList_toList] at parsed
  exact syntaxTree_length parsed

theorem not_floatExact : ¬ FloatExact "9007199254740993" := by
  rintro ⟨float, read, same⟩
  have written : (parseFloat "9007199254740993").map numberToString = some "9007199254740992" := by
    decide
  rw [read] at written
  have rounded : literalValue "9007199254740992" = 1 * (9007199254740992 : ℕ) * (10 : ℚ) ^ (0 : ℤ) :=
    rfl
  have stated : literalValue "9007199254740993" = 1 * (9007199254740993 : ℕ) * (10 : ℚ) ^ (0 : ℤ) :=
    rfl
  rw [Option.some.inj written, rounded, stated] at same
  simp only [one_mul, zpow_zero, mul_one, Nat.cast_inj] at same
  exact absurd same (by decide)

/-- The number of a rule is another one after the rule has been formatted. -/
theorem formatting_rounds_number : ¬ ∀ (parseError : String → String) (text : String),
    Document text → FormatsFaithfully parseError text := by
  intro claim
  have faithful := claim (fun _ => "") largeRule ⟨_, _, syntaxTree_largeRule⟩
  rw [formatsFaithfully_iff _ syntaxTree_largeRule] at faithful
  exact not_floatExact (faithful _ (.member (List.mem_singleton_self _) .self))

end MessagePusher.Web
