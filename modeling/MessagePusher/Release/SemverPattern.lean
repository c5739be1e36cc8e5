import MessagePusher.Scripts.Meta
import Mathlib.Data.List.Infix
import Mathlib.Data.List.TakeDrop

/-!
# What a semver pattern expands to

The expressions of a pattern do not overlap, so the value of each one stands in the expanded text.
-/

namespace MessagePusher.Release

open Common Scripts

theorem contains_iff {text part : String} :
    Text.contains text part = true ↔ part.toList <:+: text.toList := by
  unfold Text.contains
  rw [List.any_eq_true]
  constructor
  · rintro ⟨tail, isTail, starts⟩
    exact (List.isPrefixOf_iff_prefix.1 starts).isInfix.trans
      ((List.mem_tails _ _).1 isTail).isInfix
  · rintro ⟨before, after, whole⟩
    refine ⟨part.toList ++ after, (List.mem_tails _ _).2 ⟨before, ?_⟩,
      List.isPrefixOf_iff_prefix.2 (List.prefix_append _ _)⟩
    rw [← whole, List.append_assoc]

/-! ### Expressions -/

variable {value : String → Option String} {chars token : List Char} {length : Nat}

theorem mem_dropWhile {drops : Char → Bool} {char : Char} (member : char ∈ chars)
    (kept : drops char = false) : char ∈ chars.dropWhile drops := by
  rw [← List.takeWhile_append_dropWhile (p := drops) (l := chars)] at member
  rcases List.mem_append.mp member with dropped | rest
  · rw [List.mem_takeWhile_imp dropped] at kept
    cases kept
  · exact rest

/-- `trim` drops white space only. -/
theorem mem_trimChars {char : Char} (member : char ∈ chars) (shown : isSpace char = false) :
    char ∈ trimChars chars := by
  unfold trimChars
  rw [List.mem_reverse]
  exact mem_dropWhile (List.mem_reverse.mpr (mem_dropWhile member shown)) shown

theorem expression?_eq_some (found : expression? chars = some (token, length)) :
    ∃ content rest, chars = '{' :: '{' :: (content ++ '}' :: '}' :: rest) ∧
      token = trimChars content ∧ length = content.length + 4 := by
  unfold expression? at found
  split at found
  · rename_i body
    split at found
    · rename_i content rest cut
      rw [List.span_eq_takeWhile_dropWhile, Prod.mk.injEq] at cut
      obtain ⟨rfl, rfl⟩ := Prod.mk.inj (Option.some.inj found)
      refine ⟨content, rest, ?_, rfl, rfl⟩
      rw [← cut.2, ← cut.1, List.takeWhile_append_dropWhile]
    · cases found
  · cases found

theorem expression?_starts (found : expression? chars = some (token, length)) :
    ∃ rest, chars = '{' :: '{' :: rest := by
  obtain ⟨content, rest, rfl, -⟩ := expression?_eq_some found
  exact ⟨_, rfl⟩

/-- No expression starts at a character that is not a brace. -/
theorem suffix_of_noBrace {tail inner rest : List Char} (noBrace : '{' ∉ inner)
    (isTail : tail <:+ inner ++ rest) (found : expression? tail = some (token, length)) :
    tail <:+ rest := by
  induction inner with
  | nil => exact isTail
  | cons char inner ih =>
      rw [List.mem_cons, not_or] at noBrace
      rcases List.suffix_cons_iff.mp isTail with rfl | later
      · obtain ⟨_, starts⟩ := expression?_starts found
        exact absurd (List.cons.inj starts).1.symm noBrace.1
      · exact ih noBrace.2 later

theorem replaceExpressions_skip (skip : Nat) (chars : List Char) :
    replaceExpressions value skip chars = replaceExpressions value 0 (chars.drop skip) := by
  induction skip generalizing chars with
  | zero => rfl
  | succ skip ih =>
      cases chars with
      | nil => rfl
      | cons char rest => exact ih rest

/-- An expression whose name has no brace, and what is behind it. -/
theorem expression?_skips {char : Char} {rest : List Char}
    (found : expression? (char :: rest) = some (token, length)) (noBrace : '{' ∉ token) :
    ∃ after, replaceExpressions value (length - 1) rest = replaceExpressions value 0 after ∧
      after.length < (char :: rest).length ∧
      ∀ tail token' length', tail <:+ rest → expression? tail = some (token', length') →
        tail <:+ after := by
  obtain ⟨content, after, whole, rfl, rfl⟩ := expression?_eq_some found
  obtain ⟨rfl, rfl⟩ := List.cons.inj whole
  have contentBare : '{' ∉ content := fun member => noBrace (mem_trimChars member (by decide))
  have inner : '{' ∉ content ++ ['}', '}'] := by
    simpa using contentBare
  refine ⟨after, ?_, ?_, ?_⟩
  · rw [replaceExpressions_skip]
    congr 1
    have size : content.length + 4 - 1 = (content ++ ['}', '}']).length + 1 := by simp
    rw [size, List.drop_succ_cons]
    have cut : content ++ '}' :: '}' :: after = content ++ ['}', '}'] ++ after := by simp
    rw [cut, List.drop_left]
  · simp only [List.length_cons, List.length_append]
    omega
  · intro tail token' length' isTail also
    rcases List.suffix_cons_iff.mp isTail with rfl | later
    · obtain ⟨_, starts⟩ := expression?_starts also
      cases content with
      | nil => cases (List.cons.inj (List.cons.inj starts).2).1
      | cons first content =>
          exact absurd (List.cons.inj (List.cons.inj starts).2).1.symm
            fun same => contentBare (same ▸ List.mem_cons_self)
    · refine suffix_of_noBrace inner ?_ also
      simpa using later

/-- The value of an expression stands in the text in which it is replaced. -/
theorem infix_replaceExpressions {tail : List Char} {text : String}
    (noBrace : ∀ name text, value name = some text → '{' ∉ name.toList)
    (isTail : tail <:+ chars) (found : expression? tail = some (token, length))
    (known : value (String.ofList token) = some text) :
    text.toList <:+: replaceExpressions value 0 chars := by
  induction size : chars.length using Nat.strong_induction_on generalizing chars with
  | _ _ ih =>
  subst size
  cases chars with
  | nil =>
      rw [List.suffix_nil.mp isTail] at found
      cases found
  | cons char rest =>
      have inRest : tail <:+ rest → text.toList <:+: replaceExpressions value 0 rest :=
        fun later => ih rest.length (Nat.lt_succ_self _) later rfl
      rw [replaceExpressions]
      cases first : expression? (char :: rest) with
      | none =>
          rcases List.suffix_cons_iff.mp isTail with rfl | later
          · rw [first] at found
            cases found
          · exact List.infix_cons (inRest later)
      | some read =>
          obtain ⟨token', length'⟩ := read
          dsimp only
          cases replaced : value (String.ofList token') with
          | none =>
              rcases List.suffix_cons_iff.mp isTail with rfl | later
              · rw [first] at found
                cases found
                rw [replaced] at known
                cases known
              · exact List.infix_cons (inRest later)
          | some other =>
              rcases List.suffix_cons_iff.mp isTail with rfl | later
              · rw [first] at found
                cases found
                obtain rfl := Option.some.inj (replaced.symm.trans known)
                exact (List.prefix_append _ _).isInfix
              · have bare := noBrace _ _ replaced
                rw [String.toList_ofList] at bare
                obtain ⟨after, skips, shorter, only⟩ := expression?_skips first bare
                dsimp only
                rw [skips]
                exact (ih after.length shorter (only _ _ _ later found) rfl).trans
                  (List.suffix_append _ _).isInfix

/-! ### Patterns -/

theorem exists_expression {names : List String} {text : String}
    (shows : hasExpression names text = true) :
    ∃ tail token length, tail <:+ text.toList ∧ expression? tail = some (token, length) ∧
      String.ofList token ∈ names := by
  obtain ⟨tail, isTail, shown⟩ := List.any_eq_true.mp shows
  obtain ⟨⟨token, length⟩, found, named⟩ := (Option.any_eq_true _ _).mp shown
  exact ⟨tail, token, length, (List.mem_tails _ _).mp isTail, found, List.mem_of_elem_eq_true named⟩

/-- What the expressions of a pattern stand for. -/
def patternValues (version raw : String) : List (String × String) :=
  let numbers := Text.split ((Text.split version '-').headD "") '.'
  [("raw", raw), ("version", version), ("major", numbers.getD 0 ""),
    ("minor", numbers.getD 1 ""), ("patch", numbers.getD 2 "")]

theorem patternValues_noBrace {version raw name text : String}
    (found : (patternValues version raw).lookup name = some text) : '{' ∉ name.toList := by
  obtain ⟨before, after, whole, -⟩ := List.lookup_eq_some_iff.mp found
  have listed : name ∈ (patternValues version raw).map Prod.fst := by
    rw [whole]
    simp
  have names : ∀ known ∈ ["raw", "version", "major", "minor", "patch"], '{' ∉ known.toList := by
    decide
  exact names name listed

/-- The pattern of a rule, or the default one. -/
def patternText (pattern : String) : String :=
  if pattern = "" then "\x7b\x7bversion\x7d\x7d" else pattern

theorem expandSemverPattern_eq (pattern version raw : String) (isPrerelease : Bool) :
    expandSemverPattern pattern version raw isPrerelease =
      if isPrerelease = true ∧ ¬ hasExpression ["version", "raw"] (patternText pattern) = true then
        ""
      else String.ofList (replaceExpressions (fun name => (patternValues version raw).lookup name) 0
        (patternText pattern).toList) :=
  rfl

variable {pattern version raw : String} {isPrerelease : Bool}

/-- The value of an expression of the pattern stands in what it expands to. -/
theorem infix_expandSemverPattern {names : List String}
    (some_ : expandSemverPattern pattern version raw isPrerelease ≠ "")
    (shows : hasExpression names (patternText pattern) = true)
    (listed : ∀ name ∈ names, name ∈ ["raw", "version"]) :
    ∃ name ∈ names, ∃ text, (patternValues version raw).lookup name = some text ∧
      text.toList <:+: (expandSemverPattern pattern version raw isPrerelease).toList := by
  obtain ⟨tail, token, length, isTail, found, named⟩ := exists_expression shows
  have valued : ∃ text, (patternValues version raw).lookup (String.ofList token) = some text := by
    have known := listed _ named
    simp only [List.mem_cons, List.not_mem_nil, or_false] at known
    rcases known with same | same
    · exact ⟨raw, by rw [same]; rfl⟩
    · exact ⟨version, by rw [same]; rfl⟩
  obtain ⟨text, known⟩ := valued
  refine ⟨_, named, text, known, ?_⟩
  rw [expandSemverPattern_eq] at some_ ⊢
  split_ifs at some_ ⊢ with refused
  · exact absurd rfl some_
  · rw [String.toList_ofList]
    exact infix_replaceExpressions (fun _ _ => patternValues_noBrace) isTail found known

/-- What a pattern shows of a pre-release. -/
theorem shown_of_prerelease (some_ : expandSemverPattern pattern version raw true ≠ "") :
    version.toList <:+: (expandSemverPattern pattern version raw true).toList ∨
      raw.toList <:+: (expandSemverPattern pattern version raw true).toList := by
  have shows : hasExpression ["version", "raw"] (patternText pattern) = true := by
    by_contra hidden
    rw [expandSemverPattern_eq, if_pos ⟨rfl, hidden⟩] at some_
    exact some_ rfl
  obtain ⟨name, listed, text, known, inside⟩ :=
    infix_expandSemverPattern some_ shows (by decide)
  simp only [List.mem_cons, List.not_mem_nil, or_false] at listed
  rcases listed with rfl | rfl
  · cases known
    exact .inl inside
  · cases known
    exact .inr inside

/-- A pattern with the whole tag in it. -/
theorem shown_of_raw (shows : hasExpression ["raw"] pattern = true)
    (some_ : expandSemverPattern pattern version raw isPrerelease ≠ "") :
    raw.toList <:+: (expandSemverPattern pattern version raw isPrerelease).toList := by
  have given : patternText pattern = pattern := if_neg (by
    rintro rfl
    exact absurd shows (by decide))
  rw [← given] at shows
  obtain ⟨name, listed, text, known, inside⟩ :=
    infix_expandSemverPattern some_ shows (by decide)
  obtain rfl := List.mem_singleton.mp listed
  cases known
  exact inside

/-- The pattern of a rule that gives none. -/
theorem expandSemverPattern_default (version raw : String) (isPrerelease : Bool) :
    expandSemverPattern "" version raw isPrerelease = version := by
  have shows : hasExpression ["version", "raw"] (patternText "") = true := by decide
  have whole : ∃ char rest, (patternText "").toList = char :: rest ∧
      expression? (char :: rest) = some ("version".toList, 11) ∧ rest.drop 10 = [] :=
    ⟨'{', _, rfl, by decide, by decide⟩
  obtain ⟨char, rest, text, found, nothing⟩ := whole
  rw [expandSemverPattern_eq, if_neg fun both => both.2 shows, text, replaceExpressions, found]
  dsimp only
  have known : (patternValues version raw).lookup (String.ofList "version".toList) =
      some version := rfl
  rw [known]
  dsimp only
  rw [replaceExpressions_skip, nothing, replaceExpressions, List.append_nil, String.ofList_toList]

theorem replaceExpressions_of_noBrace (noBrace : '{' ∉ chars) :
    replaceExpressions value 0 chars = chars := by
  induction chars with
  | nil => rfl
  | cons char rest ih =>
      rw [List.mem_cons, not_or] at noBrace
      have plain : expression? (char :: rest) = none := by
        cases found : expression? (char :: rest) with
        | none => rfl
        | some read =>
            obtain ⟨_, starts⟩ := expression?_starts found
            exact absurd (List.cons.inj starts).1.symm noBrace.1
      rw [replaceExpressions, plain]
      exact congrArg (char :: ·) (ih noBrace.2)

/-- A pattern without expressions is a name. -/
theorem expandSemverPattern_plain (some_ : pattern ≠ "") (noBrace : '{' ∉ pattern.toList) :
    expandSemverPattern pattern version raw false = pattern := by
  rw [expandSemverPattern_eq, if_neg fun both => absurd both.1 (by decide), patternText,
    if_neg some_, replaceExpressions_of_noBrace noBrace, String.ofList_toList]

end MessagePusher.Release
