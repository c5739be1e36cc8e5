import MessagePusher.Release.VariantTable

/-!
# The sanitizer in one pass

What `sanitizeTagName` arrives at, character by character: nothing before the first letter, digit or
underscore, one hyphen for each run of characters that no tag has, unless the run is white space at
the end. More text never makes a shorter name, so it shows where a text stands twice.
-/

namespace MessagePusher.Release

open Common Scripts

/-- A character that a tag can begin with. -/
def isWordChar (char : Char) : Bool := char.isAlphanum || char = '_'

/-- Before the name, behind a character of it, behind white space, behind a run that is shown. -/
inductive Scan where
  | lead
  | tag
  | spaces
  | run
deriving DecidableEq

/-- What a character adds to the name. -/
def Scan.step (state : Scan) (char : Char) : List Char × Scan :=
  match state with
  | lead => if isWordChar char then ([char], tag) else ([], lead)
  | tag =>
      if isTagChar char then ([char], tag) else if isSpace char then ([], spaces) else (['-'], run)
  | spaces =>
      if isTagChar char then (['-', char], tag) else if isSpace char then ([], spaces)
      else (['-'], run)
  | run => if isTagChar char then ([char], tag) else ([], run)

def scan : Scan → List Char → List Char
  | _, [] => []
  | state, char :: rest => (state.step char).1 ++ scan (state.step char).2 rest

def Scan.after (state : Scan) (text : List Char) : Scan :=
  text.foldl (fun state char => (state.step char).2) state

theorem scan_append (state : Scan) (first second : List Char) :
    scan state (first ++ second) = scan state first ++ scan (state.after first) second := by
  induction first generalizing state with
  | nil => rfl
  | cons char first ih => rw [List.cons_append, scan, ih, scan, List.append_assoc]; rfl

theorem Scan.after_append (state : Scan) (first second : List Char) :
    state.after (first ++ second) = (state.after first).after second :=
  List.foldl_append

/-! ### It is the sanitizer -/

theorem isTagChar_of_isWordChar {char : Char} (word : isWordChar char = true) :
    isTagChar char = true := by
  rcases Bool.or_eq_true_iff.mp word with letter | underscore
  · exact Bool.or_eq_true_iff.mpr (.inl letter)
  · rw [of_decide_eq_true underscore]
    rfl

theorem isWordChar_iff {char : Char} (legal : isTagChar char = true) :
    isWordChar char = true ↔ ¬ (char = '.' || char = '-') = true := by
  constructor
  · intro word mark
    rcases Bool.or_eq_true_iff.mp mark with dot | hyphen
    · rw [of_decide_eq_true dot] at word
      cases word
    · rw [of_decide_eq_true hyphen] at word
      cases word
  · intro noMark
    rcases Bool.or_eq_true_iff.mp legal with letter | listed
    · exact Bool.or_eq_true_iff.mpr (.inl letter)
    · have known : char ∈ ['_', '.', '-'] := List.mem_of_elem_eq_true listed
      simp only [List.mem_cons, List.not_mem_nil, or_false] at known
      rcases known with rfl | rfl | rfl
      · rfl
      · exact absurd rfl noMark
      · exact absurd rfl noMark

theorem rdropWhile_cons (char : Char) (rest : List Char) :
    (char :: rest).rdropWhile isSpace =
      if rest.rdropWhile isSpace = [] ∧ isSpace char = true then []
      else char :: rest.rdropWhile isSpace := by
  induction rest using List.reverseRecOn generalizing char with
  | nil =>
      by_cases space : isSpace char = true
      · rw [if_pos ⟨rfl, space⟩, ← List.nil_append [char], List.rdropWhile_concat_pos _ _ _ space]
        rfl
      · rw [if_neg fun both => space both.2, ← List.nil_append [char],
          List.rdropWhile_concat_neg _ _ _ space]
        rfl
  | append_singleton rest last ih =>
      by_cases space : isSpace last = true
      · rw [← List.cons_append, List.rdropWhile_concat_pos _ _ _ space,
          List.rdropWhile_concat_pos _ _ _ space]
        exact ih char
      · have some_ : rest ++ [last] ≠ [] := by simp
        rw [← List.cons_append, List.rdropWhile_concat_neg _ _ _ space,
          List.rdropWhile_concat_neg _ _ _ space, if_neg fun both => some_ both.1]
        rfl

/-- The name from inside of a text on, of which the white space at the end is trimmed. -/
theorem scan_inside (text : List Char) :
    scan .tag text = collapseInvalid false (text.rdropWhile isSpace) ∧
    scan .run text = collapseInvalid true (text.rdropWhile isSpace) ∧
    scan .spaces text = if text.rdropWhile isSpace = [] then []
      else '-' :: collapseInvalid true (text.rdropWhile isSpace) := by
  induction text with
  | nil => exact ⟨rfl, rfl, rfl⟩
  | cons char rest ih =>
      obtain ⟨tag, run, spaces⟩ := ih
      rw [rdropWhile_cons]
      by_cases legal : isTagChar char = true
      · have noSpace := isSpace_of_isTagChar legal
        simp [scan, Scan.step, legal, noSpace, tag, collapseInvalid]
      · by_cases space : isSpace char = true
        · by_cases nothing : rest.rdropWhile isSpace = []
          · simp [scan, Scan.step, legal, space, run, spaces, nothing, collapseInvalid]
          · simp [scan, Scan.step, legal, space, run, spaces, nothing, collapseInvalid]
        · simp [scan, Scan.step, legal, space, run, collapseInvalid]

/-- The name from the beginning of a text on, in which no leading marks are shown. -/
theorem scan_lead (text : List Char) (inside : Bool) :
    scan .lead text = (collapseInvalid inside (text.rdropWhile isSpace)).dropWhile
      fun char => char = '.' || char = '-' := by
  induction text generalizing inside with
  | nil => rfl
  | cons char rest ih =>
      rw [rdropWhile_cons]
      by_cases legal : isTagChar char = true
      · have notBlank : ¬ (rest.rdropWhile isSpace = [] ∧ isSpace char = true) := fun both =>
          absurd both.2 (by rw [isSpace_of_isTagChar legal]; decide)
        rw [if_neg notBlank, collapseInvalid, if_pos legal]
        by_cases word : isWordChar char = true
        · have begins : scan .lead (char :: rest) = char :: scan .tag rest := by
            simp [scan, Scan.step, word]
          rw [begins, (scan_inside rest).1]
          exact (@List.dropWhile_cons_of_neg _ (fun char => char = '.' || char = '-') _ _
            ((isWordChar_iff legal).mp word)).symm
        · have stays : scan .lead (char :: rest) = scan .lead rest := by
            simp [scan, Scan.step, word]
          rw [stays, ih false]
          exact (@List.dropWhile_cons_of_pos _ (fun char => char = '.' || char = '-') _ _
            (not_not.mp (mt (isWordChar_iff legal).mpr word))).symm
      · have noWord : ¬ isWordChar char = true := mt isTagChar_of_isWordChar legal
        have stays : scan .lead (char :: rest) = scan .lead rest := by
          simp [scan, Scan.step, noWord]
        rw [stays]
        split_ifs with blank
        · rw [ih inside, blank.1]
        · rw [collapseInvalid, if_neg legal]
          cases inside
          · rw [if_neg Bool.false_ne_true, ih true]
            exact (List.dropWhile_cons_of_pos rfl).symm
          · rw [if_pos rfl, ← ih true]

theorem scan_lead_dropWhile (text : List Char) :
    scan .lead (text.dropWhile isSpace) = scan .lead text := by
  induction text with
  | nil => rfl
  | cons char rest ih =>
      by_cases space : isSpace char = true
      · have noWord : ¬ isWordChar char = true := by
          intro word
          rw [isSpace_of_isTagChar (isTagChar_of_isWordChar word)] at space
          cases space
        rw [List.dropWhile_cons_of_pos space, ih]
        simp [scan, Scan.step, noWord]
      · rw [List.dropWhile_cons_of_neg space]

theorem cleanTagName_eq_scan (text : String) :
    cleanTagName text = String.ofList (scan .lead text.toList) := by
  rw [← scan_lead_dropWhile, scan_lead _ false]
  rfl

/-- Behind the beginning of a name, what a tag may have is kept. -/
theorem scan_tag_of_legal {text : List Char} (legal : ∀ char ∈ text, isTagChar char = true)
    (rest : List Char) : scan .tag (text ++ rest) = text ++ scan .tag rest := by
  induction text with
  | nil => rfl
  | cons char text ih =>
      have first := legal char List.mem_cons_self
      rw [List.cons_append, scan]
      simp only [Scan.step, first, if_true]
      rw [ih fun other member => legal other (List.mem_cons_of_mem _ member)]
      rfl

/-- A legal piece of a text that begins as a name may begin stands in the name of the text. -/
theorem infix_scan {state : Scan} {first : Char} {piece text : List Char}
    (word : isWordChar first = true) (legal : ∀ char ∈ piece, isTagChar char = true)
    (inside : first :: piece <:+: text) : first :: piece <:+: scan state text := by
  obtain ⟨before, after, rfl⟩ := inside
  have begins : ∀ state rest,
      ∃ out, scan state (first :: rest) = out ++ first :: scan .tag rest := by
    intro state rest
    have shown := isTagChar_of_isWordChar word
    cases state with
    | lead => exact ⟨[], by simp [scan, Scan.step, word]⟩
    | tag | run => exact ⟨[], by simp [scan, Scan.step, shown]⟩
    | spaces => exact ⟨['-'], by simp [scan, Scan.step, shown]⟩
  obtain ⟨out, shown⟩ := begins (state.after before) (piece ++ after)
  rw [List.append_assoc, scan_append, List.cons_append, shown, scan_tag_of_legal legal]
  exact ⟨scan state before ++ out, scan .tag after, by simp⟩

/-! ### More text makes no shorter name -/

/-- The more there is before a text, the longer is its name, by one character at most. -/
theorem length_scan (text : List Char) :
    (scan .lead text).length ≤ (scan .run text).length ∧
    (scan .run text).length ≤ (scan .tag text).length ∧
    (scan .tag text).length ≤ (scan .spaces text).length ∧
    (scan .spaces text).length ≤ (scan .run text).length + 1 := by
  induction text with
  | nil => exact ⟨Nat.le_refl _, Nat.le_refl _, Nat.le_refl _, Nat.zero_le _⟩
  | cons char rest ih =>
      by_cases legal : isTagChar char = true
      · by_cases word : isWordChar char = true
        · simp [scan, Scan.step, legal, word]
        · simp [scan, Scan.step, legal, word]
          omega
      · have noWord : ¬ isWordChar char = true := mt isTagChar_of_isWordChar legal
        by_cases space : isSpace char = true
        · simp [scan, Scan.step, legal, noWord, space]
          omega
        · simp [scan, Scan.step, legal, noWord, space]
          omega

/-- A character in front makes no shorter name. -/
theorem length_scan_cons (state : Scan) (char : Char) (rest : List Char) :
    (scan state rest).length ≤ (scan state (char :: rest)).length := by
  obtain ⟨lead, run, tag, spaces⟩ := length_scan rest
  rw [scan, List.length_append]
  cases state with
  | lead =>
      by_cases word : isWordChar char = true
      · simp only [Scan.step, word, if_true, List.length_singleton]
        omega
      · simp [Scan.step, word]
  | tag =>
      by_cases legal : isTagChar char = true
      · simp [Scan.step, legal]
      · by_cases space : isSpace char = true
        · simpa [Scan.step, legal, space] using tag
        · simp only [Scan.step, legal, space, if_false, Bool.false_eq_true, List.length_singleton]
          omega
  | spaces =>
      by_cases legal : isTagChar char = true
      · simp only [Scan.step, legal, if_true, List.length_cons, List.length_nil]
        omega
      · by_cases space : isSpace char = true
        · simp [Scan.step, legal, space]
        · simp only [Scan.step, legal, space, if_false, Bool.false_eq_true, List.length_singleton]
          omega
  | run =>
      by_cases legal : isTagChar char = true
      · simp only [Scan.step, legal, if_true, List.length_singleton]
        omega
      · simp [Scan.step, legal]

theorem length_scan_append (state : Scan) (text rest : List Char) :
    (scan state rest).length ≤ (scan state (text ++ rest)).length := by
  induction text with
  | nil => exact Nat.le_refl _
  | cons char text ih => exact ih.trans (length_scan_cons state char (text ++ rest))

/-! ### A text twice -/

theorem Scan.step_ne_lead {state : Scan} (inside : state ≠ .lead) (char : Char) :
    (state.step char).2 ≠ .lead := by
  cases state with
  | lead => exact absurd rfl inside
  | tag | spaces | run =>
      rw [Scan.step]
      split_ifs <;> simp

theorem Scan.after_ne_lead {state : Scan} (inside : state ≠ .lead) (text : List Char) :
    state.after text ≠ .lead := by
  induction text generalizing state with
  | nil => exact inside
  | cons char text ih => exact ih (step_ne_lead inside char)

/-- The name has not begun before its first letter, digit or underscore. -/
theorem Scan.after_eq_lead_iff (text : List Char) :
    Scan.lead.after text = .lead ↔ ∀ char ∈ text, ¬ isWordChar char = true := by
  induction text with
  | nil => exact iff_of_true rfl (by rintro _ ⟨⟩)
  | cons char text ih =>
      rw [List.forall_mem_cons]
      by_cases word : isWordChar char = true
      · have begins : Scan.lead.after (char :: text) = Scan.tag.after text := by
          simp [Scan.after, Scan.step, word]
        rw [begins]
        exact iff_of_false (after_ne_lead (by decide) text) fun both => both.1 word
      · have stays : Scan.lead.after (char :: text) = Scan.lead.after text := by
          simp [Scan.after, Scan.step, word]
        rw [stays, ih]
        exact (and_iff_right word).symm

/-- Inside of a name, a text with a character that a tag has makes it longer. -/
theorem length_scan_lt {state : Scan} (inside : state ≠ .lead) {text : List Char}
    (shown : ∃ char ∈ text, isTagChar char = true) (rest : List Char) :
    (scan state rest).length < (scan state (text ++ rest)).length := by
  induction text generalizing state with
  | nil =>
      obtain ⟨_, ⟨⟩, _⟩ := shown
  | cons char text ih =>
      by_cases legal : isTagChar char = true
      · obtain ⟨_, run, tag, spaces⟩ := length_scan rest
        have more := length_scan_append .tag text rest
        cases state with
        | lead => exact absurd rfl inside
        | tag | spaces | run =>
            simp only [List.cons_append, scan, Scan.step, legal, if_true, List.length_cons,
              List.length_append, List.length_nil]
            omega
      · have later : ∃ char ∈ text, isTagChar char = true := by
          obtain ⟨known, member, shown⟩ := shown
          rcases List.mem_cons.mp member with rfl | member
          · exact absurd shown legal
          · exact ⟨known, member, shown⟩
        have first := length_scan_cons state char rest
        have rest_ := ih (Scan.step_ne_lead inside char) later
        rw [scan, List.length_append] at first
        rw [List.cons_append, scan, List.length_append]
        omega

/-- A text of which nothing is shown where it stands a second time. -/
def Unseen (before text : List Char) : Prop :=
  (∀ char ∈ text, ¬ isWordChar char = true) ∧
    ((∀ char ∈ text, ¬ isTagChar char = true) ∨ ∀ char ∈ before, ¬ isWordChar char = true)

theorem Unseen.nil (before : List Char) : Unseen before [] :=
  ⟨by rintro _ ⟨⟩, .inl (by rintro _ ⟨⟩)⟩

/-- Characters that add nothing and stay in the state are skipped. -/
theorem scan_skip {state : Scan} {text : List Char}
    (skipped : ∀ char ∈ text, state.step char = ([], state)) (rest : List Char) :
    scan state (text ++ rest) = scan state rest := by
  induction text with
  | nil => rfl
  | cons char text ih =>
      rw [List.cons_append, scan, skipped char List.mem_cons_self]
      exact ih fun other member => skipped other (List.mem_cons_of_mem _ member)

theorem scan_lead_of_noWord {text : List Char} (noWord : ∀ char ∈ text, ¬ isWordChar char = true)
    (rest : List Char) : scan .lead (text ++ rest) = scan .lead rest :=
  scan_skip (fun char member => by rw [Scan.step, if_neg (noWord char member)]) rest

theorem scan_run_of_illegal {text : List Char} (illegal : ∀ char ∈ text, ¬ isTagChar char = true)
    (rest : List Char) : scan .run (text ++ rest) = scan .run rest :=
  scan_skip (fun char member => by rw [Scan.step, if_neg (illegal char member)]) rest

theorem scan_spaces_of_illegal {text : List Char}
    (illegal : ∀ char ∈ text, ¬ isTagChar char = true) :
    (∀ rest, scan .spaces (text ++ rest) = scan .spaces rest) ∨
      ∀ rest, scan .spaces (text ++ rest) = '-' :: scan .run rest := by
  induction text with
  | nil => exact .inl fun _ => rfl
  | cons char text ih =>
      have first := illegal char List.mem_cons_self
      have others : ∀ other ∈ text, ¬ isTagChar other = true :=
        fun other member => illegal other (List.mem_cons_of_mem _ member)
      by_cases space : isSpace char = true
      · have skips : ∀ rest, scan .spaces (char :: rest) = scan .spaces rest := by
          intro rest
          simp [scan, Scan.step, first, space]
        simpa only [List.cons_append, skips] using ih others
      · refine .inr fun rest => ?_
        rw [← scan_run_of_illegal others rest]
        simp [scan, Scan.step, first, space]

/-- Characters that no tag has stand for one run of them, however often they stand there. -/
theorem scan_twice_of_illegal (state : Scan) {text : List Char}
    (illegal : ∀ char ∈ text, ¬ isTagChar char = true) (rest : List Char) :
    scan state (text ++ (text ++ rest)) = scan state (text ++ rest) := by
  have inSpaces : scan .spaces (text ++ (text ++ rest)) = scan .spaces (text ++ rest) := by
    rcases scan_spaces_of_illegal illegal with blank | shown
    · exact blank (text ++ rest)
    · rw [shown, scan_run_of_illegal illegal, shown]
  cases state with
  | lead => exact scan_lead_of_noWord (fun char member => mt isTagChar_of_isWordChar
      (illegal char member)) (text ++ rest)
  | spaces => exact inSpaces
  | run => exact scan_run_of_illegal illegal (text ++ rest)
  | tag =>
      cases text with
      | nil => rfl
      | cons char text =>
          -- Such a character does behind a tag character what it does behind white space.
          have same : ∀ rest, scan .tag (char :: rest) = scan .spaces (char :: rest) := by
            intro rest
            have first := illegal char List.mem_cons_self
            simp [scan, Scan.step, first]
          rw [List.cons_append, List.cons_append, same, same]
          exact inSpaces

/-- An unseen text may stand there twice. -/
theorem scan_twice {before text : List Char} (unseen : Unseen before text) (rest : List Char) :
    scan .lead (before ++ (text ++ (text ++ rest))) = scan .lead (before ++ (text ++ rest)) := by
  rw [scan_append _ before (text ++ (text ++ rest)), scan_append _ before (text ++ rest)]
  obtain ⟨noWord, illegal | lead⟩ := unseen
  · rw [scan_twice_of_illegal _ illegal rest]
  · rw [(Scan.after_eq_lead_iff before).mpr lead, scan_lead_of_noWord noWord (text ++ rest)]

/-- A text that stands there twice and is seen makes the name longer. -/
theorem unseen_of_length {before text : List Char} (rest : List Char)
    (noLonger : (scan .lead (before ++ (text ++ (text ++ rest)))).length ≤
      (scan .lead (before ++ (text ++ rest))).length) : Unseen before text := by
  by_contra seen
  have shown : ∃ char ∈ text, isTagChar char = true := by
    by_contra none_
    push Not at none_
    have illegal : ∀ char ∈ text, ¬ isTagChar char = true := none_
    exact seen ⟨fun char member => mt isTagChar_of_isWordChar (illegal char member), .inl illegal⟩
  have inside : (Scan.lead.after before).after text ≠ .lead := by
    rw [← Scan.after_append]
    intro lead
    rw [Scan.after_eq_lead_iff] at lead
    exact seen ⟨fun char member => lead char (List.mem_append_right _ member),
      .inr fun char member => lead char (List.mem_append_left _ member)⟩
  have longer := length_scan_lt inside shown rest
  rw [scan_append _ before (text ++ (text ++ rest)), scan_append _ before (text ++ rest),
    scan_append (Scan.lead.after before) text (text ++ rest),
    scan_append (Scan.lead.after before) text rest] at noLonger
  simp only [List.length_append] at noLonger
  omega

/-- A text that stands there twice makes the name of one that stands there once, if it is unseen. -/
theorem scan_twice_iff (before text rest : List Char) :
    scan .lead (before ++ (text ++ (text ++ rest))) = scan .lead (before ++ (text ++ rest)) ↔
      Unseen before text :=
  ⟨fun same => unseen_of_length rest (congrArg List.length same).le,
    fun unseen => scan_twice unseen rest⟩

/-- A text in front of the rest of a name makes it no shorter. -/
theorem length_scan_insert (before text rest : List Char) :
    (scan .lead (before ++ rest)).length ≤ (scan .lead (before ++ (text ++ rest))).length := by
  rw [scan_append, scan_append _ before (text ++ rest), List.length_append, List.length_append]
  exact Nat.add_le_add_left (length_scan_append _ text rest) _

/-- Two texts around a name that stand there twice. -/
theorem scan_both_twice_iff (before start name finish rest : List Char) :
    scan .lead (before ++ (start ++ (start ++ (name ++ (finish ++ (finish ++ rest)))))) =
        scan .lead (before ++ (start ++ (name ++ (finish ++ rest)))) ↔
      Unseen before start ∧ Unseen (before ++ (start ++ name)) finish := by
  have outer : ∀ rest, before ++ (start ++ (name ++ rest)) = before ++ (start ++ name) ++ rest := by
    intro rest
    simp only [List.append_assoc]
  constructor
  · intro same
    -- Either one alone makes the name no shorter, and both together make it no longer.
    have equal := congrArg List.length same
    have byStart := length_scan_insert before start
      (start ++ (name ++ (finish ++ (finish ++ rest))))
    have byFinish := length_scan_insert (before ++ (start ++ name)) finish (finish ++ rest)
    rw [← outer, ← outer] at byFinish
    have startUnseen : Unseen before start := unseen_of_length _ (equal.trans_le byFinish)
    refine ⟨startUnseen, unseen_of_length rest ?_⟩
    rw [← outer, ← outer]
    omega
  · rintro ⟨startUnseen, finishUnseen⟩
    rw [scan_twice startUnseen, outer, outer]
    exact scan_twice finishUnseen rest

end MessagePusher.Release
