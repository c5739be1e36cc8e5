import MessagePusher.JsonText.Decode
import MessagePusher.Substitution.LongestName
import Mathlib.Data.List.Sort

/-!
# Template variables

`common/variables.go`. A variable holds a JSON value, which covers the strings and the 64-bit
integers of a message. Texts are valid UTF-8, so the byte loop of `RenderTemplate` is one over
characters: every byte it looks for is ASCII. `isPrint` is `strconv.IsPrint` beyond ASCII.
-/

namespace MessagePusher.Common

open JsonText

/-- The names of variables with their values. -/
abbrev Variables := List (String × Json)

section

variable (isPrint : Char → Bool)

/-! ### `escapeTemplateValue` -/

/-- `strconv.IsPrint`. -/
def isPrintable (char : Char) : Bool :=
  if char.toNat < 0x80 then 0x20 ≤ char.toNat && char.toNat ≠ 0x7f else isPrint char

/-- The controls with an escape of one letter. -/
def letterEscapes : List (Nat × Char) :=
  [(0x07, 'a'), (0x08, 'b'), (0x0c, 'f'), (0x0a, 'n'), (0x0d, 'r'), (0x09, 't'), (0x0b, 'v')]

/-- The hexadecimal digits of an escape. -/
def quoteDigits (count value : Nat) : List Char :=
  (List.range count).reverse.map fun place => hexDigit (value / 16 ^ place % 16)

/-- What `strconv.Quote` writes for a character. -/
def appendEscapedRune (char : Char) : List Char :=
  if char = '"' ∨ char = '\\' then ['\\', char]
  else if isPrintable isPrint char then [char]
  else match letterEscapes.lookup char.toNat with
    | some letter => ['\\', letter]
    | none =>
        if char.toNat < 0x20 ∨ char.toNat = 0x7f then '\\' :: 'x' :: quoteDigits 2 char.toNat
        else if char.toNat < 0x10000 then '\\' :: 'u' :: hexFour char.toNat
        else '\\' :: 'U' :: quoteDigits 8 char.toNat

/-- `strconv.Quote`, which is `%q`. -/
def quoteText (text : List Char) : List Char :=
  '"' :: (text.flatMap (appendEscapedRune isPrint) ++ ['"'])

/-- `strings.TrimSuffix` with one quote. -/
def trimQuoteSuffix (text : List Char) : List Char :=
  if text.getLast? = some '"' then text.dropLast else text

/-- `strings.TrimPrefix` with one quote. -/
def trimQuotePrefix (text : List Char) : List Char :=
  if text.head? = some '"' then text.tail else text

/-- `escapeTemplateValue`: `strconv.Quote` without the two quotes. -/
def escapeTemplateValue (value : List Char) : List Char :=
  trimQuotePrefix (trimQuoteSuffix (quoteText isPrint value))

/-- The quotes that are trimmed are those around the text, since one within is escaped. -/
theorem escapeTemplateValue_eq (value : List Char) :
    escapeTemplateValue isPrint value = value.flatMap (appendEscapedRune isPrint) := by
  have suffix : trimQuoteSuffix (quoteText isPrint value) =
      '"' :: value.flatMap (appendEscapedRune isPrint) := by
    have whole : quoteText isPrint value =
        ('"' :: value.flatMap (appendEscapedRune isPrint)) ++ ['"'] := rfl
    rw [trimQuoteSuffix, whole, List.getLast?_concat, if_pos rfl, List.dropLast_concat]
  rw [escapeTemplateValue, suffix]
  rfl

end

/-! ### Values and paths -/

/-- `templateValueString`. -/
def templateValueString : Json → Option String
  | .null => some ""
  | .string text => some text
  | .number literal => some literal
  | .bool value => some (if value then "true" else "false")
  | value => marshal value

/-- `isTemplatePathCapable`. -/
def isTemplatePathCapable : Json → Bool
  | .object _ | .array _ => true
  | .string text =>
      let trimmed := Text.trimSpace text
      Text.hasPrefix trimmed "\x7b" || Text.hasPrefix trimmed "["
  | _ => false

/-- `parseTemplateJSON`. -/
def parseTemplateJSON (text : String) : Option Json := decodeValue text

/-- The value that a segment is looked up in. -/
def templateNode : Json → Option Json
  | .string text => parseTemplateJSON text
  | value => some value

/-- The value under one segment of a path. -/
def templateChild (node : Json) (segment : String) : Option Json :=
  match node with
  | .object members => members.lookup segment
  | .array items =>
      match Text.parseInt segment with
      | (index, true) => if 0 ≤ index then items[index.toNat]? else none
      | (_, false) => none
  | _ => none

/-- `resolveTemplatePath`. -/
def resolveTemplatePath : Json → List String → Option Json
  | current, [] => some current
  | current, segment :: path =>
      if segment = "" then none
      else (templateNode current).bind fun node =>
        (templateChild node segment).bind fun next => resolveTemplatePath next path

/-! ### `RenderTemplate` -/

/-- `isTemplateIdentifierByte`, on a character of ASCII. -/
def isTemplateIdentifierByte (char : Char) : Bool :=
  ('a' ≤ char && char ≤ 'z') || ('A' ≤ char && char ≤ 'Z') || ('0' ≤ char && char ≤ '9') ||
    char = '_'

/-- `isTemplatePathStartByte`. -/
def isTemplatePathStartByte (char : Char) : Bool :=
  ('a' ≤ char && char ≤ 'z') || ('A' ≤ char && char ≤ 'Z') || ('0' ≤ char && char ≤ '9') ||
    char = '_' || char = '-'

/-- `isTemplatePathByte`. -/
def isTemplatePathByte (char : Char) : Bool :=
  ('a' ≤ char && char ≤ 'z') || ('A' ≤ char && char ≤ 'Z') || ('0' ≤ char && char ≤ '9') ||
    char = '_' || char = '-' || char = '.'

/-- The order of the names: longer ones first. -/
def NamesBefore (first second : String) : Prop :=
  second.utf8ByteSize < first.utf8ByteSize ∨
    (first.utf8ByteSize = second.utf8ByteSize ∧ first ≤ second)

instance (first second : String) : Decidable (NamesBefore first second) :=
  inferInstanceAs (Decidable (_ ∨ _))

/-- The names as `RenderTemplate` tries them: longer ones first, no blank one. -/
def templateNames (vars : Variables) : List String :=
  ((vars.map Prod.fst).filter (· ≠ "")).insertionSort NamesBefore

/-- The name of the placeholder whose `$` is followed by this text. -/
def templateName (vars : Variables) (rest : List Char) : Option String :=
  (templateNames vars).find? fun name => name.toList.isPrefixOf rest

/-- What one round of the loop writes: a part of the template, or the text of a value. -/
inductive Write where
  | copy (text : List Char)
  | value (text : List Char)
deriving DecidableEq

/-- The path after a variable, without its dot. -/
def templatePath (after : List Char) : Option (List Char) :=
  match after with
  | '.' :: first :: rest =>
      if isTemplatePathStartByte first then some ((first :: rest).takeWhile isTemplatePathByte)
      else none
  | _ => none

/-- The text of the value under a path. -/
def templatePathText (value : Json) (path : List Char) : Option String :=
  if path = [] ∨ path.head? = some '.' ∨ path.getLast? = some '.' then none
  else (resolveTemplatePath value (Text.split (String.ofList path) '.')).bind templateValueString

/-- A round of the loop at a `$`, on what follows it: what is written, and how much of what
follows is used up. -/
def placeholder (vars : Variables) (rest : List Char) : Write × Nat :=
  match templateName vars rest with
  | none => (.copy ['$'], 0)
  | some name =>
      let value := (vars.lookup name).getD .null
      let length := name.toList.length
      let after := rest.drop length
      match templatePath after with
      | some path =>
          match templatePathText value path with
          | some text => (.value text.toList, length + 1 + path.length)
          | none =>
              if isTemplatePathCapable value then
                (.copy ('$' :: (name.toList ++ '.' :: path)), length + 1 + path.length)
              else
                match templateValueString value with
                | some text => (.value text.toList, length)
                | none => (.copy ('$' :: name.toList), length)
      | none =>
          match templateValueString value with
          | some text =>
              if after.head?.any isTemplateIdentifierByte then (.copy ('$' :: name.toList), length)
              else (.value text.toList, length)
          | none => (.copy ('$' :: name.toList), length)

/-- The writes of the loop, after leaving out the characters that are used up. -/
def renderWrites (vars : Variables) : Nat → List Char → List Write
  | _, [] => []
  | skip + 1, _ :: rest => renderWrites vars skip rest
  | 0, char :: rest =>
      if char = '$' then
        (placeholder vars rest).1 :: renderWrites vars (placeholder vars rest).2 rest
      else .copy [char] :: renderWrites vars 0 rest

/-- What a write puts into the output. -/
def Write.written (isPrint : Char → Bool) : Write → List Char
  | copy text => text
  | value text => escapeTemplateValue isPrint text

/-- The loop of `RenderTemplate`. -/
def renderChars (isPrint : Char → Bool) (vars : Variables) (template : List Char) :
    List Char :=
  (renderWrites vars 0 template).flatMap (Write.written isPrint)

/-- `RenderTemplate`. -/
def renderTemplate (isPrint : Char → Bool) (template : String) (vars : Variables) : String :=
  String.ofList (renderChars isPrint vars template.toList)

/-! ### What a round does -/

section

variable {vars : Variables}

/-- Every name but the blank one is tried. -/
theorem mem_templateNames {name : String} :
    name ∈ templateNames vars ↔ name ∈ vars.map Prod.fst ∧ name ≠ "" := by
  rw [templateNames, List.mem_insertionSort, List.mem_filter, decide_eq_true_eq]

/-- A name that is found is one of a variable, and in front. -/
theorem templateName_spec {rest : List Char} {name : String}
    (found : templateName vars rest = some name) :
    name ∈ vars.map Prod.fst ∧ ∃ after, rest = name.toList ++ after := by
  have isPrefix := List.find?_some found
  obtain ⟨after, rfl⟩ := List.isPrefixOf_iff_prefix.mp isPrefix
  exact ⟨(mem_templateNames.mp (List.mem_of_find?_eq_some found)).1, after, rfl⟩

/-- A path is found behind a dot, and made of its bytes. -/
theorem templatePath_spec {after path : List Char} (found : templatePath after = some path) :
    (∃ more, after = '.' :: (path ++ more)) ∧ ∀ char ∈ path, isTemplatePathByte char := by
  unfold templatePath at found
  split at found
  · next first rest =>
    split_ifs at found
    obtain rfl := Option.some.inj found
    refine ⟨⟨(first :: rest).dropWhile isTemplatePathByte, ?_⟩, List.all_eq_true.mp List.all_takeWhile⟩
    rw [List.takeWhile_append_dropWhile]
  · cases found

/-- A round uses up a part of what follows the `$`, which it copies or replaces by a value. The
part has only characters of names and paths. -/
theorem placeholder_spec (vars : Variables) (rest : List Char) :
    ∃ taken more, rest = taken ++ more ∧ (placeholder vars rest).2 = taken.length ∧
      ((placeholder vars rest).1 = .copy ('$' :: taken) ∨
        ∃ text, (placeholder vars rest).1 = .value text) ∧
      ∀ char ∈ taken, isTemplatePathByte char ∨ ∃ name ∈ vars.map Prod.fst, char ∈ name.toList := by
  unfold placeholder
  cases named : templateName vars rest with
  | none => exact ⟨[], rest, rfl, rfl, .inl rfl, by simp⟩
  | some name =>
      obtain ⟨listed, after, rfl⟩ := templateName_spec named
      have ofName : ∀ char ∈ name.toList, isTemplatePathByte char ∨
          ∃ name ∈ vars.map Prod.fst, char ∈ name.toList :=
        fun char member => .inr ⟨name, listed, member⟩
      dsimp only
      rw [List.drop_left]
      split
      · next path found =>
        obtain ⟨⟨more, rfl⟩, pathBytes⟩ := templatePath_spec found
        have ofPath : ∀ char ∈ name.toList ++ '.' :: path, isTemplatePathByte char ∨
            ∃ name ∈ vars.map Prod.fst, char ∈ name.toList := by
          intro char member
          rcases List.mem_append.mp member with inName | inPath
          · exact ofName char inName
          · rcases List.mem_cons.mp inPath with rfl | inPath
            · exact .inl rfl
            · exact .inl (pathBytes char inPath)
        have whole : name.toList ++ '.' :: (path ++ more) = (name.toList ++ '.' :: path) ++ more := by
          simp
        have length : name.toList.length + 1 + path.length = (name.toList ++ '.' :: path).length := by
          rw [List.length_append, List.length_cons]
          omega
        split
        · exact ⟨_, more, whole, length, .inr ⟨_, rfl⟩, ofPath⟩
        · split_ifs
          · exact ⟨_, more, whole, length, .inl rfl, ofPath⟩
          · split
            · exact ⟨_, _, rfl, rfl, .inr ⟨_, rfl⟩, ofName⟩
            · exact ⟨_, _, rfl, rfl, .inl rfl, ofName⟩
      · split
        · split_ifs
          · exact ⟨_, _, rfl, rfl, .inl rfl, ofName⟩
          · exact ⟨_, _, rfl, rfl, .inr ⟨_, rfl⟩, ofName⟩
        · exact ⟨_, _, rfl, rfl, .inl rfl, ofName⟩

/-- What was read already is left out. -/
theorem renderWrites_skip (skip : Nat) (template : List Char) :
    renderWrites vars skip template = renderWrites vars 0 (template.drop skip) := by
  induction template generalizing skip with
  | nil => cases skip <;> rfl
  | cons char rest ih =>
      cases skip with
      | zero => rfl
      | succ skip => exact ih skip

/-- A round at a `$`. -/
theorem renderWrites_dollar {taken more : List Char}
    (used : (placeholder vars (taken ++ more)).2 = taken.length) :
    renderWrites vars 0 ('$' :: (taken ++ more)) =
      (placeholder vars (taken ++ more)).1 :: renderWrites vars 0 more := by
  rw [renderWrites, if_pos rfl, used, renderWrites_skip, List.drop_left]

/-- A character other than `$` is copied. -/
theorem renderWrites_copy {char : Char} (noDollar : char ≠ '$') (rest : List Char) :
    renderWrites vars 0 (char :: rest) = .copy [char] :: renderWrites vars 0 rest := by
  rw [renderWrites, if_neg noDollar]

/-! ### Parts of a template -/

/-- What no placeholder in front of it reaches into. -/
def Boundary (vars : Variables) (text : List Char) : Prop :=
  ∀ char ∈ text.head?, isTemplatePathByte char = false ∧
    ∀ name ∈ vars.map Prod.fst, char ∉ name.toList

theorem isTemplatePathByte_of_start {char : Char} (start : isTemplatePathStartByte char) :
    isTemplatePathByte char := by
  simp only [isTemplatePathStartByte, isTemplatePathByte, Bool.or_eq_true] at *
  exact .inl start

theorem isTemplatePathByte_of_identifier {char : Char} (identifier : isTemplateIdentifierByte char) :
    isTemplatePathByte char := by
  simp only [isTemplateIdentifierByte, isTemplatePathByte, Bool.or_eq_true] at *
  exact .inl (.inl identifier)

/-- The same name is found in front of a boundary. -/
theorem Boundary.templateName {text after : List Char} (boundary : Boundary vars after) :
    templateName vars (text ++ after) = templateName vars text :=
  Substitution.find?_append (fun name listed char first =>
    (boundary char first).2 name (mem_templateNames.mp listed).1) text

theorem templatePath_cons (dot first : Char) (rest : List Char) :
    templatePath (dot :: first :: rest) =
      if dot = '.' ∧ isTemplatePathStartByte first then
        some ((first :: rest).takeWhile isTemplatePathByte)
      else none := by
  by_cases isDot : dot = '.'
  · subst isDot
    simp [templatePath]
  · rw [templatePath, if_neg (fun both => isDot both.1)]
    rintro _ _ ⟨⟩
    exact isDot rfl

theorem templatePath_single (char : Char) : templatePath [char] = none := by
  rw [templatePath]
  rintro _ _ ⟨⟩

/-- The same path is found in front of a boundary. -/
theorem Boundary.templatePath {text after : List Char} (boundary : Boundary vars after) :
    templatePath (text ++ after) = templatePath text := by
  have stops : ∀ first ∈ after.head?, isTemplatePathByte first = false :=
    fun first here => (boundary first here).1
  have noStart : ∀ first ∈ after.head?, ¬ isTemplatePathStartByte first = true := by
    intro first here start
    have byte := isTemplatePathByte_of_start start
    rw [stops first here] at byte
    cases byte
  match text, after with
  | text, [] => rw [List.append_nil]
  | [], [char] => exact templatePath_single char
  | [], char :: next :: rest =>
      have noDot : char ≠ '.' := by
        rintro rfl
        exact absurd (stops '.' rfl) (by decide)
      rw [List.nil_append, templatePath_cons, if_neg (fun both => noDot both.1)]
      rfl
  | [dot], first :: rest =>
      rw [List.singleton_append, templatePath_cons, if_neg (fun both => noStart first rfl both.2),
        templatePath_single]
  | dot :: first :: text, char :: rest =>
      have same := Substitution.takeWhile_append stops (first :: text)
      rw [List.cons_append, List.cons_append, templatePath_cons, templatePath_cons,
        ← List.cons_append, same]

/-- A placeholder is the same without what it does not reach into. -/
theorem Boundary.placeholder {rest after : List Char} (boundary : Boundary vars after) :
    placeholder vars (rest ++ after) = placeholder vars rest := by
  unfold Common.placeholder
  rw [boundary.templateName]
  cases named : Common.templateName vars rest with
  | none => rfl
  | some name =>
      obtain ⟨-, text, rfl⟩ := templateName_spec named
      have ends : ((text ++ after).head?.any isTemplateIdentifierByte) =
          (text.head?.any isTemplateIdentifierByte) := by
        cases text with
        | cons first text => rfl
        | nil =>
            cases after with
            | nil => rfl
            | cons first after =>
                have stops := (boundary first rfl).1
                by_contra differs
                have identifier : isTemplateIdentifierByte first := by simpa using differs
                rw [isTemplatePathByte_of_identifier identifier] at stops
                cases stops
      dsimp only
      rw [List.append_assoc, List.drop_left, List.drop_left, boundary.templatePath, ends]

/-- A template falls apart where no placeholder reaches across. -/
theorem renderWrites_append {text after : List Char} (boundary : Boundary vars after) :
    renderWrites vars 0 (text ++ after) =
      renderWrites vars 0 text ++ renderWrites vars 0 after := by
  have general : ∀ skip ≤ text.length, renderWrites vars skip (text ++ after) =
      renderWrites vars skip text ++ renderWrites vars 0 after := by
    induction text with
    | nil =>
        intro skip bound
        obtain rfl := Nat.le_zero.mp bound
        rfl
    | cons char text ih =>
        intro skip bound
        cases skip with
        | succ skip => exact ih skip (Nat.le_of_succ_le_succ bound)
        | zero =>
            by_cases dollar : char = '$'
            · subst dollar
              obtain ⟨taken, more, rfl, used, -⟩ := placeholder_spec vars text
              have within : taken.length ≤ (taken ++ more).length := by simp
              rw [List.cons_append, renderWrites, if_pos rfl, boundary.placeholder, used,
                ih _ within, renderWrites, if_pos rfl, used, List.cons_append]
            · rw [List.cons_append, renderWrites_copy dollar, renderWrites_copy dollar,
                ih 0 (Nat.zero_le _), List.cons_append]
  exact general 0 (Nat.zero_le _)

end

end MessagePusher.Common
