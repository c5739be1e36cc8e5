import MessagePusher.Common.TemplateBytes

/-!
# The scan of a template

A template falls into sources, one for each write: each byte is in one of them, a source is copied
or replaced by the value that it asks for. What follows a byte that no name and no path has is
rendered on its own.
-/

namespace MessagePusher.Template.Bytewise

open Common.TemplateBytes

/-- What a part of the template becomes: it is copied, or replaced by the value of its variable
or by the one under its path. -/
inductive Replaces (vars : Variables) : Bytes → Write → Prop where
  | copied (source : Bytes) : Replaces vars source (.copy source)
  | variable {name text : Bytes} {value : Value} (looked : vars.lookup name = some value)
      (written : templateValueString value = some text) :
      Replaces vars (0x24 :: name) (.value text)
  | path {name path text : Bytes} {value : Value} (looked : vars.lookup name = some value)
      (written : templatePathText value path = some text) :
      Replaces vars (0x24 :: (name ++ 0x2e :: path)) (.value text)

/-- The names of the variables are identifiers. -/
def Identifiers (vars : Variables) : Prop :=
  ∀ name ∈ vars.map Prod.fst, ∀ byte ∈ name, isTemplateIdentifierByte byte

theorem identifiers_of_all {vars : Variables}
    (all : (vars.map Prod.fst).all fun name => name.all isTemplateIdentifierByte) :
    Identifiers vars := fun name listed byte inside =>
  List.all_eq_true.mp (List.all_eq_true.mp all name listed) byte inside

/-- No placeholder in front of it reaches into this text. -/
def Boundary (text : Bytes) : Prop := ∀ byte ∈ text.head?, isTemplatePathByte byte = false

variable {vars : Variables} {rest after : Bytes}

/-! ### Bytes -/

theorem isTemplatePathByte_of_identifier {byte : UInt8} (identifier : isTemplateIdentifierByte byte) :
    isTemplatePathByte byte := by
  simp only [isTemplateIdentifierByte, isTemplatePathByte, Bool.or_eq_true] at *
  exact .inl (.inl identifier)

theorem isTemplatePathByte_of_start {byte : UInt8} (start : isTemplatePathStartByte byte) :
    isTemplatePathByte byte := by
  simp only [isTemplatePathStartByte, isTemplatePathByte, Bool.or_eq_true] at *
  exact .inl start

/-! ### The name at a `$` -/

theorem mem_templateNames {name : Bytes} :
    name ∈ templateNames vars ↔ name ∈ vars.map Prod.fst ∧ name ≠ [] := by
  rw [templateNames, List.mem_insertionSort, List.mem_filter, decide_eq_true_eq]

instance : Std.Total NamesBefore where
  total first second := by
    rcases Nat.lt_trichotomy first.length second.length with less | same | more
    · exact .inr (.inl less)
    · rcases List.le_total first second with before | after
      · exact .inl (.inr ⟨same, before⟩)
      · exact .inr (.inr ⟨same.symm, after⟩)
    · exact .inl (.inl more)

instance : IsTrans Bytes NamesBefore where
  trans first second third := by
    rintro (less | ⟨same, before⟩) (less' | ⟨same', before'⟩)
    · exact .inl (Nat.lt_trans less' less)
    · exact .inl (same' ▸ less)
    · exact .inl (same ▸ less')
    · exact .inr ⟨same.trans same', List.le_trans before before'⟩

/-- The longest name that fits is taken. -/
theorem templateName_longest {name : Bytes} (listed : name ∈ vars.map Prod.fst) (named : name ≠ [])
    (fits : name <+: rest)
    (longest : ∀ other ∈ vars.map Prod.fst, other <+: rest → other.length ≤ name.length) :
    templateName vars rest = some name := by
  have sorted : (templateNames vars).Pairwise NamesBefore := List.pairwise_insertionSort _ _
  refine Substitution.firstName_longest sorted ?_ (mem_templateNames.mpr ⟨listed, named⟩) fits
    fun other member => longest other (mem_templateNames.mp member).1
  rintro short long (longer | ⟨same, -⟩) fits
  · exact absurd fits.length_le (Nat.not_le_of_lt longer)
  · exact fits.eq_of_length same

/-! ### One round -/

theorem templateName_spec {name : Bytes} (found : templateName vars rest = some name) :
    name ∈ vars.map Prod.fst ∧ ∃ after, rest = name ++ after := by
  have isPrefix := List.find?_some found
  obtain ⟨after, rfl⟩ := List.isPrefixOf_iff_prefix.mp isPrefix
  exact ⟨(mem_templateNames.mp (List.mem_of_find?_eq_some found)).1, after, rfl⟩

theorem lookup_of_listed {name : Bytes} (listed : name ∈ vars.map Prod.fst) :
    ∃ value, vars.lookup name = some value := by
  cases found : vars.lookup name with
  | some value => exact ⟨value, rfl⟩
  | none =>
      obtain ⟨entry, member, rfl⟩ := List.mem_map.mp listed
      have differs := List.lookup_eq_none_iff.mp found entry member
      simp at differs

theorem templatePath_spec {path : Bytes} (found : templatePath after = some path) :
    (∃ more, after = 0x2e :: (path ++ more)) ∧ ∀ byte ∈ path, isTemplatePathByte byte := by
  unfold templatePath at found
  split at found
  · next first rest =>
    split_ifs at found
    obtain rfl := Option.some.inj found
    refine ⟨⟨(first :: rest).dropWhile isTemplatePathByte, ?_⟩, List.all_eq_true.mp List.all_takeWhile⟩
    rw [List.takeWhile_append_dropWhile]
  · cases found

theorem replaces_plainWrite {name : Bytes} {value : Value} (looked : vars.lookup name = some value) :
    Replaces vars (0x24 :: name) (plainWrite name value) := by
  unfold plainWrite
  cases written : templateValueString value with
  | some text => exact .variable looked written
  | none => exact .copied _

/-- A round uses up a part of what follows the `$`, which it copies or replaces. The part has only
bytes of names and paths. -/
theorem placeholder_spec (identifiers : Identifiers vars) (rest : Bytes) :
    ∃ taken more, rest = taken ++ more ∧ (placeholder vars rest).2 = taken.length ∧
      Replaces vars (0x24 :: taken) (placeholder vars rest).1 ∧
      ∀ byte ∈ taken, isTemplatePathByte byte := by
  unfold placeholder
  cases named : templateName vars rest with
  | none => exact ⟨[], rest, rfl, rfl, .copied _, by simp⟩
  | some name =>
      obtain ⟨listed, after, rfl⟩ := templateName_spec named
      obtain ⟨value, looked⟩ := lookup_of_listed listed
      have ofName : ∀ byte ∈ name, isTemplatePathByte byte := fun byte member =>
        isTemplatePathByte_of_identifier (identifiers name listed byte member)
      dsimp only
      rw [List.drop_left, looked, Option.getD_some]
      split
      · next path found =>
        obtain ⟨⟨more, rfl⟩, pathBytes⟩ := templatePath_spec found
        have ofPath : ∀ byte ∈ name ++ 0x2e :: path, isTemplatePathByte byte := by
          intro byte member
          rcases List.mem_append.mp member with inName | inPath
          · exact ofName byte inName
          · rcases List.mem_cons.mp inPath with rfl | inPath
            · decide
            · exact pathBytes byte inPath
        have whole : name ++ 0x2e :: (path ++ more) = (name ++ 0x2e :: path) ++ more := by simp
        have length : name.length + 1 + path.length = (name ++ 0x2e :: path).length := by
          rw [List.length_append, List.length_cons]
          omega
        split
        · next text written => exact ⟨_, more, whole, length, .path looked written, ofPath⟩
        · split_ifs
          · exact ⟨_, more, whole, length, .copied _, ofPath⟩
          · exact ⟨_, _, rfl, rfl, replaces_plainWrite looked, ofName⟩
      · split_ifs
        · exact ⟨_, _, rfl, rfl, .copied _, ofName⟩
        · exact ⟨_, _, rfl, rfl, replaces_plainWrite looked, ofName⟩

/-! ### The loop -/

theorem renderWrites_skip (skip : Nat) (template : Bytes) :
    renderWrites vars skip template = renderWrites vars 0 (template.drop skip) := by
  induction template generalizing skip with
  | nil => cases skip <;> rfl
  | cons byte rest ih =>
      cases skip with
      | zero => rfl
      | succ skip => exact ih skip

/-- A round at a `$`. -/
theorem renderWrites_dollar {taken more : Bytes}
    (used : (placeholder vars (taken ++ more)).2 = taken.length) :
    renderWrites vars 0 (0x24 :: (taken ++ more)) =
      (placeholder vars (taken ++ more)).1 :: renderWrites vars 0 more := by
  rw [renderWrites, if_pos rfl, used, renderWrites_skip, List.drop_left]

theorem renderWrites_copy {byte : UInt8} (noDollar : byte ≠ 0x24) (rest : Bytes) :
    renderWrites vars 0 (byte :: rest) = .copy [byte] :: renderWrites vars 0 rest := by
  rw [renderWrites, if_neg noDollar]

/-- A template is read round by round. -/
theorem renderWrites_induction (identifiers : Identifiers vars) {motive : Bytes → Prop}
    (nil : motive [])
    (dollar : ∀ taken more, (placeholder vars (taken ++ more)).2 = taken.length →
      Replaces vars (0x24 :: taken) (placeholder vars (taken ++ more)).1 →
      (∀ byte ∈ taken, isTemplatePathByte byte) → motive more → motive (0x24 :: (taken ++ more)))
    (copy : ∀ byte rest, byte ≠ 0x24 → motive rest → motive (byte :: rest)) (template : Bytes) :
    motive template := by
  induction length : template.length using Nat.strong_induction_on generalizing template with
  | _ length ih =>
    cases template with
    | nil => exact nil
    | cons byte rest =>
        rw [List.length_cons] at length
        by_cases isDollar : byte = 0x24
        · subst isDollar
          obtain ⟨taken, more, rfl, used, replaces, bytes⟩ := placeholder_spec identifiers rest
          rw [List.length_append] at length
          exact dollar taken more used replaces bytes (ih _ (by omega) more rfl)
        · exact copy byte rest isDollar (ih _ (by omega) rest rfl)

/-- Every byte of the template is in the source of one write. -/
theorem exists_parts (identifiers : Identifiers vars) (template : Bytes) :
    ∃ parts : List (Bytes × Write), parts.flatMap Prod.fst = template ∧
      parts.map Prod.snd = renderWrites vars 0 template ∧
      ∀ part ∈ parts, Replaces vars part.1 part.2 := by
  induction template using renderWrites_induction identifiers with
  | nil => exact ⟨[], rfl, rfl, List.forall_mem_nil _⟩
  | dollar taken more used replaces _ ih =>
      obtain ⟨parts, whole, writes, each⟩ := ih
      refine ⟨(0x24 :: taken, _) :: parts, ?_, ?_, List.forall_mem_cons.mpr ⟨replaces, each⟩⟩
      · rw [List.flatMap_cons, whole, List.cons_append]
      · rw [renderWrites_dollar used, List.map_cons, writes]
  | copy byte rest noDollar ih =>
      obtain ⟨parts, whole, writes, each⟩ := ih
      refine ⟨([byte], .copy [byte]) :: parts, ?_, ?_, List.forall_mem_cons.mpr ⟨.copied _, each⟩⟩
      · rw [List.flatMap_cons, whole, List.singleton_append]
      · rw [renderWrites_copy noDollar, List.map_cons, writes]

/-! ### Parts of a template -/

theorem templateName_append (identifiers : Identifiers vars) (boundary : Boundary after)
    (text : Bytes) : templateName vars (text ++ after) = templateName vars text := by
  refine Substitution.find?_append (fun name listed byte first inside => ?_) text
  have identifier := identifiers name (mem_templateNames.mp listed).1 byte inside
  have pathByte := isTemplatePathByte_of_identifier identifier
  rw [boundary byte first] at pathByte
  cases pathByte

theorem templatePath_cons (dot first : UInt8) (rest : Bytes) :
    templatePath (dot :: first :: rest) =
      if dot = 0x2e ∧ isTemplatePathStartByte first then
        some ((first :: rest).takeWhile isTemplatePathByte)
      else none := by
  by_cases isDot : dot = 0x2e
  · subst isDot
    simp [templatePath]
  · rw [templatePath, if_neg (fun both => isDot both.1)]
    rintro _ _ ⟨⟩
    exact isDot rfl

theorem templatePath_single (byte : UInt8) : templatePath [byte] = none := by
  rw [templatePath]
  rintro _ _ ⟨⟩

theorem templatePath_append (boundary : Boundary after) (text : Bytes) :
    templatePath (text ++ after) = templatePath text := by
  have noStart : ∀ first ∈ after.head?, ¬ isTemplatePathStartByte first = true := by
    intro first here start
    have byte := isTemplatePathByte_of_start start
    rw [boundary first here] at byte
    cases byte
  match text, after with
  | text, [] => rw [List.append_nil]
  | [], [byte] => exact templatePath_single byte
  | [], byte :: next :: rest =>
      have noDot : byte ≠ 0x2e := by
        rintro rfl
        exact absurd (boundary 0x2e rfl) (by decide)
      rw [List.nil_append, templatePath_cons, if_neg (fun both => noDot both.1)]
      rfl
  | [dot], first :: rest =>
      rw [List.singleton_append, templatePath_cons, if_neg (fun both => noStart first rfl both.2),
        templatePath_single]
  | dot :: first :: text, byte :: rest =>
      have same := Substitution.takeWhile_append boundary (first :: text)
      rw [List.cons_append, List.cons_append, templatePath_cons, templatePath_cons,
        ← List.cons_append, same]

/-- A placeholder is the same without what it does not reach into. -/
theorem placeholder_append (identifiers : Identifiers vars) (boundary : Boundary after)
    (rest : Bytes) : placeholder vars (rest ++ after) = placeholder vars rest := by
  unfold placeholder
  rw [templateName_append identifiers boundary]
  cases named : templateName vars rest with
  | none => rfl
  | some name =>
      obtain ⟨-, text, rfl⟩ := templateName_spec named
      have ends : ((text ++ after).head?.any isTemplateIdentifierByte) =
          (text.head?.any isTemplateIdentifierByte) := by
        cases text with
        | cons first text => rfl
        | nil =>
            cases after with
            | nil => rfl
            | cons first after =>
                have stops := boundary first rfl
                by_contra differs
                have identifier : isTemplateIdentifierByte first := by simpa using differs
                rw [isTemplatePathByte_of_identifier identifier] at stops
                cases stops
      dsimp only
      rw [List.append_assoc, List.drop_left, List.drop_left, templatePath_append boundary, ends]

/-- A template falls apart where no placeholder reaches across. -/
theorem renderWrites_append (identifiers : Identifiers vars) (boundary : Boundary after)
    (text : Bytes) : renderWrites vars 0 (text ++ after) =
      renderWrites vars 0 text ++ renderWrites vars 0 after := by
  induction text using renderWrites_induction identifiers with
  | nil => rfl
  | dollar taken more used _ _ ih =>
      have same : placeholder vars (taken ++ (more ++ after)) = placeholder vars (taken ++ more) := by
        rw [← List.append_assoc, placeholder_append identifiers boundary]
      rw [List.cons_append, List.append_assoc, renderWrites_dollar (by rw [same, used]), same, ih,
        renderWrites_dollar used, List.cons_append]
  | copy byte rest noDollar ih =>
      rw [List.cons_append, renderWrites_copy noDollar, renderWrites_copy noDollar, ih,
        List.cons_append]

end MessagePusher.Template.Bytewise
