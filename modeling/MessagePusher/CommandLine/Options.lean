import Mathlib.Data.List.TakeWhile
import Mathlib.Tactic.Common

/-!
# Options on a command line

How a program of the usual kind documents what it reads: `--name value`, `--name=value`,
`--switch`, and everything that does not begin with a hyphen an operand, in any order
(`TakesOptions`). The program itself is a parameter; `read` is one that keeps to it. An argument
that is the value of an option is taken as it is, whatever it looks like, so that a command line
that is put together option by option reads as it is meant (`Reads`).
-/

namespace MessagePusher.CommandLine

/-- Arguments as the program takes them. -/
structure Reading where
  options : List (String × String) := []
  operands : List String := []
deriving DecidableEq

namespace Reading

/-- The reading with an option in front. -/
def option (reading : Reading) (name value : String) : Reading :=
  { reading with options := (name, value) :: reading.options }

/-- The reading with an operand in front. -/
def operand (reading : Reading) (arg : String) : Reading :=
  { reading with operands := arg :: reading.operands }

/-- The values that an option was given. -/
def values (reading : Reading) (name : String) : List String :=
  (reading.options.filter fun entry => entry.1 = name).map Prod.snd

def has (reading : Reading) (name : String) : Bool :=
  reading.options.any fun entry => entry.1 = name

/-- An option that is not among those given. -/
theorem has_eq_false {reading : Reading} {name : String} {names : List String}
    (given : ∀ entry ∈ reading.options, entry.1 ∈ names) (other : name ∉ names) :
    reading.has name = false := by
  refine List.any_eq_false.mpr fun entry member => ?_
  rw [decide_eq_true_iff]
  rintro rfl
  exact other (given entry member)

/-- One reading behind another. -/
def append (front back : Reading) : Reading where
  options := front.options ++ back.options
  operands := front.operands ++ back.operands

end Reading

/-- How a program reads its arguments: `none` where it refuses them. -/
abbrev Reader := List String → Option Reading

/-- What the documentation of a program tells: `switches` are its long options without a value,
`valued` are long options with one. -/
structure TakesOptions (switches valued : List String) (reader : Reader) : Prop where
  nothing : reader [] = some {}
  operand : ∀ {arg rest}, arg.toList.head? ≠ some '-' →
    reader (arg :: rest) = (reader rest).map (Reading.operand · arg)
  switch : ∀ {name rest}, name ∈ switches →
    reader (("--" ++ name) :: rest) = (reader rest).map (Reading.option · name "true")
  behind : ∀ {name value rest}, name ∈ valued →
    reader (("--" ++ name) :: value :: rest) = (reader rest).map (Reading.option · name value)
  joined : ∀ {name value rest}, name ∈ valued →
    reader (("--" ++ name ++ "=" ++ value) :: rest) =
      (reader rest).map (Reading.option · name value)

/-! ### Arguments that read the same in front of any others -/

variable {switches valued : List String} {reader : Reader}

/-- Arguments that end with no option waiting for its value. -/
def Reads (reader : Reader) (args : List String) (reading : Reading) : Prop :=
  ∀ rest, reader (args ++ rest) = (reader rest).map reading.append

namespace Reads

variable {args more : List String} {reading next : Reading} {arg : String}

theorem nil : Reads reader [] {} := by
  intro rest
  rw [List.nil_append]
  cases reader rest <;> simp [Reading.append]

theorem append (front : Reads reader args reading) (back : Reads reader more next) :
    Reads reader (args ++ more) (reading.append next) := by
  intro rest
  rw [List.append_assoc, front, back, Option.map_map]
  congr 1
  funext other
  simp [Reading.append, List.append_assoc]

/-- The arguments of a list, each of which reads as one thing. -/
theorem flatMap {α : Type} {each : α → List String} {one : α → String × String}
    (reads : ∀ item, Reads reader (each item) { options := [one item] }) (items : List α) :
    Reads reader (items.flatMap each) { options := items.map one } := by
  induction items with
  | nil => exact nil
  | cons item items ih => exact (reads item).append ih

/-- An option that is left out where a condition holds. -/
theorem optional (condition : Prop) [Decidable condition] {option : String × String}
    (reads : Reads reader args { options := [option] }) :
    Reads reader (if condition then [] else args)
      { options := if condition then [] else [option] } := by
  by_cases holds : condition
  · simpa [holds] using nil
  · simpa [holds] using reads

theorem behind (takes : TakesOptions switches valued reader) (name : String)
    (known : name ∈ valued) (value : String) :
    Reads reader ["--" ++ name, value] { options := [(name, value)] } := by
  intro rest
  rw [List.cons_append, List.cons_append, List.nil_append, takes.behind known]
  rfl

theorem joined (takes : TakesOptions switches valued reader) (name : String)
    (known : name ∈ valued) (value : String) :
    Reads reader ["--" ++ name ++ "=" ++ value] { options := [(name, value)] } := by
  intro rest
  rw [List.cons_append, List.nil_append, takes.joined known]
  rfl

theorem switch (takes : TakesOptions switches valued reader) (name : String)
    (known : name ∈ switches) :
    Reads reader ["--" ++ name] { options := [(name, "true")] } := by
  intro rest
  rw [List.cons_append, List.nil_append, takes.switch known]
  rfl

theorem operand (takes : TakesOptions switches valued reader)
    (plain : arg.toList.head? ≠ some '-') : Reads reader [arg] { operands := [arg] } := by
  intro rest
  rw [List.cons_append, List.nil_append, takes.operand plain]
  rfl

/-- The reading of the arguments alone. -/
theorem reader_eq (takes : TakesOptions switches valued reader)
    (reads : Reads reader args reading) : reader args = some reading := by
  have whole := reads []
  rw [List.append_nil] at whole
  rw [whole, takes.nothing]
  simp [Reading.append]

end Reads

/-! ### A program that keeps to it -/

/-- What an argument is, when no option in front of it takes it as its value. -/
inductive Kind where
  | operand
  /-- An option with its value. -/
  | given (name value : String)
  /-- An option whose value is the next argument. -/
  | wants (name : String)
  | refused
deriving DecidableEq

/-- A long option, by what stands behind the hyphens. -/
def longOption (switches : List String) (text : List Char) : Kind :=
  let name := String.ofList (text.takeWhile (· ≠ '='))
  match text.dropWhile (· ≠ '=') with
  | _ :: value => .given name (String.ofList value)
  | [] => if name ∈ switches then .given name "true" else .wants name

/-- Short options are not taken, nor is `--`. -/
def kind (switches : List String) (arg : String) : Kind :=
  match arg.toList with
  | '-' :: '-' :: first :: text => longOption switches (first :: text)
  | '-' :: _ => .refused
  | _ => .operand

def read (switches : List String) : Reader
  | [] => some {}
  | arg :: rest =>
      match kind switches arg with
      | .operand => (read switches rest).map (Reading.operand · arg)
      | .given name value => (read switches rest).map (Reading.option · name value)
      | .wants name =>
          match rest with
          | [] => none
          | value :: rest => (read switches rest).map (Reading.option · name value)
      | .refused => none

section Read

variable {name value arg : String}

/-- What does not begin with a hyphen is no option. -/
theorem kind_of_head (plain : arg.toList.head? ≠ some '-') : kind switches arg = .operand := by
  unfold kind
  split <;> simp_all

theorem kind_long {text : List Char} (given : text ≠ []) (chars : arg.toList = '-' :: '-' :: text) :
    kind switches arg = longOption switches text := by
  obtain ⟨first, rest, rfl⟩ := List.exists_cons_of_ne_nil given
  unfold kind
  rw [chars]
  rfl

theorem noEquals (plain : '=' ∉ name.toList) :
    ∀ char ∈ name.toList, decide (char ≠ '=') = true :=
  fun _ member => decide_eq_true fun equals => plain (equals ▸ member)

/-- An option alone. -/
theorem kind_name (given : name ≠ "") (plain : '=' ∉ name.toList) :
    kind switches ("--" ++ name) = if name ∈ switches then .given name "true" else .wants name := by
  have chars : ("--" ++ name).toList = '-' :: '-' :: name.toList := String.toList_append
  rw [kind_long (fun none_ => given (String.toList_eq_nil_iff.mp none_)) chars]
  unfold longOption
  dsimp only
  rw [List.takeWhile_eq_self_iff.mpr (noEquals plain), String.ofList_toList,
    List.dropWhile_eq_nil_iff.mpr (noEquals plain)]

/-- An option with its value behind an equals sign. -/
theorem kind_joined (plain : '=' ∉ name.toList) :
    kind switches ("--" ++ name ++ "=" ++ value) = .given name value := by
  have chars : ("--" ++ name ++ "=" ++ value).toList =
      '-' :: '-' :: (name.toList ++ '=' :: value.toList) := by simp
  rw [kind_long (by simp) chars]
  unfold longOption
  rw [List.takeWhile_append_of_pos (noEquals plain), List.dropWhile_append_of_pos (noEquals plain)]
  simp

/-- `read` takes the options that it is told of. -/
theorem takesOptions_read (named : ∀ name ∈ switches ++ valued, name ≠ "" ∧ '=' ∉ name.toList)
    (apart : ∀ name ∈ valued, name ∉ switches) : TakesOptions switches valued (read switches) where
  nothing := rfl
  operand := fun plain => by rw [read, kind_of_head plain]
  switch := fun {name} {rest} known => by
    obtain ⟨given, plain⟩ := named name (List.mem_append_left _ known)
    rw [read, kind_name given plain, if_pos known]
  behind := fun {name} {value} {rest} known => by
    obtain ⟨given, plain⟩ := named name (List.mem_append_right _ known)
    rw [read, kind_name given plain, if_neg (apart name known)]
  joined := fun {name} {value} {rest} known => by
    rw [read, kind_joined (named name (List.mem_append_right _ known)).2]

end Read

end MessagePusher.CommandLine
