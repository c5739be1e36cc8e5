import MessagePusher.Semantics.Transition
import Mathlib.Logic.Function.Basic

/-!
# Programs that ask an environment

A `Process` is what a program asks for, one request after the other, and how it goes on with each
answer. `Safe` is its weakest precondition where others may act between two requests. A `pool` runs
any number of processes over one world, and each of them may stop anywhere; what is safe for each
process against what it relies on holds in every run of the pool (`pool_safe`).
-/

namespace MessagePusher.Semantics

/-- A program, by what it asks for next and how it goes on with the answer. -/
inductive Process (Request Answer Result : Type) where
  | done (result : Result)
  | ask (request : Request) (next : Answer → Process Request Answer Result)

/-- How a request is answered, and what becomes of the world. -/
abbrev Environment (World Request Answer : Type) := World → Request → Answer → World → Prop

namespace Process

variable {World Request Answer Result Other : Type}

/-- A process that goes on with the result of another one. -/
def bind : Process Request Answer Result → (Result → Process Request Answer Other) →
    Process Request Answer Other
  | .done result, next => next result
  | .ask request rest, next => .ask request fun answer => (rest answer).bind next

instance : Monad (Process Request Answer) where
  pure := .done
  bind := bind

@[simp] theorem pure_eq (result : Result) :
    (pure result : Process Request Answer Result) = .done result := rfl

@[simp] theorem done_bind (result : Result) (next : Result → Process Request Answer Other) :
    Process.done result >>= next = next result := rfl

@[simp] theorem ask_bind (request : Request) (rest : Answer → Process Request Answer Result)
    (next : Result → Process Request Answer Other) :
    Process.ask request rest >>= next = .ask request fun answer => rest answer >>= next := rfl

/-! ### What a process may ask -/

/-- Whatever the answers are, each request is an allowed one. -/
def Asks (allowed : Request → Prop) : Process Request Answer Result → Prop
  | .done _ => True
  | .ask request next => allowed request ∧ ∀ answer, (next answer).Asks allowed

variable {allowed weaker : Request → Prop} {process : Process Request Answer Result}

theorem Asks.mono (asks : process.Asks allowed)
    (implies : ∀ request, allowed request → weaker request) : process.Asks weaker := by
  induction process with
  | done _ => trivial
  | ask request next ih => exact ⟨implies request asks.1, fun answer => ih answer (asks.2 answer)⟩

theorem Asks.bind {next : Result → Process Request Answer Other} (asks : process.Asks allowed)
    (rest : ∀ result, (next result).Asks allowed) : (process >>= next).Asks allowed := by
  induction process with
  | done result => exact rest result
  | ask request more ih => exact ⟨asks.1, fun answer => ih answer (asks.2 answer)⟩

/-! ### Weakest preconditions under interference -/

variable {env : Environment World Request Answer} {rely : World → World → Prop}
  {permits : World → Request → Prop} {post : Result → World → Prop} {world : World}

/-- Whatever the answers are and whatever others do in between, as far as `rely` lets them, each
request is made in a world that permits it, and the result meets `post`. -/
def Safe (env : Environment World Request Answer) (rely : World → World → Prop)
    (permits : World → Request → Prop) (post : Result → World → Prop) :
    Process Request Answer Result → World → Prop
  | .done result, world => ∀ now, rely world now → post result now
  | .ask request rest, world => ∀ now, rely world now →
      permits now request ∧ ∀ answer next, env now request answer next →
        (rest answer).Safe env rely permits post next

/-- What others do does not undo what is safe against it. -/
theorem Safe.interfere (safe : process.Safe env rely permits post world)
    (trans : ∀ a b c, rely a b → rely b c → rely a c) {now : World} (change : rely world now) :
    process.Safe env rely permits post now := by
  cases process with
  | done result => exact fun later more => safe later (trans _ _ _ change more)
  | ask request rest => exact fun later more => safe later (trans _ _ _ change more)

theorem Safe.mono {strong : Result → World → Prop} {narrow : World → Request → Prop}
    (safe : process.Safe env rely narrow strong world)
    (allows : ∀ world request, narrow world request → permits world request)
    (implies : ∀ result world, strong result world → post result world) :
    process.Safe env rely permits post world := by
  induction process generalizing world with
  | done result => exact fun now change => implies result now (safe now change)
  | ask request rest ih =>
      intro now change
      obtain ⟨allowed, goes⟩ := safe now change
      exact ⟨allows _ _ allowed, fun answer next answered => ih answer (goes answer next answered)⟩

/-- What neither the others nor the process itself undo holds in the end. -/
theorem Safe.keep {kept : World → Prop} (safe : process.Safe env rely permits post world)
    (holds : kept world) (stable : ∀ before after, kept before → rely before after → kept after)
    (keeps : ∀ before request answer after, kept before → permits before request →
      env before request answer after → kept after) :
    process.Safe env rely permits (fun result world => post result world ∧ kept world) world := by
  induction process generalizing world with
  | done result => exact fun now change => ⟨safe now change, stable _ _ holds change⟩
  | ask request rest ih =>
      intro now change
      obtain ⟨allowed, goes⟩ := safe now change
      refine ⟨allowed, fun answer next answered => ih answer (goes answer next answered) ?_⟩
      exact keeps _ _ _ _ (stable _ _ holds change) allowed answered

/-- What every request of the process meets anyway. -/
theorem Safe.and_asks (safe : process.Safe env rely permits post world)
    (asks : process.Asks allowed) :
    process.Safe env rely (fun world request => permits world request ∧ allowed request) post
      world := by
  induction process generalizing world with
  | done result => exact safe
  | ask request rest ih =>
      intro now change
      obtain ⟨permitted, goes⟩ := safe now change
      exact ⟨⟨permitted, asks.1⟩, fun answer next answered =>
        ih answer (goes answer next answered) (asks.2 answer)⟩

/-- A sequence is safe where its first part ends in a world that is safe for the second. -/
theorem Safe.bind {next : Result → Process Request Answer Other} {last : Other → World → Prop}
    (safe : process.Safe env rely permits
      (fun result world => (next result).Safe env rely permits last world) world)
    (refl : ∀ world, rely world world) :
    (process >>= next).Safe env rely permits last world := by
  induction process generalizing world with
  | done result => exact safe world (refl world)
  | ask request rest ih =>
      intro now change
      obtain ⟨allowed, goes⟩ := safe now change
      exact ⟨allowed, fun answer next answered => ih answer (goes answer next answered)⟩

/-- A process whose requests are all allowed is safe in every world. -/
theorem Asks.safe (asks : process.Asks allowed) (world : World) :
    process.Safe env rely (fun _ request => allowed request) (fun _ _ => True) world := by
  induction process generalizing world with
  | done _ => exact fun _ _ => trivial
  | ask request rest ih => exact fun _ _ => ⟨asks.1, fun answer next _ => ih answer (asks.2 answer) next⟩

/-! ### A process alone -/

/-- A run of one process to its end, with nobody else at work. -/
inductive Runs (env : Environment World Request Answer) :
    Process Request Answer Result → World → Result → World → Prop where
  | done {result world} : Runs env (.done result) world result world
  | ask {request rest world answer next result last}
      (answered : env world request answer next) (runs : Runs env (rest answer) next result last) :
      Runs env (.ask request rest) world result last

theorem Runs.meets {result : Result} {last : World} (runs : process.Runs env world result last)
    (safe : process.Safe env Eq permits post world) : post result last := by
  induction runs with
  | done => exact safe _ rfl
  | ask answered _ ih => exact ih ((safe _ rfl).2 _ _ answered)

/-- Where the environment answers everything that a process is permitted to ask, it has a run. -/
theorem Safe.exists_run
    (answers : ∀ world request, permits world request → ∃ answer next, env world request answer next)
    (safe : process.Safe env Eq permits post world) :
    ∃ result last, process.Runs env world result last ∧ post result last := by
  induction process generalizing world with
  | done result => exact ⟨result, world, .done, safe world rfl⟩
  | ask request rest ih =>
      obtain ⟨allowed, goes⟩ := safe world rfl
      obtain ⟨answer, next, answered⟩ := answers world request allowed
      obtain ⟨result, last, runs, holds⟩ := ih answer (goes answer next answered)
      exact ⟨result, last, .ask answered runs, holds⟩

end Process

/-! ### Pools of processes -/

/-- A world with the processes that are at work on it. -/
structure Pool (World Name Request Answer Result : Type) where
  world : World
  jobs : Name → Option (Process Request Answer Result)

/-- A process starts, gets an answer, or is gone, at its end or before it. -/
inductive PoolLabel (Name Request Answer : Type) where
  | start (name : Name)
  | answer (name : Name) (request : Request) (answer : Answer)
  | stop (name : Name)

variable {World Name Request Answer Result : Type} [DecidableEq Name]

/-- The processes that may start, any number of times, over the worlds of an environment. -/
def pool (env : Environment World Request Answer) (program : Name → Process Request Answer Result)
    (admits : Name → Prop) (initial : World → Prop) :
    System (Pool World Name Request Answer Result) (PoolLabel Name Request Answer) where
  Initial pool := initial pool.world ∧ ∀ name, pool.jobs name = none
  Step pool label next :=
    match label with
    | .start name => admits name ∧ pool.jobs name = none ∧
        next = { pool with jobs := Function.update pool.jobs name (some (program name)) }
    | .answer name request answer => ∃ rest world, pool.jobs name = some (.ask request rest) ∧
        env pool.world request answer world ∧
        next = ⟨world, Function.update pool.jobs name (some (rest answer))⟩
    | .stop name => next = { pool with jobs := Function.update pool.jobs name none }

section Safety

variable {env : Environment World Request Answer} {program : Name → Process Request Answer Result}
  {admits : Name → Prop} {initial Inv : World → Prop} {rely : Name → World → World → Prop}
  {permits : Name → World → Request → Prop} {post : Name → Result → World → Prop}

/-- What is proved of each process alone: what it relies on is a preorder that the others keep to,
it is safe from where the invariant holds, and its requests keep the invariant. -/
structure PoolRules (env : Environment World Request Answer)
    (program : Name → Process Request Answer Result) (admits : Name → Prop)
    (Inv : World → Prop) (rely : Name → World → World → Prop)
    (permits : Name → World → Request → Prop) (post : Name → Result → World → Prop) : Prop where
  refl : ∀ name world, rely name world world
  trans : ∀ name a b c, rely name a b → rely name b c → rely name a c
  safe : ∀ name world, admits name → Inv world →
    (program name).Safe env (rely name) (permits name) (post name) world
  keeps : ∀ name {world request answer next}, admits name → Inv world →
    permits name world request → env world request answer next → Inv next
  respects : ∀ name other {world request answer next}, admits name → admits other → name ≠ other →
    Inv world → permits other world request → env world request answer next → rely name world next

/-- The invariant of the world, and that each process at work is safe in it. -/
def PoolSafe (env : Environment World Request Answer) (admits : Name → Prop) (Inv : World → Prop)
    (rely : Name → World → World → Prop) (permits : Name → World → Request → Prop)
    (post : Name → Result → World → Prop) (pool : Pool World Name Request Answer Result) : Prop :=
  Inv pool.world ∧ ∀ name process, pool.jobs name = some process →
    admits name ∧ process.Safe env (rely name) (permits name) (post name) pool.world

theorem PoolSafe.step (rules : PoolRules env program admits Inv rely permits post)
    {current next : Pool World Name Request Answer Result}
    {label : PoolLabel Name Request Answer}
    (holds : PoolSafe env admits Inv rely permits post current)
    (transition : (pool env program admits initial).Step current label next) :
    PoolSafe env admits Inv rely permits post next := by
  obtain ⟨inv, jobs⟩ := holds
  cases label with
  | start name =>
      obtain ⟨admitted, _, rfl⟩ := transition
      refine ⟨inv, fun other process running => ?_⟩
      by_cases same : other = name
      · subst same
        obtain rfl : program other = process := by simpa using running
        exact ⟨admitted, rules.safe other _ admitted inv⟩
      · exact jobs other process (by simpa [Function.update_of_ne same] using running)
  | answer name request answer =>
      obtain ⟨rest, world, waiting, answered, rfl⟩ := transition
      obtain ⟨admitted, safe⟩ := jobs name _ waiting
      obtain ⟨permitted, goes⟩ := safe _ (rules.refl name _)
      refine ⟨rules.keeps name admitted inv permitted answered, fun other process running => ?_⟩
      by_cases same : other = name
      · subst same
        obtain rfl : rest answer = process := by simpa using running
        exact ⟨admitted, goes answer world answered⟩
      · obtain ⟨also, before⟩ :=
          jobs other process (by simpa [Function.update_of_ne same] using running)
        have change : rely other current.world world :=
          rules.respects other name also admitted same inv permitted answered
        exact ⟨also, before.interfere (rules.trans other) change⟩
  | stop name =>
      obtain rfl := transition
      refine ⟨inv, fun other process running => ?_⟩
      by_cases same : other = name
      · subst same
        simp at running
      · exact jobs other process (by simpa [Function.update_of_ne same] using running)

/-- What is safe for each process holds in every run of the pool. -/
theorem pool_safe (rules : PoolRules env program admits Inv rely permits post)
    (start : ∀ world, initial world → Inv world)
    {current : Pool World Name Request Answer Result}
    (reachable : (pool env program admits initial).Reachable current) :
    PoolSafe env admits Inv rely permits post current := by
  refine reachable.invariant (fun {state} valid => ?_) fun holds transition =>
    PoolSafe.step rules holds transition
  refine ⟨start _ valid.1, fun name process running => ?_⟩
  rw [valid.2 name] at running
  cases running

/-- Each request that is answered was permitted. -/
theorem pool_permits (rules : PoolRules env program admits Inv rely permits post)
    (start : ∀ world, initial world → Inv world)
    {current next : Pool World Name Request Answer Result}
    (reachable : (pool env program admits initial).Reachable current)
    {name : Name} {request : Request} {answer : Answer}
    (transition : (pool env program admits initial).Step current (.answer name request answer) next) :
    admits name ∧ permits name current.world request ∧
      env current.world request answer next.world := by
  obtain ⟨rest, world, waiting, answered, rfl⟩ := transition
  obtain ⟨admitted, safe⟩ := (pool_safe rules start reachable).2 name _ waiting
  exact ⟨admitted, (safe _ (rules.refl name _)).1, answered⟩

end Safety

/-! ### Runs in a pool -/

section Running

variable {env strong : Environment World Request Answer}
  {program : Name → Process Request Answer Result} {admits : Name → Prop}
  {initial : World → Prop} {process : Process Request Answer Result} {world last : World}
  {result : Result} {current : Pool World Name Request Answer Result} {name : Name}

theorem Process.Runs.mono (runs : process.Runs strong world result last)
    (implies : ∀ world request answer next, strong world request answer next →
      env world request answer next) : process.Runs env world result last := by
  induction runs with
  | done => exact .done
  | ask answered _ ih => exact .ask (implies _ _ _ _ answered) ih

/-- A process of a pool can be run to its end while the others wait. -/
theorem Process.Runs.finish (runs : process.Runs env world result last)
    (reachable : (pool env program admits initial).Reachable current)
    (working : current.jobs name = some process) (here : current.world = world) :
    ∃ next, (pool env program admits initial).Reachable next ∧ next.world = last ∧
      ∀ other, other ≠ name → next.jobs other = current.jobs other := by
  induction runs generalizing current with
  | done => exact ⟨current, reachable, here, fun _ _ => rfl⟩
  | @ask request rest world answer next result last answered _ ih =>
      subst here
      have transition : (pool env program admits initial).Step current (.answer name request answer)
          ⟨next, Function.update current.jobs name (some (rest answer))⟩ :=
        ⟨rest, next, working, answered, rfl⟩
      obtain ⟨final, reached, world, others⟩ :=
        ih (reachable.step transition) (Function.update_self ..) rfl
      exact ⟨final, reached, world, fun other apart =>
        (others other apart).trans (Function.update_of_ne apart ..)⟩

/-- A process that may start can be run to its end. -/
theorem exists_finished (reachable : (pool env program admits initial).Reachable current)
    (admitted : admits name) (waiting : current.jobs name = none)
    (runs : (program name).Runs env current.world result last) :
    ∃ next, (pool env program admits initial).Reachable next ∧ next.world = last ∧
      ∀ other, other ≠ name → next.jobs other = current.jobs other := by
  have started : (pool env program admits initial).Step current (.start name)
      { current with jobs := Function.update current.jobs name (some (program name)) } :=
    ⟨admitted, waiting, rfl⟩
  obtain ⟨final, reached, world, others⟩ :=
    runs.finish (reachable.step started) (Function.update_self ..) rfl
  exact ⟨final, reached, world, fun other apart =>
    (others other apart).trans (Function.update_of_ne apart ..)⟩

/-- Where a run changes something, one of its steps does. -/
theorem Process.Runs.exists_step {View : Type} (view : World → View)
    (runs : process.Runs env world result last)
    (reachable : (pool env program admits initial).Reachable current)
    (working : current.jobs name = some process) (here : current.world = world)
    (changed : view last ≠ view world) :
    ∃ before label after, (pool env program admits initial).Reachable before ∧
      (pool env program admits initial).Step before label after ∧
      view after.world ≠ view before.world := by
  induction runs generalizing current with
  | done => exact absurd rfl changed
  | @ask request rest world answer next result last answered _ ih =>
      subst here
      have transition : (pool env program admits initial).Step current (.answer name request answer)
          ⟨next, Function.update current.jobs name (some (rest answer))⟩ :=
        ⟨rest, next, working, answered, rfl⟩
      by_cases now : view next = view current.world
      · exact ih (reachable.step transition) (Function.update_self ..) rfl (now ▸ changed)
      · exact ⟨current, _, _, reachable, transition, now⟩

end Running

end MessagePusher.Semantics
