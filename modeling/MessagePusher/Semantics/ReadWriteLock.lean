import Mathlib.Data.List.Basic

/-!
# A lock for readers and writers

A writer that announces itself keeps later readers waiting and has the lock once the readers
that hold it are gone. Its critical section is one step, and with its end the readers that
wait hold the lock. A reader in the list is the state that it is in.
-/

namespace MessagePusher.Semantics

universe u v

/-- The announced writer, the readers that hold the lock, and those that wait for the writer. -/
structure ReadWriteLock (Writer : Type u) (Reader : Type v) where
  writer : Option Writer := none
  holding : List Reader := []
  waiting : List Reader := []
  idle : writer = none → waiting = [] := by simp

namespace ReadWriteLock

variable {Writer : Type u} {Reader : Type v} (lock : ReadWriteLock Writer Reader)

/-- A reader asks for the lock. -/
def readLock (reader : Reader) : ReadWriteLock Writer Reader :=
  match free : lock.writer with
  | none => { lock with holding := lock.holding ++ [reader], idle := lock.idle }
  | some _ =>
      { lock with
        waiting := lock.waiting ++ [reader]
        idle := fun none => by simp [free] at none }

/-- The readers that hold the lock have moved on or left. -/
def withHolding (holding : List Reader) : ReadWriteLock Writer Reader :=
  { lock with holding, idle := lock.idle }

/-- A writer announces itself. -/
def announce (writer : Writer) : ReadWriteLock Writer Reader :=
  { lock with writer := some writer, idle := by simp }

/-- The announced writer has the lock. -/
def Grants (writer : Writer) : Prop :=
  lock.writer = some writer ∧ lock.holding = []

/-- The writer is done. -/
def release : ReadWriteLock Writer Reader where
  holding := lock.holding ++ lock.waiting

variable {lock} {reader : Reader} {writer : Writer}

@[simp] theorem withHolding_holding (holding : List Reader) :
    (lock.withHolding holding).holding = holding := rfl

@[simp] theorem withHolding_waiting (holding : List Reader) :
    (lock.withHolding holding).waiting = lock.waiting := rfl

@[simp] theorem withHolding_writer (holding : List Reader) :
    (lock.withHolding holding).writer = lock.writer := rfl

@[simp] theorem announce_holding (writer : Writer) :
    (lock.announce writer).holding = lock.holding := rfl

@[simp] theorem announce_waiting (writer : Writer) :
    (lock.announce writer).waiting = lock.waiting := rfl

@[simp] theorem announce_writer (writer : Writer) :
    (lock.announce writer).writer = some writer := rfl

/-- A new reader holds the lock or waits, and the others stay where they are. -/
theorem readLock_cases (lock : ReadWriteLock Writer Reader) (reader : Reader) :
    ((lock.readLock reader).holding = lock.holding ++ [reader] ∧
        (lock.readLock reader).waiting = lock.waiting) ∨
      (lock.readLock reader).holding = lock.holding ∧
        (lock.readLock reader).waiting = lock.waiting ++ [reader] := by
  unfold readLock
  split
  · exact .inl ⟨rfl, rfl⟩
  · exact .inr ⟨rfl, rfl⟩

/-- Without a writer a reader has the lock at once. -/
theorem readLock_of_free (free : lock.writer = none) (reader : Reader) :
    (lock.readLock reader).holding = lock.holding ++ [reader] := by
  unfold readLock
  split
  · rfl
  · next writer announced => simp [free] at announced

@[simp] theorem readLock_writer (reader : Reader) : (lock.readLock reader).writer = lock.writer := by
  unfold readLock
  split <;> simp_all

/-- After a writer only the readers hold the lock that waited for it. -/
theorem Grants.release_holding (granted : lock.Grants writer) :
    lock.release.holding = lock.waiting := by
  rw [release, granted.2, List.nil_append]

/-- A reader that holds the lock keeps every writer out. -/
theorem not_grants (holds : reader ∈ lock.holding) : ¬ lock.Grants writer := by
  rintro ⟨-, empty⟩
  rw [empty] at holds
  cases holds

end ReadWriteLock

end MessagePusher.Semantics
