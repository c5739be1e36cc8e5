import MessagePusher.Common.Verification
import MessagePusher.Semantics.Transition
import MessagePusher.Store.Entries
import MessagePusher.Verification.TimedMap

/-!
# The verification codes are a map with expiry

The map of `common/verification.go` mangles purpose and key into one string, expires lazily
and prunes only above a size. Over whole runs it answers as the latest writes of each pair of
purpose and key do.
-/

namespace MessagePusher.Verification

open Common Semantics

inductive Purpose where
  | emailVerification
  | passwordReset
deriving DecidableEq

def Purpose.text : Purpose → String
  | .emailVerification => emailVerificationPurpose
  | .passwordReset => passwordResetPurpose

/-- The pair that a code is kept for. -/
abbrev Slot := Purpose × String

def Slot.mangled (slot : Slot) : String := slot.1.text ++ slot.2

/-- The purpose is one character, so the mangled key tells purpose and key. -/
theorem mangled_inj {left right : Slot} : left.mangled = right.mangled ↔ left = right := by
  constructor
  · intro same
    obtain ⟨purpose, key⟩ := left
    obtain ⟨purpose', key'⟩ := right
    have texts := congrArg String.toList same
    simp only [Slot.mangled, String.toList_append] at texts
    cases purpose with
    | emailVerification =>
        cases purpose' with
        | emailVerification =>
            have keys := List.append_cancel_left texts
            rw [String.toList_inj.mp keys]
        | passwordReset => exact absurd (List.cons.inj texts).1 (by decide)
    | passwordReset =>
        cases purpose' with
        | emailVerification => exact absurd (List.cons.inj texts).1 (by decide)
        | passwordReset =>
            have keys := List.append_cancel_left texts
            rw [String.toList_inj.mp keys]
  · rintro rfl
    rfl

/-- How long a code is valid, in nanoseconds. -/
def verificationValidity : Int := verificationValidMinutes * 60 * second

/-- The comparison of whole seconds is the comparison of the durations. -/
theorem expired_iff (now : Int) (value : VerificationValue) :
    VerificationMap.expired now value = true ↔ verificationValidity ≤ now - value.time := by
  have positive : (0 : Int) < second := by decide
  unfold VerificationMap.expired wholeSeconds verificationValidity
  rw [decide_eq_true_eq]
  generalize now - value.time = duration
  by_cases past : 0 ≤ duration
  · rw [Int.tdiv_eq_ediv_of_nonneg past, Int.le_ediv_iff_mul_le positive]
  · have negative : duration.tdiv second ≤ 0 := by
      rw [← Int.neg_neg duration, Int.neg_tdiv]
      have turned : 0 ≤ (-duration).tdiv second := Int.tdiv_nonneg (by omega) (by omega)
      omega
    have limit : verificationValidMinutes * 60 = 600 := by decide
    have whole : verificationValidMinutes * 60 * second = 600000000000 := by decide
    omega

/-- The map as a map on pairs. -/
def view (codes : VerificationMap) (slot : Slot) : Option (String × Int) :=
  (codes.lookup slot.mangled).map fun value => (value.code, value.time)

/-- `VerifyCodeWithKey` asks for an entry that counts. -/
theorem verify_iff (codes : VerificationMap) (now : Int) (slot : Slot) (code : String) :
    codes.verify now slot.2 code slot.1.text = true ↔
      Fresh verificationValidity now (view codes slot) code := by
  have mangled : slot.1.text ++ slot.2 = slot.mangled := rfl
  unfold VerificationMap.verify view Fresh
  rw [mangled]
  cases codes.lookup slot.mangled with
  | none => simp
  | some value =>
      have old := expired_iff now value
      simp only [Option.map_some, Option.some.injEq, Prod.mk.injEq]
      by_cases expired : VerificationMap.expired now value = true
      · have age := old.mp expired
        simp only [expired, if_true, Bool.false_eq_true, false_iff]
        rintro ⟨time, ⟨-, rfl⟩, young⟩
        omega
      · have age : ¬ verificationValidity ≤ now - value.time := fun due => expired (old.mpr due)
        simp only [expired, Bool.false_eq_true, if_false, decide_eq_true_eq]
        constructor
        · rintro rfl
          exact ⟨value.time, ⟨rfl, rfl⟩, by omega⟩
        · rintro ⟨-, ⟨same, -⟩, -⟩
          exact same.symm

/-! ### The operations -/

/-- The map after the assignment of `RegisterVerificationCodeWithKey`, before any clean-up. -/
def stored (codes : VerificationMap) (slot : Slot) (code : String) (stamped : Int) :
    VerificationMap :=
  (slot.mangled, { code, time := stamped }) :: codes.filter fun pair => pair.1 ≠ slot.mangled

theorem registerAt_eq (codes : VerificationMap) (slot : Slot) (code : String)
    (stamped cleaned : Int) :
    codes.registerAt stamped cleaned slot.2 code slot.1.text =
      if verificationMapMaxSize < (stored codes slot code stamped).length then
        (stored codes slot code stamped).removeExpiredPairs cleaned
      else stored codes slot code stamped := rfl

/-- Every key is there once. -/
def DistinctKeys (codes : VerificationMap) : Prop := (codes.map Prod.fst).Nodup

theorem DistinctKeys.filter {codes : VerificationMap} (distinct : DistinctKeys codes)
    (keeps : String × VerificationValue → Bool) : DistinctKeys (codes.filter keeps) :=
  List.Nodup.sublist (List.filter_sublist.map Prod.fst) distinct

theorem DistinctKeys.stored {codes : VerificationMap} (distinct : DistinctKeys codes)
    (slot : Slot) (code : String) (stamped : Int) :
    DistinctKeys (stored codes slot code stamped) := by
  refine List.nodup_cons.mpr ⟨?_, distinct.filter _⟩
  intro member
  obtain ⟨pair, kept, same⟩ := List.mem_map.mp member
  have other := (List.mem_filter.mp kept).2
  simp [same] at other

theorem lookup_filter_ne (codes : VerificationMap) (removed key : String) :
    (codes.filter fun pair => pair.1 ≠ removed).lookup key =
      if key = removed then none else codes.lookup key := by
  rw [Store.Entries.lookup_filter_key codes fun name => decide (name ≠ removed)]
  by_cases same : key = removed
  · simp [same]
  · simp [same]

/-- A deletion is a deletion on pairs. -/
theorem view_deleteKey (codes : VerificationMap) (slot : Slot) :
    view (codes.deleteKey slot.2 slot.1.text) = Function.update (view codes) slot none := by
  funext other
  show ((codes.filter fun pair => pair.1 ≠ slot.mangled).lookup other.mangled).map _ = _
  rw [lookup_filter_ne]
  by_cases same : other = slot
  · subst same
    simp
  · rw [if_neg (mt mangled_inj.mp same), Function.update_of_ne same]
    rfl

/-- The assignment writes one pair. -/
theorem view_stored (codes : VerificationMap) (slot : Slot) (code : String) (stamped : Int) :
    view (stored codes slot code stamped) =
      Function.update (view codes) slot (some (code, stamped)) := by
  funext other
  unfold view stored
  rw [List.lookup_cons]
  by_cases same : other = slot
  · subst same
    simp
  · have different : other.mangled ≠ slot.mangled := mt mangled_inj.mp same
    rw [beq_eq_false_iff_ne.mpr different, lookup_filter_ne, if_neg different,
      Function.update_of_ne same]

/-- A clean-up takes only what has expired. -/
theorem lookup_removeExpiredPairs {codes : VerificationMap} (distinct : DistinctKeys codes)
    (now : Int) (key : String) :
    (codes.removeExpiredPairs now).lookup key =
      (codes.lookup key).filter fun value => !VerificationMap.expired now value :=
  Store.Entries.lookup_filter distinct _ key

theorem view_removeExpiredPairs {codes : VerificationMap} (distinct : DistinctKeys codes)
    (now : Int) (slot : Slot) :
    view (codes.removeExpiredPairs now) slot = view codes slot ∨
      (view (codes.removeExpiredPairs now) slot = none ∧
        Stale verificationValidity now (view codes slot)) := by
  unfold view
  rw [lookup_removeExpiredPairs distinct]
  cases codes.lookup slot.mangled with
  | none => exact .inl rfl
  | some value =>
      by_cases old : VerificationMap.expired now value = true
      · exact .inr ⟨by simp [old], value.code, value.time, rfl, (expired_iff now value).mp old⟩
      · exact .inl (by simp [old])

/-- A registration writes one pair, and its clean-up takes only what has expired. -/
theorem view_registerAt {codes : VerificationMap} (distinct : DistinctKeys codes) (slot : Slot)
    (code : String) (stamped cleaned : Int) (other : Slot) :
    view (codes.registerAt stamped cleaned slot.2 code slot.1.text) other =
        Function.update (view codes) slot (some (code, stamped)) other ∨
      (view (codes.registerAt stamped cleaned slot.2 code slot.1.text) other = none ∧
        Stale verificationValidity cleaned
          (Function.update (view codes) slot (some (code, stamped)) other)) := by
  rw [registerAt_eq, ← view_stored]
  split_ifs with full
  · exact view_removeExpiredPairs (distinct.stored slot code stamped) cleaned other
  · exact .inl rfl

theorem DistinctKeys.registerAt {codes : VerificationMap} (distinct : DistinctKeys codes)
    (slot : Slot) (code : String) (stamped cleaned : Int) :
    DistinctKeys (codes.registerAt stamped cleaned slot.2 code slot.1.text) := by
  have distinctAfter := distinct.stored slot code stamped
  rw [registerAt_eq]
  split_ifs with full
  · exact distinctAfter.filter fun pair => !VerificationMap.expired cleaned pair.2
  · exact distinctAfter

/-- What a registration leaves under a pair is its own code, or was there before. -/
theorem view_registerAt_some {codes : VerificationMap} (distinct : DistinctKeys codes)
    {slot other : Slot} {code kept : String} {stamped cleaned time : Int}
    (found : view (codes.registerAt stamped cleaned slot.2 code slot.1.text) other =
      some (kept, time)) :
    (other = slot ∧ kept = code) ∨ (other ≠ slot ∧ view codes other = some (kept, time)) := by
  rcases view_registerAt distinct slot code stamped cleaned other with same | ⟨lost, -⟩
  · rw [found] at same
    by_cases here : other = slot
    · subst here
      rw [Function.update_self] at same
      obtain ⟨rfl, -⟩ := Prod.mk.inj (Option.some.inj same)
      exact .inl ⟨rfl, rfl⟩
    · rw [Function.update_of_ne here] at same
      exact .inr ⟨here, same.symm⟩
  · rw [lost] at found
    cases found

/-! ### Runs -/

/-- A call of one of the three functions, with the readings of its clock. -/
inductive CodeCall where
  | register (slot : Slot) (code : String) (stamped cleaned : Int)
  | verify (slot : Slot) (code : String) (now : Int)
  | deleteKey (slot : Slot)

structure CodeState where
  codes : VerificationMap := []
  clock : Int := 0

/-- The calls, at clock readings that never decrease. -/
inductive CodeStep (state : CodeState) : CodeCall → CodeState → Prop where
  | register {slot code stamped cleaned} (later : state.clock ≤ stamped)
      (after : stamped ≤ cleaned) :
      CodeStep state (.register slot code stamped cleaned)
        { codes := state.codes.registerAt stamped cleaned slot.2 code slot.1.text
          clock := cleaned }
  | verify {slot code now} (later : state.clock ≤ now) :
      CodeStep state (.verify slot code now) { state with clock := now }
  | deleteKey {slot} :
      CodeStep state (.deleteKey slot)
        { state with codes := state.codes.deleteKey slot.2 slot.1.text }

def verificationCodes : System CodeState CodeCall where
  Initial state := state.codes = []
  Step := CodeStep

/-- What a call writes, if anything. -/
def CodeCall.write : CodeCall → Option (Write Slot String)
  | .register slot code stamped _ => some (.put slot code stamped)
  | .verify _ _ _ => none
  | .deleteKey slot => some (.delete slot)

/-- The writes of a run, newest first. -/
def writes (calls : List CodeCall) : List (Write Slot String) :=
  (calls.filterMap CodeCall.write).reverse

theorem writes_append (calls : List CodeCall) (call : CodeCall) :
    writes (calls ++ [call]) = call.write.toList ++ writes calls := by
  unfold writes
  rw [List.filterMap_append, List.reverse_append]
  cases written : call.write with
  | none => simp [written]
  | some write => simp [written]

/-- The map holds the latest writes but for those that have expired. -/
structure Agrees (state : CodeState) (log : List (Write Slot String)) : Prop where
  distinct : DistinctKeys state.codes
  holds : Holds verificationValidity state.clock (view state.codes) log

theorem Agrees.step {state next : CodeState} {log : List (Write Slot String)} {call : CodeCall}
    (agrees : Agrees state log) (taken : CodeStep state call next) :
    Agrees next (call.write.toList ++ log) := by
  obtain ⟨distinct, holds⟩ := agrees
  cases taken with
  | @register slot code stamped cleaned later after =>
      have written := (holds.wait (Int.le_trans later after)).write (.put slot code stamped)
      exact ⟨distinct.registerAt slot code stamped cleaned,
        written.prune (view_registerAt distinct slot code stamped cleaned)⟩
  | verify later => exact ⟨distinct, holds.wait later⟩
  | @deleteKey slot =>
      refine ⟨distinct.filter _, ?_⟩
      show Holds _ _ (view (state.codes.deleteKey slot.2 slot.1.text)) _
      rw [view_deleteKey]
      exact holds.write (.delete slot)

theorem Agrees.runs {start state : CodeState} {calls : List CodeCall}
    (initial : verificationCodes.Initial start)
    (runs : verificationCodes.Runs start calls state) : Agrees state (writes calls) := by
  induction runs with
  | refl =>
      have empty : start.codes = [] := initial
      refine ⟨by rw [empty]; exact List.nodup_nil, ?_⟩
      rw [empty]
      exact Holds.empty
  | step _ transition ih =>
      rw [writes_append]
      exact ih.step transition

/-- After any run a code is accepted exactly when the latest write of its pair is its own
registration, less than ten minutes ago. -/
theorem verify_latest_iff {start state : CodeState} {calls : List CodeCall}
    (initial : verificationCodes.Initial start)
    (runs : verificationCodes.Runs start calls state) {now : Int} (later : state.clock ≤ now)
    (slot : Slot) (code : String) :
    state.codes.verify now slot.2 code slot.1.text = true ↔
      ∃ stamped, latest (writes calls) slot = some (code, stamped) ∧
        now - stamped < verificationValidMinutes * 60 * second := by
  rw [verify_iff, (Agrees.runs initial runs).holds.fresh_iff later]
  rfl

/-- Two registrations and a deletion, and then a question for each purpose. -/
def sampleCalls : List CodeCall :=
  [.register (.emailVerification, "a") "1" 0 0, .register (.passwordReset, "a") "2" 1 1,
    .deleteKey (.emailVerification, "a")]

theorem sampleCalls_runs :
    ∃ state, verificationCodes.Runs {} sampleCalls state ∧ state.clock = 1 := by
  refine ⟨_, .head (.register (Int.le_refl 0) (Int.le_refl 0))
    (.head (.register (by decide) (Int.le_refl 1)) (.head .deleteKey .refl)), rfl⟩

theorem verify_latest_iff_sample :
    ∃ state, verificationCodes.Runs {} sampleCalls state ∧
      (state.codes.verify 2 "a" "2" Purpose.passwordReset.text = true ↔
        ∃ stamped, latest (writes sampleCalls) (.passwordReset, "a") = some ("2", stamped) ∧
          2 - stamped < verificationValidMinutes * 60 * second) := by
  obtain ⟨state, runs, clock⟩ := sampleCalls_runs
  have initial : verificationCodes.Initial {} := rfl
  exact ⟨state, runs, verify_latest_iff initial runs (by rw [clock]; decide) (.passwordReset, "a")
    "2"⟩

end MessagePusher.Verification
