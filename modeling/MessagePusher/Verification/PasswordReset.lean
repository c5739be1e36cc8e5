import MessagePusher.Controller.Misc
import MessagePusher.Verification.CodeMap

/-!
# Resets of a password, step by step

`ResetPassword` verifies its token, writes the password and deletes the token in three
separate steps, and nothing holds the three together. Other resets and new mails come in
between. `DeletesOwn` is the condition on the deletion under which a token is used once and
no newer token is lost.
-/

namespace MessagePusher.Verification

open Common Model Controller Semantics

/-- A reset before its next step. `seen` are the tokens that were mailed to the address when
the own one was verified, newest first; `removed` is what the deletion took. -/
inductive ResetCall where
  | idle
  | verified (email token : String) (seen : List String)
  | written (email token password : String) (seen : List String)
  | refused (text : String)
  | succeeded (email token password : String) (seen : List String) (removed : Option String)
deriving DecidableEq

namespace ResetCall

/-- The address and the token of a reset that got past its verification. -/
def carries : ResetCall → Option (String × String × List String)
  | .verified email token seen => some (email, token, seen)
  | .written email token _ seen => some (email, token, seen)
  | .succeeded email token _ seen _ => some (email, token, seen)
  | _ => none

/-- The address and the token of a reset that was answered with success. -/
def spends : ResetCall → Option (String × String)
  | .succeeded email token _ _ _ => some (email, token)
  | _ => none

end ResetCall

/-- The tables, the resets by number, and the tokens ever mailed to an address, newest first. -/
structure ResetState where
  users : Users
  codes : VerificationMap := []
  clock : Int := 0
  requests : Nat → ResetCall := fun _ => .idle
  issued : String → List String := fun _ => []

/-- Who does which step. -/
inductive ResetLabel where
  | verify (request : Nat) (body : Option Json) (now : Int)
  | resetUserPassword (request : Nat) (password : String) (fault : Option String)
  | deleteKey (request : Nat)
  | sendPasswordResetEmail (email code : String) (stamped cleaned : Int)
  | sendEmailVerification (email code : String) (stamped cleaned : Int)

/-- The pair that the tokens of an address are kept for. -/
def resetSlot (email : String) : Slot := (.passwordReset, email)

namespace ResetState

variable (state : ResetState)

/-- The request is where it is now. -/
def put (request : Nat) (call : ResetCall) : ResetState :=
  { state with requests := Function.update state.requests request call }

/-- The token under an address. -/
def tokenAt (email : String) : Option String :=
  (view state.codes (resetSlot email)).map Prod.fst

/-- `ResetPassword` up to and with `VerifyCodeWithKey`. -/
def verifyReset (body : Option Json) (now : Int) : ResetCall :=
  match admitReset (fun email token =>
    state.codes.verify now email token passwordResetPurpose) body with
  | .error text => .refused text
  | .ok email => .verified email (resetRequest body).token (state.issued email)

/-- `ResetUserPasswordByEmail`, which a failing database refuses. -/
def resetUserPassword (passwords : Passwords) (email password : String)
    (fault : Option String) : Users × Option String :=
  match fault with
  | some text => (state.users, some text)
  | none => resetUserPasswordByEmail passwords state.users email password

/-- A registration of `controller/misc.go`. -/
def registered (slot : Slot) (code : String) (stamped cleaned : Int) : ResetState :=
  { state with
    codes := state.codes.registerAt stamped cleaned slot.2 code slot.1.text
    clock := cleaned }

end ResetState

/-- The steps of the handlers. A mailed token is a new UUID, which no earlier mail had. -/
inductive ResetStep (passwords : Passwords) (env : MailEnvironment) (state : ResetState) :
    ResetLabel → ResetState → Prop where
  | verify {request body now} (waits : state.requests request = .idle)
      (later : state.clock ≤ now) :
      ResetStep passwords env state (.verify request body now)
        ({ state with clock := now }.put request (state.verifyReset body now))
  | refused {request email token password fault seen users text}
      (here : state.requests request = .verified email token seen)
      (wrote : state.resetUserPassword passwords email password fault = (users, some text)) :
      ResetStep passwords env state (.resetUserPassword request password fault)
        ({ state with users }.put request (.refused text))
  | written {request email token password fault seen users}
      (here : state.requests request = .verified email token seen)
      (wrote : state.resetUserPassword passwords email password fault = (users, none)) :
      ResetStep passwords env state (.resetUserPassword request password fault)
        ({ state with users }.put request (.written email token password seen))
  | deleteKey {request email token password seen}
      (here : state.requests request = .written email token password seen) :
      ResetStep passwords env state (.deleteKey request)
        ({ state with codes := state.codes.deleteKey email passwordResetPurpose }.put request
          (.succeeded email token password seen (state.tokenAt email)))
  | sendPasswordResetEmail {email code stamped cleaned} (later : state.clock ≤ stamped)
      (after : stamped ≤ cleaned) (accepted : env.accepts email = true)
      (known : isEmailAlreadyTaken state.users email = true)
      (fresh : code ∉ state.issued email) :
      ResetStep passwords env state (.sendPasswordResetEmail email code stamped cleaned)
        { state.registered (resetSlot email) code stamped cleaned with
          issued := Function.update state.issued email (code :: state.issued email) }
  | sendEmailVerification {email code stamped cleaned} (later : state.clock ≤ stamped)
      (after : stamped ≤ cleaned) (accepted : env.accepts email = true)
      (free : isEmailAlreadyTaken state.users email = false) :
      ResetStep passwords env state (.sendEmailVerification email code stamped cleaned)
        (state.registered (.emailVerification, email) code stamped cleaned)

/-- Before the first request no code was issued. -/
def passwordResets (passwords : Passwords) (env : MailEnvironment) :
    System ResetState ResetLabel where
  Initial state := state.codes = [] ∧ (state.requests = fun _ => .idle) ∧
    state.issued = fun _ => []
  Step := ResetStep passwords env

/-- At most one reset succeeds with a token, and no deletion takes a token that was mailed
after the own one was verified. -/
structure SingleUse (state : ResetState) : Prop where
  once : ∀ first second pair, (state.requests first).spends = some pair →
    (state.requests second).spends = some pair → first = second
  keeps : ∀ request email token password seen code,
    state.requests request = .succeeded email token password seen (some code) → code ∈ seen

/-- A deletion finds the token that was verified; or it finds none, and the token was not used
before. -/
def DeletesOwn (state : ResetState) : ResetLabel → Prop
  | .deleteKey request => ∀ email token password seen,
      state.requests request = .written email token password seen →
        match state.tokenAt email with
        | some code => code = token
        | none => ∀ other, (state.requests other).spends ≠ some (email, token)
  | _ => True

/-- What holds of the tokens in every run. -/
structure ResetInv (state : ResetState) : Prop where
  distinct : DistinctKeys state.codes
  /-- The token under an address is the one mailed last. -/
  newest : ∀ email code, state.tokenAt email = some code →
    ∃ older, state.issued email = code :: older
  fresh : ∀ email, (state.issued email).Nodup
  /-- A verified token was the newest one then. -/
  carried : ∀ request email token seen, (state.requests request).carries = some (email, token, seen) →
    ∃ later older, seen = token :: older ∧ state.issued email = later ++ seen
  /-- A used token is gone. -/
  spent : ∀ request email token, (state.requests request).spends = some (email, token) →
    state.tokenAt email ≠ some token

/-- A request that spends a token has verified it. -/
theorem carries_of_spends {call : ResetCall} {email token : String}
    (spends : call.spends = some (email, token)) :
    ∃ seen, call.carries = some (email, token, seen) := by
  cases call with
  | succeeded email' token' password seen removed =>
      cases spends
      exact ⟨seen, rfl⟩
  | _ => cases spends

variable {passwords : Passwords} {env : MailEnvironment} {state next : ResetState}
  {label : ResetLabel}

/-- A reset that nothing interrupts does what `resetPassword` does. -/
theorem resetPassword_runs (request : Nat) (body : Option Json) (password : String) {now : Int}
    (waits : state.requests request = .idle) (later : state.clock ≤ now) :
    ∃ labels final, (passwordResets passwords env).Runs state labels final ∧
      final.users = (resetPassword passwords body password now state.users state.codes).users ∧
      final.codes = (resetPassword passwords body password now state.users state.codes).codes ∧
      (final.requests request).spends.isSome =
        (resetPassword passwords body password now state.users state.codes).reply.success := by
  have first := @ResetStep.verify passwords env state request body now waits later
  unfold resetPassword
  cases admitted : admitReset (fun email token =>
      state.codes.verify now email token passwordResetPurpose) body with
  | error text =>
      have verified : state.verifyReset body now = .refused text := by
        rw [ResetState.verifyReset, admitted]
      rw [verified] at first
      exact ⟨_, _, .single first, rfl, rfl, by simp [ResetState.put, ResetCall.spends]⟩
  | ok email =>
      have verified : state.verifyReset body now =
          .verified email (resetRequest body).token (state.issued email) := by
        rw [ResetState.verifyReset, admitted]
      rw [verified] at first
      generalize middle : ({ state with clock := now } : ResetState).put request
        (.verified email (resetRequest body).token (state.issued email)) = verifiedState at first
      have here : verifiedState.requests request =
          .verified email (resetRequest body).token (state.issued email) := by
        rw [← middle]
        exact Function.update_self request _ _
      have tables : verifiedState.users = state.users ∧ verifiedState.codes = state.codes := by
        rw [← middle]
        exact ⟨rfl, rfl⟩
      have run : (passwordResets passwords env).Runs state _ verifiedState := .single first
      cases wrote : resetUserPasswordByEmail passwords state.users email password with
      | mk users failure =>
          have answered : verifiedState.resetUserPassword passwords email password none =
              (users, failure) := by
            rw [ResetState.resetUserPassword, tables.1, wrote]
          cases failure with
          | some text =>
              exact ⟨_, _, run.step (.refused here answered), by simp [ResetState.put, wrote],
                by simp [ResetState.put, wrote, tables],
                by simp [ResetState.put, ResetCall.spends, wrote]⟩
          | none =>
              exact ⟨_, _, (run.step (.written here answered)).step
                (.deleteKey (Function.update_self request _ _)), by simp [ResetState.put, wrote],
                by simp [ResetState.put, wrote, tables],
                by simp [ResetState.put, ResetCall.spends, wrote]⟩

/-- The token of an email is the code that the map shows. -/
theorem tokenAt_eq_some {email code : String} :
    state.tokenAt email = some code ↔
      ∃ stamped, view state.codes (resetSlot email) = some (code, stamped) := by
  simp [ResetState.tokenAt]

@[simp]
theorem tokenAt_put (request : Nat) (call : ResetCall) (email : String) :
    (state.put request call).tokenAt email = state.tokenAt email := rfl

/-- A registration puts its code under its pair; other tokens stay or expire. -/
theorem tokenAt_registered (distinct : DistinctKeys state.codes) {slot : Slot}
    {code email kept : String} {stamped cleaned : Int}
    (found : (state.registered slot code stamped cleaned).tokenAt email = some kept) :
    (resetSlot email = slot ∧ kept = code) ∨
      (resetSlot email ≠ slot ∧ state.tokenAt email = some kept) := by
  obtain ⟨time, there⟩ := tokenAt_eq_some.mp found
  rcases view_registerAt_some distinct there with ⟨same, own⟩ | ⟨other, before⟩
  · exact .inl ⟨same, own⟩
  · exact .inr ⟨other, tokenAt_eq_some.mpr ⟨time, before⟩⟩

/-- A deletion empties its own address. -/
theorem tokenAt_deleteKey (codes : VerificationMap) (email other : String) :
    ({ state with codes := codes.deleteKey email passwordResetPurpose } : ResetState).tokenAt
        other =
      if other = email then none else ({ state with codes } : ResetState).tokenAt other := by
  have deleted : view (codes.deleteKey email passwordResetPurpose) = _ :=
    view_deleteKey codes (resetSlot email)
  unfold ResetState.tokenAt
  rw [deleted]
  by_cases same : other = email
  · subst same
    simp
  · have different : resetSlot other ≠ resetSlot email := by
      simpa [resetSlot] using same
    rw [Function.update_of_ne different, if_neg same]

/-- A token that passes the verification is the one under its address. -/
theorem verifyReset_carries {body : Option Json} {now : Int} {email token : String}
    {seen : List String}
    (carries : (state.verifyReset body now).carries = some (email, token, seen)) :
    state.tokenAt email = some token ∧ seen = state.issued email := by
  unfold ResetState.verifyReset at carries
  cases admitted : admitReset (fun email token =>
      state.codes.verify now email token passwordResetPurpose) body with
  | error text =>
      rw [admitted] at carries
      cases carries
  | ok address =>
      rw [admitted] at carries
      cases carries
      simp only [admitReset] at admitted
      split_ifs at admitted with blank wrong
      cases admitted
      have verified : state.codes.verify now (resetRequest body).email (resetRequest body).token
          passwordResetPurpose = true := by simpa using wrong
      obtain ⟨stamped, found, -⟩ :=
        (verify_iff state.codes now (resetSlot (resetRequest body).email) _).mp verified
      exact ⟨tokenAt_eq_some.mpr ⟨stamped, found⟩, rfl⟩

/-- To verify a token does not spend it. -/
theorem verifyReset_spends (body : Option Json) (now : Int) :
    (state.verifyReset body now).spends = none := by
  unfold ResetState.verifyReset
  split
  · rfl
  · rfl

/-- A step that only changes one reset, to one that carries what the invariant asks for and has
not succeeded. -/
theorem ResetInv.put (inv : ResetInv state) {request : Nat} {call : ResetCall}
    (carried : ∀ email token seen, call.carries = some (email, token, seen) →
      ∃ later older, seen = token :: older ∧ state.issued email = later ++ seen)
    (spent : ∀ email token, call.spends = some (email, token) →
      state.tokenAt email ≠ some token) : ResetInv (state.put request call) := by
  refine ⟨inv.distinct, inv.newest, inv.fresh, ?_, ?_⟩
  · intro other email token seen carries
    simp only [ResetState.put, Function.update_apply] at carries
    split_ifs at carries with here
    · exact carried email token seen carries
    · exact inv.carried other email token seen carries
  · intro other email token spends
    simp only [ResetState.put, Function.update_apply] at spends
    split_ifs at spends with here
    · exact spent email token spends
    · exact inv.spent other email token spends

/-- A registration that is not for a reset. -/
theorem ResetInv.registered (inv : ResetInv state) {slot : Slot} {code : String}
    {stamped cleaned : Int} (other : ∀ email, resetSlot email ≠ slot) :
    ResetInv (state.registered slot code stamped cleaned) := by
  have before : ∀ email kept, (state.registered slot code stamped cleaned).tokenAt email =
      some kept → state.tokenAt email = some kept := by
    intro email kept found
    rcases tokenAt_registered inv.distinct found with ⟨same, -⟩ | ⟨-, there⟩
    · exact absurd same (other email)
    · exact there
  refine ⟨inv.distinct.registerAt slot code stamped cleaned, ?_, inv.fresh, inv.carried, ?_⟩
  · intro email kept found
    exact inv.newest email kept (before email kept found)
  · intro request email token spends found
    exact inv.spent request email token spends (before email token found)

/-- A mailed token is new. -/
theorem ResetInv.mailed (inv : ResetInv state) {email code : String} {stamped cleaned : Int}
    (fresh : code ∉ state.issued email) :
    ResetInv { state.registered (resetSlot email) code stamped cleaned with
      issued := Function.update state.issued email (code :: state.issued email) } := by
  have tokens : ∀ address kept,
      (state.registered (resetSlot email) code stamped cleaned).tokenAt address = some kept →
        (address = email ∧ kept = code) ∨
          (address ≠ email ∧ state.tokenAt address = some kept) := by
    intro address kept found
    rcases tokenAt_registered inv.distinct found with ⟨same, own⟩ | ⟨different, there⟩
    · exact .inl ⟨by simpa [resetSlot] using same, own⟩
    · exact .inr ⟨fun same => different (by rw [same]), there⟩
  refine ⟨inv.distinct.registerAt (resetSlot email) code stamped cleaned, ?_, ?_, ?_, ?_⟩
  · intro address kept found
    rcases tokens address kept found with ⟨rfl, rfl⟩ | ⟨different, there⟩
    · exact ⟨state.issued address, by simp⟩
    · simpa [different] using inv.newest address kept there
  · intro address
    by_cases here : address = email
    · subst here
      simpa using ⟨fresh, inv.fresh address⟩
    · simpa [here] using inv.fresh address
  · intro request address token seen carries
    obtain ⟨later, older, own, whole⟩ := inv.carried request address token seen carries
    by_cases here : address = email
    · subst here
      exact ⟨code :: later, older, own, by simp [whole]⟩
    · exact ⟨later, older, own, by simpa [here] using whole⟩
  · intro request address token spends found
    rcases tokens address token found with ⟨rfl, rfl⟩ | ⟨-, there⟩
    · obtain ⟨seen, carries⟩ := carries_of_spends spends
      obtain ⟨later, older, rfl, whole⟩ := inv.carried request address token seen carries
      exact fresh (by simp [whole])
    · exact inv.spent request address token spends there

/-- A deletion of the token of an address. -/
theorem ResetInv.deleted (inv : ResetInv state) (email : String) :
    ResetInv { state with codes := state.codes.deleteKey email passwordResetPurpose } := by
  have tokens : ∀ address kept,
      ({ state with codes := state.codes.deleteKey email passwordResetPurpose } :
        ResetState).tokenAt address = some kept → state.tokenAt address = some kept := by
    intro address kept found
    rw [tokenAt_deleteKey] at found
    split_ifs at found
    exact found
  refine ⟨inv.distinct.filter _, ?_, inv.fresh, inv.carried, ?_⟩
  · intro address kept found
    exact inv.newest address kept (tokens address kept found)
  · intro request address token spends found
    exact inv.spent request address token spends (tokens address token found)

theorem ResetInv.step (inv : ResetInv state) (taken : ResetStep passwords env state label next) :
    ResetInv next := by
  cases taken with
  | @verify request body now waits later =>
      have unchanged : ResetInv { state with clock := now } :=
        ⟨inv.distinct, inv.newest, inv.fresh, inv.carried, inv.spent⟩
      apply unchanged.put
      · intro email token seen carries
        obtain ⟨found, rfl⟩ := verifyReset_carries carries
        obtain ⟨older, whole⟩ := inv.newest email token found
        exact ⟨[], older, whole, rfl⟩
      · intro email token spends
        rw [verifyReset_spends] at spends
        cases spends
  | @refused request email token password fault seen users text here wrote =>
      have unchanged : ResetInv { state with users } :=
        ⟨inv.distinct, inv.newest, inv.fresh, inv.carried, inv.spent⟩
      exact unchanged.put (by rintro _ _ _ ⟨⟩) (by rintro _ _ ⟨⟩)
  | @written request email token password fault seen users here wrote =>
      have unchanged : ResetInv { state with users } :=
        ⟨inv.distinct, inv.newest, inv.fresh, inv.carried, inv.spent⟩
      refine unchanged.put ?_ (by rintro _ _ ⟨⟩)
      rintro _ _ _ ⟨⟩
      exact inv.carried request email token seen (by rw [here]; rfl)
  | @deleteKey request email token password seen here =>
      apply (inv.deleted email).put
      · rintro _ _ _ ⟨⟩
        exact inv.carried request email token seen (by rw [here]; rfl)
      · rintro _ _ ⟨⟩
        rw [tokenAt_deleteKey, if_pos rfl]
        simp
  | sendPasswordResetEmail later after accepted known fresh => exact inv.mailed fresh
  | sendEmailVerification later after accepted free =>
      apply inv.registered
      intro email same
      cases congrArg Prod.fst same

theorem ResetInv.initial (valid : (passwordResets passwords env).Initial state) :
    ResetInv state := by
  obtain ⟨codes, requests, issued⟩ := valid
  have empty : ∀ email, state.tokenAt email = none := by
    intro email
    simp [ResetState.tokenAt, view, codes]
  refine ⟨by rw [codes]; exact List.nodup_nil, ?_, ?_, ?_, ?_⟩
  · intro email code found
    rw [empty] at found
    cases found
  · intro email
    rw [issued]
    exact List.nodup_nil
  · intro request email token seen carries
    rw [requests] at carries
    cases carries
  · intro request email token spends
    rw [requests] at spends
    cases spends

/-- The invariant holds in every order. -/
theorem ResetInv.reachable (reachable : (passwordResets passwords env).Reachable state) :
    ResetInv state :=
  reachable.invariant ResetInv.initial fun inv taken => inv.step taken

/-- No token was spent before the first request. -/
theorem SingleUse.initial (valid : (passwordResets passwords env).Initial state) :
    SingleUse state := by
  obtain ⟨-, requests, -⟩ := valid
  constructor
  · intro first second pair spends
    rw [requests] at spends
    cases spends
  · intro request email token password seen code call
    rw [requests] at call
    cases call

/-- A reset that has not succeeded does not count. -/
theorem SingleUse.put (single : SingleUse state) {request : Nat} {call : ResetCall}
    (unspent : call.spends = none) : SingleUse (state.put request call) := by
  constructor
  · intro first second pair one two
    simp only [ResetState.put, Function.update_apply] at one two
    split_ifs at one two
    · rw [unspent] at one
      cases one
    · rw [unspent] at one
      cases one
    · rw [unspent] at two
      cases two
    · exact single.once first second pair one two
  · intro other email token password seen code call
    simp only [ResetState.put, Function.update_apply] at call
    split_ifs at call with here
    · subst call
      cases unspent
    · exact single.keeps other email token password seen code call

/-- The token under an address was mailed before the verification only if it is the verified
one. -/
theorem ResetInv.mem_seen_iff (inv : ResetInv state) {request : Nat} {email token code : String}
    {seen : List String}
    (carries : (state.requests request).carries = some (email, token, seen))
    (found : state.tokenAt email = some code) : code ∈ seen ↔ code = token := by
  obtain ⟨later, older, rfl, whole⟩ := inv.carried request email token seen carries
  obtain ⟨rest, newest⟩ := inv.newest email code found
  constructor
  · intro old
    cases later with
    | nil =>
        rw [newest, List.nil_append] at whole
        exact (List.cons.inj whole).1
    | cons first more =>
        have distinct := inv.fresh email
        rw [newest, List.cons_append] at whole
        obtain ⟨rfl, rfl⟩ := List.cons.inj whole
        rw [newest] at distinct
        exact absurd (List.mem_append_right more old) (List.nodup_cons.mp distinct).1
  · rintro rfl
    exact List.mem_cons_self

/-- A deletion that takes its own token is the first success with this token. -/
theorem ResetInv.unused (inv : ResetInv state) {request : Nat} {email token password : String}
    {seen : List String} (here : state.requests request = .written email token password seen)
    (own : DeletesOwn state (.deleteKey request)) (other : Nat) :
    (state.requests other).spends ≠ some (email, token) := by
  intro spends
  have deletes := own email token password seen here
  cases found : state.tokenAt email with
  | some code =>
      rw [found] at deletes
      have same : code = token := deletes
      exact inv.spent other email token spends (by rw [found, same])
  | none =>
      rw [found] at deletes
      exact deletes other spends

/-- A success that is the first with its token, and whose deletion took no newer one. -/
theorem SingleUse.succeeded (single : SingleUse state) {request : Nat}
    {email token password : String} {seen : List String} {removed : Option String}
    (unused : ∀ other, (state.requests other).spends ≠ some (email, token))
    (took : ∀ code, removed = some code → code ∈ seen) :
    SingleUse (state.put request (.succeeded email token password seen removed)) := by
  constructor
  · intro first second pair one two
    simp only [ResetState.put, Function.update_apply] at one two
    split_ifs at one two with firstHere secondHere secondHere
    · rw [firstHere, secondHere]
    · cases one
      exact absurd two (unused second)
    · cases two
      exact absurd one (unused first)
    · exact single.once first second pair one two
  · intro other email' token' password' seen' code call
    simp only [ResetState.put, Function.update_apply] at call
    split_ifs at call with otherHere
    · injection call with sameEmail sameToken samePassword sameSeen sameRemoved
      rw [← sameSeen]
      exact took code sameRemoved
    · exact single.keeps other email' token' password' seen' code call

/-- A deletion keeps the law exactly when it deletes its own token. -/
theorem SingleUse.deleteKey_iff (inv : ResetInv state) (single : SingleUse state) {request : Nat}
    {email token password : String} {seen : List String}
    (here : state.requests request = .written email token password seen)
    (codes : VerificationMap) :
    SingleUse ({ state with codes }.put request
        (.succeeded email token password seen (state.tokenAt email))) ↔
      DeletesOwn state (.deleteKey request) := by
  have carries : (state.requests request).carries = some (email, token, seen) := by
    rw [here]
    rfl
  constructor
  · intro after email' token' password' seen' call
    rw [here] at call
    cases call
    cases found : state.tokenAt email with
    | some code =>
        have kept := after.keeps request email token password seen code
          (by simp [ResetState.put, found])
        exact (inv.mem_seen_iff carries found).mp kept
    | none =>
        intro other spends
        have different : other ≠ request := by
          rintro rfl
          rw [here] at spends
          cases spends
        apply different
        apply after.once other request (email, token)
        · simpa [ResetState.put, different] using spends
        · simp [ResetState.put, ResetCall.spends]
  · intro own
    have others : SingleUse { state with codes } := ⟨single.once, single.keeps⟩
    apply others.succeeded (inv.unused here own)
    intro code found
    have deletes := own email token password seen here
    rw [found] at deletes
    exact (inv.mem_seen_iff carries found).mpr deletes

/-- A step keeps the law exactly when it is no deletion, or deletes its own token. -/
theorem SingleUse.step_iff (inv : ResetInv state) (single : SingleUse state)
    (taken : ResetStep passwords env state label next) :
    SingleUse next ↔ DeletesOwn state label := by
  cases taken with
  | @verify request body now waits later =>
      have unchanged : SingleUse { state with clock := now } := ⟨single.once, single.keeps⟩
      exact iff_of_true (unchanged.put (verifyReset_spends body now)) trivial
  | @refused request email token password fault seen users text here wrote =>
      have unchanged : SingleUse { state with users } := ⟨single.once, single.keeps⟩
      exact iff_of_true (unchanged.put rfl) trivial
  | @written request email token password fault seen users here wrote =>
      have unchanged : SingleUse { state with users } := ⟨single.once, single.keeps⟩
      exact iff_of_true (unchanged.put rfl) trivial
  | deleteKey here => exact single.deleteKey_iff inv here _
  | sendPasswordResetEmail later after accepted known fresh =>
      exact iff_of_true ⟨single.once, single.keeps⟩ trivial
  | sendEmailVerification later after accepted free =>
      exact iff_of_true ⟨single.once, single.keeps⟩ trivial

/-- In every run whose deletions delete their own token, a token is used once and no newer one
is lost; the first deletion that does not breaks this. -/
theorem reset_token_single_use (passwords : Passwords) (env : MailEnvironment) {state : ResetState}
    (reachable : ((passwordResets passwords env).guard DeletesOwn).Reachable state) :
    SingleUse state ∧ ∀ label next, (passwordResets passwords env).Step state label next →
      (SingleUse next ↔ DeletesOwn state label) := by
  have single : SingleUse state :=
    reachable.guardInvariant ResetInv.reachable SingleUse.initial
      fun inv single permitted taken => (single.step_iff inv taken).mpr permitted
  exact ⟨single, fun _ _ taken => single.step_iff (ResetInv.reachable reachable.ofGuard) taken⟩

/-! Two resets with one token that both verify it before either deletes it. -/

/-- Passwords are their own hashes. -/
def trustingPasswords : Passwords where
  hash := .ok
  validate := fun password hash => password = hash

/-- Every text is an address. -/
def trustingMail : MailEnvironment where
  isEmail := fun _ => true

/-- One enabled user with an email. -/
def mailedUsers : Users where
  rows := [{ id := 1, username := "ann", email := "a", status := userStatusEnabled }]
  counter := 1
  sorted := by decide
  unique := by decide
  counterNonneg := Int.one_nonneg
  bounded := by decide

def mailedStart : ResetState := { users := mailedUsers }

/-- A request to reset with the token `t`. -/
def mailedBody : Option Json := some (.object [("email", .string "a"), ("token", .string "t")])

/-- The state in which the token `t` was mailed to `a`. -/
def tokenMailed : ResetState :=
  { mailedStart.registered (resetSlot "a") "t" 0 0 with
    issued := Function.update mailedStart.issued "a" ["t"] }

theorem tokenMailed_reachable :
    (passwordResets trustingPasswords trustingMail).Reachable tokenMailed := by
  have start : (passwordResets trustingPasswords trustingMail).Reachable mailedStart :=
    System.Reachable.initial ⟨rfl, rfl, rfl⟩
  exact start.step (.sendPasswordResetEmail (Int.le_refl 0) (Int.le_refl 0) (by decide) (by decide)
    List.not_mem_nil)

/-- Both verify, both write, and both delete: both succeed. -/
theorem reset_token_used_twice :
    ¬ ∀ state, (passwordResets trustingPasswords trustingMail).Reachable state →
      SingleUse state := by
  intro single
  have first := tokenMailed_reachable.step
    (@ResetStep.verify trustingPasswords trustingMail _ 0 mailedBody 0 rfl (Int.le_refl 0))
  have second := first.step
    (@ResetStep.verify trustingPasswords trustingMail _ 1 mailedBody 0 rfl (Int.le_refl 0))
  have third := second.step
    (@ResetStep.written trustingPasswords trustingMail _ 0 "a" "t" "p" none ["t"] _ (by decide) rfl)
  have fourth := third.step
    (@ResetStep.written trustingPasswords trustingMail _ 1 "a" "t" "q" none ["t"] _ (by decide) rfl)
  have fifth := fourth.step
    (@ResetStep.deleteKey trustingPasswords trustingMail _ 0 "a" "t" "p" ["t"] (by decide))
  have sixth := fifth.step
    (@ResetStep.deleteKey trustingPasswords trustingMail _ 1 "a" "t" "q" ["t"] (by decide))
  have same := (single _ sixth).once 0 1 ("a", "t") (by decide) (by decide)
  cases same

/-- A token was mailed and not used yet. -/
theorem reset_token_single_use_mailed :
    SingleUse tokenMailed ∧ ∀ label next,
      (passwordResets trustingPasswords trustingMail).Step tokenMailed label next →
        (SingleUse next ↔ DeletesOwn tokenMailed label) := by
  have start : ((passwordResets trustingPasswords trustingMail).guard DeletesOwn).Reachable
      mailedStart := System.Reachable.initial ⟨rfl, rfl, rfl⟩
  have mailed := @ResetStep.sendPasswordResetEmail trustingPasswords trustingMail mailedStart "a"
    "t" 0 0 (Int.le_refl 0) (Int.le_refl 0) (by decide) (by decide) List.not_mem_nil
  have permitted : DeletesOwn mailedStart (.sendPasswordResetEmail "a" "t" 0 0) := trivial
  exact reset_token_single_use trustingPasswords trustingMail (start.step ⟨permitted, mailed⟩)

end MessagePusher.Verification
