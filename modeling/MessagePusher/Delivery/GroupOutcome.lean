import MessagePusher.Delivery.PathAgreement

/-!
# What a group delivery reports

A group delivery should refuse its configuration before it sends anything, or
attempt every sub-channel and report the ones that failed. `SendGroupMessage`
looks a sub-channel up only when its turn comes, so a missing or nested one
ends the delivery after the ones before it were served. A sender that panics
ends it without any report.
-/

namespace MessagePusher.Delivery

open Common Model Channel

/-- The decision is a request that leaves for the sub-channel. -/
def sends : Except String Outgoing → Bool
  | .error _ => false
  | .ok .nothing | .ok .panic => false
  | .ok _ => true

variable (lib : Library) (transport : Outgoing → Option String)

/-- The failed sub-channels of a list of attempts, each with the text of its error. -/
def failures : List String → List Attempt → List (String × String)
  | name :: names, attempt :: attempts =>
      match errorOf transport attempt.decision with
      | none => failures names attempts
      | some text => (name, text) :: failures names attempts
  | _, _ => []

/-- The line of a failed sub-channel in the error of `SendGroupMessage`. -/
def failureLine (failure : String × String) : String :=
  "发送群组消息子通道 " ++ failure.1 ++ " 失败：" ++ failure.2 ++ "\n"

def failureLines (failed : List (String × String)) : String :=
  failed.foldr (fun failure text => failureLine failure ++ text) ""

/-- An error that names the failed sub-channels and no other, or none. -/
def failureReport (failed : List (String × String)) : Option String :=
  if failed = [] then none else some (failureLines failed)

/-- The delivery returned an error and no request had left for any sub-channel. -/
def RefusedUnsent (delivery : Channel.Delivery) : Prop :=
  delivery.panicked = false ∧ delivery.error ≠ none ∧
    ∀ attempt ∈ delivery.attempts, sends attempt.decision = false

/-- Every listed sub-channel was attempted once, in order, and the error that the delivery
returned names those whose delivery failed. -/
def AttemptedAll (channels : Channels) (userId : Int) (names : List String)
    (delivery : Channel.Delivery) : Prop :=
  List.Forall₂ (fun name attempt => getChannelByName channels name userId = .ok attempt.channel)
      names delivery.attempts ∧
    delivery.panicked = false ∧
    delivery.error = failureReport (failures transport names delivery.attempts)

/-- For its member's message the sender refuses, or has nothing to send. -/
def SilentFor (readings : Readings) (message : Message) (user : User) (member : Member) : Prop :=
  sends (sendDirect lib readings (member.message message) user member.channel).decision = false

/-- None of the sub-channels that the delivery gets to panics. -/
def Calm (channels : Channels) (userId : Int) (pairs : List (String × String)) : Prop :=
  ∀ member ∈ reached lib channels userId pairs, member.panics lib = false

/-- The listed pairs of sub-channel and target. -/
def groupPairs (message : Message) (channel : Model.Channel) : List (String × String) :=
  (groupSubChannels channel).zip (groupTargets message channel)

/-! ### The report -/

theorem failureLines_cons (failure : String × String) (failed : List (String × String)) :
    failureLines (failure :: failed) = failureLine failure ++ failureLines failed := rfl

theorem failureLine_ne_empty (failure : String × String) : failureLine failure ≠ "" := by
  intro empty
  have length := congrArg String.length empty
  unfold failureLine at length
  simp only [String.length_append] at length
  have newline : ("\n" : String).length = 1 := by decide
  have nothing : ("" : String).length = 0 := by decide
  omega

/-- A text of lines is empty only without lines. -/
theorem failureReport_eq (failed : List (String × String)) :
    failureReport failed =
      if failureLines failed = "" then none else some (failureLines failed) := by
  cases failed with
  | nil => rfl
  | cons failure failed =>
      have some_ : failureLines (failure :: failed) ≠ "" := by
        rw [failureLines_cons, ne_eq, String.append_eq_empty_iff]
        exact fun empty => failureLine_ne_empty failure empty.1
      rw [if_neg some_, failureReport, if_neg (List.cons_ne_nil _ _)]

/-- What an attempt adds to the text that the loop collects. -/
theorem appendError_some (errMessage name text : String) :
    appendError errMessage name (some text) = errMessage ++ failureLine (name, text) := by
  unfold appendError failureLine
  simp only [String.append_assoc]

/-- The text of the loop after one attempt, and after those behind it. -/
theorem appendError_failures (errMessage name : String) (names : List String)
    (attempt : Attempt) (attempts : List Attempt) :
    appendError errMessage name (errorOf transport attempt.decision) ++
        failureLines (failures transport names attempts) =
      errMessage ++ failureLines (failures transport (name :: names) (attempt :: attempts)) := by
  conv_rhs => rw [failures]
  cases errorOf transport attempt.decision with
  | none => rfl
  | some text =>
      rw [appendError_some, String.append_assoc]
      rfl

/-! ### The loop -/

theorem calm_cons_iff {channels : Channels} {userId : Int} {name target : String}
    {rest : List (String × String)} {row : Model.Channel}
    (found : getChannelByName channels name userId = .ok row) (direct : row.type ≠ typeGroup) :
    Calm lib channels userId ((name, target) :: rest) ↔
      panicsFor lib target row = false ∧ Calm lib channels userId rest := by
  simp only [Calm, reached, found, direct, if_false]
  by_cases broken : panicsFor lib target row = true
  · simp [broken, Member.panics]
  · rw [if_neg broken, List.forall_mem_cons]
    exact Iff.rfl

/-- The loop panics exactly when a sub-channel that it gets to does. -/
theorem groupLoop_panicked_iff (channels : Channels) (readings : Nat → Readings)
    (pairs : List (String × String)) (index : Nat) (errMessage : String) (message : Message)
    (user : User) :
    (groupLoop lib transport channels readings index errMessage message user pairs).panicked =
        false ↔ Calm lib channels user.id pairs := by
  induction pairs generalizing index errMessage message user with
  | nil => simp [groupLoop, Calm, reached]
  | cons pair rest ih =>
      obtain ⟨name, target⟩ := pair
      cases found : getChannelByName channels name user.id with
      | error text => simp [groupLoop, Calm, reached, found]
      | ok row =>
          by_cases nested : row.type = typeGroup
          · simp [groupLoop, Calm, reached, found, nested]
          · rw [calm_cons_iff lib found nested]
            simp only [groupLoop, found, nested, if_false, panics_sendDirect]
            generalize ({ message with to_ := target, channel := name } : Message) = addressed
            obtain ⟨-, email, after⟩ := sendDirect_keeps lib (readings index) addressed user row
            have sameId : (sendDirect lib (readings index) addressed user row).user.id = user.id := by
              rw [after]
            by_cases broken : panicsFor lib target row = true
            · simp [broken]
            · rw [if_neg broken, ih, sameId]
              simp [broken]

/-- A loop whose sub-channels are all there attempts each and collects the failures. -/
theorem groupLoop_resolved (channels : Channels) (readings : Nat → Readings)
    (pairs : List (String × String)) (members : List Member) (index : Nat) (errMessage : String)
    (message : Message) (user : User)
    (resolved : resolve channels user.id pairs = some members)
    (calm : Calm lib channels user.id pairs) :
    List.Forall₂
        (fun name attempt => getChannelByName channels name user.id = .ok attempt.channel)
        (pairs.map Prod.fst)
        (groupLoop lib transport channels readings index errMessage message user pairs).attempts ∧
      (groupLoop lib transport channels readings index errMessage message user pairs).error =
        let collected := errMessage ++ failureLines (failures transport (pairs.map Prod.fst)
          (groupLoop lib transport channels readings index errMessage message user pairs).attempts)
        if collected = "" then none else some collected := by
  induction pairs generalizing members index errMessage message user with
  | nil =>
      refine ⟨.nil, ?_⟩
      have nothing : failureLines (failures transport [] []) = "" := rfl
      simp only [groupLoop, List.map_nil, nothing, String.append_empty]
  | cons pair rest ih =>
      obtain ⟨name, target⟩ := pair
      simp only [resolve] at resolved
      split at resolved
      · cases resolved
      · next row found =>
        split_ifs at resolved with nested
        obtain ⟨tail, resolvedTail, -⟩ := Option.map_eq_some_iff.mp resolved
        obtain ⟨steady, calm⟩ := (calm_cons_iff lib found nested).mp calm
        simp only [groupLoop, found, nested, if_false, List.map_cons, panics_sendDirect, steady,
          Bool.false_eq_true]
        generalize ({ message with to_ := target, channel := name } : Message) = addressed
        obtain ⟨-, email, after⟩ := sendDirect_keeps lib (readings index) addressed user row
        have sameId : (sendDirect lib (readings index) addressed user row).user.id = user.id := by
          rw [after]
        have later := ih tail (index + 1)
          (appendError errMessage name
            (errorOf transport (sendDirect lib (readings index) addressed user row).decision))
          (sendDirect lib (readings index) addressed user row).message
          (sendDirect lib (readings index) addressed user row).user
          (by rw [sameId]; exact resolvedTail) (by rw [sameId]; exact calm)
        rw [sameId] at later
        refine ⟨.cons found later.1, ?_⟩
        rw [later.2]
        have collected := appendError_failures transport errMessage name (rest.map Prod.fst)
          ⟨row, (sendDirect lib (readings index) addressed user row).decision⟩
        dsimp only at collected ⊢
        rw [collected]

/-- A loop that meets a missing or nested sub-channel ends with an error before its last entry. -/
theorem groupLoop_unresolved (channels : Channels) (readings : Nat → Readings)
    (pairs : List (String × String)) (index : Nat) (errMessage : String) (message : Message)
    (user : User) (unresolved : resolve channels user.id pairs = none)
    (calm : Calm lib channels user.id pairs) :
    (groupLoop lib transport channels readings index errMessage message user pairs).error ≠ none ∧
      (groupLoop lib transport channels readings index errMessage message user pairs).attempts.length
        < pairs.length := by
  induction pairs generalizing index errMessage message user with
  | nil => cases unresolved
  | cons pair rest ih =>
      obtain ⟨name, target⟩ := pair
      simp only [resolve] at unresolved
      split at unresolved
      · next text missing => simp [groupLoop, missing]
      · next row found =>
        simp only [groupLoop, found]
        by_cases nested : row.type = typeGroup
        · simp [nested]
        · obtain ⟨steady, calm⟩ := (calm_cons_iff lib found nested).mp calm
          simp only [nested, if_false, Option.map_eq_none_iff, panics_sendDirect, steady,
            Bool.false_eq_true] at unresolved ⊢
          generalize ({ message with to_ := target, channel := name } : Message) = addressed
          obtain ⟨-, email, after⟩ := sendDirect_keeps lib (readings index) addressed user row
          have sameId : (sendDirect lib (readings index) addressed user row).user.id = user.id := by
            rw [after]
          obtain ⟨failed, fewer⟩ := ih (index + 1)
            (appendError errMessage name
              (errorOf transport (sendDirect lib (readings index) addressed user row).decision))
            (sendDirect lib (readings index) addressed user row).message
            (sendDirect lib (readings index) addressed user row).user
            (by rw [sameId]; exact unresolved) (by rw [sameId]; exact calm)
          exact ⟨failed, Nat.succ_lt_succ fewer⟩

/-- Rows are found for all the listed pairs exactly when each sub-channel is there and no group. -/
theorem resolve_isSome_iff (channels : Channels) (userId : Int) (pairs : List (String × String)) :
    (resolve channels userId pairs).isSome ↔ ∀ name ∈ pairs.map Prod.fst, ∃ row,
      getChannelByName channels name userId = .ok row ∧ row.type ≠ typeGroup := by
  induction pairs with
  | nil => simp [resolve]
  | cons pair rest ih =>
      obtain ⟨name, target⟩ := pair
      rw [List.map_cons, List.forall_mem_cons, ← ih, resolve]
      cases getChannelByName channels name userId with
      | error text => simp
      | ok row =>
          by_cases nested : row.type = typeGroup
          · simp [nested]
          · simp [nested]

/-- A sender without a request leaves the shared message and user as they were. -/
theorem sendDirect_silent {readings : Readings} {message : Message} {user : User}
    {channel : Model.Channel}
    (silent : sends (sendDirect lib readings message user channel).decision = false) :
    (sendDirect lib readings message user channel).message = message ∧
      (sendDirect lib readings message user channel).user = user := by
  revert silent
  unfold sendDirect
  cases senderOf channel.type with
  | none => exact fun _ => ⟨rfl, rfl⟩
  | some sender =>
      cases sender with
      | email =>
          simp only [runSender]
          unfold sendEmailMessage
          split_ifs with refused unset
          · exact fun _ => ⟨rfl, rfl⟩
          · obtain ⟨noTarget, blank⟩ := orElse_eq_empty.mp unset
            refine fun _ => ⟨rfl, ?_⟩
            rw [unset, ← blank]
          · intro silent
            cases silent
      | discord =>
          intro silent
          cases silent
      | tencentAlarm =>
          intro silent
          cases silent
      | _ => exact fun _ => ⟨rfl, rfl⟩

/-- No request leaves in a loop exactly when none would for any sub-channel it gets to, each
taken on the message and user as they came in. -/
theorem groupLoop_silent_iff (channels : Channels) (readings : Nat → Readings)
    (pairs : List (String × String)) (index : Nat) (errMessage : String)
    (message current : Message) (user : User)
    (same : ∀ target name : String, { current with to_ := target, channel := name } =
      { message with to_ := target, channel := name }) :
    (∀ attempt ∈ (groupLoop lib transport channels readings index errMessage current user
        pairs).attempts, sends attempt.decision = false) ↔
      ∀ i member, (reached lib channels user.id pairs)[i]? = some member →
        SilentFor lib (readings (index + i)) message user member := by
  induction pairs generalizing index errMessage current with
  | nil => simp [groupLoop, reached]
  | cons pair rest ih =>
      obtain ⟨name, target⟩ := pair
      simp only [groupLoop, reached]
      cases found : getChannelByName channels name user.id with
      | error text => simp
      | ok row =>
          by_cases nested : row.type = typeGroup
          · simp [nested]
          simp only [nested, if_false, same, panics_sendDirect]
          have here : SilentFor lib (readings (index + 0)) message user ⟨name, target, row⟩ ↔
              sends (sendDirect lib (readings index)
                { message with to_ := target, channel := name } user row).decision = false :=
            Iff.rfl
          by_cases broken : panicsFor lib target row = true
          · simp only [broken, if_true, forall_getElem?_cons, List.forall_mem_singleton, here]
            simp
          rw [if_neg broken, if_neg broken, forall_getElem?_cons, List.forall_mem_cons, here]
          refine and_congr_right fun silent => ?_
          obtain ⟨messageSame, userSame⟩ := sendDirect_silent lib silent
          rw [messageSame, userSame]
          have later := ih (index + 1)
            (appendError errMessage name (errorOf transport (sendDirect lib (readings index)
              { message with to_ := target, channel := name } user row).decision))
            { message with to_ := target, channel := name } fun _ _ => rfl
          simp only [Nat.add_assoc, Nat.add_comm 1] at later
          exact later

/-! ### Whole deliveries -/

/-- A group delivery refuses its configuration before it sends anything, or attempts every
sub-channel and reports the failed ones, exactly when the numbers of sub-channels and targets
differ, or none of those it gets to panics and besides every sub-channel is there and no group, or
none of those before the first that is not has anything to send. -/
theorem sendGroupMessage_refused_or_attempted_iff (channels : Channels) (readings : Nat → Readings)
    (message : Message) (user : User) (channel : Model.Channel) :
    (RefusedUnsent (sendGroupMessage lib transport channels readings message user channel) ∨
        AttemptedAll transport channels user.id (groupSubChannels channel)
          (sendGroupMessage lib transport channels readings message user channel)) ↔
      (groupSubChannels channel).length ≠ (groupTargets message channel).length ∨
        Calm lib channels user.id (groupPairs message channel) ∧
          ((∀ name ∈ groupSubChannels channel, ∃ row,
            getChannelByName channels name user.id = .ok row ∧ row.type ≠ typeGroup) ∨
          ∀ i member,
            (reached lib channels user.id (groupPairs message channel))[i]? = some member →
              SilentFor lib (readings i) message user member) := by
  by_cases mismatch : (groupSubChannels channel).length ≠ (groupTargets message channel).length
  · have refused :
        RefusedUnsent (sendGroupMessage lib transport channels readings message user channel) := by
      simp [RefusedUnsent, sendGroupMessage, mismatch]
    simp [mismatch, refused]
  have names : (groupPairs message channel).map Prod.fst = groupSubChannels channel :=
    List.map_fst_zip (by omega)
  have unfolded : sendGroupMessage lib transport channels readings message user channel =
      groupLoop lib transport channels readings 0 "" message user (groupPairs message channel) := by
    simp only [sendGroupMessage, mismatch, if_false, groupPairs]
  rw [unfolded]
  simp only [mismatch, false_or]
  rw [← names]
  have panicked := groupLoop_panicked_iff lib transport channels readings
    (groupPairs message channel) 0 "" message user
  by_cases calm : Calm lib channels user.id (groupPairs message channel)
  swap
  · simp [RefusedUnsent, AttemptedAll, panicked, calm]
  have returns := panicked.mpr calm
  simp only [calm, true_and]
  cases resolved : resolve channels user.id (groupPairs message channel) with
  | some members =>
      have whole := groupLoop_resolved lib transport channels readings _ members 0 "" message user
        resolved calm
      simp only [String.empty_append, ← failureReport_eq] at whole
      have there := (resolve_isSome_iff channels user.id _).mp (by rw [resolved]; rfl)
      exact iff_of_true (.inr ⟨whole.1, returns, whole.2⟩) (.inl there)
  | none =>
      obtain ⟨failed, fewer⟩ := groupLoop_unresolved lib transport channels readings _ 0 "" message
        user resolved calm
      have absent : ¬ ∀ name ∈ (groupPairs message channel).map Prod.fst, ∃ row,
          getChannelByName channels name user.id = .ok row ∧ row.type ≠ typeGroup := by
        rw [← resolve_isSome_iff, resolved]
        simp
      have partial_ : ¬ AttemptedAll transport channels user.id
          ((groupPairs message channel).map Prod.fst)
          (groupLoop lib transport channels readings 0 "" message user
            (groupPairs message channel)) := by
        rintro ⟨attempted, -⟩
        have same := attempted.length_eq
        rw [List.length_map] at same
        omega
      have silent := groupLoop_silent_iff lib transport channels readings
        (groupPairs message channel) 0 "" message message user fun _ _ => rfl
      simp only [Nat.zero_add] at silent
      simp only [RefusedUnsent, returns, failed, partial_, absent, ne_eq, not_false_eq_true, true_and,
        or_false, false_or, silent]

/-! A sub-channel that does not exist, behind one that does: the first has got its message. -/

/-- A group of the Discord channel and of a channel that is not there. -/
def brokenGroup : Model.Channel := { groupRow with appId := "d|x" }

theorem sendGroupMessage_refused_after_sending :
    ¬ (RefusedUnsent (sendGroupMessage plainLibrary (fun _ => none) groupChannels
          (fun _ => plainReadings) describedMessage { id := 1 } brokenGroup) ∨
        AttemptedAll (fun _ => none) groupChannels 1 (groupSubChannels brokenGroup)
          (sendGroupMessage plainLibrary (fun _ => none) groupChannels (fun _ => plainReadings)
            describedMessage { id := 1 } brokenGroup)) := by
  have sent : (sendGroupMessage plainLibrary (fun _ => none) groupChannels
      (fun _ => plainReadings) describedMessage { id := 1 } brokenGroup).attempts.map
        (fun attempt => sends attempt.decision) = [true] := by decide
  rintro (⟨-, -, unsent⟩ | ⟨attempted, -⟩)
  · obtain ⟨attempt, listed, left⟩ := List.mem_map.mp (sent ▸ List.mem_singleton_self true)
    rw [unsent attempt listed] at left
    cases left
  · have names : (groupSubChannels brokenGroup).length = 2 := by decide
    have attempts := congrArg List.length sent
    rw [List.length_map, ← attempted.length_eq, names] at attempts
    cases attempts

end MessagePusher.Delivery
