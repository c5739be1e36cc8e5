import MessagePusher.Common.RateLimit

/-!
# Verification codes

`common/verification.go`. The map has at most one value under a key, which begins with
the purpose. A clock reading is in nanoseconds.
-/

namespace MessagePusher.Common

/-- `verificationValue`: a code and when it was registered. -/
structure VerificationValue where
  code : String
  time : Int
deriving DecidableEq

/-- What goes before an email whose address is verified. -/
def emailVerificationPurpose : String := "v"
/-- What goes before an email whose password is reset. -/
def passwordResetPurpose : String := "r"

/-- The size beyond which the map is cleaned. -/
def verificationMapMaxSize : Nat := 10
/-- How long a code is valid. -/
def verificationValidMinutes : Int := 10

/-- `verificationMap`, with each key once. -/
abbrev VerificationMap := List (String × VerificationValue)

namespace VerificationMap

/-- A code is valid for less than its minutes, counted in whole seconds. -/
def expired (now : Int) (value : VerificationValue) : Bool :=
  verificationValidMinutes * 60 ≤ wholeSeconds (now - value.time)

/-- `removeExpiredPairs`. -/
def removeExpiredPairs (codes : VerificationMap) (now : Int) : VerificationMap :=
  codes.filter fun pair => !expired now pair.2

/-- `RegisterVerificationCodeWithKey`; expired pairs go only when the map is too large. -/
def register (codes : VerificationMap) (now : Int) (key code purpose : String) :
    VerificationMap :=
  let stored := (purpose ++ key, { code, time := now }) ::
    codes.filter fun pair => pair.1 ≠ purpose ++ key
  if verificationMapMaxSize < stored.length then removeExpiredPairs stored now else stored

/-- `RegisterVerificationCodeWithKey` with both its clock readings: that of the stored value and
that of the clean-up. -/
def registerAt (codes : VerificationMap) (stamped cleaned : Int) (key code purpose : String) :
    VerificationMap :=
  let stored := (purpose ++ key, { code, time := stamped }) ::
    codes.filter fun pair => pair.1 ≠ purpose ++ key
  if verificationMapMaxSize < stored.length then removeExpiredPairs stored cleaned else stored

theorem register_eq (codes : VerificationMap) (now : Int) (key code purpose : String) :
    codes.register now key code purpose = codes.registerAt now now key code purpose := rfl

/-- `VerifyCodeWithKey`. A code stays valid after it was used. -/
def verify (codes : VerificationMap) (now : Int) (key code purpose : String) : Bool :=
  match codes.lookup (purpose ++ key) with
  | none => false
  | some value => if expired now value then false else code = value.code

/-- `DeleteKey`. -/
def deleteKey (codes : VerificationMap) (key purpose : String) : VerificationMap :=
  codes.filter fun pair => pair.1 ≠ purpose ++ key

end VerificationMap

end MessagePusher.Common
