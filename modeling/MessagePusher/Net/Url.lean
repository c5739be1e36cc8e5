import MessagePusher.Common.Text
import MessagePusher.Substitution.MaximalRun

/-!
# URLs and their origins

What `net/url` reads of an absolute URL, as far as it decides which server a request goes to:
the scheme, the host and the port. A host is a sequence of bytes, since escapes in it stand for
bytes.
-/

namespace MessagePusher.Net

open Common
open Substitution (IsRun isRun_takeWhile)

/-- `strings.Cut` at a character. -/
def cut (mark : Char) (text : List Char) : List Char × Option (List Char) :=
  match text.dropWhile (· ≠ mark) with
  | [] => (text, none)
  | _ :: behind => (text.takeWhile (· ≠ mark), some behind)

/-- The texts before and after the last mark. -/
def cutLast (mark : Char) (text : List Char) : Option (List Char × List Char) :=
  match cut mark text.reverse with
  | (_, none) => none
  | (behind, some before) => some (before.reverse, behind.reverse)

def isAlphanumeric (char : Char) : Bool := char.isAlpha || char.isDigit

def hexDigit? (char : Char) : Option Nat :=
  if char.isDigit then some (char.toNat - '0'.toNat)
  else if 'a' ≤ char ∧ char ≤ 'f' then some (char.toNat - 'a'.toNat + 10)
  else if 'A' ≤ char ∧ char ≤ 'F' then some (char.toNat - 'A'.toNat + 10)
  else none

/-- Every percent sign is followed by two hexadecimal digits. -/
def escapesValid : List Char → Bool
  | [] => true
  | '%' :: high :: low :: rest =>
      (hexDigit? high).isSome && (hexDigit? low).isSome && escapesValid rest
  | '%' :: _ => false
  | _ :: rest => escapesValid rest

/-! ### The scheme -/

def isSchemeChar (char : Char) : Bool := isAlphanumeric char || char ∈ ['+', '-', '.']

/-- `getScheme`: the scheme as it is spelled, and the text behind its colon. A text without a
scheme has none of use here. -/
def getScheme (text : List Char) : Option (List Char × List Char) :=
  match text.dropWhile isSchemeChar with
  | ':' :: rest =>
      if (text.head?.map Char.isAlpha).getD false then some (text.takeWhile isSchemeChar, rest)
      else none
  | _ => none

/-! ### The host -/

/-- The ASCII characters that stand for themselves in a host. -/
def isHostChar (char : Char) : Bool :=
  isAlphanumeric char || "-_.~!$&'()*+,;=:[]<>\"".toList.contains char

/-- The bytes of a host. An escape of an ASCII character is refused but for the percent sign; in
the zone of an address the characters of a host and the space may be escaped instead. -/
def unescapeHost (zone : Bool) : List Char → Option (List UInt8)
  | [] => some []
  | '%' :: high :: low :: rest => do
      let code := 16 * (← hexDigit? high) + (← hexDigit? low)
      let allowed :=
        code = 0x25 ||
          if zone then code = 0x20 || (code < 0x80 && isHostChar (Char.ofNat code))
          else 0x80 ≤ code
      if allowed then return UInt8.ofNat code :: (← unescapeHost zone rest) else none
  | '%' :: _ => none
  | char :: rest => do
      if char.toNat < 0x80 && !isHostChar char then none
      else return String.utf8EncodeChar char ++ (← unescapeHost zone rest)

/-- `validOptionalPort`: nothing, or a colon and digits. -/
def portOf : List Char → Option (List Char)
  | [] => some []
  | ':' :: digits => if digits.all Char.isDigit then some digits else none
  | _ => none

/-- A number of an IPv4 address. -/
def isOctet (digits : List Char) : Bool :=
  digits.all Char.isDigit && 1 ≤ digits.length && digits.length ≤ 3 &&
    (digits.length = 1 || digits.head? ≠ some '0') &&
    digits.foldl (fun value digit => 10 * value + (digit.toNat - '0'.toNat)) 0 ≤ 255

/-- How many of the eight groups of an IPv6 address the parts are; the last one may be an IPv4
address. -/
def groupCount : List (List Char) → Option Nat
  | [] => some 0
  | [last] =>
      if (1 ≤ last.length ∧ last.length ≤ 4) ∧ last.all (hexDigit? · |>.isSome) then some 1
      else if (last.splitOn '.').length = 4 ∧ (last.splitOn '.').all isOctet then some 2
      else none
  | part :: parts =>
      if (1 ≤ part.length ∧ part.length ≤ 4) ∧ part.all (hexDigit? · |>.isSome) then
        (groupCount parts).map (· + 1)
      else none

/-- The texts around the first two colons in a row. -/
def cutColons : List Char → Option (List Char × List Char)
  | ':' :: ':' :: rest => some ([], rest)
  | char :: rest => (cutColons rest).map fun parts => (char :: parts.1, parts.2)
  | [] => none

/-- The parts of half an address. -/
def groups (text : List Char) : List (List Char) := if text = [] then [] else text.splitOn ':'

def isIPv6 (text : List Char) : Bool :=
  match cutColons text with
  | none => groupCount (groups text) = some 8
  | some (before, behind) =>
      match groupCount (groups before), groupCount (groups behind) with
      | some left, some right => left + right ≤ 7 && !(before.contains '.')
      | _, _ => false

/-- The text between brackets, with its zone. -/
def unescapeAddress (text : List Char) : Option (List UInt8) := do
  let (address, zone) := cut '%' text
  if !isIPv6 address then none
  match zone with
  | none => unescapeHost false address
  | some zone =>
      if zone.take 2 ≠ ['2', '5'] then none
      return (← unescapeHost false address) ++ (← unescapeHost true ('%' :: zone))

/-- `parseHost`, with the port split off: the host and the digits of the port. -/
def parseHost (text : List Char) : Option (List UInt8 × List Char) :=
  match text with
  | '[' :: inside => do
      let (address, behind) ← cutLast ']' inside
      return (← unescapeAddress address, ← portOf behind)
  | _ =>
      match cut ':' text with
      | (host, none) => (unescapeHost false host).map fun host => (host, [])
      | (host, some digits) => do
          let port ← portOf (':' :: digits)
          return (← unescapeHost false host, port)

def isUserinfoChar (char : Char) : Bool :=
  isAlphanumeric char || "-._:~!$&'()*+,;=%@".toList.contains char

/-- `parseAuthority` without the user. -/
def parseAuthority (text : List Char) : Option (List UInt8 × List Char) :=
  match cutLast '@' text with
  | none => parseHost text
  | some (userinfo, host) =>
      if userinfo.all isUserinfoChar && escapesValid userinfo then parseHost host else none

/-! ### The URL -/

/-- The server that a URL names. -/
structure Target where
  scheme : List Char
  host : List UInt8
  port : List Char
deriving DecidableEq

def isControl (char : Char) : Bool := char.toNat < 0x20 || char.toNat = 0x7f

/-- `url.Parse` of a URL that names a server. -/
def parse (url : String) : Option Target := do
  let (url, fragment) := cut '#' url.toList
  if url.any isControl || !escapesValid (fragment.getD []) then none
  let (scheme, rest) ← getScheme url
  match (cut '?' rest).1 with
  | '/' :: '/' :: rest =>
      let (authority, path) := cut '/' rest
      if !escapesValid (path.getD []) then none
      let (host, port) ← parseAuthority authority
      return ⟨scheme.map Char.toLower, host, port⟩
  | _ => none

/-- The server that `net/http` sends a request for the URL to. -/
def requestTarget (url : String) : Option Target :=
  (parse url).filter fun target =>
    (target.scheme = "http".toList || target.scheme = "https".toList) &&
      !(target.host.isEmpty && target.port.isEmpty)

/-! ### Origins -/

/-- The lower case of an ASCII letter. -/
def lowerByte (byte : UInt8) : UInt8 := if 0x41 ≤ byte ∧ byte ≤ 0x5a then byte + 0x20 else byte

/-- The port that is meant when a URL has none. -/
def defaultPort (scheme : List Char) : Option Nat :=
  if scheme = "http".toList then some 80 else if scheme = "https".toList then some 443 else none

/-- Scheme, host and port, where the case of letters does not matter. -/
structure Origin where
  scheme : List Char
  host : List UInt8
  port : Option Nat
deriving DecidableEq

def Target.origin (target : Target) : Origin where
  scheme := target.scheme
  host := target.host.map lowerByte
  port := (Text.digits? target.port).or (defaultPort target.scheme)

/-- Both URLs have one origin. -/
def SameOrigin (url other : String) : Prop :=
  ∃ target named, parse url = some target ∧ parse other = some named ∧
    target.origin = named.origin

instance (url other : String) : Decidable (SameOrigin url other) :=
  match first : parse url, second : parse other with
  | some target, some named =>
      decidable_of_iff (target.origin = named.origin) (by simp [SameOrigin, first, second])
  | none, _ => isFalse (by simp [SameOrigin, first])
  | some _, none => isFalse (by simp [SameOrigin, second])

/-! ## How a URL is spelled

The scheme, the authority and the rest of a URL as they stand in its text. One URL begins with the
text of another exactly when it goes on from its parts. -/

/-- The parts of an absolute URL that names a server, as they stand in it. -/
structure Spelling where
  scheme : List Char
  authority : List Char
  rest : List Char
deriving DecidableEq

/-- The characters that do not end an authority. -/
def inAuthority (char : Char) : Bool := char ≠ '/' && char ≠ '?' && char ≠ '#'

/-- The parts of a text that begins like such a URL. -/
def spelling (url : String) : Option Spelling :=
  match getScheme url.toList with
  | some (scheme, '/' :: '/' :: rest) => some
      { scheme
        authority := rest.takeWhile inAuthority
        rest := rest.dropWhile inAuthority }
  | _ => none

/-- The text before the first colon, which is the scheme of every absolute URL. -/
def schemeText (url : String) : Option (List Char) :=
  (cut ':' url.toList).2.map fun _ => (cut ':' url.toList).1

/-- The text of the parts. -/
def Spelling.text (parts : Spelling) : List Char :=
  parts.scheme ++ ':' :: '/' :: '/' :: (parts.authority ++ parts.rest)

/-- The parts of a URL: the scheme and the authority end where they are said to. -/
structure Spelling.WellFormed (parts : Spelling) : Prop where
  begins : ∃ first, parts.scheme.head? = some first ∧ first.isAlpha
  scheme : ∀ char ∈ parts.scheme, isSchemeChar char
  authority : IsRun inAuthority parts.authority parts.rest

/-- The URL has the scheme of the address, and its authority and a rest that goes on from that of
the address; an address without a rest may have the beginning of the authority. -/
def Spelling.GoesOn (url address : Spelling) : Prop :=
  address.scheme = url.scheme ∧
    (address.authority = url.authority ∧ address.rest <+: url.rest ∨
      address.rest = [] ∧ address.authority <+: url.authority)

variable {parts : Spelling} {text : List Char} {url : String}

/-! ### Texts and their parts -/

theorem getScheme_eq_some_iff {scheme rest : List Char} :
    getScheme text = some (scheme, rest) ↔ text = scheme ++ ':' :: rest ∧
      (∃ first, scheme.head? = some first ∧ first.isAlpha) ∧ ∀ char ∈ scheme, isSchemeChar char := by
  unfold getScheme
  constructor
  · intro found
    split at found
    · next dropped =>
      split_ifs at found with alpha
      obtain ⟨rfl, rfl⟩ := Prod.mk.inj (Option.some.inj found)
      have parts := @List.takeWhile_append_dropWhile _ isSchemeChar text
      rw [dropped] at parts
      refine ⟨parts.symm, ?_, (isRun_takeWhile isSchemeChar text).symbols⟩
      cases text with
      | nil => cases alpha
      | cons first rest =>
          have letter : first.isAlpha := alpha
          have scheme : isSchemeChar first := by
            unfold isSchemeChar isAlphanumeric
            simp [letter]
          exact ⟨first, by rw [List.takeWhile_cons_of_pos scheme]; rfl, letter⟩
    · cases found
  · rintro ⟨rfl, ⟨first, head, letter⟩, all⟩
    have dropped : (scheme ++ ':' :: rest).dropWhile isSchemeChar = ':' :: rest := by
      rw [List.dropWhile_append_of_pos all, List.dropWhile_cons_of_neg (by decide)]
    have taken : (scheme ++ ':' :: rest).takeWhile isSchemeChar = scheme := by
      rw [List.takeWhile_append_of_pos all, List.takeWhile_cons_of_neg (by decide), List.append_nil]
    have alpha : ((scheme ++ ':' :: rest).head?.map Char.isAlpha).getD false = true := by
      rw [List.head?_append, head]
      exact letter
    rw [dropped]
    show (if ((scheme ++ ':' :: rest).head?.map Char.isAlpha).getD false = true then
      some ((scheme ++ ':' :: rest).takeWhile isSchemeChar, rest) else none) = some (scheme, rest)
    rw [if_pos alpha, taken]

/-- A text has these parts exactly if it is made of them. -/
theorem spelling_eq_some_iff :
    spelling url = some parts ↔ url.toList = parts.text ∧ parts.WellFormed := by
  unfold spelling
  constructor
  · intro found
    split at found
    · next scheme rest read =>
      obtain rfl := Option.some.inj found
      obtain ⟨same, begins, all⟩ := getScheme_eq_some_iff.mp read
      refine ⟨?_, begins, all, isRun_takeWhile inAuthority rest⟩
      rw [same, Spelling.text, List.takeWhile_append_dropWhile]
    · cases found
  · rintro ⟨same, formed⟩
    have read : getScheme url.toList =
        some (parts.scheme, '/' :: '/' :: (parts.authority ++ parts.rest)) :=
      getScheme_eq_some_iff.mpr ⟨same, formed.begins, formed.scheme⟩
    rw [read]
    show some (Spelling.mk parts.scheme _ _) = some parts
    rw [formed.authority.takeWhile, formed.authority.dropWhile]

/-! ### One text as the beginning of another -/

/-- Two runs, each before a text that ends it. -/
theorem append_prefix_append_iff {ident : Char → Bool} {left behind right rest : List Char}
    (leftRun : IsRun ident left behind) (rightRun : IsRun ident right rest) :
    left ++ behind <+: right ++ rest ↔
      left = right ∧ behind <+: rest ∨ behind = [] ∧ left <+: right := by
  constructor
  · intro starts
    obtain ⟨more, rfl⟩ := rightRun.prefix_run leftRun.symbols
      ((List.prefix_append left behind).trans starts)
    rw [List.append_assoc, List.prefix_append_right_inj] at starts
    cases behind with
    | nil => exact .inr ⟨rfl, List.prefix_append left more⟩
    | cons char behind =>
        have ended : ident char = false := leftRun.stops char rfl
        cases more with
        | nil => exact .inl ⟨(List.append_nil left).symm, starts⟩
        | cons other more =>
            have goesOn := rightRun.symbols other (by simp)
            rw [← (List.cons_prefix_cons.mp starts).1, ended] at goesOn
            cases goesOn
  · rintro (⟨rfl, onward⟩ | ⟨rfl, starts⟩)
    · exact (List.prefix_append_right_inj left).mpr onward
    · rw [List.append_nil]
      exact starts.trans (List.prefix_append right rest)

/-- One URL begins with the text of another exactly if it goes on from its parts. -/
theorem Spelling.text_prefix_iff {address : Spelling} (formed : parts.WellFormed)
    (addressFormed : address.WellFormed) : address.text <+: parts.text ↔ parts.GoesOn address := by
  have colon (found : Spelling) (formed : found.WellFormed) : IsRun isSchemeChar found.scheme
      (':' :: '/' :: '/' :: (found.authority ++ found.rest)) :=
    ⟨formed.scheme, by rintro char ⟨⟩; decide⟩
  unfold Spelling.text Spelling.GoesOn
  rw [append_prefix_append_iff (colon address addressFormed) (colon parts formed)]
  simp only [List.cons_prefix_cons, true_and, reduceCtorEq, false_and, or_false]
  rw [append_prefix_append_iff addressFormed.authority formed.authority]

/-- A URL that begins with another one has parts as well. -/
theorem exists_spelling_of_prefix {address : String} (found : spelling address = some parts)
    (starts : address.toList <+: url.toList) : ∃ whole, spelling url = some whole := by
  obtain ⟨same, formed⟩ := spelling_eq_some_iff.mp found
  obtain ⟨more, whole⟩ := starts
  have read : getScheme url.toList =
      some (parts.scheme, '/' :: '/' :: (parts.authority ++ parts.rest ++ more)) := by
    refine getScheme_eq_some_iff.mpr ⟨?_, formed.begins, formed.scheme⟩
    rw [← whole, same, Spelling.text]
    simp
  unfold spelling
  rw [read]
  exact ⟨_, rfl⟩

/-- The URL goes on from the text of the address: from its parts, if the address has parts. -/
def Begins (address url : String) : Prop :=
  match spelling address with
  | some parts => ∃ whole, spelling url = some whole ∧ whole.GoesOn parts
  | none => address.toList <+: url.toList

/-- To begin with the text of an address is to go on from it. -/
theorem prefix_iff_begins {address : String} :
    address.toList <+: url.toList ↔ Begins address url := by
  unfold Begins
  split
  · next parts found =>
    obtain ⟨same, formed⟩ := spelling_eq_some_iff.mp found
    constructor
    · intro starts
      obtain ⟨whole, read⟩ := exists_spelling_of_prefix found starts
      obtain ⟨wholeSame, wholeFormed⟩ := spelling_eq_some_iff.mp read
      rw [same, wholeSame, Spelling.text_prefix_iff wholeFormed formed] at starts
      exact ⟨whole, read, starts⟩
    · rintro ⟨whole, read, goesOn⟩
      obtain ⟨wholeSame, wholeFormed⟩ := spelling_eq_some_iff.mp read
      rw [same, wholeSame, Spelling.text_prefix_iff wholeFormed formed]
      exact goesOn
  · exact Iff.rfl

/-- A text begins with a scheme and a colon exactly if that is what is before its first colon. -/
theorem schemeText_eq_iff {scheme : List Char} (noColon : ':' ∉ scheme) :
    schemeText url = some scheme ↔ scheme ++ [':'] <+: url.toList := by
  unfold schemeText cut
  constructor
  · intro found
    have parts := @List.takeWhile_append_dropWhile _ (fun char => decide (char ≠ ':')) url.toList
    have stopped := List.head?_dropWhile_not (fun char => decide (char ≠ ':')) url.toList
    split at found
    · cases found
    · next char behind dropped =>
      rw [dropped] at parts stopped
      obtain rfl : char = ':' := by simpa using stopped
      obtain rfl := Option.some.inj found
      exact ⟨behind, by rw [List.append_assoc]; exact parts⟩
  · rintro ⟨behind, whole⟩
    have run : IsRun (fun char => decide (char ≠ ':')) scheme (':' :: behind) :=
      ⟨fun char member => decide_eq_true fun same => noColon (same ▸ member), by
        rintro char ⟨⟩
        decide⟩
    rw [List.append_assoc, List.singleton_append] at whole
    rw [← whole, run.dropWhile, run.takeWhile]
    rfl

end MessagePusher.Net
