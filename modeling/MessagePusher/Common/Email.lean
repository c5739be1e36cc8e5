import MessagePusher.Mail.EncodedWord

/-!
# Mail headers

`encodeMailHeader` of `common/email.go`, which writes the subject of a mail and the system name
in its `From` line.
-/

namespace MessagePusher.Common

open Mail

/-- `encodeMailHeader`. -/
def encodeMailHeader (text : String) : String :=
  "=?UTF-8?B?" ++ String.ofList (base64 (Utf8.encode text.toList)) ++ "?="

theorem toList_encodeMailHeader (text : String) :
    (encodeMailHeader text).toList = encodedWord (Utf8.encode text.toList) := by
  unfold encodeMailHeader
  rw [String.toList_append, String.toList_append, String.toList_ofList, String.toList_ofList]
  rfl

/-- The header value is encoded words of the text exactly when the text has 1 to 45 bytes: it is
always a single word, and an empty word is none. -/
theorem encodeMailHeader_words_iff (text : String) :
    Words (encodeMailHeader text).toList text.toList ↔
      1 ≤ (Utf8.encode text.toList).length ∧ (Utf8.encode text.toList).length ≤ 45 := by
  rw [toList_encodeMailHeader]
  exact words_encodedWord_iff text.toList

/-- A subject of sixteen characters with three bytes each. -/
def longSubject : String := "服务器磁盘空间不足请尽快处理谢谢"

theorem longSubject_word_is_too_long :
    (encodeMailHeader longSubject).toList.length = 76 ∧
      ¬ Words (encodeMailHeader longSubject).toList longSubject.toList := by
  have length : (encodeMailHeader longSubject).toList.length = 76 := by
    rw [toList_encodeMailHeader, length_encodedWord]
    decide
  refine ⟨length, fun words => ?_⟩
  rw [toList_encodeMailHeader] at words length
  rcases words.single (not_isGap_encodedWord _) with none_ | ⟨short, -⟩
  · rw [none_] at length
    cases length
  · rw [length] at short
    exact absurd short (by decide)

end MessagePusher.Common
