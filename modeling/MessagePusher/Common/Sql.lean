import MessagePusher.Common.Text

/-!
# Comparisons that the database decides

How a text argument compares with an integer column, and which texts match a `LIKE`
pattern, differs between the supported databases, so both are parameters. `sqlite`
is the default database, for keywords that are integer literals or plain text.
-/

namespace MessagePusher.Common

/-- The comparisons of a database. -/
structure Dialect where
  /-- `id = ?` with a text argument. -/
  equalsId : Int → String → Bool
  /-- `column LIKE ?`. -/
  like : String → String → Bool

/-- Match a pattern with `%` for any text and `_` for any character, ASCII letters up to
their case. -/
def likeChars : List Char → List Char → Bool
  | [], text => text.isEmpty
  | '%' :: pattern, text => text.tails.any (likeChars pattern)
  | '_' :: pattern, text =>
      match text with
      | [] => false
      | _ :: rest => likeChars pattern rest
  | char :: pattern, text =>
      match text with
      | [] => false
      | first :: rest => char.toLower = first.toLower && likeChars pattern rest

def Dialect.sqlite : Dialect where
  equalsId id text := Text.parseInt text = (id, true)
  like text pattern := likeChars pattern.toList text.toList

/-- `Limit(num).Offset(start)`; an offset that is not positive is left out. -/
def page {α : Type} (rows : List α) (start num : Int) : List α :=
  (if 0 < start then rows.drop start.toNat else rows).take num.toNat

theorem page_sublist {α : Type} (rows : List α) (start num : Int) :
    (page rows start num).Sublist rows := by
  unfold page
  refine (List.take_sublist _ _).trans ?_
  split_ifs
  · exact List.drop_sublist _ _
  · exact List.Sublist.refl rows

theorem map_page {α β : Type} (view : α → β) (rows : List α) (start num : Int) :
    (page rows start num).map view = page (rows.map view) start num := by
  unfold page
  split_ifs
  · rw [List.map_take, List.map_drop]
  · rw [List.map_take]

/-- Multiplication of 64-bit integers. -/
def mulInt64 (left right : Int) : Int :=
  (left * right).bmod (2 ^ 64)

end MessagePusher.Common
