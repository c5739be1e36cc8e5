import Mathlib.Data.List.Nodup
import MessagePusher.Controller.Reads

/-!
# Pages

The lists of a user's messages, channels and webhooks are served in pages of ten rows. The handlers
multiply the number of the page without a look at its size, so the product can wrap around.
-/

namespace MessagePusher.Controller

open Common Model Store Middleware

/-- The lists that are served in pages. -/
inductive Listing where
  | messages
  | channels
  | webhooks
deriving DecidableEq

namespace Listing

/-- What a row is shown as. -/
abbrev Shown : Listing → Type
  | messages => Message
  | channels => Channel
  | webhooks => Webhook

def wrap : (listing : Listing) → List listing.Shown → ReadData
  | messages => ReadData.messages
  | channels => ReadData.channels
  | webhooks => ReadData.webhooks

/-- The rows of a user in descending order of their ids. -/
def rows (database : Database) (userId : Int) : (listing : Listing) → List listing.Shown
  | messages =>
      (database.messages.select fun row => row.userId = userId).reverse.map MessageRow.brief
  | channels =>
      (database.channels.select fun row => row.userId = userId).reverse.map Channel.withoutSecret
  | webhooks => (database.webhooks.select fun row => row.userId = userId).reverse

/-- The answer that shows rows. -/
def answer (listing : Listing) (shown : List listing.Shown) : Reply ReadData :=
  { success := true, data := some (listing.wrap shown) }

/-- The request for a page. -/
def request : Listing → String → ReadRequest
  | messages, p => .getUserMessages p
  | channels, p => .getAllChannels "" p
  | webhooks, p => .getAllWebhooks p

end Listing

/-- The ten rows of the page, fewer where the list ends. -/
def pageRows {α : Type} (rows : List α) (number : Nat) : List α := (rows.drop (10 * number)).take 10

section

variable (dialect : Dialect) (settings : Settings) (listing : Listing) (database : Database)
  (userId : Int)

/-- The answer to the request is the page. -/
def ServesPage (p : String) (number : Nat) : Prop :=
  handleRead dialect settings userId (listing.request p) database =
    listing.answer (pageRows (listing.rows database userId) number)

/-- The row of an index is in the answer. -/
def ServesRow (p : String) (index : Nat) : Prop :=
  ∃ shown row, handleRead dialect settings userId (listing.request p) database =
    listing.answer shown ∧ (listing.rows database userId)[index]? = some row ∧ row ∈ shown

end

/-- The product does not wrap around, or there are no rows where the wrapped one begins. -/
def PageFits (number count : Nat) : Prop :=
  10 * number < 2 ^ 63 ∨ count ≤ (mulInt64 number itemsPerPage).toNat

/-! ### Lists -/

section Lists

variable {α : Type} {rows : List α} {number : Nat}

theorem page_eq (rows : List α) (start num : Int) :
    page rows start num = (rows.drop start.toNat).take num.toNat := by
  unfold page
  split_ifs with positive
  · rfl
  · rw [Int.toNat_of_nonpos (Int.not_lt.mp positive), List.drop_zero]

/-- Different rows begin at different places. -/
theorem take_drop_eq_iff (distinct : rows.Nodup) {start other size : Nat} (before : start < other) :
    (rows.drop start).take (size + 1) = (rows.drop other).take (size + 1) ↔ rows.length ≤ start := by
  constructor
  · intro same
    by_contra inside
    have heads := congrArg List.head? same
    rw [List.head?_take, List.head?_take, if_neg (Nat.succ_ne_zero size), List.head?_drop,
      List.head?_drop] at heads
    exact Nat.ne_of_lt before ((List.getElem?_inj (Nat.lt_of_not_le inside) distinct).mp heads)
  · intro past
    rw [List.drop_eq_nil_of_le past, List.drop_eq_nil_of_le (Nat.le_trans past (Nat.le_of_lt before))]

/-- A row is on the page of the tens of its index. -/
theorem mem_pageRows_iff (distinct : rows.Nodup) {index : Nat} {row : α}
    (found : rows[index]? = some row) : row ∈ pageRows rows number ↔ number = index / 10 := by
  obtain ⟨inside, -⟩ := List.getElem?_eq_some_iff.mp found
  rw [pageRows, List.mem_iff_getElem?]
  constructor
  · rintro ⟨position, there⟩
    rw [List.getElem?_take, List.getElem?_drop] at there
    split_ifs at there with short
    have same : index = 10 * number + position :=
      (List.getElem?_inj inside distinct).mp (found.trans there.symm)
    omega
  · rintro rfl
    refine ⟨index % 10, ?_⟩
    rw [List.getElem?_take, if_pos (Nat.mod_lt _ (by decide)), List.getElem?_drop, Nat.div_add_mod]
    exact found

end Lists

/-! ### Products -/

theorem mulInt64_of_small {number : Nat} (small : 10 * number < 2 ^ 63) :
    mulInt64 number itemsPerPage = (10 * number : Nat) := by
  have low : -(((2 ^ 64 : Nat) : Int) / 2) ≤ (number : Int) * 10 := by omega
  have high : (number : Int) * 10 < (((2 ^ 64 : Nat) : Int) + 1) / 2 := by omega
  rw [mulInt64, itemsPerPage, Int.bmod_eq_of_le low high]
  omega

/-- A product that wraps around is smaller. -/
theorem mulInt64_lt {number : Nat} (large : 2 ^ 63 ≤ 10 * number) :
    (mulInt64 number itemsPerPage).toNat < 10 * number := by
  have bound : mulInt64 number itemsPerPage < (((2 ^ 64 : Nat) : Int) + 1) / 2 :=
    Int.bmod_lt (by decide)
  omega

theorem startIndex_eq {p : String} {number : Nat} (parsed : Text.parseInt p = ((number : Int), true)) :
    startIndex p = mulInt64 number itemsPerPage := by
  rw [startIndex, parsed]
  dsimp only
  rw [if_neg (by omega)]

/-! ### Answers -/

section Answers

variable {dialect : Dialect} {settings : Settings} {listing : Listing} {database : Database}
  {userId : Int}

theorem Listing.nodup_rows : (listing.rows database userId).Nodup := by
  cases listing with
  | messages =>
      refine List.Nodup.of_map Message.id ?_
      rw [Listing.rows, List.map_map, List.map_reverse, List.nodup_reverse]
      exact Table.select_ids_nodup database.messages _
  | channels =>
      refine List.Nodup.of_map Channel.id ?_
      rw [Listing.rows, List.map_map, List.map_reverse, List.nodup_reverse]
      exact Table.select_ids_nodup database.channels _
  | webhooks =>
      refine List.Nodup.of_map Webhook.id ?_
      rw [Listing.rows, List.map_reverse, List.nodup_reverse]
      exact Table.select_ids_nodup database.webhooks _

theorem Listing.answer_injective : Function.Injective listing.answer := by
  intro left right same
  have data := Option.some.inj (congrArg Reply.data same)
  cases listing with
  | messages => exact ReadData.messages.inj data
  | channels => exact ReadData.channels.inj data
  | webhooks => exact ReadData.webhooks.inj data

/-- Each of the handlers answers with the rows from the wrapped product on. -/
theorem handleRead_request (dialect : Dialect) (settings : Settings) (listing : Listing)
    (database : Database) (userId : Int) {p : String} {number : Nat}
    (parsed : Text.parseInt p = ((number : Int), true)) :
    handleRead dialect settings userId (listing.request p) database =
      listing.answer (((listing.rows database userId).drop
        (mulInt64 number itemsPerPage).toNat).take 10) := by
  have ten : itemsPerPage.toNat = 10 := rfl
  rw [← startIndex_eq parsed, ← ten, ← page_eq]
  cases listing with
  | messages => exact congrArg (Listing.answer .messages) (map_page MessageRow.brief _ _ _)
  | channels => exact congrArg (Listing.answer .channels) (map_page Channel.withoutSecret _ _ _)
  | webhooks => rfl

end Answers

/-- A page is served as such exactly if it fits, and then it has the rows whose tens are its number:
such pages share no row, and each row is on one of them. -/
theorem pages_partition_iff (dialect : Dialect) (settings : Settings) (listing : Listing)
    (database : Database) (userId : Int) (p : String) (number : Nat)
    (parsed : Text.parseInt p = ((number : Int), true)) :
    (ServesPage dialect settings listing database userId p number ↔
      PageFits number (listing.rows database userId).length) ∧
    (PageFits number (listing.rows database userId).length →
      ∀ index < (listing.rows database userId).length,
        ServesRow dialect settings listing database userId p index ↔ number = index / 10) := by
  have answered := handleRead_request dialect settings listing database userId parsed
  have distinct : (listing.rows database userId).Nodup := Listing.nodup_rows
  have served : ServesPage dialect settings listing database userId p number ↔
      PageFits number (listing.rows database userId).length := by
    rw [ServesPage, answered, Listing.answer_injective.eq_iff, pageRows, PageFits]
    by_cases small : 10 * number < 2 ^ 63
    · rw [mulInt64_of_small small, Int.toNat_natCast]
      exact iff_of_true rfl (.inl small)
    · rw [take_drop_eq_iff distinct (mulInt64_lt (Nat.le_of_not_lt small)), or_iff_right small]
  refine ⟨served, fun fits index inside => ?_⟩
  have found : (listing.rows database userId)[index]? = some _ := List.getElem?_eq_getElem inside
  rw [← @mem_pageRows_iff _ _ number distinct _ _ found]
  have page := served.mpr fits
  constructor
  · rintro ⟨shown, row, reply, there, member⟩
    obtain rfl := Option.some.inj (found.symm.trans there)
    rwa [Listing.answer_injective (page.symm.trans reply)]
  · exact fun member => ⟨_, _, page, found, member⟩

/-- Eleven webhooks of a user, and one of another user among them. -/
def twoPages : Database where
  users := .empty
  messages := .empty
  channels := .empty
  webhooks :=
    { rows :=
        [ { id := 1, userId := 7, link := "a" }, { id := 2, userId := 7, link := "b" },
          { id := 3, userId := 7, link := "c" }, { id := 4, userId := 7, link := "d" },
          { id := 5, userId := 7, link := "e" }, { id := 6, userId := 8, link := "f" },
          { id := 7, userId := 7, link := "g" }, { id := 8, userId := 7, link := "h" },
          { id := 9, userId := 7, link := "i" }, { id := 10, userId := 7, link := "j" },
          { id := 11, userId := 7, link := "k" }, { id := 12, userId := 7, link := "l" } ]
      counter := 12
      sorted := by decide
      unique := by decide
      counterNonneg := by decide
      bounded := by decide }

/-- The page 1 has the eleventh webhook of the user and not the tenth. -/
theorem pages_partition_iff_twoPages :
    ServesPage .sqlite {} .webhooks twoPages 7 "1" 1 ∧
      ServesRow .sqlite {} .webhooks twoPages 7 "1" 10 ∧
      ¬ ServesRow .sqlite {} .webhooks twoPages 7 "1" 9 := by
  have partition := pages_partition_iff .sqlite {} .webhooks twoPages 7 "1" 1 (by decide)
  have fits : PageFits 1 (Listing.webhooks.rows twoPages 7).length := .inl (by decide)
  refine ⟨partition.1.mpr fits, (partition.2 fits 10 (by decide)).mpr rfl, fun served => ?_⟩
  cases (partition.2 fits 9 (by decide)).mp served

/-! ### A user with one webhook -/

def onePage : Database where
  users := .empty
  messages := .empty
  channels := .empty
  webhooks :=
    { rows := [{ id := 1, userId := 7 }]
      counter := 1
      sorted := List.pairwise_singleton _ _
      unique := List.pairwise_singleton _ _
      counterNonneg := Int.one_nonneg
      bounded := by decide }

/-- The offset of a page far beyond the list wraps around to a negative one, which is left out. -/
theorem far_page_repeats_first : ¬ ∀ (dialect : Dialect) (settings : Settings) (listing : Listing)
    (database : Database) (userId : Int) (p : String) (number : Nat),
    Text.parseInt p = ((number : Int), true) →
      ServesPage dialect settings listing database userId p number := by
  intro claim
  have parsed : Text.parseInt "922337203685477581" = (((922337203685477581 : Nat) : Int), true) := by
    decide
  have served := claim .sqlite {} .webhooks onePage 7 "922337203685477581" _ parsed
  rw [ServesPage, handleRead_request _ _ _ _ _ parsed, Listing.answer_injective.eq_iff] at served
  have first : (mulInt64 ((922337203685477581 : Nat) : Int) itemsPerPage).toNat = 0 := by decide
  rw [first] at served
  have lengths := congrArg List.length served
  rw [pageRows, List.length_take, List.length_take, List.length_drop, List.length_drop] at lengths
  have one : (Listing.webhooks.rows onePage 7).length = 1 := by decide
  omega

end MessagePusher.Controller
