import MessagePusher.Controller.Pages
import MessagePusher.Controller.WebhookRows
import MessagePusher.Semantics.Transition
import MessagePusher.Web.Editors

/-!
# The tables of channels and webhooks

`web/src/components/ChannelsTable.jsx` and `WebhooksTable.jsx`, which differ in their rows and the
paths of their requests. A deleted row stays in the state of the page and is only marked, so the
next page is asked for by the number of rows with the deleted ones, while the list of the server has
become shorter.
-/

namespace MessagePusher.Web

open Common Model Store Controller Semantics

/-- The rows after an update of the row with a key, by its answer. -/
def rowsAfter {Row : Type} (id : Row → Int) (withStatus : Row → Row → Row) (key : Int)
    (answer : Option Row) (rows : List Row) : List Row :=
  match answer with
  | some answer => rows.map fun row => if id row = key then withStatus answer row else row
  | none => rows

/-- A list that is served in pages, and what a table page asks of it. -/
structure PagedList (State Row : Type) where
  id : Row → Int
  /-- The texts of the columns that can be sorted. -/
  columns : List (Row → String)
  /-- The row with the status of an answer. -/
  withStatus : Row → Row → Row
  /-- The numbers that reach the server as they are. -/
  Keeps : Int → Prop
  /-- The whole list, in the order of its pages. -/
  rows : State → List Row
  page : State → Nat → Option (List Row)
  search : State → String → Option (List Row)
  delete : State → Int → State × Bool
  setStatus : State → Int → Int → State × Option Row
  id_withStatus : ∀ answer row, id (withStatus answer row) = id row
  distinct : ∀ state, ((rows state).map id).Nodup
  page_eq : ∀ (state : State) (number : Nat), Keeps number → 10 * number < 2 ^ 63 →
    page state number = some (pageRows (rows state) number)
  delete_eq : ∀ state key, Keeps key →
    rows (delete state key).1 =
      if (delete state key).2 then (rows state).filter fun row => id row ≠ key else rows state
  setStatus_eq : ∀ state key status, Keeps key → Keeps status →
    rows (setStatus state key status).1 =
      rowsAfter id withStatus key (setStatus state key status).2 (rows state)

/-- A row of the page, with the mark of a deleted one. -/
structure Entry (Row : Type) where
  row : Row
  deleted : Bool := false

/-- The state of a table page. -/
structure TablePage (Row : Type) where
  entries : List (Entry Row) := []
  activePage : Nat := 1

section Functions

variable {Row : Type}

/-- `Math.ceil(length / ITEMS_PER_PAGE)`. -/
def fullPages (length : Nat) : Nat := (length + 9) / 10

/-- The number of pages that the pagination offers, with one more behind full ones. -/
def totalPages (length : Nat) : Nat := fullPages length + if length % 10 = 0 then 1 else 0

/-- The rows of a page that are not deleted. -/
def pagedEntries (activePage : Nat) (entries : List (Entry Row)) : List (Entry Row) :=
  ((entries.drop ((activePage - 1) * 10)).take 10).filter fun entry => !entry.deleted

/-- What `loadChannels` makes of the data of a successful answer. -/
def loadedEntries (startIdx : Nat) (data : List Row) (entries : List (Entry Row)) :
    List (Entry Row) :=
  if startIdx = 0 then data.map ({ row := · }) else entries ++ data.map ({ row := · })

/-- The entries with a change of the one that `findIndex` finds. -/
def changeFirst (found : Entry Row → Bool) (change : Entry Row → Entry Row) :
    List (Entry Row) → List (Entry Row)
  | [] => []
  | entry :: rest =>
      if found entry then change entry :: rest else entry :: changeFirst found change rest

/-- The list that `sortChannel` sets: sorted, or the other way round when its first row was in
front already. -/
def sortedEntries (id : Row → Int) (localeCompare : String → String → Int) (text : Row → String)
    (entries : List (Entry Row)) : List (Entry Row) :=
  let sorted := entries.mergeSort fun left right =>
    localeCompare (text left.row) (text right.row) ≤ 0
  if sorted.head?.map (id ·.row) = entries.head?.map (id ·.row) then sorted.reverse else sorted

/-- The rows that are not deleted. -/
def liveRows (entries : List (Entry Row)) : List Row :=
  (entries.filter fun entry => !entry.deleted).map Entry.row

/-- The rows that the pages show. -/
def shownRows (entries : List (Entry Row)) : List Row :=
  (List.range (totalPages entries.length)).flatMap fun index =>
    (pagedEntries (index + 1) entries).map Entry.row

end Functions

/-- The page and its server. -/
structure TableSite (State Row : Type) where
  server : State
  page : TablePage Row := {}

/-- What the user does on the page. -/
inductive TableLabel (Row : Type) where
  | reload
  | turnPage (page : Nat)
  | turnPageOnly (page : Nat)
  | delete (id : Int)
  | setStatus (id status : Int)
  | sort (text : Row → String)
  | search (keyword : String)

section System

variable {State Row : Type} (list : PagedList State Row) (localeCompare : String → String → Int)

/-- The row is on the page that is shown. -/
def TablePage.Shows (page : TablePage Row) (key : Int) : Prop :=
  ∃ entry ∈ pagedEntries page.activePage page.entries, list.id entry.row = key

/-- The page after `onPaginationChange`. -/
def TablePage.turn (page : TablePage Row) (number : Nat) (answer : Option (List Row)) :
    TablePage Row where
  entries :=
    if number = fullPages page.entries.length + 1 then
      match answer with
      | some data => loadedEntries (number - 1) data page.entries
      | none => page.entries
    else page.entries
  activePage := number

/-- What the page does with its server, one operation after the other. An array has less than
`2 ^ 32` entries. A request that fails changes nothing, except that the page is turned. -/
inductive TableStep (site : TableSite State Row) : TableLabel Row → TableSite State Row → Prop where
  | reload {data} (answered : list.page site.server 0 = some data) :
      TableStep site .reload
        { site with page := { entries := loadedEntries 0 data site.page.entries } }
  | turnPage {number} (offered : 1 ≤ number ∧ number ≤ totalPages site.page.entries.length)
      (fits : site.page.entries.length < 2 ^ 32) :
      TableStep site (.turnPage number)
        { site with page := site.page.turn number (list.page site.server (number - 1)) }
  | turnPageOnly {number} (offered : 1 ≤ number ∧ number ≤ totalPages site.page.entries.length) :
      TableStep site (.turnPageOnly number) { site with page := site.page.turn number none }
  | delete {key} (shows : site.page.Shows list key) :
      TableStep site (.delete key)
        { server := (list.delete site.server key).1
          page :=
            if (list.delete site.server key).2 then
              { site.page with
                entries := changeFirst (fun entry => list.id entry.row = key)
                  (fun entry => { entry with deleted := true }) site.page.entries }
            else site.page }
  | setStatus {key status} (shows : site.page.Shows list key) (switch : status = 1 ∨ status = 2) :
      TableStep site (.setStatus key status)
        { server := (list.setStatus site.server key status).1
          page :=
            match (list.setStatus site.server key status).2 with
            | some answer =>
                { site.page with
                  entries := changeFirst (fun entry => list.id entry.row = key)
                    (fun entry => { entry with row := list.withStatus answer entry.row })
                    site.page.entries }
            | none => site.page }
  | sort {text} (column : text ∈ list.columns) :
      TableStep site (.sort text)
        { site with
          page.entries := sortedEntries list.id localeCompare text site.page.entries }
  | search {keyword data} (filled : keyword ≠ "")
      (answered : list.search site.server keyword = some data) :
      TableStep site (.search keyword) { site with page := { entries := data.map ({ row := · }) } }

/-- The page is opened while nobody else writes the list. -/
def tablePages : System (TableSite State Row) (TableLabel Row) where
  Initial site := site.page = {} ∧ (∀ number : Nat, number < 2 ^ 32 → list.Keeps number) ∧
    ∀ row ∈ list.rows site.server, list.Keeps (list.id row)
  Step := TableStep list localeCompare

/-- What the pages show and what is still to be loaded is the whole list, each row once. -/
def Covers (site : TableSite State Row) : Prop :=
  (shownRows site.page.entries ++
    (list.rows site.server).drop site.page.entries.length).Perm (list.rows site.server)

/-- The condition on a step: a row is deleted after the whole list was loaded, and a search finds
the first rows of the list. -/
def Covering (site : TableSite State Row) : TableLabel Row → Prop
  | .delete key => (list.delete site.server key).2 = true →
      (list.rows site.server).length ≤ site.page.entries.length
  | .search keyword => ∀ data, list.search site.server keyword = some data →
      data.Perm ((list.rows site.server).take data.length)
  | _ => True

end System

/-! ### Entries -/

section Entries

variable {Row : Type} {entries : List (Entry Row)}

/-- Rows that were just loaded are not deleted. -/
theorem liveRows_fresh (data : List Row) : liveRows (data.map ({ row := · })) = data := by
  simp [liveRows, List.filter_map, Function.comp_def]

/-- The rows of pages in a row. -/
theorem liveRows_append (before after : List (Entry Row)) :
    liveRows (before ++ after) = liveRows before ++ liveRows after := by
  simp [liveRows]

/-- A row that is shown belongs to an entry that is not deleted. -/
theorem mem_liveRows {row : Row} :
    row ∈ liveRows entries ↔ ∃ entry ∈ entries, entry.deleted = false ∧ entry.row = row := by
  simp [liveRows, and_assoc]

/-- Pages in a row make up a front of the list. -/
theorem flatMap_slices {α : Type} (items : List α) (count : Nat) :
    ((List.range count).flatMap fun index => (items.drop (index * 10)).take 10) =
      items.take (count * 10) := by
  induction count with
  | zero => simp
  | succ count ih =>
      rw [List.range_succ, List.flatMap_append, ih, List.flatMap_singleton, Nat.succ_mul,
        List.take_add]

/-- Sorting keeps the entries. -/
theorem sortedEntries_perm (id : Row → Int) (localeCompare : String → String → Int)
    (text : Row → String) (entries : List (Entry Row)) :
    entries.Perm (sortedEntries id localeCompare text entries) := by
  unfold sortedEntries
  dsimp only
  split_ifs
  · exact ((List.reverse_perm _).trans (List.mergeSort_perm entries _)).symm
  · exact (List.mergeSort_perm entries _).symm

/-- The pages together show the rows that are not deleted, in their order. -/
theorem shownRows_eq (entries : List (Entry Row)) : shownRows entries = liveRows entries := by
  have enough : entries.length ≤ totalPages entries.length * 10 := by
    unfold totalPages fullPages
    omega
  unfold shownRows pagedEntries liveRows
  simp only [Nat.add_sub_cancel]
  rw [← List.map_flatMap, ← List.filter_flatMap, flatMap_slices, List.take_of_length_le enough]

/-- A change of an entry leaves the number of them. -/
theorem length_changeFirst (found : Entry Row → Bool) (change : Entry Row → Entry Row) :
    (changeFirst found change entries).length = entries.length := by
  induction entries with
  | nil => rfl
  | cons entry rest ih =>
      unfold changeFirst
      split_ifs
      · rfl
      · rw [List.length_cons, ih, List.length_cons]

/-- An entry is as before, or the one that was changed. -/
theorem mem_changeFirst {found : Entry Row → Bool} {change : Entry Row → Entry Row}
    {entry : Entry Row} (member : entry ∈ changeFirst found change entries) :
    entry ∈ entries ∨ ∃ old ∈ entries, found old = true ∧ entry = change old := by
  induction entries with
  | nil => cases member
  | cons head rest ih =>
      unfold changeFirst at member
      split_ifs at member with here
      · rcases List.mem_cons.mp member with rfl | later
        · exact .inr ⟨head, List.mem_cons_self, here, rfl⟩
        · exact .inl (List.mem_cons_of_mem _ later)
      · rcases List.mem_cons.mp member with rfl | later
        · exact .inl List.mem_cons_self
        · rcases ih later with old | ⟨old, there, accepted, rfl⟩
          · exact .inl (List.mem_cons_of_mem _ old)
          · exact .inr ⟨old, List.mem_cons_of_mem _ there, accepted, rfl⟩

section Keys

variable {id : Row → Int} {key : Int}

/-- A change of the first entry with a key, where the entries with it are not deleted and no two
live rows share it, is a change of the live row with that key. -/
theorem liveRows_changeFirst {change : Entry Row → Entry Row} (result : Row → Option Row)
    (unmarked : ∀ entry ∈ entries, entry.deleted = true → id entry.row ≠ key)
    (distinct : ((liveRows entries).map id).Nodup)
    (changes : ∀ row, liveRows [change { row }] = (result row).toList) :
    liveRows (changeFirst (fun entry => id entry.row = key) change entries) =
      (liveRows entries).filterMap fun row => if id row = key then result row else some row := by
  induction entries with
  | nil => rfl
  | cons entry rest ih =>
      have later := fun other there => unmarked other (List.mem_cons_of_mem _ there)
      have split : liveRows (entry :: rest) = liveRows [entry] ++ liveRows rest :=
        liveRows_append [entry] rest
      rw [split] at distinct ⊢
      have tail : ((liveRows rest).map id).Nodup := by
        rw [List.map_append] at distinct
        exact (List.nodup_append.mp distinct).2.1
      unfold changeFirst
      by_cases here : id entry.row = key
      · obtain ⟨row, deleted⟩ := entry
        obtain rfl : deleted = false := by
          by_contra marked
          exact unmarked _ List.mem_cons_self (by simpa using marked) here
        have alone : liveRows [({ row } : Entry Row)] = [row] := rfl
        rw [alone] at distinct ⊢
        have apart : ∀ other ∈ liveRows rest, id other ≠ key := by
          intro other member same
          rw [List.map_append, List.nodup_append] at distinct
          exact distinct.2.2 _ (List.mem_singleton_self _) _ (List.mem_map_of_mem member)
            (here.trans same.symm)
        have unchanged : (liveRows rest).filterMap
            (fun row => if id row = key then result row else some row) = liveRows rest := by
          rw [List.filterMap_congr (g := some) fun other member => if_neg (apart other member),
            List.filterMap_some]
        have named : id row = key := here
        have first : [row].filterMap (fun row => if id row = key then result row else some row) =
            (result row).toList := by
          cases found : result row <;> simp [named, found]
        rw [if_pos (by simpa using here), List.filterMap_append, unchanged, first,
          ← List.singleton_append, liveRows_append, changes]
      · rw [if_neg (by simpa using here), ← List.singleton_append, liveRows_append,
          ih later tail, List.filterMap_append]
        congr 1
        rw [List.filterMap_congr (g := some), List.filterMap_some]
        intro row member
        obtain ⟨other, only, -, rfl⟩ := mem_liveRows.mp member
        rw [List.mem_singleton.mp only, if_neg here]

end Keys

end Entries

/-! ### Steps -/

section Steps

variable {State Row : Type} {list : PagedList State Row} {localeCompare : String → String → Int}
  {site next : TableSite State Row} {label : TableLabel Row}

/-- The numbers are kept, and what is marked as deleted is not on the server. -/
structure Tidy (list : PagedList State Row) (site : TableSite State Row) : Prop where
  numbers : ∀ number : Nat, number < 2 ^ 32 → list.Keeps number
  ids : ∀ row ∈ list.rows site.server, list.Keeps (list.id row)
  gone : ∀ entry ∈ site.page.entries, entry.deleted = true →
    ∀ row ∈ list.rows site.server, list.id row ≠ list.id entry.row

/-- The page covers the list when its rows and the rest of the list make it up. -/
theorem covers_iff : Covers list site ↔
    (liveRows site.page.entries ++
      (list.rows site.server).drop site.page.entries.length).Perm (list.rows site.server) := by
  rw [Covers, shownRows_eq]

/-- Fresh entries are covered exactly when they are the first rows of the list. -/
theorem covers_fresh_iff {server : State} {data : List Row} {activePage : Nat} :
    Covers list { server, page := { entries := data.map ({ row := · }), activePage } } ↔
      data.Perm ((list.rows server).take data.length) := by
  rw [covers_iff, liveRows_fresh]
  dsimp only
  rw [List.length_map]
  have split := List.take_append_drop data.length (list.rows server)
  constructor
  · intro covers
    rw [← List.perm_append_right_iff ((list.rows server).drop data.length), split]
    exact covers
  · intro first
    have both := first.append_right ((list.rows server).drop data.length)
    rwa [split] at both

/-- A row of the active page is live. -/
theorem TablePage.Shows.live {key : Int} (shows : site.page.Shows list key) :
    ∃ row ∈ liveRows site.page.entries, list.id row = key := by
  obtain ⟨entry, paged, rfl⟩ := shows
  obtain ⟨sliced, kept⟩ := List.mem_filter.mp paged
  have member : entry ∈ site.page.entries := List.mem_of_mem_drop (List.mem_of_mem_take sliced)
  exact ⟨entry.row, mem_liveRows.mpr ⟨entry, member, by simpa using kept, rfl⟩, rfl⟩

namespace Covers

variable (covers : Covers list site)

include covers

/-- The rows that are shown are rows of the server. -/
theorem live_mem {row : Row} (live : row ∈ liveRows site.page.entries) :
    row ∈ list.rows site.server :=
  (covers_iff.mp covers).subset (List.mem_append_left _ live)

/-- No row is shown twice. -/
theorem live_distinct : ((liveRows site.page.entries).map list.id).Nodup := by
  have all := ((covers_iff.mp covers).map list.id).nodup_iff.mpr (list.distinct site.server)
  rw [List.map_append] at all
  exact (List.nodup_append.mp all).1

/-- No deleted row has the id of a row that is shown. -/
theorem unmarked (tidy : Tidy list site) {key : Int} (shows : site.page.Shows list key) :
    ∀ entry ∈ site.page.entries, entry.deleted = true → list.id entry.row ≠ key := by
  obtain ⟨row, live, rfl⟩ := shows.live
  exact fun entry member marked same => tidy.gone entry member marked row (covers.live_mem live)
    same.symm

/-- The id of a row that is shown goes through the browser. -/
theorem keeps (tidy : Tidy list site) {key : Int} (shows : site.page.Shows list key) :
    list.Keeps key := by
  obtain ⟨row, live, rfl⟩ := shows.live
  exact tidy.ids row (covers.live_mem live)

/-- Entries in another order. -/
theorem perm {page : TablePage Row} (same : site.page.entries.Perm page.entries) :
    Covers list { site with page } := by
  rw [covers_iff] at covers ⊢
  refine (List.Perm.append ((same.symm.filter _).map _) ?_).trans covers
  rw [same.length_eq]

/-- The next page is appended. -/
theorem load {data : List Row} {activePage : Nat}
    (next : data = ((list.rows site.server).drop site.page.entries.length).take 10) :
    Covers list
      { site with page := { entries := site.page.entries ++ data.map ({ row := · }), activePage } } := by
  rw [covers_iff] at covers ⊢
  have first : data <+: (list.rows site.server).drop site.page.entries.length := by
    rw [next]
    exact List.take_prefix ..
  rw [liveRows_append, liveRows_fresh]
  dsimp only
  rw [List.length_append, List.length_map, ← List.drop_drop, List.append_assoc,
    List.prefix_iff_eq_append.mp first]
  exact covers

end Covers

/-- Of rows with distinct ids one is left out. -/
theorem length_filter_id {id : Row → Int} {key : Int} {rows : List Row}
    (distinct : (rows.map id).Nodup) (member : ∃ row ∈ rows, id row = key) :
    (rows.filter fun row => id row ≠ key).length + 1 = rows.length := by
  obtain ⟨row, there, rfl⟩ := member
  have once := List.count_eq_one_of_mem distinct (List.mem_map_of_mem there)
  rw [List.count, List.countP_map] at once
  have both := List.length_eq_countP_add_countP ((· == id row) ∘ id) (l := rows)
  have others : (rows.filter fun other => id other ≠ id row).length =
      rows.countP fun other => decide ¬((· == id row) ∘ id) other = true := by
    rw [List.countP_eq_length_filter]
    simp
  omega

/-- The deletion of a row that is shown is covered exactly when the whole list was loaded. -/
theorem covers_delete_iff (tidy : Tidy list site) (covers : Covers list site) {key : Int}
    (shows : site.page.Shows list key) (removed : (list.delete site.server key).2 = true) :
    Covers list
        { server := (list.delete site.server key).1
          page :=
            { site.page with
              entries := changeFirst (fun entry => list.id entry.row = key)
                (fun entry => { entry with deleted := true }) site.page.entries } } ↔
      (list.rows site.server).length ≤ site.page.entries.length := by
  have left : liveRows (changeFirst (fun entry => list.id entry.row = key)
      (fun entry => { entry with deleted := true }) site.page.entries) =
        (liveRows site.page.entries).filter fun row => list.id row ≠ key := by
    rw [liveRows_changeFirst (fun _ => none) (covers.unmarked tidy shows) covers.live_distinct
      fun _ => rfl, ← List.filterMap_eq_filter]
    refine List.filterMap_congr fun row _ => ?_
    by_cases same : list.id row = key <;> simp [Option.guard, same]
  have kept := covers.keeps tidy shows
  obtain ⟨row, live, same⟩ := shows.live
  have fewerLive := length_filter_id covers.live_distinct ⟨row, live, same⟩
  have fewer := length_filter_id (list.distinct site.server) ⟨row, covers.live_mem live, same⟩
  rw [covers_iff] at covers ⊢
  dsimp only
  rw [left, length_changeFirst, list.delete_eq site.server key kept, if_pos removed]
  have before := covers.length_eq
  rw [List.length_append, List.length_drop] at before
  constructor
  · intro after
    have counted := after.length_eq
    rw [List.length_append, List.length_drop] at counted
    omega
  · intro loaded
    have nothing : (list.rows site.server).drop site.page.entries.length = [] :=
      List.drop_eq_nil_of_le loaded
    rw [nothing, List.append_nil] at covers
    rw [List.drop_eq_nil_of_le (by omega), List.append_nil]
    exact covers.filter _

/-- A status is changed on both sides. -/
theorem Covers.setStatus (covers : Covers list site) (tidy : Tidy list site) {key status : Int}
    {answer : Row} (shows : site.page.Shows list key) (kept : list.Keeps status)
    (updated : (list.setStatus site.server key status).2 = some answer) :
    Covers list
      { server := (list.setStatus site.server key status).1
        page :=
          { site.page with
            entries := changeFirst (fun entry => list.id entry.row = key)
              (fun entry => { entry with row := list.withStatus answer entry.row })
              site.page.entries } } := by
  have left : liveRows (changeFirst (fun entry => list.id entry.row = key)
      (fun entry => { entry with row := list.withStatus answer entry.row }) site.page.entries) =
        (liveRows site.page.entries).map fun row =>
          if list.id row = key then list.withStatus answer row else row := by
    rw [liveRows_changeFirst (fun row => some (list.withStatus answer row))
      (covers.unmarked tidy shows) covers.live_distinct fun _ => rfl, ← List.filterMap_eq_map]
    refine List.filterMap_congr fun row _ => ?_
    simp only [Function.comp_apply]
    split_ifs <;> rfl
  have right := list.setStatus_eq site.server key status (covers.keeps tidy shows) kept
  rw [updated] at right
  rw [covers_iff] at covers ⊢
  dsimp only [rowsAfter] at right ⊢
  rw [left, length_changeFirst, right, ← List.map_drop, ← List.map_append]
  exact covers.map _

/-- Entries that are new, and marks of what the server has dropped. -/
theorem Tidy.kept (tidy : Tidy list site)
    (ids : ∀ row ∈ list.rows next.server, ∃ old ∈ list.rows site.server, list.id old = list.id row)
    (gone : ∀ entry ∈ next.page.entries, entry.deleted = true →
      (∃ old ∈ site.page.entries, old.deleted = true ∧ list.id old.row = list.id entry.row) ∨
        ∀ row ∈ list.rows next.server, list.id row ≠ list.id entry.row) : Tidy list next where
  numbers := tidy.numbers
  ids row member := by
    obtain ⟨old, there, same⟩ := ids row member
    rw [← same]
    exact tidy.ids old there
  gone entry member marked row there := by
    rcases gone entry member marked with ⟨old, present, deleted, same⟩ | absent
    · obtain ⟨before, listed, number⟩ := ids row there
      rw [← same, ← number]
      exact tidy.gone old present deleted before listed
    · exact absent row there

/-- The next page is loaded where the list has gone on. -/
theorem Covers.turn (covers : Covers list site) (tidy : Tidy list site) {number : Nat}
    (offered : 1 ≤ number ∧ number ≤ totalPages site.page.entries.length)
    (fits : site.page.entries.length < 2 ^ 32) :
    Covers list { site with page := site.page.turn number (list.page site.server (number - 1)) } := by
  unfold TablePage.turn
  by_cases last : number = fullPages site.page.entries.length + 1
  · -- The page behind the last full one is offered where the last page is full.
    have full : site.page.entries.length = 10 * (number - 1) := by
      unfold totalPages at offered
      unfold fullPages at last offered
      split_ifs at offered <;> omega
    have answered := list.page_eq site.server (number - 1) (tidy.numbers _ (by omega)) (by omega)
    rw [if_pos last, answered]
    have appended : loadedEntries (number - 1) (pageRows (list.rows site.server) (number - 1))
        site.page.entries = site.page.entries ++
          (pageRows (list.rows site.server) (number - 1)).map ({ row := · }) := by
      unfold loadedEntries
      split_ifs with first
      · rw [List.length_eq_zero_iff.mp (full.trans (by rw [first])), List.nil_append]
      · rfl
    dsimp only
    rw [appended]
    exact covers.load (by rw [pageRows, full])
  · rw [if_neg last]
    exact covers.perm (.refl _)

/-- What a turn loads is not deleted. -/
theorem TablePage.mem_turn {page : TablePage Row} {number : Nat} {answer : Option (List Row)}
    {entry : Entry Row} (member : entry ∈ (page.turn number answer).entries) :
    entry ∈ page.entries ∨ entry.deleted = false := by
  have fresh : ∀ data : List Row, entry ∈ data.map ({ row := · }) → entry.deleted = false := by
    intro data listed
    obtain ⟨row, -, rfl⟩ := List.mem_map.mp listed
    rfl
  unfold TablePage.turn at member
  dsimp only at member
  split_ifs at member
  · cases answer with
    | none => exact .inl member
    | some data =>
        dsimp only [loadedEntries] at member
        split_ifs at member
        · exact .inr (fresh data member)
        · exact (List.mem_append.mp member).imp_right (fresh data)
  · exact .inl member

/-- Where only fresh entries come in, nothing more is marked. -/
theorem Tidy.entries (tidy : Tidy list site) {page : TablePage Row}
    (old : ∀ entry ∈ page.entries, entry ∈ site.page.entries ∨ entry.deleted = false) :
    Tidy list { site with page } :=
  tidy.kept (fun row member => ⟨row, member, rfl⟩) fun entry member marked => by
    rcases old entry member with there | fresh
    · exact .inl ⟨entry, there, marked, rfl⟩
    · rw [fresh] at marked
      cases marked

/-- A page that was just loaded is tidy. -/
theorem Tidy.fresh (tidy : Tidy list site) (data : List Row) :
    Tidy list { site with page := { entries := data.map ({ row := · }) } } :=
  tidy.entries fun entry member => by
    obtain ⟨row, -, rfl⟩ := List.mem_map.mp member
    exact .inr rfl

/-- A deletion leaves the page tidy. -/
theorem Tidy.delete (tidy : Tidy list site) {key : Int} (kept : list.Keeps key)
    (removed : (list.delete site.server key).2 = true) :
    Tidy list
      { server := (list.delete site.server key).1
        page :=
          { site.page with
            entries := changeFirst (fun entry => list.id entry.row = key)
              (fun entry => { entry with deleted := true }) site.page.entries } } := by
  have rows := list.delete_eq site.server key kept
  rw [if_pos removed] at rows
  refine tidy.kept (fun row member => ⟨row, ?_, rfl⟩) fun entry member marked => ?_
  · rw [rows] at member
    exact (List.mem_filter.mp member).1
  · rcases mem_changeFirst member with old | ⟨old, -, found, rfl⟩
    · exact .inl ⟨entry, old, marked, rfl⟩
    · refine .inr fun row there same => ?_
      rw [rows] at there
      have apart := of_decide_eq_true (List.mem_filter.mp there).2
      exact apart (same.trans (of_decide_eq_true found))

/-- A change of a status leaves the page tidy. -/
theorem Tidy.setStatus (tidy : Tidy list site) {key status : Int} {answer : Row}
    (kept : list.Keeps key) (number : list.Keeps status)
    (updated : (list.setStatus site.server key status).2 = some answer) :
    Tidy list
      { server := (list.setStatus site.server key status).1
        page :=
          { site.page with
            entries := changeFirst (fun entry => list.id entry.row = key)
              (fun entry => { entry with row := list.withStatus answer entry.row })
              site.page.entries } } := by
  have rows := list.setStatus_eq site.server key status kept number
  rw [updated] at rows
  dsimp only [rowsAfter] at rows
  refine tidy.kept (fun row member => ?_) fun entry member marked => .inl ?_
  · rw [rows] at member
    obtain ⟨old, there, rfl⟩ := List.mem_map.mp member
    refine ⟨old, there, ?_⟩
    split_ifs
    · exact (list.id_withStatus answer old).symm
    · rfl
  · rcases mem_changeFirst member with old | ⟨old, there, -, rfl⟩
    · exact ⟨entry, old, marked, rfl⟩
    · exact ⟨old, there, marked, (list.id_withStatus answer old.row).symm⟩

/-- One step: what is covered stays so exactly if the step allows it, and what is marked is gone. -/
theorem Covers.step_iff (covers : Covers list site) (tidy : Tidy list site)
    (step : TableStep list localeCompare site label next) :
    (Covers list next ↔ Covering list site label) ∧ Tidy list next := by
  cases step with
  | @reload data answered =>
      have zero : list.page site.server 0 = some (pageRows (list.rows site.server) 0) :=
        list.page_eq site.server 0 (tidy.numbers 0 (by decide)) (by decide)
      have first : data <+: list.rows site.server := by
        rw [← Option.some.inj (zero.symm.trans answered)]
        exact List.take_prefix ..
      refine ⟨iff_of_true (covers_fresh_iff.mpr ?_) trivial, tidy.fresh data⟩
      rw [← List.prefix_iff_eq_take.mp first]
  | @turnPage number offered fits =>
      exact ⟨iff_of_true (covers.turn tidy offered fits) trivial,
        tidy.entries fun _ => TablePage.mem_turn⟩
  | @turnPageOnly number offered =>
      have same : (site.page.turn number none).entries = site.page.entries := by
        unfold TablePage.turn
        exact ite_self _
      refine ⟨iff_of_true (covers.perm ?_) trivial, tidy.entries fun _ => TablePage.mem_turn⟩
      rw [same]
  | @delete key shows =>
      cases removed : (list.delete site.server key).2 with
      | true =>
          refine ⟨(covers_delete_iff tidy covers shows removed).trans ?_,
            tidy.delete (covers.keeps tidy shows) removed⟩
          exact ⟨fun loaded _ => loaded, fun allowed => allowed removed⟩
      | false =>
          have rows := list.delete_eq site.server key (covers.keeps tidy shows)
          rw [removed, if_neg Bool.false_ne_true] at rows
          have failed : Covering list site (.delete key) := fun succeeded =>
            absurd (removed.symm.trans succeeded) Bool.false_ne_true
          refine ⟨iff_of_true ?_ failed, ?_⟩
          · rw [covers_iff] at covers ⊢
            dsimp only
            rw [rows]
            exact covers
          · refine tidy.kept (fun row member => ⟨row, ?_, rfl⟩) fun entry member marked =>
              .inl ⟨entry, member, marked, rfl⟩
            rwa [rows] at member
  | @setStatus key status shows switch =>
      have number : list.Keeps status := by
        rcases switch with rfl | rfl
        · exact tidy.numbers 1 (by decide)
        · exact tidy.numbers 2 (by decide)
      cases updated : (list.setStatus site.server key status).2 with
      | some answer =>
          exact ⟨iff_of_true (covers.setStatus tidy shows number updated) trivial,
            tidy.setStatus (covers.keeps tidy shows) number updated⟩
      | none =>
          have rows := list.setStatus_eq site.server key status (covers.keeps tidy shows) number
          rw [updated] at rows
          dsimp only [rowsAfter] at rows ⊢
          refine ⟨iff_of_true ?_ trivial, ?_⟩
          · rw [covers_iff] at covers ⊢
            dsimp only
            rw [rows]
            exact covers
          · refine tidy.kept (fun row member => ⟨row, ?_, rfl⟩) fun entry member marked =>
              .inl ⟨entry, member, marked, rfl⟩
            rwa [rows] at member
  | @sort text column =>
      have order := sortedEntries_perm list.id localeCompare text site.page.entries
      exact ⟨iff_of_true (covers.perm order) trivial,
        tidy.entries fun entry member => .inl (order.mem_iff.mpr member)⟩
  | @search keyword data filled answered =>
      refine ⟨covers_fresh_iff.trans ⟨fun first other same => ?_, fun allowed => ?_⟩,
        tidy.fresh data⟩
      · rwa [← Option.some.inj (answered.symm.trans same)]
      · exact allowed data answered

/-- In every run that meets the condition, and after one more step exactly if that meets it too. -/
theorem covers_of_reachable
    (reachable : ((tablePages list localeCompare).guard (Covering list)).Reachable site) :
    Covers list site ∧ Tidy list site := by
  have starts : ∀ {site}, ((tablePages list localeCompare).guard (Covering list)).Initial site →
      Covers list site ∧ Tidy list site := by
    rintro ⟨server, page⟩ ⟨rfl, numbers, ids⟩
    refine ⟨covers_iff.mpr ?_, numbers, ids, fun entry member => absurd member List.not_mem_nil⟩
    exact .refl _
  have keeps : ∀ {site label after}, Covers list site ∧ Tidy list site →
      ((tablePages list localeCompare).guard (Covering list)).Step site label after →
      Covers list after ∧ Tidy list after := by
    rintro site label after ⟨covers, tidy⟩ ⟨allowed, step⟩
    obtain ⟨exact_, tidyNext⟩ := covers.step_iff tidy step
    exact ⟨exact_.mpr allowed, tidyNext⟩
  exact reachable.invariant starts keeps

end Steps

/-! ### Channels and webhooks -/

/-- The data of a change of the status. -/
def statusBody (browser : Browser) (key status : Int) : Json :=
  .object
    [ ("id", .number (browser.numberText key)), ("status", .number (browser.numberText status)) ]

section Tables

variable (browser : Browser) (dialect : Dialect) (settings : Settings) (userId : Int)

/-- `GET /api/channel/?p=…` as the page reads it. -/
def channelPage (database : Database) (number : Nat) : Option (List Channel) :=
  match (getAllChannels database.channels userId "" (browser.numberText number)).data with
  | some (.channels rows) => some rows
  | _ => none

/-- `GET /api/channel/search?keyword=…`. -/
def channelSearch (database : Database) (keyword : String) : Option (List Channel) :=
  match (searchChannelsReply dialect database.channels userId keyword).data with
  | some (.channels rows) => some rows
  | _ => none

/-- `DELETE /api/channel/…/`. -/
def channelDelete (database : Database) (key : Int) : Database × Bool :=
  let done := deleteChannel userId (browser.numberText key) database.channels
  ({ database with channels := done.channels }, done.reply.success)

/-- `PUT /api/channel/?status_only=true`. -/
def channelStatus (env : ChannelEnvironment) (database : Database) (key status : Int) :
    Database × Option Channel :=
  let done := updateChannel env userId "true" (some (statusBody browser key status))
    database.channels
  ({ database with channels := done.channels }, if done.reply.success then done.reply.data else none)

/-- The webhooks of a page as the server answers them. -/
def webhookPage (database : Database) (number : Nat) : Option (List Webhook) :=
  match (getAllWebhooks database.webhooks userId (browser.numberText number)).data with
  | some (.webhooks rows) => some rows
  | _ => none

/-- The webhooks that the server finds. -/
def webhookSearch (database : Database) (keyword : String) : Option (List Webhook) :=
  match (searchWebhooksReply dialect settings database.webhooks userId keyword).data with
  | some (.webhooks rows) => some rows
  | _ => none

/-- A request to delete a webhook. -/
def webhookDelete (database : Database) (key : Int) : Database × Bool :=
  let done := deleteWebhook userId (browser.numberText key) database.webhooks
  ({ database with webhooks := done.webhooks }, done.reply.success)

/-- A request to change the status of a webhook. -/
def webhookStatus (env : WebhookEnvironment) (database : Database) (key status : Int) :
    Database × Option Webhook :=
  let done := updateWebhook env userId "true" (some (statusBody browser key status))
    database.webhooks
  ({ database with webhooks := done.webhooks }, if done.reply.success then done.reply.data else none)

variable {browser} {userId : Int}

/-- The list of channels has each id once. -/
theorem channelRows_distinct (database : Database) (userId : Int) :
    ((Listing.rows database userId .channels).map Channel.id).Nodup := by
  rw [Listing.rows, List.map_map, List.map_reverse, List.nodup_reverse]
  exact Table.select_ids_nodup database.channels _

/-- The list of webhooks has each id once. -/
theorem webhookRows_distinct (database : Database) (userId : Int) :
    ((Listing.rows database userId .webhooks).map Webhook.id).Nodup := by
  rw [Listing.rows, List.map_reverse, List.nodup_reverse]
  exact Table.select_ids_nodup database.webhooks _

/-- The server reads the id and the status that the page has sent. -/
theorem decodeInto_statusBody_channel {key status : Int} (keeps : browser.Keeps key)
    (number : browser.Keeps status) :
    Json.decodeInto Channel.jsonFields (some (statusBody browser key status)) {} =
      some { id := key, status } := by
  unfold Browser.Keeps at keeps number
  simp [statusBody, Json.decodeInto, Json.decodeMember, Json.fieldFor, Channel.jsonFields,
    Json.stringField, Json.intField, Json.optionalStringField, keeps, number]

/-- The same for a webhook. -/
theorem decodeInto_statusBody_webhook {key status : Int} (keeps : browser.Keeps key)
    (number : browser.Keeps status) :
    Json.decodeInto Webhook.jsonFields (some (statusBody browser key status)) {} =
      some { id := key, status } := by
  unfold Browser.Keeps at keeps number
  simp [statusBody, Json.decodeInto, Json.decodeMember, Json.fieldFor, Webhook.jsonFields,
    Json.stringField, Json.intField, Json.boolField, keeps, number]

/-- A page of channels is that part of the list. -/
theorem channelPage_eq (database : Database) {number : Nat} (keeps : browser.Keeps number)
    (fits : 10 * number < 2 ^ 63) :
    channelPage browser userId database number =
      some (pageRows (Listing.rows database userId .channels) number) := by
  have answered := handleRead_request .sqlite {} .channels database userId keeps
  rw [mulInt64_of_small fits, Int.toNat_natCast] at answered
  have same : getAllChannels database.channels userId "" (browser.numberText number) = _ := answered
  rw [channelPage, same]
  rfl

/-- A page of webhooks is that part of the list. -/
theorem webhookPage_eq (database : Database) {number : Nat} (keeps : browser.Keeps number)
    (fits : 10 * number < 2 ^ 63) :
    webhookPage browser userId database number =
      some (pageRows (Listing.rows database userId .webhooks) number) := by
  have answered := handleRead_request .sqlite {} .webhooks database userId keeps
  rw [mulInt64_of_small fits, Int.toNat_natCast] at answered
  have same : getAllWebhooks database.webhooks userId (browser.numberText number) = _ := answered
  rw [webhookPage, same]
  rfl

/-- A deletion takes its channel off the list, and only if it succeeds. -/
theorem channelDelete_eq (database : Database) {key : Int} (keeps : browser.Keeps key) :
    Listing.rows (channelDelete browser userId database key).1 userId .channels =
      if (channelDelete browser userId database key).2 then
        (Listing.rows database userId .channels).filter fun row => row.id ≠ key
      else Listing.rows database userId .channels := by
  have number : (Text.parseInt (browser.numberText key)).1 = key := congrArg Prod.fst keeps
  unfold channelDelete deleteChannel deleteChannelById
  rw [number]
  by_cases blank : key = 0 ∨ userId = 0
  · rw [if_pos blank]
    rfl
  · rw [if_neg blank]
    cases found : database.channels.first (fun row => row.id = key ∧ row.userId = userId) with
    | none => rfl
    | some row =>
        have accepted : row.id = key ∧ row.userId = userId := by
          simpa using Table.first_accepts found
        dsimp only [Listing.rows]
        rw [if_pos rfl, accepted.1, Table.select_delete, ← List.filter_reverse, List.filter_map]
        rfl

/-- A deletion takes its webhook off the list, and only if it succeeds. -/
theorem webhookDelete_eq (database : Database) {key : Int} (keeps : browser.Keeps key) :
    Listing.rows (webhookDelete browser userId database key).1 userId .webhooks =
      if (webhookDelete browser userId database key).2 then
        (Listing.rows database userId .webhooks).filter fun row => row.id ≠ key
      else Listing.rows database userId .webhooks := by
  have number : (Text.parseInt (browser.numberText key)).1 = key := congrArg Prod.fst keeps
  unfold webhookDelete deleteWebhook deleteWebhookById
  rw [number]
  by_cases blank : key = 0 ∨ userId = 0
  · rw [if_pos blank]
    rfl
  · rw [if_neg blank]
    cases found : database.webhooks.first (fun row => row.id = key ∧ row.userId = userId) with
    | none => rfl
    | some row =>
        have accepted : row.id = key ∧ row.userId = userId := by
          simpa using Table.first_accepts found
        dsimp only [Listing.rows]
        rw [if_pos rfl, accepted.1, Table.select_delete, ← List.filter_reverse]
        rfl

/-- A row that is written over its old self, in the order of the list. -/
theorem rows_rewritten {ρ Row : Type} [Record ρ] {before after : Table ρ} {key : Int} {old new : ρ}
    (accepts : ρ → Bool) (view : ρ → Row) (id : Row → Int) (change : Row → Row)
    (writes : before.Rewrites after key (some new)) (found : before.rowAt key = some old)
    (same : accepts new = accepts old) (keyed : ∀ row, id (view row) = Record.id row)
    (changed : view new = change (view old)) :
    (after.select accepts).reverse.map view =
      ((before.select accepts).reverse.map view).map fun row =>
        if id row = key then change row else row := by
  rw [writes.select_eq found same, ← List.map_reverse, List.map_map, List.map_map]
  refine List.map_congr_left fun row member => ?_
  have there : row ∈ before.rows := (Table.mem_select.mp (List.mem_reverse.mp member)).1
  simp only [Function.comp_apply, keyed]
  split_ifs with here
  · rw [before.eq_of_id_eq there (Table.rowAt_mem found) (here.trans (Table.rowAt_id found).symm),
      changed]
  · rfl

/-- A change of the status changes that of its channel in the list. -/
theorem channelStatus_eq (env : ChannelEnvironment) (database : Database) {key status : Int}
    (keeps : browser.Keeps key) (number : browser.Keeps status) :
    Listing.rows (channelStatus browser userId env database key status).1 userId .channels =
      rowsAfter Channel.id (fun answer row => { row with status := answer.status }) key
        (channelStatus browser userId env database key status).2
        (Listing.rows database userId .channels) := by
  cases admitted : admitUpdateChannel env userId "true" (some (statusBody browser key status))
      database.channels with
  | error text =>
      have refused : updateChannel env userId "true" (some (statusBody browser key status))
          database.channels = refuseChannel database.channels text := by
        rw [updateChannel, admitted]
      unfold channelStatus
      rw [refused]
      rfl
  | ok pair =>
      obtain ⟨row, oldRow⟩ := pair
      obtain ⟨channel, decoded, loaded, change⟩ := admitUpdateChannel_cases admitted
      obtain rfl := Option.some.inj ((decodeInto_statusBody_channel keeps number).symm.trans decoded)
      obtain rfl : oldRow.id = key := getChannelById_id loaded
      obtain ⟨-, found, -⟩ := getChannelById_ok loaded
      have writes := updateChannel_writes admitted
      have answered := updateChannel_reply admitted
      rcases change with ⟨-, rfl⟩ | ⟨blank, -⟩
      · unfold channelStatus
        dsimp only
        rw [answered]
        have kept : ∀ changed : Channel, (Channel.keepChangedParts changed oldRow).status =
            changed.status := by
          intro changed
          unfold Channel.keepChangedParts
          split_ifs <;> rfl
        simp only [if_true]
        dsimp only [Listing.rows, rowsAfter]
        simp only [kept]
        exact rows_rewritten (fun row => row.userId = userId) Channel.withoutSecret Channel.id
          (fun row => { row with status }) writes found rfl (fun _ => rfl) rfl
      · exact absurd blank (by decide)

/-- A change of the status changes that of its webhook in the list. -/
theorem webhookStatus_eq (env : WebhookEnvironment) (database : Database) {key status : Int}
    (keeps : browser.Keeps key) (number : browser.Keeps status) :
    Listing.rows (webhookStatus browser userId env database key status).1 userId .webhooks =
      rowsAfter Webhook.id (fun answer row => { row with status := answer.status }) key
        (webhookStatus browser userId env database key status).2
        (Listing.rows database userId .webhooks) := by
  have decoded := decodeInto_statusBody_webhook keeps number
  cases loaded : getWebhookById database.webhooks key userId with
  | error text =>
      have refused : updateWebhook env userId "true" (some (statusBody browser key status))
          database.webhooks = refuseWebhook database.webhooks text := by
        rw [updateWebhook, decoded]
        dsimp only
        rw [loaded]
      unfold webhookStatus
      rw [refused]
      rfl
  | ok oldWebhook =>
      obtain rfl : oldWebhook.id = key := getWebhookById_id loaded
      obtain ⟨set, found, -⟩ := getWebhookById_ok loaded
      have clean : cleanWebhook "true" { id := oldWebhook.id, status } oldWebhook =
          { oldWebhook with status } := if_pos (by decide)
      obtain ⟨next, accepted, writes⟩ :=
        @Webhook.update_rewrites _ { oldWebhook with status } oldWebhook set found rfl
      have answered : updateWebhook env userId "true" (some (statusBody browser oldWebhook.id status))
          database.webhooks =
            { webhooks := next
              reply := { success := true, data := some { oldWebhook with status } } } := by
        rw [updateWebhook, decoded]
        dsimp only
        rw [loaded]
        dsimp only
        rw [clean, accepted]
      unfold webhookStatus
      dsimp only
      rw [answered]
      simp only [if_true]
      dsimp only [Listing.rows, rowsAfter]
      have rewritten := rows_rewritten (fun row => row.userId = userId) (fun row => row) Webhook.id
        (fun row => { row with status }) writes found rfl (fun _ => rfl) rfl
      simpa only [List.map_id'] using rewritten

end Tables

/-- The two tables. -/
inductive OwnTable where
  | channels
  | webhooks
deriving DecidableEq

namespace OwnTable

/-- What a row of the table shows. -/
abbrev Row : OwnTable → Type
  | channels => Channel
  | webhooks => Webhook

/-- What the tables read besides the database, and whose they are. -/
structure Visit where
  browser : Browser
  dialect : Dialect := .sqlite
  settings : Settings := {}
  channelEnv : ChannelEnvironment := {}
  webhookEnv : WebhookEnvironment := {}
  userId : Int

/-- The requests of the table, on behalf of a user. -/
def list (visit : Visit) : (table : OwnTable) → PagedList Database table.Row
  | channels =>
      { id := Channel.id
        columns :=
          [ fun row => visit.browser.numberText row.id, Channel.name, Channel.description,
            Channel.type, fun row => visit.browser.numberText row.status,
            fun row => visit.browser.numberText row.createdTime ]
        withStatus := fun answer row => { row with status := answer.status }
        Keeps := visit.browser.Keeps
        rows := fun database => Listing.rows database visit.userId .channels
        page := channelPage visit.browser visit.userId
        search := channelSearch visit.dialect visit.userId
        delete := channelDelete visit.browser visit.userId
        setStatus := channelStatus visit.browser visit.userId visit.channelEnv
        id_withStatus := fun _ _ => rfl
        distinct := fun database => channelRows_distinct database visit.userId
        page_eq := fun database _ keeps fits => channelPage_eq database keeps fits
        delete_eq := fun database _ keeps => channelDelete_eq database keeps
        setStatus_eq := fun database _ _ keeps number =>
          channelStatus_eq visit.channelEnv database keeps number }
  | webhooks =>
      { id := Webhook.id
        columns :=
          [ fun row => visit.browser.numberText row.id, Webhook.name,
            fun row => visit.browser.numberText row.status, Webhook.channel,
            fun row => visit.browser.numberText row.createdTime ]
        withStatus := fun answer row => { row with status := answer.status }
        Keeps := visit.browser.Keeps
        rows := fun database => Listing.rows database visit.userId .webhooks
        page := webhookPage visit.browser visit.userId
        search := webhookSearch visit.dialect visit.settings visit.userId
        delete := webhookDelete visit.browser visit.userId
        setStatus := webhookStatus visit.browser visit.userId visit.webhookEnv
        id_withStatus := fun _ _ => rfl
        distinct := fun database => webhookRows_distinct database visit.userId
        page_eq := fun database _ keeps fits => webhookPage_eq database keeps fits
        delete_eq := fun database _ keeps => webhookDelete_eq database keeps
        setStatus_eq := fun database _ _ keeps number =>
          @webhookStatus_eq visit.browser visit.userId visit.webhookEnv database _ _ keeps number }

end OwnTable

/-- In every run in which rows are deleted only after the whole list was loaded, and searches find
the first rows of the list, the pages of the table and the rows still to be loaded are the list of
the server, row by row; a step that breaks the condition breaks that too. -/
theorem table_covers_iff (visit : OwnTable.Visit) (table : OwnTable)
    (localeCompare : String → String → Int) {site : TableSite Database table.Row}
    (reachable : ((tablePages (table.list visit) localeCompare).guard
      (Covering (table.list visit))).Reachable site) :
    Covers (table.list visit) site ∧
      ∀ label next, TableStep (table.list visit) localeCompare site label next →
        (Covers (table.list visit) next ↔ Covering (table.list visit) site label) := by
  obtain ⟨covers, tidy⟩ := covers_of_reachable reachable
  exact ⟨covers, fun label next step => (covers.step_iff tidy step).1⟩

/-! ### Eleven webhooks -/

def elevenWebhooks : Webhooks where
  rows :=
    [ { id := 1, userId := 7, link := "a" }, { id := 2, userId := 7, link := "b" },
      { id := 3, userId := 7, link := "c" }, { id := 4, userId := 7, link := "d" },
      { id := 5, userId := 7, link := "e" }, { id := 6, userId := 7, link := "f" },
      { id := 7, userId := 7, link := "g" }, { id := 8, userId := 7, link := "h" },
      { id := 9, userId := 7, link := "i" }, { id := 10, userId := 7, link := "j" },
      { id := 11, userId := 7, link := "k" } ]
  counter := 11
  sorted := by decide
  unique := by decide
  counterNonneg := by decide
  bounded := by decide

def elevenVisit : OwnTable.Visit where
  browser := { numberText := Text.itoa, parseError := id, pathName := some }
  userId := 7

def elevenList : PagedList Database Webhook := OwnTable.list elevenVisit .webhooks

/-- The page when it has loaded its first rows. -/
def elevenSite : TableSite Database Webhook where
  server := { users := .empty, messages := .empty, channels := .empty, webhooks := elevenWebhooks }
  page :=
    { entries := (elevenWebhooks.rows.reverse.take 10).map ({ row := · }) }

theorem elevenList_keeps {number : Int} (nonneg : 0 ≤ number) (small : number < 2 ^ 32) :
    elevenList.Keeps number :=
  show Text.parseInt (Text.itoa number) = (number, true) from
    Text.parseInt_itoa nonneg (by rw [Text.maxInt64]; omega)

/-- The page has loaded the first ten. -/
theorem elevenSite_reachable :
    ((tablePages elevenList fun _ _ => 0).guard (Covering elevenList)).Reachable elevenSite := by
  have numbers : ∀ row ∈ elevenWebhooks.rows.reverse, 0 ≤ row.id ∧ row.id < 2 ^ 32 := by decide
  have opened : ((tablePages elevenList fun _ _ => 0).guard (Covering elevenList)).Initial
      { server := elevenSite.server } :=
    ⟨rfl, fun number small => elevenList_keeps (Int.natCast_nonneg number) (by omega),
      fun row member => elevenList_keeps (numbers row member).1 (numbers row member).2⟩
  have answered := elevenList.page_eq elevenSite.server 0
    (elevenList_keeps (Int.le_refl 0) (by decide)) (by decide)
  have step : ((tablePages elevenList fun _ _ => 0).guard (Covering elevenList)).Step
      { server := elevenSite.server } .reload elevenSite :=
    ⟨trivial, @TableStep.reload _ _ elevenList (fun _ _ => 0) { server := elevenSite.server } _ answered⟩
  exact (System.Reachable.initial opened).step step

theorem elevenList_deletes : (elevenList.delete elevenSite.server 11).2 = true := by
  have number : Text.parseInt (Text.itoa 11) = (11, true) :=
    Text.parseInt_itoa (by decide) (by decide)
  show (deleteWebhook 7 (Text.itoa 11) elevenWebhooks).reply.success = true
  rw [deleteWebhook, number]
  decide

/-- The newest webhook is deleted, and the oldest one is on no page. -/
theorem table_covers_iff_elevenWebhooks :
    Covers elevenList elevenSite ∧ ∃ next,
      TableStep elevenList (fun _ _ => 0) elevenSite (.delete 11) next ∧ ¬ Covers elevenList next := by
  obtain ⟨covers, exact_⟩ :=
    table_covers_iff elevenVisit .webhooks (fun _ _ => 0) elevenSite_reachable
  have shows : elevenSite.page.Shows elevenList 11 :=
    ⟨{ row := { id := 11, userId := 7, link := "k" } }, List.mem_cons_self, rfl⟩
  refine ⟨covers, _, .delete shows, fun covered => ?_⟩
  have loaded := (exact_ _ _ (.delete shows)).mp covered elevenList_deletes
  exact absurd loaded (by decide)

end MessagePusher.Web
