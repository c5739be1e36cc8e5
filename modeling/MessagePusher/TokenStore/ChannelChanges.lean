import MessagePusher.TokenStore.Credentials

/-!
# Changes of one channel

For the insertion, the deletion and the update of a channel, the exact condition for the
store to hold the needed credentials after the calls that the handler makes.
-/

namespace MessagePusher.TokenStore

open Common Model Store Channel

/-- Another channel than the one with this id needs the item. -/
def LiveBeside (users : Users) (channels : Channels) (channelId : Int) (item : TokenStoreItem) :
    Prop :=
  ∃ row ∈ channels.rows, row.id ≠ channelId ∧ Needs users row item

theorem live_iff_beside {users : Users} {channels : Channels} (channelId : Int)
    {item : TokenStoreItem} :
    Live users channels item ↔ LiveBeside users channels channelId item ∨
      ∃ row, channels.rowAt channelId = some row ∧ Needs users row item := by
  constructor
  · rintro ⟨row, member, needs⟩
    by_cases same : row.id = channelId
    · exact .inr ⟨row, same ▸ Table.rowAt_of_mem member, needs⟩
    · exact .inl ⟨row, member, same, needs⟩
  · rintro (⟨row, member, -, needs⟩ | ⟨row, found, needs⟩)
    · exact ⟨row, member, needs⟩
    · exact ⟨row, Table.rowAt_mem found, needs⟩

/-- The same where the table has the channel. -/
theorem live_iff_present {users : Users} {channels : Channels} {channelId : Int}
    {row : Model.Channel} (present : channels.rowAt channelId = some row)
    {item : TokenStoreItem} :
    Live users channels item ↔ LiveBeside users channels channelId item ∨
      Needs users row item := by
  rw [live_iff_beside channelId, present]
  simp

theorem liveBeside_of_rewrites {users : Users} {channels next : Channels} {channelId : Int}
    {value : Option Model.Channel} (writes : channels.Rewrites next channelId value)
    {item : TokenStoreItem} :
    LiveBeside users next channelId item ↔ LiveBeside users channels channelId item := by
  have sameRows : ∀ row : Model.Channel, row.id ≠ channelId →
      (row ∈ next.rows ↔ row ∈ channels.rows) := by
    intro row apart
    have same : next.rowAt row.id = channels.rowAt row.id := writes.elsewhere apart
    constructor
    · intro member
      exact Table.rowAt_mem (same.symm.trans (Table.rowAt_of_mem member))
    · intro member
      exact Table.rowAt_mem (same.trans (Table.rowAt_of_mem member))
  constructor
  · rintro ⟨row, member, apart, needs⟩
    exact ⟨row, (sameRows row apart).mp member, apart, needs⟩
  · rintro ⟨row, member, apart, needs⟩
    exact ⟨row, (sameRows row apart).mpr member, apart, needs⟩

/-- The live items after one channel was written. -/
theorem live_after {users : Users} {channels next : Channels} {channelId : Int}
    {value : Option Model.Channel} (writes : channels.Rewrites next channelId value)
    {item : TokenStoreItem} :
    Live users next item ↔ LiveBeside users channels channelId item ∨
      ∃ row, value = some row ∧ Needs users row item := by
  rw [live_iff_beside channelId, liveBeside_of_rewrites writes, writes.at_key]

/-- The exact condition on the insertion of a channel: complete credentials that get into the
store belong to an enabled owner, here or elsewhere, and share their key with no others. -/
def AddKeeps (users : Users) (channels : Channels) (row : Model.Channel) : Prop :=
  ∀ item, channel2item row = some item → item.isFilled = true →
    (OwnerEnabled users row ∨ Live users channels item) ∧
      ∀ other, Live users channels other → other.key = item.key → other = item

/-- The exact condition on the deletion of a channel: where the item stays because other
channels share it, one of them needs it if this one did; where it goes, no other channel
needs its key. -/
def DeleteKeeps (users : Users) (channels : Channels) (row : Model.Channel) : Prop :=
  ∀ item, channel2item row = some item →
    if item.isShared (channels.delete row.id) then
      Needs users row item → LiveBeside users channels row.id item
    else ∀ other, LiveBeside users channels row.id other → other.key ≠ item.key

/-- The item is needed once `row` has replaced the channel with its id. -/
def LiveWith (users : Users) (channels : Channels) (row : Model.Channel) (item : TokenStoreItem) :
    Prop :=
  LiveBeside users channels row.id item ∨ Needs users row item

/-- The exact condition on the change of a channel from `oldRow` to `row`, where the store
takes `oldItem` for the old and `newItem` for the new credentials, and finds the old ones
shared or not. -/
structure RekeyKeeps (users : Users) (channels : Channels) (row oldRow : Model.Channel)
    (shared : Bool) (oldItem newItem : TokenStoreItem) : Prop where
  /-- The new item, if complete, is needed afterwards, and its key is needed for it alone. -/
  added : newItem.isFilled = true → LiveWith users channels row newItem ∧
    ∀ other, LiveWith users channels row other → other.key = newItem.key → other = newItem
  /-- The old key goes for good only if nobody needs it. -/
  dropped : shared = false → ¬ (newItem.isFilled = true ∧ newItem.key = oldItem.key) →
    ∀ other, LiveWith users channels row other → other.key ≠ oldItem.key
  /-- The old item stays only if somebody still needs it. -/
  kept : shared = true → Needs users oldRow oldItem → ¬ LiveWith users channels row oldItem →
    newItem.isFilled = true ∧ newItem.key = oldItem.key
  /-- What the channel needs now is the new item or was in the store. -/
  entered : ∀ item, Needs users row item → Live users channels item ∨
    (newItem.isFilled = true ∧ newItem = item)

/-- The changed channel as the store sees it: still of the old type, a corp account still
with the old `AppId`, and blank credentials as the old ones. -/
def seenAs (row oldRow : Model.Channel) : Model.Channel :=
  { row with
    type := oldRow.type
    appId :=
      if oldRow.type = typeWeChatTestAccount ∧ row.appId ≠ "" then row.appId else oldRow.appId
    secret := if row.secret ≠ "" then row.secret else oldRow.secret }

/-- The exact condition on an update. The store ignores a channel that had no item. -/
def UpdateKeeps (users : Users) (channels : Channels) (row oldRow : Model.Channel) : Prop :=
  match channel2item oldRow, channel2item (seenAs row oldRow) with
  | some oldItem, some newItem =>
      RekeyKeeps users channels row oldRow (oldItem.isShared (row.update channels).1) oldItem
        newItem
  | _, _ => ∀ item, Needs users row item → Live users channels item

/-- What `Fits` asks of a change of one channel. -/
theorem oneCall_covers_iff {store : String → Option TokenStoreItem} {live after : TokenStoreItem → Prop}
    {drop put : Option TokenStoreItem} (covers : Covers TokenStoreItem.key store live) :
    Covers TokenStoreItem.key (oneCall store drop put) after ↔
      (∀ item, put = some item →
        after item ∧ ∀ other, after other → other.key = item.key → other = item) ∧
      (∀ item, drop = some item → (∀ new, put = some new → new.key ≠ item.key) →
        ∀ other, after other → other.key ≠ item.key) ∧
      (∀ item, live item → ¬ after item →
        ∃ touched, (put = some touched ∨ drop = some touched) ∧ touched.key = item.key) ∧
      ∀ item, after item → live item ∨ put = some item :=
  (covers_iff_fits covers).trans fits_option_iff

theorem addChannel_keeps_iff {users : Users} {channels next : Channels}
    {store : String → Option TokenStoreItem} {row : Model.Channel}
    (covers : Covers TokenStoreItem.key store (Live users channels))
    (fresh : channels.rowAt row.id = none) (writes : channels.Rewrites next row.id (some row)) :
    Covers TokenStoreItem.key (runCalls store (tokenStoreAddChannel row)) (Live users next) ↔
      AddKeeps users channels row := by
  have after : ∀ item, Live users next item ↔ Live users channels item ∨ Needs users row item := by
    intro item
    rw [live_after writes, live_iff_beside row.id, fresh]
    simp
  have put : ∀ item, (channel2item row).filter TokenStoreItem.isFilled = some item ↔
      channel2item row = some item ∧ item.isFilled = true := by
    intro item
    rw [Option.filter_eq_some_iff]
  rw [runCalls_addChannel, oneCall_covers_iff covers]
  simp only [put, after, reduceCtorEq, false_implies, implies_true, true_and, or_false]
  constructor
  · rintro ⟨stored, -, -⟩ item found filled
    obtain ⟨needed, unique⟩ := stored item ⟨found, filled⟩
    refine ⟨?_, fun other live same => unique other (.inl live) same⟩
    rcases needed with live | needs
    · exact .inr live
    · exact .inl needs.1
  · intro keeps
    refine ⟨?_, fun item live gone => absurd (.inl live) gone, ?_⟩
    · rintro item ⟨found, filled⟩
      obtain ⟨needed, unique⟩ := keeps item found filled
      refine ⟨?_, ?_⟩
      · rcases needed with enabled | live
        · exact .inr ⟨enabled, found, filled⟩
        · exact .inl live
      · rintro other (live | ⟨-, foundOther, -⟩) same
        · exact unique other live same
        · exact (Option.some.inj (found.symm.trans foundOther)).symm
    · rintro item (live | ⟨-, found, filled⟩)
      · exact .inl live
      · exact .inr ⟨found, filled⟩

theorem deleteChannel_keeps_iff {users : Users} {channels : Channels}
    {store : String → Option TokenStoreItem} {row : Model.Channel}
    (covers : Covers TokenStoreItem.key store (Live users channels))
    (present : channels.rowAt row.id = some row) :
    Covers TokenStoreItem.key
        (runCalls store (tokenStoreRemoveChannel
          (TokenStoreItem.isShared (channels.delete row.id)) row))
        (Live users (channels.delete row.id)) ↔
      DeleteKeeps users channels row := by
  have after : ∀ item, Live users (channels.delete row.id) item ↔
      LiveBeside users channels row.id item := by
    intro item
    rw [live_after (Table.rewrites_delete channels row.id)]
    simp
  rw [runCalls_removeChannel, oneCall_covers_iff covers]
  simp only [after, live_iff_present present, reduceCtorEq, false_implies, implies_true, true_and,
    or_false, false_or, Option.filter_eq_some_iff, Bool.not_eq_eq_eq_not, Bool.not_true]
  constructor
  · rintro ⟨dropped, leaves, -⟩ item found
    split_ifs with shared
    · intro needs
      by_contra gone
      obtain ⟨touched, ⟨foundTouched, unshared⟩, -⟩ := leaves item (.inr needs) gone
      obtain rfl := Option.some.inj (found.symm.trans foundTouched)
      rw [shared] at unshared
      cases unshared
    · exact dropped item ⟨found, by simpa using shared⟩ trivial
  · intro keeps
    refine ⟨?_, ?_, fun item live => .inl live⟩
    · rintro item ⟨found, unshared⟩
      simpa [unshared] using keeps item found
    · rintro item (live | needs) gone
      · exact absurd live gone
      · have kept := keeps item needs.2.1
        split_ifs at kept with shared
        · exact absurd (kept needs) gone
        · exact ⟨item, ⟨needs.2.1, by simpa using shared⟩, rfl⟩

theorem changedOr_changedPart (new old : String) :
    changedOr (changedPart new old) old = if new ≠ "" then new else old := by
  unfold changedOr changedPart
  by_cases same : new = old
  · simp [same]
  · simp [same]

/-- What an update makes of the old and the new credentials. -/
theorem updatedItems_eq (row oldRow : Model.Channel) :
    updatedItems row oldRow =
      match channel2item oldRow, channel2item (seenAs row oldRow) with
      | some oldItem, some newItem => some (oldItem, newItem)
      | _, _ => none := by
  by_cases test : oldRow.type = typeWeChatTestAccount
  · simp [updatedItems, channel2item, seenAs, keepChangedParts, checkTokenStoreChannelType, test,
      changedOr_changedPart]
  · by_cases corp : oldRow.type = typeWeChatCorpAccount
    · have token : checkTokenStoreChannelType oldRow.type = true := by
        simp [checkTokenStoreChannelType, corp]
      simp only [updatedItems, channel2item, seenAs, keepChangedParts, token, if_true,
        if_pos corp, test, false_and, if_false, changedOr_changedPart]
      cases parsed : parseWechatCorpAccountAppId oldRow.appId with
      | error text => rfl
      | ok parts => simp only [ite_self]
    · simp [updatedItems, channel2item, test, corp]

/-- The store sees credentials in a changed channel if it saw some before. -/
theorem channel2item_seenAs {row oldRow : Model.Channel} {oldItem : TokenStoreItem}
    (old : channel2item oldRow = some oldItem) :
    ∃ newItem, channel2item (seenAs row oldRow) = some newItem := by
  unfold channel2item at old ⊢
  by_cases test : oldRow.type = typeWeChatTestAccount
  · simp [seenAs, test]
  · by_cases corp : oldRow.type = typeWeChatCorpAccount
    · simp only [seenAs, if_pos corp, test, if_false, false_and] at old ⊢
      cases parsed : parseWechatCorpAccountAppId oldRow.appId with
      | error text => simp [parsed] at old
      | ok parts => exact ⟨_, rfl⟩
    · simp [test, corp] at old

/-- Without calls, an update is right where all that the channel needs now was needed before. -/
theorem untouched_covers_iff {users : Users} {channels : Channels}
    {store : String → Option TokenStoreItem} {row oldRow : Model.Channel}
    (covers : Covers TokenStoreItem.key store (Live users channels))
    (present : channels.rowAt row.id = some oldRow) (old : channel2item oldRow = none) :
    Covers TokenStoreItem.key (oneCall store none none) (LiveWith users channels row) ↔
      ∀ item, Needs users row item → Live users channels item := by
  have nothing : ∀ item, ¬ Needs users oldRow item := by
    rintro item ⟨-, found, -⟩
    rw [old] at found
    cases found
  rw [oneCall_covers_iff covers]
  simp only [reduceCtorEq, false_implies, implies_true, true_and, or_false, false_and,
    exists_false, imp_false, not_not]
  constructor
  · rintro ⟨-, entered⟩ item needs
    exact entered item (.inr needs)
  · intro entered
    refine ⟨?_, ?_⟩
    · intro item live
      rcases (live_iff_present present).mp live with beside | needs
      · exact .inl beside
      · exact absurd needs (nothing item)
    · rintro item (beside | needs)
      · exact (live_iff_present present).mpr (.inl beside)
      · exact entered item needs

/-- The two calls of an update, where the store finds the old credentials shared or not. -/
theorem rekey_covers_iff {users : Users} {channels : Channels}
    {store : String → Option TokenStoreItem} {row oldRow : Model.Channel}
    {oldItem newItem : TokenStoreItem}
    (covers : Covers TokenStoreItem.key store (Live users channels))
    (present : channels.rowAt row.id = some oldRow) (old : channel2item oldRow = some oldItem)
    (shared : Bool) :
    Covers TokenStoreItem.key
        (oneCall store (if shared then none else some oldItem)
          (if newItem.isFilled then some newItem else none))
        (LiveWith users channels row) ↔
      RekeyKeeps users channels row oldRow shared oldItem newItem := by
  have put : ∀ item, (if newItem.isFilled then some newItem else none) = some item ↔
      newItem.isFilled = true ∧ newItem = item := by
    intro item
    split_ifs with filled <;> simp [filled]
  have drop : ∀ item, (if shared then none else some oldItem) = some item ↔
      shared = false ∧ oldItem = item := by
    intro item
    split_ifs with isShared <;> simp [isShared]
  rw [oneCall_covers_iff covers]
  simp only [put, drop, and_imp]
  constructor
  · rintro ⟨stored, removed, leaves, enters⟩
    constructor
    · exact fun filled => stored newItem filled rfl
    · intro unshared apart
      exact removed oldItem unshared rfl fun new filled same clash => by
        subst same
        exact apart ⟨filled, clash⟩
    · intro isShared needs gone
      obtain ⟨touched, ⟨filled, rfl⟩ | ⟨unshared, -⟩, same⟩ :=
        leaves oldItem ((live_iff_present present).mpr (.inr needs)) gone
      · exact ⟨filled, same⟩
      · rw [isShared] at unshared
        cases unshared
    · intro item needs
      exact enters item (.inr needs)
  · intro keeps
    refine ⟨?_, ?_, ?_, ?_⟩
    · rintro item filled rfl
      exact keeps.added filled
    · rintro item unshared rfl apart
      exact keeps.dropped unshared fun both => apart newItem both.1 rfl both.2
    · intro item live gone
      rcases (live_iff_present present).mp live with beside | needs
      · exact absurd (.inl beside) gone
      · obtain rfl : oldItem = item := Option.some.inj (old.symm.trans needs.2.1)
        cases shared with
        | true =>
            obtain ⟨filled, same⟩ := keeps.kept rfl needs gone
            exact ⟨newItem, .inl ⟨filled, rfl⟩, same⟩
        | false => exact ⟨oldItem, .inr ⟨rfl, rfl⟩, rfl⟩
    · rintro item (beside | needs)
      · exact .inl ((live_iff_present present).mpr (.inl beside))
      · exact keeps.entered item needs

theorem updateChannel_keeps_iff {users : Users} {channels next : Channels}
    {store : String → Option TokenStoreItem} {row oldRow : Model.Channel}
    (covers : Covers TokenStoreItem.key store (Live users channels))
    (present : channels.rowAt row.id = some oldRow)
    (writes : channels.Rewrites next row.id (some row)) (table : next = (row.update channels).1) :
    Covers TokenStoreItem.key
        (runCalls store (tokenStoreUpdateChannel (TokenStoreItem.isShared next) row oldRow))
        (Live users next) ↔
      UpdateKeeps users channels row oldRow := by
  have after : Live users next = LiveWith users channels row := by
    funext item
    rw [live_after writes]
    simp [LiveWith]
  have items := updatedItems_eq row oldRow
  rw [after]
  unfold UpdateKeeps
  cases old : channel2item oldRow with
  | none =>
      rw [old] at items
      have untouched : runCalls store (tokenStoreUpdateChannel (TokenStoreItem.isShared next) row
          oldRow) = oneCall store none none := by
        simp only [tokenStoreUpdateChannel, items]
        rfl
      rw [untouched]
      exact untouched_covers_iff covers present old
  | some oldItem =>
      obtain ⟨newItem, seen⟩ := @channel2item_seenAs row oldRow oldItem old
      rw [old, seen] at items
      rw [seen, runCalls_updateChannel store _ items]
      subst table
      exact rekey_covers_iff covers present old _

end MessagePusher.TokenStore
