import MessagePusher.TokenStore.Credentials

/-!
# Changes of one user

The same for a user who is enabled, and for one who is disabled or deleted: the exact
condition for the store to hold the needed credentials afterwards.
-/

namespace MessagePusher.TokenStore

open Common Model Store Channel

/-- The row of a user exists and is enabled. -/
def EnabledAs (user : Option User) : Prop := ∃ owner, user = some owner ∧ owner.status = userStatusEnabled

/-- A channel of another user needs the item. -/
def LiveOutside (users : Users) (channels : Channels) (userId : Int) (item : TokenStoreItem) :
    Prop :=
  ∃ row ∈ channels.rows, row.userId ≠ userId ∧ Needs users row item

/-- A channel of the user has these credentials. -/
def Owns (channels : Channels) (userId : Int) (item : TokenStoreItem) : Prop :=
  ∃ row ∈ channels.rows, row.userId = userId ∧ channel2item row = some item

theorem mem_ownItems {channels : Channels} {userId : Int} {item : TokenStoreItem} :
    item ∈ channels2items (getTokenStoreChannelsByUserId channels userId) ↔
      Owns channels userId item := by
  have tokenType : ∀ {row : Model.Channel}, channel2item row = some item →
      row.type = typeWeChatCorpAccount ∨ row.type = typeWeChatTestAccount := by
    intro row found
    have type := checkType_of_channel2item found
    simpa [checkTokenStoreChannelType, or_comm] using type
  simp only [channels2items, getTokenStoreChannelsByUserId, List.mem_filterMap, Table.mem_select,
    decide_eq_true_eq]
  constructor
  · rintro ⟨row, ⟨member, owned, -⟩, found⟩
    exact ⟨row, member, owned, found⟩
  · rintro ⟨row, member, owned, found⟩
    exact ⟨row, ⟨member, owned, tokenType found⟩, found⟩

theorem live_iff_outside {users : Users} {channels : Channels} (userId : Int)
    {item : TokenStoreItem} :
    Live users channels item ↔ LiveOutside users channels userId item ∨
      (EnabledAs (users.rowAt userId) ∧ Owns channels userId item ∧ item.isFilled = true) := by
  constructor
  · rintro ⟨row, member, needs⟩
    by_cases own : row.userId = userId
    · obtain ⟨enabled, found, filled⟩ := needs
      subst own
      exact .inr ⟨enabled, ⟨row, member, rfl, found⟩, filled⟩
    · exact .inl ⟨row, member, own, needs⟩
  · rintro (⟨row, member, -, needs⟩ | ⟨enabled, ⟨row, member, rfl, found⟩, filled⟩)
    · exact ⟨row, member, needs⟩
    · exact ⟨row, member, enabled, found, filled⟩

/-- The live items after one user was written. -/
theorem live_after_user {users next : Users} {channels : Channels} {userId : Int}
    {value : Option User} (writes : users.Rewrites next userId value) {item : TokenStoreItem} :
    Live next channels item ↔ LiveOutside users channels userId item ∨
      (EnabledAs value ∧ Owns channels userId item ∧ item.isFilled = true) := by
  have outside : LiveOutside next channels userId item ↔
      LiveOutside users channels userId item := by
    have sameOwner : ∀ row : Model.Channel, row.userId ≠ userId →
        (Needs next row item ↔ Needs users row item) := by
      intro row apart
      simp only [Needs, OwnerEnabled, writes.elsewhere apart]
    constructor
    · rintro ⟨row, member, apart, needs⟩
      exact ⟨row, member, apart, (sameOwner row apart).mp needs⟩
    · rintro ⟨row, member, apart, needs⟩
      exact ⟨row, member, apart, (sameOwner row apart).mpr needs⟩
  rw [live_iff_outside userId, outside, writes.at_key]

/-- The exact condition on a user being disabled or deleted: credentials of the user that no
second channel shares have a key nobody else needs, and shared ones that were needed are
needed by another user. -/
structure OffKeeps (users : Users) (channels : Channels) (userId : Int) : Prop where
  dropped : ∀ item, Owns channels userId item → item.isShared channels = false →
    ∀ other, LiveOutside users channels userId other → other.key ≠ item.key
  kept : EnabledAs (users.rowAt userId) → ∀ item, Owns channels userId item →
    item.isFilled = true → item.isShared channels = true →
    LiveOutside users channels userId item ∨
      ∃ other, Owns channels userId other ∧ other.isShared channels = false ∧ other.key = item.key

/-- The exact condition on a user being enabled: a key of the user's complete credentials is
needed for them alone. -/
def OnKeeps (users : Users) (channels : Channels) (userId : Int) : Prop :=
  ∀ item, Owns channels userId item → item.isFilled = true →
    ∀ other, (LiveOutside users channels userId other ∨
      (Owns channels userId other ∧ other.isFilled = true)) → other.key = item.key → other = item

theorem userOff_keeps_iff {users next : Users} {channels : Channels}
    {store : String → Option TokenStoreItem} {userId : Int} {value : Option User}
    (covers : Covers TokenStoreItem.key store (Live users channels))
    (writes : users.Rewrites next userId value) (off : ¬ EnabledAs value) :
    Covers TokenStoreItem.key
        (runCalls store (tokenStoreRemoveUser (TokenStoreItem.isShared channels) channels userId))
        (Live next channels) ↔
      OffKeeps users channels userId := by
  have after : ∀ item, Live next channels item ↔ LiveOutside users channels userId item := by
    intro item
    rw [live_after_user writes]
    simp [off]
  have before : ∀ item, Live users channels item ↔ LiveOutside users channels userId item ∨
      (EnabledAs (users.rowAt userId) ∧ Owns channels userId item ∧ item.isFilled = true) :=
    fun item => live_iff_outside userId
  have drops : ∀ item, item ∈ (channels2items (getTokenStoreChannelsByUserId channels userId)).filter
      (fun item => !item.isShared channels) ↔
        Owns channels userId item ∧ item.isShared channels = false := by
    intro item
    simp [mem_ownItems]
  have calls := runCalls_eq store ((channels2items (getTokenStoreChannelsByUserId channels
    userId)).filter fun item => !item.isShared channels) []
  simp only [List.map_nil, List.append_nil, List.filter_nil] at calls
  rw [tokenStoreRemoveUser, calls, covers_iff_fits covers, fits_drops_iff]
  simp only [drops, after, before]
  constructor
  · rintro ⟨dropped, leaves, -⟩
    constructor
    · intro item own unshared
      exact dropped item ⟨own, unshared⟩
    · intro enabled item own filled shared
      by_cases outside : LiveOutside users channels userId item
      · exact .inl outside
      · obtain ⟨other, ⟨ownOther, unshared⟩, same⟩ :=
          leaves item (.inr ⟨enabled, own, filled⟩) outside
        exact .inr ⟨other, ownOther, unshared, same⟩
  · intro keeps
    refine ⟨?_, ?_, fun item outside => .inl outside⟩
    · rintro item ⟨own, unshared⟩
      exact keeps.dropped item own unshared
    · rintro item (outside | ⟨enabled, own, filled⟩) gone
      · exact absurd outside gone
      · cases shared : item.isShared channels with
        | false => exact ⟨item, ⟨own, shared⟩, rfl⟩
        | true =>
            rcases keeps.kept enabled item own filled shared with outside | ⟨other, own, rest⟩
            · exact absurd outside gone
            · exact ⟨other, ⟨own, rest.1⟩, rest.2⟩

theorem userOn_keeps_iff {users next : Users} {channels : Channels}
    {store : String → Option TokenStoreItem} {userId : Int} {value : Option User}
    (covers : Covers TokenStoreItem.key store (Live users channels))
    (writes : users.Rewrites next userId value) (wasOff : ¬ EnabledAs (users.rowAt userId))
    (on : EnabledAs value) :
    Covers TokenStoreItem.key (runCalls store (tokenStoreAddUser channels userId))
        (Live next channels) ↔
      OnKeeps users channels userId := by
  have after : ∀ item, Live next channels item ↔ LiveOutside users channels userId item ∨
      (Owns channels userId item ∧ item.isFilled = true) := by
    intro item
    rw [live_after_user writes]
    simp [on]
  have before : ∀ item, Live users channels item ↔ LiveOutside users channels userId item := by
    intro item
    rw [live_iff_outside userId]
    simp [wasOff]
  have calls := runCalls_eq store [] (channels2items (getTokenStoreChannelsByUserId channels userId))
  simp only [List.map_nil, List.nil_append] at calls
  have puts : ∀ item, item ∈ (channels2items (getTokenStoreChannelsByUserId channels userId)).filter
      TokenStoreItem.isFilled ↔ Owns channels userId item ∧ item.isFilled = true := by
    intro item
    simp [mem_ownItems]
  have stays : ∀ item, Live users channels item → Live next channels item :=
    fun item live => (after item).mpr (.inl ((before item).mp live))
  rw [tokenStoreAddUser, calls, covers_iff_fits covers]
  refine Iff.trans (fits_puts_iff stays) ?_
  simp only [after, before]
  constructor
  · rintro ⟨stored, -⟩ item own filled other live same
    cases last : lastAt TokenStoreItem.key ((channels2items (getTokenStoreChannelsByUserId channels
        userId)).filter TokenStoreItem.isFilled) item.key with
    | none => exact absurd rfl (lastAt_eq_none_iff.mp last item ((puts item).mpr ⟨own, filled⟩))
    | some put =>
        obtain ⟨-, unique⟩ := stored item.key put last
        rw [unique item (.inr ⟨own, filled⟩) rfl]
        exact unique other live same
  · intro keeps
    constructor
    · intro at_ item last
      obtain ⟨member, rfl⟩ := lastAt_mem last
      obtain ⟨own, filled⟩ := (puts item).mp member
      exact ⟨.inr ⟨own, filled⟩, keeps item own filled⟩
    · rintro item (outside | ⟨own, filled⟩)
      · exact .inl outside
      · refine .inr ?_
        cases last : lastAt TokenStoreItem.key ((channels2items (getTokenStoreChannelsByUserId
            channels userId)).filter TokenStoreItem.isFilled) item.key with
        | none => exact absurd rfl (lastAt_eq_none_iff.mp last item ((puts item).mpr ⟨own, filled⟩))
        | some put =>
            obtain ⟨member, same⟩ := lastAt_mem last
            rw [keeps item own filled put (.inr ((puts put).mp member)) same]

/-- A write of the user's row that leaves the status alone is always in order. -/
theorem userSame_keeps {users next : Users} {channels : Channels}
    {store : String → Option TokenStoreItem} {userId : Int} {value : Option User}
    (covers : Covers TokenStoreItem.key store (Live users channels))
    (writes : users.Rewrites next userId value)
    (same : EnabledAs value ↔ EnabledAs (users.rowAt userId)) :
    Covers TokenStoreItem.key store (Live next channels) := by
  intro at_ item
  rw [covers at_ item, live_after_user writes, live_iff_outside userId, same]

end MessagePusher.TokenStore
