import Durian.Accounts
import Durian.Commit
import Durian.Proof.Reading
import Durian.Script

/-!
# Flush and reopen

A cache answers for a slot with its marked entry, or else as the provider does: what it holds
unmarked is what the provider answers. A flush that succeeds leaves the provider with the marked
entries over what it held, in whatever order the two maps are walked, so a fresh cache over it
answers alike.
-/

namespace Durian

open Effects

variable {π : Type} [Provider π]

namespace State

variable {address : Address} {key : H256} {st st' : State π}

/-! ### Unmarked entries -/

/-- What the cache holds unmarked is what the provider answers. -/
def Synced (st : State π) : Prop :=
  ∀ address entry key value, st.accounts.lookup address = some entry →
    entry.1.storage.lookup key = some (value, false) → slot st.provider address key = some value

theorem synced_new (p : π) : Synced (State.new p) := by
  intro address entry key value hentry
  cases hentry

theorem Synced.ask (hπ : StoresSlots π) (h : Synced st) (query : Query) :
    Synced { st with provider := query.after st.provider } := by
  intro a entry key value hentry hslot
  rw [hπ.query]
  exact h a entry key value hentry hslot

/-- A changed entry keeps the cache in step where its unmarked slots were there before, or are the
provider's. -/
theorem Synced.insert (h : Synced st) {entry : AccountInfo × Bool}
    (hentry : ∀ key value, entry.1.storage.lookup key = some (value, false) →
      slot st.provider address key = some value) :
    Synced { st with accounts := st.accounts.insert address entry } := by
  intro a found key value hfound hslot
  by_cases ha : a = address
  · subst ha
    rw [AList.lookup_insert, Option.some_inj] at hfound
    rw [← hfound] at hslot
    exact hentry key value hslot
  · rw [AList.lookup_insert_ne ha] at hfound
    exact h a found key value hfound hslot

theorem Synced.reads (hπ : StoresSlots π) (h : Synced st) (hread : Reads address st st') :
    Synced st' := by
  induction hread with
  | refl => exact h
  | ask query _ ih => exact ih.ask hπ query
  | account _ _ _ ih =>
      refine (ih.ask hπ (.account address)).insert fun key value hslot => ?_
      rw [AccountInfo.fetched_storage] at hslot
      cases hslot
  | @slot st' entry key value _ hentry hnew hvalue ih =>
      have hasked := ih.ask hπ (.storageAt address key)
      refine hasked.insert fun k v hslot => ?_
      by_cases hk : k = key
      · subst hk
        rw [AList.lookup_insert, Option.some_inj] at hslot
        cases hslot
        change slot ((Query.storageAt address k).after st'.provider) address k = some value
        rw [hπ.query, slot, hvalue]
      · rw [AList.lookup_insert_ne hk] at hslot
        exact hasked address entry k v hentry hslot

theorem Synced.after (hπ : StoresSlots π) (h : Synced st) (access : Access) :
    Synced (access.after st) := by
  have hleaves := access.after_leaves st
  generalize access.after st = after at hleaves ⊢
  cases hleaves with
  | read hread => exact h.reads hπ hread
  | @slot address st' entry key value hread hentry =>
      have hst' := h.reads hπ hread
      refine hst'.insert fun k v hslot => ?_
      by_cases hk : k = key
      · subst hk
        rw [writeSlot, AList.lookup_insert] at hslot
        cases hslot
      · rw [writeSlot, AList.lookup_insert_ne hk] at hslot
        exact hst' address entry k v hentry hslot
  | @code address st' entry code hread hentry =>
      have hst' := h.reads hπ hread
      exact hst'.insert fun k v hslot => hst' address entry k v hentry hslot

theorem Synced.afterAll (hπ : StoresSlots π) (accesses : List Access) {st : State π}
    (h : Synced st) : Synced (st.afterAll accesses) := by
  induction accesses generalizing st with
  | nil => exact h
  | cons access accesses ih => exact ih (h.after hπ access)

theorem Synced.reading_eq (h : Synced st) (address : Address) (key : H256) :
    st.reading address key =
      ((st.marked address key).or (slot st.provider address key)).getD FixedHash.zero := by
  rw [reading, marked]
  rcases hcached : st.cachedSlot address key with _ | ⟨value, mark⟩
  · rfl
  · cases mark with
    | true => rfl
    | false =>
        obtain ⟨entry, hentry, hslot⟩ := Option.bind_eq_some_iff.mp hcached
        rw [h address entry key value hentry hslot]
        rfl

/-! ### What a flush leaves -/

/-- What an account's entry holds for the provider to take. -/
def markedIn (acc : AccountInfo × Bool) (key : H256) : Option H256 :=
  (acc.1.storage.lookup key).bind fun v => if v.2 then some v.1 else none

theorem slot_flushAccount (hπ : StoresSlots π) {order : HashOrder} {acc : AccountInfo × Bool}
    {p q : π} (h : flushAccount order address acc p = (.ok (), q)) (a : Address) (key : H256) :
    slot q a key =
      if a = address then (markedIn acc key).or (slot p a key) else slot p a key := by
  have hmarked : lastWrite (markedSlots order acc.1) key = markedIn acc key := by
    refine Option.ext fun value => ?_
    rw [lastWrite_eq_some_iff (markedSlots_nodup order acc.1), mem_markedSlots, markedIn]
    rcases acc.1.storage.lookup key with _ | ⟨v, _ | _⟩
    · simp
    · simp
    · simp
  have hslots : ∀ {r : π}, slot r = slot p →
      Mutation.performAll ((markedSlots order acc.1).map (Mutation.slot address)) r = (.ok (), q) →
        slot q a key =
          if a = address then (markedIn acc key).or (slot p a key) else slot p a key := by
    intro r hr hrun
    rw [slot_performAll hπ hrun, hr, ← hmarked]
    split <;> rfl
  rw [flushAccount_eq] at h
  split at h
  · obtain ⟨known, p₁, hexist, h⟩ := Exec.bind_eq_ok_iff.mp h
    obtain ⟨_, p₂, hdeploy, h⟩ := Exec.bind_eq_ok_iff.mp h
    have hasked : Provider.exist address p = (.ok known, p₁) := by
      rw [Exec.infallible, Exec.mapErr_apply] at hexist
      rcases hanswer : Provider.exist address p with ⟨known' | f, p'⟩
      · rw [hanswer] at hexist
        cases hexist
        rfl
      · rw [hanswer] at hexist
        cases hexist
    have hquery := hπ.query (.exist address) p
    rw [Query.after, hasked] at hquery
    refine hslots ?_ h
    rw [← hquery]
    cases known with
    | true => exact hπ.updateAccount _ _ _ _ _ hdeploy
    | false => exact hπ.createContract _ _ _ _ _ hasked hdeploy
  · exact hslots rfl h

theorem slot_flushAccounts (hπ : StoresSlots π) {order : HashOrder}
    {entries : List (Σ _ : Address, AccountInfo × Bool)} (hkeys : entries.NodupKeys) {p q : π}
    (h : Exec.forEach (fun entry => flushAccount order entry.1 entry.2) entries p = (.ok (), q))
    (a : Address) (key : H256) :
    slot q a key = ((entries.dlookup a).bind fun acc => markedIn acc key).or (slot p a key) := by
  induction entries generalizing p with
  | nil =>
      cases h
      rfl
  | cons entry entries ih =>
      obtain ⟨address, acc⟩ := entry
      obtain ⟨_, p₁, hfirst, hrest⟩ := Exec.bind_eq_ok_iff.mp h
      obtain ⟨hnew, hkeys⟩ := List.nodupKeys_cons.mp hkeys
      rw [ih hkeys hrest, slot_flushAccount hπ hfirst]
      by_cases ha : a = address
      · subst ha
        rw [List.dlookup_cons_eq, List.dlookup_eq_none.mpr hnew, if_pos rfl]
        rfl
      · rw [List.dlookup_cons_ne _ _ ha, if_neg ha]

/-- A flush that succeeds leaves the marked slots over what the provider held, whatever the order of
the walk. -/
theorem slot_updateState (hπ : StoresSlots π) {order : HashOrder}
    (h : updateState order st = (.ok (), st')) (a : Address) (key : H256) :
    slot st'.provider a key = (st.marked a key).or (slot st.provider a key) := by
  rw [updateState, Exec.zoom_apply] at h
  obtain ⟨hok, rfl⟩ := Prod.mk.inj h
  have hlookup : (order.accounts.entries st.accounts).dlookup a = st.accounts.lookup a :=
    List.perm_dlookup a order.accounts.nodupKeys (order.accounts.perm _)
  have hmarked : st.marked a key = (st.accounts.lookup a).bind fun acc => markedIn acc key :=
    Option.bind_assoc _ _ _
  rw [hmarked, ← hlookup]
  exact slot_flushAccounts hπ order.accounts.nodupKeys (Prod.ext hok rfl) a key

end State

/-! ### The result -/

section Result

variable {p : π} {accesses : List Access} {order : HashOrder} {st' : State π}

/-- **Flush and reopen.** After a flush that succeeds a fresh cache answers every read as the old
one did, where both reads return, and the slots the flush leaves do not depend on the order of the
walk. Over a provider whose reads return, both reads do. -/
theorem flush_reopen (hπ : StoresSlots π)
    (h : State.updateState order ((State.new p).afterAll accesses) = (.ok (), st')) :
    (∀ address key,
      (State.storageAt address key ((State.new p).afterAll accesses)).1.Returns →
        (State.storageAt address key (State.new st'.provider)).1.Returns →
          (State.storageAt address key (State.new st'.provider)).1 =
            (State.storageAt address key ((State.new p).afterAll accesses)).1) ∧
      (ReadsReturn π → ∀ address key, ∃ value,
        (State.storageAt address key ((State.new p).afterAll accesses)).1 = .ok value ∧
          (State.storageAt address key (State.new st'.provider)).1 = .ok value) ∧
      ∀ order' st'', State.updateState order' ((State.new p).afterAll accesses) = (.ok (), st'') →
        slot st''.provider = slot st'.provider := by
  have hsynced := (State.synced_new p).afterAll hπ accesses
  have hview : ∀ address key,
      (State.new st'.provider).reading address key =
        ((State.new p).afterAll accesses).reading address key := by
    intro address key
    rw [hsynced.reading_eq, ← State.slot_updateState hπ h]
    rfl
  refine ⟨fun address key hold hnew => ?_, fun hreads address key => ?_, fun order' st'' h' => ?_⟩
  · rw [State.storageAt_of_returns hπ.query hnew, State.storageAt_of_returns hπ.query hold, hview]
  · refine ⟨_, State.storageAt_of_readsReturn hπ.query hreads address key _, ?_⟩
    rw [← hview]
    exact State.storageAt_of_readsReturn hπ.query hreads address key _
  · funext address key
    rw [State.slot_updateState hπ h', State.slot_updateState hπ h]

theorem flush_reopen_chain :
    let p := Script.chain [Account.new FixedHash.zero 0 0 [1]]
    let key := Runtime.hashAt (Script.page [7]) 0
    let st := (State.new p).afterAll [.storageAt FixedHash.zero key, .setStorage FixedHash.zero key key]
    let q := (State.updateState HashOrder.listed st).2.provider
    (∀ address key, (State.storageAt address key st).1.Returns →
        (State.storageAt address key (State.new q)).1.Returns →
          (State.storageAt address key (State.new q)).1 = (State.storageAt address key st).1) ∧
      (∀ address key, ∃ value,
        (State.storageAt address key st).1 = .ok value ∧
          (State.storageAt address key (State.new q)).1 = .ok value) ∧
      ∀ order' st'', State.updateState order' st = (.ok (), st'') → slot st''.provider = slot q := by
  intro p key st q
  obtain ⟨_, h, _⟩ := Exec.eq_ok_of_toOption (show
    (State.updateState HashOrder.listed st).1.toOption.map id = some () by decide)
  obtain ⟨hsame, hvalue, horder⟩ := flush_reopen Blockchain.storesSlots h
  exact ⟨hsame, hvalue Blockchain.readsReturn, horder⟩

end Result

end Durian
