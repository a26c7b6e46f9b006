import Durian.Laws
import Durian.Proof.Cache

/-!
# What the storage reads as

A slot reads as the cache has it, else as the provider answers it, else as zero. Over a provider
whose storage is left alone by queries this is what every read answers, and reading changes none of
it: a read puts into the cache only what the slot read as already, and marks nothing.
-/

namespace Durian.State

open Effects

variable {π : Type}

/-- The cache's entry for a slot, with its mark. -/
def cachedSlot (st : State π) (address : Address) (key : H256) : Option (H256 × Bool) :=
  (st.accounts.lookup address).bind fun entry => entry.1.storage.lookup key

def marked (st : State π) (address : Address) (key : H256) : Option H256 :=
  (st.cachedSlot address key).bind fun v => if v.2 then some v.1 else none

theorem cachedSlot_of_lookup {st : State π} {address : Address} {entry : AccountInfo × Bool}
    (h : st.accounts.lookup address = some entry) (key : H256) :
    st.cachedSlot address key = entry.1.storage.lookup key := by
  rw [cachedSlot, h, Option.bind_some]

theorem cachedSlot_insert (p : π) (accounts : HashMap Address (AccountInfo × Bool))
    (address : Address) (entry : AccountInfo × Bool) (a : Address) (key : H256) :
    (⟨p, accounts.insert address entry⟩ : State π).cachedSlot a key =
      if a = address then entry.1.storage.lookup key
      else (⟨p, accounts⟩ : State π).cachedSlot a key := by
  by_cases ha : a = address
  · subst ha
    rw [if_pos rfl, cachedSlot_of_lookup (AList.lookup_insert _)]
  · rw [if_neg ha, cachedSlot, cachedSlot, AList.lookup_insert_ne ha]

variable [Provider π] {address : Address} {st st' : State π}

def reading (st : State π) (address : Address) (key : H256) : H256 :=
  (((st.cachedSlot address key).map Prod.fst).or (slot st.provider address key)).getD FixedHash.zero

/-- A read leaves a slot of the cache as it is, or fills it with an answer of the provider. -/
theorem Reads.cachedSlot_cases (hread : Reads address st st') (a : Address) (key : H256) :
    st'.cachedSlot a key = st.cachedSlot a key ∨
      st.cachedSlot a key = none ∧ ∃ q value, Queried st.provider q ∧
        Durian.slot q a key = some value ∧ st'.cachedSlot a key = some (value, false) := by
  induction hread with
  | refl => exact Or.inl rfl
  | ask query _ ih => exact ih
  | @account st' hread hnew _ ih =>
      rw [cachedSlot_insert]
      by_cases ha : a = address
      · have hnone : st'.cachedSlot a key = none := by
          rw [cachedSlot, ha, AList.lookup_eq_none.mpr hnew]
          rfl
        rw [hnone] at ih
        rw [if_pos ha, AccountInfo.fetched_storage]
        exact ih.imp id fun ⟨h, q, value, hq, hvalue, hnow⟩ => by cases hnow
      · rw [if_neg ha]
        exact ih
  | @slot st' entry k value hread hentry hnew hvalue ih =>
      rw [cachedSlot_insert]
      by_cases ha : a = address
      · subst ha
        rw [cachedSlot_of_lookup hentry] at ih
        rw [if_pos rfl]
        by_cases hk : key = k
        · subst hk
          rw [AList.lookup_eq_none.mpr hnew] at ih
          have hnone : st.cachedSlot a key = none :=
            ih.elim Eq.symm fun h => h.1
          refine Or.inr ⟨hnone, st'.provider, value, hread.queried, ?_, AList.lookup_insert _⟩
          rw [Durian.slot, hvalue]
        · rw [AList.lookup_insert_ne hk]
          exact ih
      · rw [if_neg ha]
        exact ih

theorem Reads.marked_eq (hread : Reads address st st') (a : Address) (key : H256) :
    st'.marked a key = st.marked a key := by
  obtain heq | ⟨hnone, _, value, _, _, hnow⟩ := hread.cachedSlot_cases a key
  · rw [marked, heq, marked]
  · rw [marked, hnow, marked, hnone]
    rfl

theorem Reads.reading_eq
    (hquery : ∀ (query : Query) (p : π), Durian.slot (query.after p) = Durian.slot p)
    (hread : Reads address st st') (a : Address) (key : H256) :
    st'.reading a key = st.reading a key := by
  have hprovider : Durian.slot st'.provider = Durian.slot st.provider :=
    hread.queried.eq_of Durian.slot hquery
  obtain heq | ⟨hnone, q, value, hq, hvalue, hnow⟩ := hread.cachedSlot_cases a key
  · rw [reading, reading, heq, hprovider]
  · rw [hq.eq_of Durian.slot hquery] at hvalue
    rw [reading, reading, hnone, hnow, hvalue]
    rfl

theorem storageAt_reading (hquery : ∀ (query : Query) (p : π), slot (query.after p) = slot p)
    (address : Address) (key : H256) (st : State π) :
    (State.storageAt address key st).1 = .ok (st.reading address key) ∨
      ∃ f, (State.storageAt address key st).1 = .fail f ∧ Crashed st.provider f := by
  obtain ⟨st', entry, heq, hread, hentry, hslot⟩ | ⟨f, st', heq, _, hcrash⟩ :=
    storageAt_cases address key st
  · refine Or.inl ?_
    rw [heq, ← hread.reading_eq hquery, reading, cachedSlot_of_lookup hentry, AccountInfo.slot]
    cases hlookup : entry.1.storage.lookup key with
    | some v => rfl
    | none =>
        obtain ⟨q, e, hq, hanswer⟩ := hslot.resolve_left (AList.lookup_eq_none.mp hlookup)
        have hnone : slot st'.provider address key = none := by
          rw [hread.queried.eq_of slot hquery, ← hq.eq_of slot hquery, slot, hanswer]
        rw [hnone]
        rfl
  · exact Or.inr ⟨f, by rw [heq], hcrash⟩

omit [Provider π] in
theorem cachedSlot_writeSlot (key value : H256) {entry : AccountInfo × Bool}
    (hentry : st.accounts.lookup address = some entry) (a : Address) (k : H256) :
    (⟨st.provider, st.accounts.insert address (writeSlot key value entry)⟩ : State π).cachedSlot a k =
      if a = address ∧ k = key then some (value, true) else st.cachedSlot a k := by
  rw [cachedSlot_insert]
  by_cases ha : a = address
  · subst ha
    by_cases hk : k = key
    · rw [if_pos rfl, if_pos ⟨rfl, hk⟩, hk, writeSlot, AList.lookup_insert]
    · rw [if_pos rfl, if_neg fun h => hk h.2, writeSlot, AList.lookup_insert_ne hk,
        ← cachedSlot_of_lookup hentry]
  · rw [if_neg ha, if_neg fun h => ha h.1]

omit [Provider π] in
theorem marked_writeSlot (key value : H256) {entry : AccountInfo × Bool}
    (hentry : st.accounts.lookup address = some entry) (a : Address) (k : H256) :
    (⟨st.provider, st.accounts.insert address (writeSlot key value entry)⟩ : State π).marked a k =
      if a = address ∧ k = key then some value else st.marked a k := by
  rw [marked, cachedSlot_writeSlot key value hentry]
  split
  · rfl
  · rfl

theorem reading_writeSlot (key value : H256) {entry : AccountInfo × Bool}
    (hentry : st.accounts.lookup address = some entry) (a : Address) (k : H256) :
    (⟨st.provider, st.accounts.insert address (writeSlot key value entry)⟩ : State π).reading a k =
      if a = address ∧ k = key then value else st.reading a k := by
  rw [reading, cachedSlot_writeSlot key value hentry]
  split
  · rfl
  · rfl

theorem storageAt_of_returns (hquery : ∀ (query : Query) (p : π), slot (query.after p) = slot p)
    {key : H256} (h : (State.storageAt address key st).1.Returns) :
    (State.storageAt address key st).1 = .ok (st.reading address key) := by
  refine (storageAt_reading hquery address key st).resolve_right ?_
  rintro ⟨f, hfail, hcrash⟩
  rw [hfail] at h
  exact hcrash.not_returns h

theorem storageAt_of_readsReturn (hquery : ∀ (query : Query) (p : π), slot (query.after p) = slot p)
    (hreads : ReadsReturn π) (address : Address) (key : H256) (st : State π) :
    (State.storageAt address key st).1 = .ok (st.reading address key) := by
  refine (storageAt_reading hquery address key st).resolve_right ?_
  rintro ⟨f, _, hcrash⟩
  exact hreads.not_crashed hcrash

/-! ### A cache that has only grown -/

/-- The fields of an account as the cache answers them: its nonce, its balance and its code. -/
def fields (address : Address) : Exec (State π) Error (U256 × U256 × Bytes) := do
  let acc ← State.account address
  pure (acc.nonce, acc.balance, acc.code)

/-- The cache has kept every entry it had, and has only got unmarked ones, all of them answers of
the provider. -/
structure Grown (st st' : State π) : Prop where
  queried : Queried st.provider st'.provider
  account : ∀ a entry, st.accounts.lookup a = some entry →
    ∃ storage, st'.accounts.lookup a = some ({ entry.1 with storage := storage }, entry.2)
  fetched : ∀ a entry, st.accounts.lookup a = none → st'.accounts.lookup a = some entry →
    entry.2 = false ∧ ∃ q storage, Queried st.provider q ∧
      (Provider.account a q).1.Returns ∧
      entry.1 = { AccountInfo.fetched (Provider.account a q).1 with storage := storage }
  slot : ∀ a k v, st.cachedSlot a k = some v → st'.cachedSlot a k = some v
  slotFetched : ∀ a k v, st.cachedSlot a k = none → st'.cachedSlot a k = some v →
    v.2 = false ∧ ∃ q, Queried st.provider q ∧ Durian.slot q a k = some v.1

theorem Reads.lookup_of_ne (hread : Reads address st st') {a : Address} (ha : a ≠ address) :
    st'.accounts.lookup a = st.accounts.lookup a := by
  induction hread with
  | refl => rfl
  | ask query _ ih => exact ih
  | account _ _ _ ih => rw [AList.lookup_insert_ne ha, ih]
  | slot _ _ _ _ ih => rw [AList.lookup_insert_ne ha, ih]

theorem Reads.lookup_cases (hread : Reads address st st') (a : Address) :
    (∀ entry, st.accounts.lookup a = some entry →
        ∃ storage, st'.accounts.lookup a = some ({ entry.1 with storage := storage }, entry.2)) ∧
      ∀ entry, st.accounts.lookup a = none → st'.accounts.lookup a = some entry →
        entry.2 = false ∧ ∃ q storage, Queried st.provider q ∧
          (Provider.account a q).1.Returns ∧
          entry.1 = { AccountInfo.fetched (Provider.account a q).1 with storage := storage } := by
  induction hread with
  | refl =>
      refine ⟨fun entry hentry => ⟨entry.1.storage, hentry⟩, fun entry hnone hentry => ?_⟩
      rw [hnone] at hentry
      cases hentry
  | ask query _ ih => exact ih
  | @account st' hread hnew hreturns ih =>
      by_cases ha : a = address
      · subst ha
        have hnone : st'.accounts.lookup a = none := AList.lookup_eq_none.mpr hnew
        refine ⟨fun entry hentry => ?_, fun entry _ hentry => ?_⟩
        · obtain ⟨storage, hkept⟩ := ih.1 entry hentry
          rw [hnone] at hkept
          cases hkept
        · rw [AList.lookup_insert] at hentry
          cases hentry
          exact ⟨rfl, st'.provider, _, hread.queried, hreturns, rfl⟩
      · rw [AList.lookup_insert_ne ha]
        exact ih
  | @slot st' entry' k value hread hentry' hnew hvalue ih =>
      by_cases ha : a = address
      · subst ha
        rw [AList.lookup_insert]
        refine ⟨fun entry hentry => ?_, fun entry hnone hentry => ?_⟩
        · obtain ⟨storage, hkept⟩ := ih.1 entry hentry
          rw [hentry'] at hkept
          cases hkept
          exact ⟨_, rfl⟩
        · obtain ⟨hmark, q, storage, hq, hreturns, hinfo⟩ := ih.2 entry' hnone hentry'
          cases hentry
          refine ⟨hmark, q, entry'.1.storage.insert k (value, false), hq, hreturns, ?_⟩
          rw [hinfo]
      · rw [AList.lookup_insert_ne ha]
        exact ih

theorem Reads.grown (hread : Reads address st st') : Grown st st' where
  queried := hread.queried
  account a entry := (hread.lookup_cases a).1 entry
  fetched a entry := (hread.lookup_cases a).2 entry
  slot a k v hv := by
    obtain heq | ⟨hnone, _⟩ := hread.cachedSlot_cases a k
    · rw [heq, hv]
    · rw [hv] at hnone
      cases hnone
  slotFetched a k v hnone hv := by
    obtain heq | ⟨_, q, value, hq, hvalue, hnow⟩ := hread.cachedSlot_cases a k
    · rw [heq, hnone] at hv
      cases hv
    · rw [hnow] at hv
      cases hv
      exact ⟨rfl, q, hq, hvalue⟩

theorem Grown.marked_iff (h : Grown st st') (a : Address) :
    (∃ info, st'.accounts.lookup a = some (info, true)) ↔
      ∃ info, st.accounts.lookup a = some (info, true) := by
  constructor
  · rintro ⟨info, hinfo⟩
    cases hentry : st.accounts.lookup a with
    | some entry =>
        obtain ⟨storage, hkept⟩ := h.account a entry hentry
        rw [hinfo] at hkept
        obtain ⟨_, hmark⟩ := Prod.mk.inj (Option.some.inj hkept)
        exact ⟨entry.1, by rw [hmark]⟩
    | none =>
        obtain ⟨hmark, _⟩ := h.fetched a _ hentry hinfo
        cases hmark
  · rintro ⟨info, hinfo⟩
    obtain ⟨storage, hkept⟩ := h.account a _ hinfo
    exact ⟨_, hkept⟩

theorem fields_of_lookup {a : Address} {entry : AccountInfo × Bool}
    (h : st.accounts.lookup a = some entry) :
    (fields a st).1 = .ok (entry.1.nonce, entry.1.balance, entry.1.code) := by
  have hmem : a ∈ st.accounts := AList.lookup_isSome.mp (by rw [h]; rfl)
  have hacc : State.account a st = (.ok entry.1, st) := by
    rw [State.account, Exec.bind_of_ok (fetchAccount_of_mem hmem), Exec.bind_apply,
      Exec.getOrPanic, h]
    rfl
  rw [fields, Exec.bind_of_ok hacc]
  rfl

theorem fields_of_none {a : Address} (h : st.accounts.lookup a = none) :
    (fields a st).1 = match (Provider.account a st.provider).1 with
      | .fail .panic => .fail .panic
      | .fail .fuel => .fail .fuel
      | answer => .ok ((AccountInfo.fetched answer).nonce, (AccountInfo.fetched answer).balance,
          (AccountInfo.fetched answer).code) := by
  rw [fields, State.account, bind_assoc, Exec.bind_apply,
    fetchAccount_of_not_mem (AList.lookup_eq_none.mp h)]
  rcases hanswer : Provider.account a st.provider with ⟨acc | e | _ | _, q⟩
  · simp only [Exec.bind_apply, Exec.getOrPanic, AList.lookup_insert, Exec.pure_apply]
  · simp only [Exec.bind_apply, Exec.getOrPanic, AList.lookup_insert, Exec.pure_apply]
  · rfl
  · rfl

/-- Over a provider that goes on reporting its accounts alike, growing changes no field. -/
theorem Grown.fields_eq
    (hquery : ∀ (query : Query) (p : π) a,
      (Provider.account a (query.after p)).1 = (Provider.account a p).1)
    (h : Grown st st') (a : Address) : (fields a st').1 = (fields a st).1 := by
  have hanswer : ∀ {p q : π}, Queried p q →
      (Provider.account a q).1 = (Provider.account a p).1 := fun hq =>
    hq.eq_of (fun p => (Provider.account a p).1) fun query p => hquery query p a
  cases hentry : st.accounts.lookup a with
  | some entry =>
      obtain ⟨storage, hkept⟩ := h.account a entry hentry
      rw [fields_of_lookup hentry, fields_of_lookup hkept]
  | none =>
      rw [fields_of_none hentry]
      cases hentry' : st'.accounts.lookup a with
      | some entry =>
          obtain ⟨_, q, storage, hq, hreturns, hinfo⟩ := h.fetched a entry hentry hentry'
          rw [hanswer hq] at hreturns hinfo
          rw [fields_of_lookup hentry', hinfo]
          rcases hprovider : (Provider.account a st.provider).1 with acc | e | _ | _
          · rfl
          · rfl
          · rw [hprovider] at hreturns
            exact hreturns.elim
          · rw [hprovider] at hreturns
            exact hreturns.elim
      | none => rw [fields_of_none hentry', hanswer h.queried]

end Durian.State
