import Durian.Proof.Cache

/-!
# What the cache holds during a run

Two invariants, both kept by everything a run does. The balance and the nonce of a cached account
are those a fetch made of some answer of the provider. And the cache of a run that touches one
address only has no other account, its account is not marked, and its marked slots are the slots the
run has written, each with the value written last.
-/

namespace Durian

open Effects

variable {π : Type} [Provider π]

namespace State

/-- The fields of every cached account come from an answer of the provider, found between `p` and
now. -/
structure Sourced (p : π) (st : State π) : Prop where
  queried : Queried p st.provider
  fields : ∀ address entry, st.accounts.lookup address = some entry →
    ∃ q, Queried p q ∧ (Provider.account address q).1.Returns ∧
      entry.1.balance = (AccountInfo.fetched (Provider.account address q).1).balance ∧
      entry.1.nonce = (AccountInfo.fetched (Provider.account address q).1).nonce

/-- The cache of a run at `address` that has written `ws`. -/
structure Pending (address : Address) (ws : List (H256 × H256)) (st : State π) : Prop where
  only : ∀ a, a ∈ st.accounts → a = address
  unmarked : ∀ entry, st.accounts.lookup address = some entry → entry.2 = false
  written : ∀ key value,
    (∃ entry, st.accounts.lookup address = some entry ∧
      entry.1.storage.lookup key = some (value, true)) ↔ lastWrite ws key = some value

theorem sourced_new (p : π) : Sourced p (State.new p) :=
  ⟨.refl p, fun address entry hentry => by cases hentry⟩

omit [Provider π] in
theorem pending_new (address : Address) (p : π) : Pending address [] (State.new p) where
  only a hmem := by cases hmem
  unmarked entry hentry := by cases hentry
  written key value := by
    constructor
    · rintro ⟨entry, hentry, _⟩
      cases hentry
    · intro hnone
      cases hnone

variable {p : π} {address : Address} {ws : List (H256 × H256)} {st st' : State π}

theorem Sourced.insert (h : Sourced p st) {a : Address} {entry entry' : AccountInfo × Bool}
    (hentry : st.accounts.lookup a = some entry) (hbalance : entry'.1.balance = entry.1.balance)
    (hnonce : entry'.1.nonce = entry.1.nonce) :
    Sourced p { st with accounts := st.accounts.insert a entry' } := by
  refine ⟨h.queried, fun b found hfound => ?_⟩
  by_cases hab : b = a
  · subst hab
    rw [AList.lookup_insert, Option.some_inj] at hfound
    subst hfound
    obtain ⟨q, hq, hreturns, hb, hn⟩ := h.fields b entry hentry
    exact ⟨q, hq, hreturns, hbalance.trans hb, hnonce.trans hn⟩
  · rw [AList.lookup_insert_ne hab] at hfound
    exact h.fields b found hfound

theorem Sourced.ask (h : Sourced p st) (query : Query) :
    Sourced p { st with provider := query.after st.provider } :=
  ⟨h.queried.ask query, h.fields⟩

theorem Sourced.reads (h : Sourced p st) (hread : Reads address st st') : Sourced p st' := by
  induction hread with
  | refl => exact h
  | ask query _ ih => exact ih.ask query
  | account _ hnew hreturns ih =>
      refine ⟨ih.queried.ask (.account address), fun b found hfound => ?_⟩
      by_cases hab : b = address
      · subst hab
        rw [AList.lookup_insert, Option.some_inj] at hfound
        subst hfound
        exact ⟨_, ih.queried, hreturns, rfl, rfl⟩
      · rw [AList.lookup_insert_ne hab] at hfound
        exact ih.fields b found hfound
  | @slot _ _ key value _ hentry _ _ ih =>
      exact (ih.ask (.storageAt address key)).insert hentry rfl rfl

theorem Pending.ask (h : Pending address ws st) (query : Query) :
    Pending address ws { st with provider := query.after st.provider } :=
  ⟨h.only, h.unmarked, h.written⟩

/-- Reads leave the marked slots alone: what they put in is unmarked, and put in only where there
was nothing. -/
theorem Pending.reads (h : Pending address ws st) (hread : Reads address st st') :
    Pending address ws st' := by
  induction hread with
  | refl => exact h
  | ask query _ ih => exact ih.ask query
  | account _ hnew _ ih =>
      refine ⟨fun a hmem => ?_, fun entry hentry => ?_, fun key value => ?_⟩
      · exact ((AList.mem_insert _).mp hmem).elim id (ih.only a)
      · rw [AList.lookup_insert, Option.some_inj] at hentry
        rw [← hentry]
      · rw [← ih.written key value, AList.lookup_eq_none.mpr hnew, AList.lookup_insert]
        constructor
        · rintro ⟨entry, hentry, hslot⟩
          cases hentry
          rw [AccountInfo.fetched_storage] at hslot
          cases hslot
        · rintro ⟨entry, hentry, _⟩
          cases hentry
  | @slot st' entry key value _ hentry hnew _ ih =>
      refine ⟨fun a hmem => ?_, fun found hfound => ?_, fun key' value' => ?_⟩
      · exact ((AList.mem_insert _).mp hmem).elim id (ih.only a)
      · rw [AList.lookup_insert, Option.some_inj] at hfound
        rw [← hfound]
        exact ih.unmarked entry hentry
      · rw [← ih.written key' value', hentry, AList.lookup_insert]
        simp only [Option.some_inj, exists_eq_left']
        by_cases hkey : key' = key
        · subst hkey
          rw [AList.lookup_insert, AList.lookup_eq_none.mpr hnew]
          simp
        · rw [AList.lookup_insert_ne hkey]

omit [Provider π] in
theorem Pending.write (h : Pending address ws st) {entry : AccountInfo × Bool}
    (hentry : st.accounts.lookup address = some entry) (key value : H256) :
    Pending address (ws ++ [(key, value)])
      { st with accounts := st.accounts.insert address (writeSlot key value entry) } := by
  refine ⟨fun a hmem => ?_, fun found hfound => ?_, fun key' value' => ?_⟩
  · exact ((AList.mem_insert _).mp hmem).elim id (h.only a)
  · rw [AList.lookup_insert, Option.some_inj] at hfound
    rw [← hfound]
    exact h.unmarked entry hentry
  · rw [lastWrite_concat, AList.lookup_insert]
    simp only [Option.some_inj, exists_eq_left', writeSlot]
    by_cases hkey : key = key'
    · subst hkey
      rw [AList.lookup_insert, if_pos rfl]
      simp
    · rw [AList.lookup_insert_ne (Ne.symm hkey), if_neg hkey, ← h.written key' value', hentry]
      simp

/-- What is known of the cache of a run at `address`, begun at `p`, that has written `ws`. -/
structure Cached (p : π) (address : Address) (ws : List (H256 × H256)) (st : State π) : Prop where
  sourced : Sourced p st
  pending : Pending address ws st

theorem cached_new (p : π) (address : Address) : Cached p address [] (State.new p) :=
  ⟨sourced_new p, pending_new address p⟩

theorem Cached.ask (h : Cached p address ws st) (query : Query) :
    Cached p address ws { st with provider := query.after st.provider } :=
  ⟨h.sourced.ask query, h.pending.ask query⟩

theorem Cached.reads (h : Cached p address ws st) (hread : Reads address st st') :
    Cached p address ws st' :=
  ⟨h.sourced.reads hread, h.pending.reads hread⟩

theorem Cached.write (h : Cached p address ws st) {entry : AccountInfo × Bool}
    (hentry : st.accounts.lookup address = some entry) (key value : H256) :
    Cached p address (ws ++ [(key, value)])
      { st with accounts := st.accounts.insert address (writeSlot key value entry) } :=
  ⟨h.sourced.insert hentry rfl rfl, h.pending.write hentry key value⟩

theorem Cached.balance (h : Cached p address ws st) :
    Cached p address ws (State.balance address st).2 := by
  obtain ⟨st', entry, heq, hread, _⟩ | ⟨f, st', heq, hread, _⟩ := balance_cases address st
  · exact heq ▸ h.reads hread
  · exact heq ▸ h.reads hread

theorem Cached.storageAt (h : Cached p address ws st) (key : H256) :
    Cached p address ws (State.storageAt address key st).2 := by
  obtain ⟨st', entry, heq, hread, _⟩ | ⟨f, st', heq, hread, _⟩ := storageAt_cases address key st
  · exact heq ▸ h.reads hread
  · exact heq ▸ h.reads hread

theorem Cached.setStorage (h : Cached p address ws st) (key value : H256) :
    match State.setStorage address key value st with
    | (.ok (), st') => Cached p address (ws ++ [(key, value)]) st'
    | (.fail _, st') => Cached p address ws st' := by
  obtain ⟨st', entry, heq, hread, hentry⟩ | ⟨f, st', heq, hread, _⟩ :=
    setStorage_cases address key value st
  · rw [heq]
    exact (h.reads hread).write hentry key value
  · rw [heq]
    exact h.reads hread

end State

end Durian
