import Durian.Base.Footprint
import Durian.Confinement
import Durian.Proof.LockstepAt
import Durian.Remote
import Durian.Replay
import Mathlib.Data.Set.Insert

/-!
# What a request touches

The example's blockchain falls into cells: for each address whether there is an account, what it is
apart from its storage, and each slot of its storage. A call of the provider touches cells of one
address, and the calls of a run all those of its contract. So the calls of two runs can be made in
either order where their contracts are different, and so can two calls of one contract that leave
each other's slots alone.
-/

namespace Durian

open Effects

/-! ### The cells of a blockchain -/

inductive Cell where
  | known (address : Address)
  | account (address : Address)
  | slot (address : Address) (key : H256)
  | blocks

inductive Content where
  | known (known : Bool)
  | account (account : Option StateAccount)
  | slot (value : Option H256)
  | blocks (blocks : List Block) (author : Address)

namespace Cell

def address : Cell → Option Address
  | .known address => some address
  | .account address => some address
  | .slot address _ => some address
  | .blocks => none

def content : Cell → Blockchain → Content
  | .known address, chain => .known (chain.find address).isSome
  | .account address, chain =>
      .account ((chain.find address).map fun acc => ⟨acc.nonce, acc.balance, acc.code⟩)
  | .slot address key, chain => .slot ((chain.find address).bind fun acc => acc.storage.lookup key)
  | .blocks, chain => .blocks chain.blocks chain.author

end Cell

namespace Request

/-- The account that a call is about. A call about the chain is about none. -/
def address : Request → Option Address
  | .exist address => some address
  | .account address => some address
  | .updateAccount address _ _ => some address
  | .createContract address _ => some address
  | .storageAt address _ => some address
  | .setStorage address _ _ => some address
  | _ => none

def touches : Request → Set Cell
  | .exist address => {.known address}
  | .account address => {.account address}
  | .updateAccount address _ _ => {.known address, .account address}
  | .createContract address _ => {c | c.address = some address}
  | .storageAt address key => {.known address, .slot address key}
  | .setStorage address key _ => {.known address, .slot address key}
  | _ => {.blocks}

def changes : Request → Set Cell
  | .updateAccount address _ _ => {.account address}
  | .createContract address _ => {c | c.address = some address}
  | .setStorage address key _ => {.slot address key}
  | _ => ∅

theorem changes_subset (request : Request) : request.changes ⊆ request.touches := by
  cases request with
  | updateAccount | setStorage => exact Set.subset_insert _ _
  | createContract => exact subset_rfl
  | exist | account | storageAt | timestamp | blockNumber | blockHash | blockAuthor | difficulty
  | gasLimit => exact Set.empty_subset _

theorem address_of_touches {request : Request} {c : Cell} (h : c ∈ request.touches) :
    c.address = request.address := by
  cases request with
  | createContract => exact h
  | exist | account | timestamp | blockNumber | blockHash | blockAuthor | difficulty | gasLimit =>
      rw [Set.mem_singleton_iff.mp h]
      rfl
  | updateAccount | storageAt | setStorage => obtain rfl | rfl := h <;> rfl

theorem touches_nonempty (request : Request) : request.touches.Nonempty := by
  cases request with
  | createContract address => exact ⟨.known address, rfl⟩
  | exist | account | timestamp | blockNumber | blockHash | blockAuthor | difficulty | gasLimit =>
      exact Set.singleton_nonempty _
  | updateAccount | storageAt | setStorage => exact Set.insert_nonempty _ _

/-- A call about the chain changes nothing. -/
theorem address_ne_none_of_changes {request : Request} {c : Cell} (h : c ∈ request.changes) :
    request.address ≠ none := by
  cases request with
  | updateAccount | createContract | setStorage => exact Option.some_ne_none _
  | exist | account | storageAt | timestamp | blockNumber | blockHash | blockAuthor | difficulty
  | gasLimit => cases h

end Request

/-! ### What the calls touch -/

namespace Blockchain

variable {s t : Blockchain}

theorem account_of_content {address : Address}
    (h : (Cell.account address).content s = (Cell.account address).content t) :
    (Provider.account address s).1 = (Provider.account address t).1 := by
  have hfind := Content.account.inj h
  rw [account_apply, account_apply]
  cases hs : s.find address <;> cases ht : t.find address <;> rw [hs, ht] at hfind
  · cases hfind
  · cases hfind
  · exact congrArg Outcome.ok (Option.some.inj hfind)

theorem storageAt_of_content {address : Address} {key : H256}
    (hknown : (Cell.known address).content s = (Cell.known address).content t)
    (hslot : (Cell.slot address key).content s = (Cell.slot address key).content t) :
    (Provider.storageAt address key s).1 = (Provider.storageAt address key t).1 := by
  have hknown' := Content.known.inj hknown
  have hslot' := Content.slot.inj hslot
  rw [storageAt_apply, storageAt_apply]
  cases hs : s.find address <;> cases ht : t.find address <;> rw [hs, ht] at hknown' hslot'
  · cases hknown'
  · cases hknown'
  · rename_i acc acc'
    have hlookup : acc.storage.lookup key = acc'.storage.lookup key := hslot'
    simp only [hlookup]

theorem accountMut_of_content {address : Address} (change : Account → Account)
    (h : (Cell.known address).content s = (Cell.known address).content t) :
    (accountMut address change s).1 = (accountMut address change t).1 := by
  rw [accountMut_fst, accountMut_fst, Content.known.inj h]

theorem known_accountMut {address : Address} {change : Account → Account}
    (hchange : ∀ acc, (change acc).address = acc.address) (chain : Blockchain) (a : Address) :
    (Cell.known a).content (accountMut address change chain).2 = (Cell.known a).content chain := by
  simp only [Cell.content, find_accountMut hchange]
  split <;> simp

theorem blocks_accountMut (address : Address) (change : Account → Account) (chain : Blockchain) :
    Cell.blocks.content (accountMut address change chain).2 = Cell.blocks.content chain := by
  obtain ⟨accounts, hafter⟩ := accountMut_snd address change chain
  rw [hafter]
  rfl

theorem find_afterUpdate (address : Address) (balance nonce : U256) (chain : Blockchain) (a : Address) :
    (Provider.updateAccount address balance nonce chain).2.find a = if a = address then
        (chain.find a).map fun acc => { acc with balance := balance, nonce := nonce }
      else chain.find a :=
  find_accountMut (fun acc => by rfl) chain a

theorem find_afterStore (address : Address) (key value : H256) (chain : Blockchain) (a : Address) :
    (Provider.setStorage address key value chain).2.find a = if a = address then
        (chain.find a).map fun acc => { acc with storage := acc.storage.insert key value }
      else chain.find a :=
  find_accountMut (fun acc => by rfl) chain a

theorem frame_updateAccount {address : Address} {balance nonce : U256} (chain : Blockchain) {c : Cell}
    (hc : c ≠ .account address) :
    c.content (Provider.updateAccount address balance nonce chain).2 = c.content chain := by
  cases c with
  | known a => exact known_accountMut (fun acc => by rfl) chain a
  | account a =>
      have ha : a ≠ address := fun heq => hc (congrArg Cell.account heq)
      simp only [Cell.content, find_afterUpdate, if_neg ha]
  | slot a key =>
      simp only [Cell.content, find_afterUpdate]
      split
      · cases chain.find a <;> rfl
      · rfl
  | blocks => exact blocks_accountMut address _ chain

theorem frame_setStorage {address : Address} {key value : H256} (chain : Blockchain) {c : Cell}
    (hc : c ≠ .slot address key) :
    c.content (Provider.setStorage address key value chain).2 = c.content chain := by
  cases c with
  | known a => exact known_accountMut (fun acc => by rfl) chain a
  | account a =>
      simp only [Cell.content, find_afterStore]
      split
      · cases chain.find a <;> rfl
      · rfl
  | slot a key' =>
      simp only [Cell.content, find_afterStore]
      by_cases ha : a = address
      · have hkey : key' ≠ key := fun heq => hc (by rw [ha, heq])
        rw [if_pos ha]
        cases chain.find a with
        | none => rfl
        | some acc => simp [AList.lookup_insert_ne hkey]
      · rw [if_neg ha]
  | blocks => exact blocks_accountMut address _ chain

theorem frame_createContract {address : Address} {code : Bytes} (chain : Blockchain) {c : Cell}
    (hc : c.address ≠ some address) :
    c.content (Provider.createContract address code chain).2 = c.content chain := by
  have hfind : ∀ a, some a ≠ some address →
      (Provider.createContract address code chain).2.find a = chain.find a := by
    intro a ha
    have hcreate : Provider.createContract address code chain =
      (.ok (), (Provider.createContract address code chain).2) := rfl
    rw [find_createContract hcreate, if_neg fun heq => ha (congrArg some heq)]
  cases c with
  | known a | account a | slot a key => simp only [Cell.content, hfind a hc]
  | blocks => rfl

theorem after_updateAccount {address : Address} {balance nonce : U256}
    (h : (Cell.account address).content s = (Cell.account address).content t) :
    (Cell.account address).content (Provider.updateAccount address balance nonce s).2 =
      (Cell.account address).content (Provider.updateAccount address balance nonce t).2 := by
  have hfind := Content.account.inj h
  simp only [Cell.content, find_afterUpdate, if_pos]
  cases hs : s.find address <;> cases ht : t.find address <;> rw [hs, ht] at hfind
  · cases hfind
  · cases hfind
  · have hcode := congrArg StateAccount.code (Option.some.inj hfind)
    exact congrArg (fun code => Content.account (some ⟨nonce, balance, code⟩)) hcode

theorem after_setStorage {address : Address} {key value : H256}
    (h : (Cell.known address).content s = (Cell.known address).content t) :
    (Cell.slot address key).content (Provider.setStorage address key value s).2 =
      (Cell.slot address key).content (Provider.setStorage address key value t).2 := by
  have hknown := Content.known.inj h
  simp only [Cell.content, find_afterStore, if_pos]
  cases hs : s.find address <;> cases ht : t.find address <;> rw [hs, ht] at hknown
  · cases hknown
  · cases hknown
  · simp [AList.lookup_insert]

theorem after_createContract {address : Address} {code : Bytes} {c : Cell}
    (hc : c.address = some address) :
    c.content (Provider.createContract address code s).2 =
      c.content (Provider.createContract address code t).2 := by
  have hfind : ∀ (chain : Blockchain) a, some a = some address →
      (Provider.createContract address code chain).2.find a =
        some (Account.new address 0 0 code) := by
    intro chain a ha
    have hcreate : Provider.createContract address code chain =
      (.ok (), (Provider.createContract address code chain).2) := rfl
    rw [find_createContract hcreate, if_pos (Option.some.inj ha)]
  cases c with
  | known a | account a | slot a key => simp only [Cell.content, hfind _ a hc]
  | blocks => cases hc

/-- A call that changes no cell leaves the blockchain as it is. -/
theorem perform_still {request : Request} (h : request.changes = ∅) (chain : Blockchain) :
    (request.perform chain).2 = chain := by
  cases request with
  | exist address => exact after_eq (.exist address) chain
  | account address => exact after_eq (.account address) chain
  | storageAt address key => exact after_eq (.storageAt address key) chain
  | timestamp => exact after_eq .timestamp chain
  | blockNumber => exact after_eq .blockNumber chain
  | blockHash number => exact after_eq (.blockHash number) chain
  | blockAuthor => exact after_eq .blockAuthor chain
  | difficulty => exact after_eq .difficulty chain
  | gasLimit => exact after_eq .gasLimit chain
  | updateAccount address balance nonce =>
      exact absurd h (Set.singleton_ne_empty _)
  | createContract address code =>
      exact absurd (h ▸ (show Cell.known address ∈ Request.changes (.createContract address code)
        from rfl)) (Set.notMem_empty _)
  | setStorage address key value => exact absurd h (Set.singleton_ne_empty _)

theorem answer_of_content {request : Request}
    (h : ∀ c ∈ request.touches, c.content s = c.content t) :
    (request.perform s).1 = (request.perform t).1 := by
  cases request with
  | exist address =>
      exact congrArg (fun known => Reply.known (.ok known)) (Content.known.inj (h _ rfl))
  | account address => exact congrArg Reply.account (account_of_content (h _ rfl))
  | updateAccount address balance nonce =>
      exact congrArg Reply.done (accountMut_of_content _ (h _ (Or.inl rfl)))
  | createContract address code => rfl
  | storageAt address key =>
      exact congrArg Reply.hash (storageAt_of_content (h _ (Or.inl rfl)) (h _ (Or.inr rfl)))
  | setStorage address key value =>
      exact congrArg Reply.done (accountMut_of_content _ (h _ (Or.inl rfl)))
  | timestamp | blockNumber =>
      have hblocks := (Content.blocks.inj (h _ rfl)).1
      apply congrArg Reply.number
      exact Exec.getOrPanic_bind_fst (congrArg List.getLast? hblocks) fun _ => rfl
  | blockHash number =>
      have hblocks := (Content.blocks.inj (h _ rfl)).1
      apply congrArg Reply.hash
      exact Exec.getOrPanic_bind_fst (congrArg (fun blocks => blocks[number.toNat]?) hblocks)
        fun _ => rfl
  | blockAuthor =>
      exact congrArg (fun author => Reply.author (.ok author)) (Content.blocks.inj (h _ rfl)).2
  | difficulty | gasLimit => rfl

theorem after_of_content {request : Request}
    (h : ∀ c ∈ request.touches, c.content s = c.content t) {c : Cell} (hc : c ∈ request.changes) :
    c.content (request.perform s).2 = c.content (request.perform t).2 := by
  cases request with
  | updateAccount address balance nonce =>
      obtain rfl := Set.mem_singleton_iff.mp hc
      exact after_updateAccount (h _ (Or.inr rfl))
  | createContract address code => exact after_createContract hc
  | setStorage address key value =>
      obtain rfl := Set.mem_singleton_iff.mp hc
      exact after_setStorage (h _ (Or.inl rfl))
  | exist | account | storageAt | timestamp | blockNumber | blockHash | blockAuthor | difficulty
  | gasLimit => cases hc

theorem frame_perform {request : Request} (chain : Blockchain) {c : Cell} (hc : c ∉ request.changes) :
    c.content (request.perform chain).2 = c.content chain := by
  cases request with
  | updateAccount address balance nonce =>
      exact frame_updateAccount chain fun heq => hc (Set.mem_singleton_iff.mpr heq)
  | createContract address code => exact frame_createContract chain hc
  | setStorage address key value =>
      exact frame_setStorage chain fun heq => hc (Set.mem_singleton_iff.mpr heq)
  | exist | account | storageAt | timestamp | blockNumber | blockHash | blockAuthor | difficulty
  | gasLimit => rw [perform_still rfl chain]

def footprint : Footprint (Request.perform (π := Blockchain)) Cell Content where
  content := Cell.content
  touches := Request.touches
  changes := Request.changes
  changes_subset := Request.changes_subset
  answer _ _ _ h := answer_of_content h
  after _ _ _ h _ hc := after_of_content h hc
  frame _ chain _ hc := frame_perform chain hc

end Blockchain

/-! ### Through the server -/

namespace Served

variable {π : Type} [Provider π]

/-- An answer of the client as the virtual machine sees it. -/
def relayedReply (describe : Error → String) : Reply → Reply
  | .account answer => .account (answer.mapErr (relayed describe))
  | .done answer => .done (answer.mapErr (relayed describe))
  | .hash answer => .hash (answer.mapErr (relayed describe))
  | reply => reply

/-- The server answers a call with what the client answered, or by itself. -/
theorem perform_cases (describe : Error → String) (request : Request) :
    (∀ p : π, request.perform (adaptor describe p) =
        (relayedReply describe (request.perform p).1, adaptor describe (request.perform p).2)) ∨
      ∃ reply, ∀ p : π, request.perform (adaptor describe p) = (reply, adaptor describe p) := by
  cases request with
  | exist address =>
      exact .inl fun p => congrArg (Prod.map Reply.known id) (exist_eq describe p address)
  | account address =>
      exact .inl fun p => congrArg (Prod.map Reply.account id) (account_eq describe p address)
  | storageAt address key =>
      exact .inl fun p => congrArg (Prod.map Reply.hash id) (storageAt_eq describe p address key)
  | updateAccount address balance nonce =>
      exact .inl fun p => congrArg (Prod.map Reply.done id)
        (perform_eq describe p (.updateAccount address balance nonce))
  | createContract address code =>
      exact .inl fun p => congrArg (Prod.map Reply.done id)
        (perform_eq describe p (.createContract address code))
  | setStorage address key value =>
      exact .inl fun p => congrArg (Prod.map Reply.done id)
        (perform_eq describe p (.setStorage address key value))
  | timestamp | blockNumber | blockHash | blockAuthor | difficulty | gasLimit =>
      exact .inr ⟨_, fun _ => rfl⟩

variable {χ ν : Type}

def content (f : Footprint (Request.perform (π := π)) χ ν) (c : χ) (s : ProviderAdaptor (Served π)) :
    (Error → String) × ν :=
  (s.client.describe, f.content c s.client.provider)

/-- A call either does at the client what it does, or nothing. -/
theorem content_perform (f : Footprint (Request.perform (π := π)) χ ν) (describe : Error → String)
    (request : Request) :
    (∀ c (p : π), content f c (request.perform (adaptor describe p)).2 =
        (describe, f.content c (request.perform p).2)) ∨
      ∀ c (p : π),
        content f c (request.perform (adaptor describe p)).2 = (describe, f.content c p) := by
  obtain hrelay | ⟨reply, hreply⟩ := perform_cases (π := π) describe request
  · exact .inl fun c p => congrArg (fun answered => content f c answered.2) (hrelay p)
  · exact .inr fun c p => congrArg (fun answered => content f c answered.2) (hreply p)

/-- What a call touches on the server is what it touches at the client, and the client's words for an
error. -/
def footprint (f : Footprint (Request.perform (π := π)) χ ν)
    (htouches : ∀ request, (f.touches request).Nonempty) :
    Footprint (Request.perform (π := ProviderAdaptor (Served π))) χ ((Error → String) × ν) where
  content := content f
  touches := f.touches
  changes := f.changes
  changes_subset := f.changes_subset
  answer request := by
    rintro ⟨⟨p, describe⟩⟩ ⟨⟨q, describe'⟩⟩ h
    obtain ⟨c, hc⟩ := htouches request
    obtain rfl : describe = describe' := congrArg Prod.fst (h c hc)
    have hanswer := f.answer request p q fun c hc => congrArg Prod.snd (h c hc)
    obtain hrelay | ⟨reply, hreply⟩ := perform_cases (π := π) describe request
    · calc (request.perform (adaptor describe p)).1
          = relayedReply describe (request.perform p).1 := congrArg Prod.fst (hrelay p)
        _ = relayedReply describe (request.perform q).1 := congrArg (relayedReply describe) hanswer
        _ = (request.perform (adaptor describe q)).1 := (congrArg Prod.fst (hrelay q)).symm
    · exact (congrArg Prod.fst (hreply p)).trans (congrArg Prod.fst (hreply q)).symm
  after request := by
    rintro ⟨⟨p, describe⟩⟩ ⟨⟨q, describe'⟩⟩ h c hc
    have hsame := h c (f.changes_subset request hc)
    obtain rfl : describe = describe' := congrArg Prod.fst hsame
    have hafter := f.after request p q (fun c hc => congrArg Prod.snd (h c hc)) c hc
    obtain hdone | hkept := content_perform f describe request
    · calc content f c (request.perform (adaptor describe p)).2
          = (describe, f.content c (request.perform p).2) := hdone c p
        _ = (describe, f.content c (request.perform q).2) := congrArg (Prod.mk describe) hafter
        _ = content f c (request.perform (adaptor describe q)).2 := (hdone c q).symm
    · exact (hkept c p).trans (hsame.trans (hkept c q).symm)
  frame request := by
    rintro ⟨⟨p, describe⟩⟩ c hc
    obtain hdone | hkept := content_perform f describe request
    · exact (hdone c p).trans (congrArg (Prod.mk describe) (f.frame request p c hc))
    · exact hkept c p

theorem independent {f : Footprint (Request.perform (π := π)) χ ν}
    (htouches : ∀ request, (f.touches request).Nonempty) {x y : Request} (h : f.Independent x y) :
    (footprint f htouches).Independent x y :=
  ⟨h.left, h.right⟩

end Served

/-! ### The calls of a run -/

def Mutation.request : Mutation → Request
  | .updateAccount address balance nonce => .updateAccount address balance nonce
  | .createContract address code => .createContract address code
  | .setStorage address key value => .setStorage address key value

/-- The call is about the account at the address, or about the chain. -/
def Request.About (address : Address) (request : Request) : Prop :=
  ∀ a ∈ request.address, a = address

/-- A call changes nothing that a call about another account touches. -/
theorem Request.About.apart {address address' : Address} (hne : address ≠ address') {x y : Request}
    (hx : x.About address) (hy : y.About address') : ∀ c ∈ x.changes, c ∉ y.touches := by
  intro c hchanged htouched
  have hcx : c.address = x.address := address_of_touches (x.changes_subset hchanged)
  have hcy : c.address = y.address := address_of_touches htouched
  obtain ⟨a, ha⟩ := Option.ne_none_iff_exists'.mp (address_ne_none_of_changes hchanged)
  have haddress : a = address := hx a ha
  have haddress' : a = address' := hy a (hcy.symm.trans (hcx.trans ha))
  exact hne (haddress.symm.trans haddress')

/-- **Calls about different accounts** are independent of each other. -/
theorem Request.independent_of_about {address address' : Address} (hne : address ≠ address')
    {x y : Request} (hx : x.About address) (hy : y.About address') :
    Blockchain.footprint.Independent x y :=
  ⟨hx.apart hne hy, hy.apart hne.symm hx⟩

/-- The slot that a call writes. -/
def Request.written : Request → Option (Address × H256)
  | .setStorage address key _ => some (address, key)
  | _ => none

/-- The slot that a call reads or writes. -/
def Request.place : Request → Option (Address × H256)
  | .storageAt address key => some (address, key)
  | .setStorage address key _ => some (address, key)
  | _ => none

/-- The call changes nothing, or one slot. -/
def Request.OnlyStores (request : Request) : Prop :=
  ∀ mutation : Mutation, request = mutation.request → mutation.IsSetStorage

theorem Request.OnlyStores.place_of_touches {request : Request} (h : request.OnlyStores)
    {address : Address} {key : H256} (hmem : Cell.slot address key ∈ request.touches) :
    request.place = some (address, key) := by
  cases request with
  | createContract address' code => exact absurd (h (.createContract address' code) rfl) id
  | exist | account | timestamp | blockNumber | blockHash | blockAuthor | difficulty | gasLimit =>
      cases hmem
  | updateAccount => obtain hmem | hmem := hmem <;> cases hmem
  | storageAt | setStorage =>
      obtain hmem | hmem := hmem
      · cases hmem
      · cases hmem
        rfl

/-- A call changes nothing that a call about another slot touches. -/
theorem Request.OnlyStores.apart {x y : Request} (hx : x.OnlyStores) (hy : y.OnlyStores)
    (h : ∀ slot ∈ x.written, y.place ≠ some slot) : ∀ c ∈ x.changes, c ∉ y.touches := by
  intro c hchanged htouched
  cases x with
  | updateAccount address balance nonce =>
      exact absurd (hx (.updateAccount address balance nonce) rfl) id
  | createContract address code => exact absurd (hx (.createContract address code) rfl) id
  | setStorage address key value =>
      obtain rfl := Set.mem_singleton_iff.mp hchanged
      exact h (address, key) rfl (hy.place_of_touches htouched)
  | exist | account | storageAt | timestamp | blockNumber | blockHash | blockAuthor | difficulty
  | gasLimit => cases hchanged

/-- **Calls about different slots**, of one account or of two, are independent of each other. -/
theorem Request.independent_of_slots {x y : Request} (hx : x.OnlyStores) (hy : y.OnlyStores)
    (hxy : ∀ slot ∈ x.written, y.place ≠ some slot)
    (hyx : ∀ slot ∈ y.written, x.place ≠ some slot) : Blockchain.footprint.Independent x y :=
  ⟨hx.apart hy hxy, hy.apart hx hyx⟩

namespace Replay

variable {ε α : Type}

/-- A replay that goes on has given its next answer, to the call that was made. -/
theorem ask_cases (request : Request) (read : Reply → Option (Outcome ε α)) (replay : Replay) :
    (ask request read replay).1 = .fail .fuel ∨
      ∃ made, replay.rest = made :: (ask request read replay).2.rest ∧ made.call = request := by
  unfold ask
  cases replay.rest with
  | nil => exact Or.inl rfl
  | cons made rest =>
      by_cases hcall : made.call = request
      · dsimp only
        rw [if_pos hcall]
        cases read made.answer with
        | none => exact Or.inl rfl
        | some outcome => exact Or.inr ⟨made, rfl, hcall⟩
      · dsimp only
        rw [if_neg hcall]
        exact Or.inl rfl

theorem perform_eq (mutation : Mutation) :
    (mutation.perform : Exec Replay Error Unit) = ask mutation.request Reply.done? := by
  cases mutation <;> rfl

/-- The same replay twice, in which every call that was answered is about the account. -/
def Keeps (address : Address) (calls : List (Made Request Reply)) (r r' : Replay) : Prop :=
  r = r' ∧ ∃ made, calls = made ++ r.rest ∧ ∀ m ∈ made, m.call.About address

variable {address : Address} {calls : List (Made Request Reply)}

theorem ask_keeps {request : Request} {read : Reply → Option (Outcome ε α)}
    (h : request.About address) :
    Sim (.lockstep (Keeps address calls) ε) (ask request read) (ask request read) := by
  rw [Sim.lockstep_iff]
  rintro replay _ ⟨rfl, made, hcalls, hmade⟩
  obtain hfuel | ⟨m, hrest, hcall⟩ := ask_cases request read replay
  · exact Or.inl hfuel
  · refine Or.inr ⟨rfl, rfl, made ++ [m], by rw [hcalls, hrest, List.append_assoc]; rfl, ?_⟩
    intro m' hmem
    obtain hmem | hmem := List.mem_append.mp hmem
    · exact hmade m' hmem
    · rw [List.mem_singleton.mp hmem, hcall]
      exact h

theorem perform_keeps {mutation : Mutation} (h : mutation.address = address) :
    Sim (.lockstep (Keeps address calls) Error) mutation.perform mutation.perform := by
  rw [perform_eq]
  subst h
  apply ask_keeps
  cases mutation <;> exact fun a ha => (Option.some.inj ha).symm

theorem lockstepAt (address : Address) (order : HashOrder) (calls : List (Made Request Reply)) :
    LockstepAt address order order (Keeps address calls) (id : Error → Error) where
  account := Sim.lockstep_mapErr id (ask_keeps fun a ha => (Option.some.inj ha).symm)
  storageAt key := Sim.lockstep_mapErr id (ask_keeps fun a ha => (Option.some.inj ha).symm)
  deploy info := by
    have hexist : Sim (.lockstep (Keeps address calls) Empty) (Provider.exist address)
        (Provider.exist address) := ask_keeps fun a ha => (Option.some.inj ha).symm
    apply Sim.lockstep_mapErr
    apply (Sim.lockstep_infallible hexist).bind
    intro known
    apply perform_keeps
    cases known <;> rfl
  storeSlots info := by
    apply Sim.lockstep_mapErr
    rw [State.storeSlots, Mutation.performAll, Exec.forEach_map]
    apply Sim.forEach
    intro slot
    apply perform_keeps
    rfl
  blockNumber := ask_keeps fun a ha => by cases ha
  blockHash number := ask_keeps fun a ha => by cases ha
  blockAuthor := ask_keeps fun a ha => by cases ha
  difficulty := ask_keeps fun a ha => by cases ha
  gasLimit := ask_keeps fun a ha => by cases ha

/-- A replay beside a traced one that has every mutation on its list that was answered. -/
def Listed (calls : List (Made Request Reply)) (r : Replay) (t : Traced Replay) : Prop :=
  t.provider = r ∧ ∃ made, calls = made ++ r.rest ∧
    ∀ m ∈ made, ∀ mutation : Mutation, m.call = mutation.request → mutation ∈ t.issued

theorem Listed.ask {request : Request} {read : Reply → Option (Outcome ε α)}
    {m : Exec (Traced Replay) ε α}
    (hfst : ∀ t, (m t).1 = (ask request read t.provider).1)
    (hprovider : ∀ t, (m t).2.provider = (ask request read t.provider).2)
    (hissued : ∀ t, t.issued ⊆ (m t).2.issued)
    (hnew : ∀ mutation : Mutation, request = mutation.request → ∀ t, mutation ∈ (m t).2.issued) :
    Sim (.lockstep (Listed calls) ε) (ask request read) m := by
  rw [Sim.lockstep_iff]
  rintro _ t ⟨rfl, made, hcalls, hmade⟩
  obtain hfuel | ⟨m', hrest, hcall⟩ := ask_cases request read t.provider
  · exact Or.inl hfuel
  · refine Or.inr ⟨(hfst t).symm, hprovider t, made ++ [m'],
      by rw [hcalls, hrest, List.append_assoc]; rfl, ?_⟩
    intro m'' hmem mutation hmutation
    obtain hmem | hmem := List.mem_append.mp hmem
    · exact hissued t (hmade m'' hmem mutation hmutation)
    · obtain rfl := List.mem_singleton.mp hmem
      exact hnew mutation (hcall.symm.trans hmutation) t

theorem Listed.query {request : Request} {read : Reply → Option (Outcome ε α)}
    (h : ∀ mutation : Mutation, request ≠ mutation.request) :
    Sim (.lockstep (Listed calls) ε) (Replay.ask request read)
      (Traced.pass (Replay.ask request read)) :=
  Listed.ask (fun _ => rfl) (fun _ => rfl) (fun _ => List.Subset.refl _)
    fun mutation hmutation => absurd hmutation (h mutation)

theorem Listed.mutation (mutation : Mutation) :
    Sim (.lockstep (Listed calls) Error) mutation.perform mutation.perform := by
  rw [perform_eq, Traced.perform_eq]
  apply Listed.ask
  · intro t
    rw [Traced.record, perform_eq]
    rfl
  · intro t
    rw [Traced.record, perform_eq]
    rfl
  · exact fun t => List.subset_append_left _ _
  · intro mutation' hrequest t
    have hsame : mutation = mutation' := by
      cases mutation <;> cases mutation' <;> cases hrequest <;> rfl
    rw [← hsame]
    exact List.mem_append_right _ List.mem_cons_self

theorem listed (calls : List (Made Request Reply)) :
    Lockstep (Listed calls) (id : Error → Error) where
  exist address := Listed.query fun mutation h => by cases mutation <;> cases h
  account address :=
    Sim.lockstep_mapErr id (Listed.query fun mutation h => by cases mutation <;> cases h)
  storageAt address key :=
    Sim.lockstep_mapErr id (Listed.query fun mutation h => by cases mutation <;> cases h)
  mutation mutation := Sim.lockstep_mapErr id (Listed.mutation mutation)
  blockNumber := Listed.query fun mutation h => by cases mutation <;> cases h
  blockHash number := Listed.query fun mutation h => by cases mutation <;> cases h
  blockAuthor := Listed.query fun mutation h => by cases mutation <;> cases h
  difficulty := Listed.query fun mutation h => by cases mutation <;> cases h
  gasLimit := Listed.query fun mutation h => by cases mutation <;> cases h

end Replay

/-- Every call of a run is about its contract, or about the chain. -/
theorem calls_about {M L γ : Type} {crates : Crates M L γ} {logTrace : Bool} {order : HashOrder}
    {fuel : Nat} {transaction : Transaction} {calls : List (Made Request Reply)}
    {outcome : Outcome Error ResultData}
    (hrun : execute crates logTrace order fuel transaction (Replay.start calls) =
      (outcome, Replay.start [])) (hends : outcome ≠ .fail .fuel) :
    ∀ made ∈ calls, made.call.About (transaction.contract crates) := by
  have hsim := Sim.lockstep_iff.mp (execute_sim_at crates logTrace fuel transaction
    (Replay.lockstepAt (transaction.contract crates) order calls)) (Replay.start calls)
    (Replay.start calls) ⟨rfl, [], rfl, fun _ hmem => by cases hmem⟩
  rw [Exec.mapErr_id, hrun] at hsim
  obtain ⟨_, _, made, hcalls, hmade⟩ := hsim.resolve_left hends
  have hall : calls = made := hcalls.trans (List.append_nil made)
  rwa [hall]

/-- Every call of a transaction that is itself a call changes nothing, or one slot. -/
theorem calls_onlyStore {M L γ : Type} {crates : Crates M L γ} {logTrace : Bool} {order : HashOrder}
    {fuel : Nat} {transaction : Transaction} {callee : Address}
    {calls : List (Made Request Reply)} {outcome : Outcome Error ResultData}
    (haction : transaction.action = .call callee)
    (hrun : execute crates logTrace order fuel transaction (Replay.start calls) =
      (outcome, Replay.start [])) (hends : outcome ≠ .fail .fuel) :
    ∀ made ∈ calls, made.call.OnlyStores := by
  have hsim := Sim.lockstep_iff.mp (execute_sim crates logTrace order fuel transaction
    (Replay.listed calls)) (Replay.start calls) (Traced.start (Replay.start calls))
    ⟨rfl, [], rfl, fun _ hmem => by cases hmem⟩
  rw [Exec.mapErr_id, Exec.mapErr_id, hrun] at hsim
  obtain ⟨_, _, made, hcalls, hmade⟩ := hsim.resolve_left hends
  have hall : calls = made := hcalls.trans (List.append_nil made)
  rw [hall]
  intro m hmem mutation hmutation
  have hissued := hmade m hmem mutation hmutation
  exact isSetStorage_of_call crates logTrace order fuel transaction _ haction mutation hissued

end Durian
