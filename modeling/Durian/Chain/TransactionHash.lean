import Durian.Base.Overlay
import Durian.Chain.Calls
import Durian.Script
import Mathlib.Data.Set.Function

/-!
# The hash of a transaction

A transaction is hashed as its fields one after another, without their lengths and without a mark
for its kind. The fields in front are of a fixed length, and end up in the same place. Behind them
the code of a creation runs into its salt and its arguments, and a creation reads as a call.
-/

namespace Durian.Chain

open Effects

/-! ### The two halves of the bytes -/

/-- The fields of every transaction. -/
def headBytes (transaction : Transaction) : Bytes :=
  transaction.sender.asBytes ++ transaction.value.toLittleEndian ++
    transaction.gas.toLittleEndian ++ transaction.gasPrice.toLittleEndian

/-- The fields that are not told apart: code, salt and arguments, or address and arguments. -/
def tailBytes (transaction : Transaction) : Bytes :=
  actionBytes transaction.action ++ transaction.args

theorem transactionBytes_eq (transaction : Transaction) :
    transactionBytes transaction = headBytes transaction ++ tailBytes transaction := by
  rw [tailBytes, ← List.append_assoc]
  rfl

/-- The transactions have their fields in front in common. -/
structure SameHead (t t' : Transaction) : Prop where
  sender : t.sender = t'.sender
  value : t.value = t'.value
  gas : t.gas = t'.gas
  gasPrice : t.gasPrice = t'.gasPrice

theorem toLittleEndian_inj {a b : U256} (h : a.toLittleEndian = b.toLittleEndian) : a = b := by
  have hread := (U256.fromLittleEndian_toLittleEndian a : _ = (Outcome.ok a : Outcome Empty U256))
  rw [h, U256.fromLittleEndian_toLittleEndian] at hread
  exact (Outcome.ok.inj hread).symm

theorem asBytes_inj {n : Nat} {h h' : FixedHash n} (heq : h.asBytes = h'.asBytes) : h = h' := by
  obtain ⟨bytes, _⟩ := h
  obtain ⟨bytes', _⟩ := h'
  cases heq
  rfl

theorem headBytes_length (transaction : Transaction) : (headBytes transaction).length = 116 := by
  have hsender : transaction.sender.asBytes.length = 20 := transaction.sender.length_eq
  simp [headBytes, hsender]

theorem headBytes_inj {t t' : Transaction} (h : headBytes t = headBytes t') : SameHead t t' := by
  have hlength : ∀ a b : U256, a.toLittleEndian.length = b.toLittleEndian.length := by simp
  obtain ⟨h, hgasPrice⟩ := List.append_inj' h (hlength _ _)
  obtain ⟨h, hgas⟩ := List.append_inj' h (hlength _ _)
  obtain ⟨hsender, hvalue⟩ := List.append_inj' h (hlength _ _)
  exact ⟨asBytes_inj hsender, toLittleEndian_inj hvalue, toLittleEndian_inj hgas,
    toLittleEndian_inj hgasPrice⟩

theorem SameHead.headBytes {t t' : Transaction} (h : SameHead t t') : headBytes t = headBytes t' := by
  rw [Chain.headBytes, Chain.headBytes, h.sender, h.value, h.gas, h.gasPrice]

theorem transactionBytes_eq_iff {t t' : Transaction} :
    transactionBytes t = transactionBytes t' ↔ SameHead t t' ∧ tailBytes t = tailBytes t' := by
  rw [transactionBytes_eq, transactionBytes_eq]
  constructor
  · intro h
    obtain ⟨hhead, htail⟩ := List.append_inj h (by rw [headBytes_length, headBytes_length])
    exact ⟨headBytes_inj hhead, htail⟩
  · rintro ⟨hhead, htail⟩
    rw [hhead.headBytes, htail]

/-! ### When two transactions are told apart -/

/-- The actions put their fields in the same places. -/
def SameLayout : Durian.Action → Durian.Action → Prop
  | .create code _, .create code' _ => code.length = code'.length
  | .call _, .call _ => True
  | _, _ => False

theorem sameLayout_self (action : Durian.Action) : SameLayout action action := by
  cases action <;> trivial

theorem tailBytes_inj {t t' : Transaction} (hlayout : SameLayout t.action t'.action)
    (h : tailBytes t = tailBytes t') : t.action = t'.action ∧ t.args = t'.args := by
  unfold tailBytes at h
  cases haction : t.action with
  | create code salt =>
      cases haction' : t'.action with
      | create code' salt' =>
          rw [haction, haction'] at h hlayout
          have hsalt : salt.asBytes.length = salt'.asBytes.length :=
            salt.length_eq.trans salt'.length_eq.symm
          have hlength : (code ++ salt.asBytes).length = (code' ++ salt'.asBytes).length := by
            rw [List.length_append, List.length_append, hlayout, hsalt]
          obtain ⟨hcode, hargs⟩ := List.append_inj h hlength
          obtain ⟨rfl, hsalts⟩ := List.append_inj hcode hlayout
          rw [asBytes_inj hsalts]
          exact ⟨rfl, hargs⟩
      | call address =>
          rw [haction, haction'] at hlayout
          cases hlayout
  | call address =>
      cases haction' : t'.action with
      | create code' salt' =>
          rw [haction, haction'] at hlayout
          cases hlayout
      | call address' =>
          rw [haction, haction'] at h
          obtain ⟨haddress, hargs⟩ := List.append_inj h (address.length_eq.trans address'.length_eq.symm)
          rw [asBytes_inj haddress]
          exact ⟨rfl, hargs⟩

/-- Two transactions the hash tells apart if they differ: their fields in front differ, or they put
the others in the same places, or these are not the same bytes anyway. -/
def ToldApart (t t' : Transaction) : Prop :=
  ¬ SameHead t t' ∨ SameLayout t.action t'.action ∨ tailBytes t ≠ tailBytes t'

theorem transactionBytes_inj_iff {t t' : Transaction} :
    (transactionBytes t = transactionBytes t' → t = t') ↔ ToldApart t t' := by
  rw [transactionBytes_eq_iff]
  constructor
  · intro h
    by_cases hhead : SameHead t t'
    · by_cases htail : tailBytes t = tailBytes t'
      · obtain rfl := h ⟨hhead, htail⟩
        exact Or.inr (Or.inl (sameLayout_self t.action))
      · exact Or.inr (Or.inr htail)
    · exact Or.inl hhead
  · rintro hapart ⟨hhead, htail⟩
    have hlayout := (hapart.resolve_left (not_not_intro hhead)).resolve_right (not_not_intro htail)
    obtain ⟨haction, hargs⟩ := tailBytes_inj hlayout htail
    obtain ⟨sender, value, gas, gasPrice, action, args⟩ := t
    obtain ⟨sender', value', gas', gasPrice', action', args'⟩ := t'
    obtain ⟨rfl, rfl, rfl, rfl⟩ := hhead
    cases haction
    cases hargs
    rfl

/-- Every creation is hashed as some call is. -/
theorem exists_call_of_create {t : Transaction} {code : Bytes} {salt : H256}
    (h : t.action = .create code salt) :
    ∃ t' address, t'.action = .call address ∧ transactionBytes t' = transactionBytes t := by
  have hlength : 20 ≤ (tailBytes t).length := by
    have hsalt : salt.asBytes.length = 32 := salt.length_eq
    rw [tailBytes, h]
    simp only [actionBytes, List.length_append, hsalt]
    omega
  let address : Address := ⟨(tailBytes t).take 20, by rw [List.length_take]; omega⟩
  refine ⟨{ t with action := .call address, args := (tailBytes t).drop 20 }, address, rfl, ?_⟩
  rw [transactionBytes_eq_iff]
  exact ⟨⟨rfl, rfl, rfl, rfl⟩, List.take_append_drop 20 (tailBytes t)⟩

/-! ### Transactions that were added -/

/-- Transactions are added one after another, with their results. -/
def Blockchain.addAll (added : List (Transaction × ResultData)) : Exec Blockchain Error Unit :=
  Exec.forEach (fun entry => do let _ ← Blockchain.addTransactions entry.1 entry.2; pure ()) added

/-- The entries of the map that the additions make. -/
def receipts (keccak : Bytes → H256) (added : List (Transaction × ResultData)) :
    List (H256 × (Transaction × ResultData)) :=
  added.map fun entry => (transactionHash keccak entry.1, entry)

def insertAll {K V : Type} [DecidableEq K] (ws : List (K × V)) (map : HashMap K V) : HashMap K V :=
  ws.foldl (fun map w => map.insert w.1 w.2) map

def Blockchain.withReceipts (ws : List (H256 × (Transaction × ResultData))) (chain : Blockchain) :
    Blockchain :=
  { chain with transactions := insertAll ws chain.transactions }

theorem addAll_apply (added : List (Transaction × ResultData)) (chain : Blockchain) :
    Blockchain.addAll added chain =
      (.ok (), chain.withReceipts (receipts chain.world.keccak added)) := by
  induction added generalizing chain with
  | nil => rfl
  | cons entry added ih =>
      have hadd : (Blockchain.addTransactions entry.1 entry.2 >>= fun _ => pure () :
          Exec Blockchain Error Unit) chain =
            (.ok (), chain.withReceipts (receipts chain.world.keccak [entry])) := rfl
      rw [Blockchain.addAll, Exec.forEach_cons, Exec.bind_of_ok hadd, ← Blockchain.addAll, ih]
      rfl

theorem lookup_insertAll {K V : Type} [DecidableEq K] (ws : List (K × V)) (map : HashMap K V)
    (key : K) : (insertAll ws map).lookup key = overlay (fun k => map.lookup k) ws key := by
  induction ws generalizing map with
  | nil => rfl
  | cons w ws ih =>
      rw [insertAll, List.foldl_cons, ← insertAll, ih, overlay_cons]
      congr 1
      funext k
      by_cases hk : k = w.1
      · rw [if_pos hk, hk, AList.lookup_insert]
      · rw [if_neg hk, AList.lookup_insert_ne hk]

theorem exists_lastWrite {K V : Type} [DecidableEq K] {ws : List (K × V)} {key : K} {v : V}
    (h : (key, v) ∈ ws) : ∃ v', lastWrite ws key = some v' := by
  induction ws with
  | nil => cases h
  | cons w ws ih =>
      rw [lastWrite]
      obtain rfl | hmem := List.mem_cons.mp h
      · rw [if_pos rfl]
        cases lastWrite ws key with
        | none => exact ⟨v, rfl⟩
        | some v' => exact ⟨v', rfl⟩
      · obtain ⟨v', hv'⟩ := ih hmem
        exact ⟨v', by rw [hv', Option.some_or]⟩

/-- What is found under the hash of a transaction that was added was added under the same hash. -/
theorem getTransactionDetails_addAll (chain : Blockchain) {added : List (Transaction × ResultData)}
    {entry : Transaction × ResultData} (hmem : entry ∈ added) :
    ∃ found ∈ added, transactionHash chain.world.keccak found.1 =
        transactionHash chain.world.keccak entry.1 ∧
      (Blockchain.getTransactionDetails (transactionHash chain.world.keccak entry.1)
        (Blockchain.addAll added chain).2).1 = .ok found := by
  have hreceipt : (transactionHash chain.world.keccak entry.1, entry) ∈
      receipts chain.world.keccak added := List.mem_map_of_mem hmem
  obtain ⟨found, hfound⟩ : ∃ found, lastWrite (receipts chain.world.keccak added)
      (transactionHash chain.world.keccak entry.1) = some found := exists_lastWrite hreceipt
  obtain ⟨entry', hmem', heq⟩ := List.mem_map.mp (mem_of_lastWrite hfound)
  obtain ⟨hhash, rfl⟩ := Prod.mk.inj heq
  refine ⟨entry', hmem', hhash, ?_⟩
  have hlookup : (Blockchain.addAll added chain).2.transactions.lookup
      (transactionHash chain.world.keccak entry.1) = some entry' := by
    rw [addAll_apply]
    refine (lookup_insertAll _ chain.transactions _).trans ?_
    rw [overlay, hfound, Option.some_or]
  rw [Blockchain.getTransactionDetails, Exec.getOrPanic, hlookup]

/-- Under the hash of each transaction that was added stands that transaction. -/
def DetailsMatch (chain : Blockchain) (added : List (Transaction × ResultData)) : Prop :=
  ∀ entry ∈ added, ∃ result,
    (Blockchain.getTransactionDetails (transactionHash chain.world.keccak entry.1)
      (Blockchain.addAll added chain).2).1 = .ok (entry.1, result)

/-- **Hashes of transactions.** Where the digest does not confuse the bytes of two transactions, their
hashes tell them apart exactly as `ToldApart` says; and where it does not confuse those of a list
that is added, the details match exactly where any two of the list are told apart. -/
theorem transactionHash_inj_iff (chain : Blockchain) :
    (∀ t t' : Transaction,
      (chain.world.keccak (transactionBytes t) = chain.world.keccak (transactionBytes t') →
        transactionBytes t = transactionBytes t') →
      ((transactionHash chain.world.keccak t = transactionHash chain.world.keccak t' → t = t') ↔
        ToldApart t t')) ∧
    ∀ added : List (Transaction × ResultData),
      Set.InjOn chain.world.keccak {bytes | ∃ entry ∈ added, transactionBytes entry.1 = bytes} →
      (DetailsMatch chain added ↔ ∀ entry ∈ added, ∀ entry' ∈ added, ToldApart entry.1 entry'.1) := by
  constructor
  · intro t t' hinj
    rw [← transactionBytes_inj_iff]
    exact ⟨fun h hbytes => h (congrArg chain.world.keccak hbytes), fun h hhash => h (hinj hhash)⟩
  · intro added hinj
    constructor
    · intro hmatch entry hmem entry' hmem'
      rw [← transactionBytes_inj_iff]
      intro hbytes
      obtain ⟨result, hdetails⟩ := hmatch entry hmem
      obtain ⟨result', hdetails'⟩ := hmatch entry' hmem'
      have hhash : transactionHash chain.world.keccak entry.1 =
          transactionHash chain.world.keccak entry'.1 := congrArg chain.world.keccak hbytes
      rw [hhash, hdetails'] at hdetails
      exact (congrArg Prod.fst (Outcome.ok.inj hdetails)).symm
    · intro hapart entry hmem
      obtain ⟨found, hfound, hhash, hdetails⟩ := getTransactionDetails_addAll chain hmem
      have hbytes := hinj ⟨found, hfound, rfl⟩ ⟨entry, hmem, rfl⟩ hhash
      have hsame := transactionBytes_inj_iff.mpr (hapart found hfound entry hmem) hbytes
      exact ⟨found.2, by rw [hdetails, ← hsame]⟩

/-! ### A call and a creation, and two creations -/

/-- A call and a creation from one sender. -/
def aCall : Transaction := Script.transaction (.call FixedHash.zero) 100000

def aCreation : Transaction := Script.transaction (.create [1] FixedHash.zero) 100000

def aCallDigest : H256 :=
  ⟨[0xea, 0x30, 0x77, 0xf3, 0xad, 0x94, 0x0d, 0x63, 0xd4, 0xa0, 0xd3, 0xe8, 0x9d, 0x46, 0x04,
    0x98, 0xf5, 0x8e, 0x00, 0x58, 0xc1, 0x48, 0x4a, 0x64, 0xed, 0x0d, 0x13, 0x2e, 0xfd, 0xc1,
    0x1f, 0x9c], rfl⟩

def aCreationDigest : H256 :=
  ⟨[0x48, 0xac, 0x57, 0xe3, 0xc5, 0x60, 0x67, 0x33, 0x27, 0xa9, 0xd7, 0xea, 0xcd, 0xe9, 0x1c,
    0x64, 0x8e, 0xf4, 0xb7, 0xa6, 0xdc, 0xae, 0x4c, 0x51, 0x10, 0xbb, 0x06, 0xc1, 0x38, 0x2a,
    0xd7, 0x8e], rfl⟩

/-- The digests of the two transactions. -/
def World.digesting : World :=
  { World.listed with
    keccak := fun bytes => if bytes.length = 136 then aCallDigest else aCreationDigest }

theorem aCall_bytes_length : (transactionBytes aCall).length = 136 := by
  rw [transactionBytes_eq, List.length_append, headBytes_length]
  rfl

theorem aCreation_bytes_length : (transactionBytes aCreation).length = 149 := by
  rw [transactionBytes_eq, List.length_append, headBytes_length]
  rfl

/-- A chain with the digests of the two transactions. -/
def Blockchain.digesting : Blockchain :=
  Blockchain.new World.digesting (addressOf 1) (addressOf 2) (addressOf 3) (addressOf 4) 0

theorem digesting_injOn (result result' : ResultData) :
    Set.InjOn Blockchain.digesting.world.keccak
      {bytes | ∃ entry ∈ [(aCall, result), (aCreation, result')], transactionBytes entry.1 = bytes} := by
  have hcall : World.digesting.keccak (transactionBytes aCall) = aCallDigest := by
    simp only [World.digesting, aCall_bytes_length, if_true]
  have hcreation : World.digesting.keccak (transactionBytes aCreation) = aCreationDigest := by
    simp only [World.digesting, aCreation_bytes_length]
    rfl
  have hdigest : aCallDigest ≠ aCreationDigest := by decide
  have hworld : Blockchain.digesting.world = World.digesting := rfl
  rw [hworld]
  rintro _ ⟨entry, hmem, rfl⟩ _ ⟨entry', hmem', rfl⟩ heq
  simp only [List.mem_cons, List.not_mem_nil, or_false] at hmem hmem'
  obtain rfl | rfl := hmem
  · obtain rfl | rfl := hmem'
    · rfl
    · rw [hcall, hcreation] at heq
      exact absurd heq hdigest
  · obtain rfl | rfl := hmem'
    · rw [hcall, hcreation] at heq
      exact absurd heq.symm hdigest
    · rfl

theorem transactionHash_inj_told :
    ((transactionHash Blockchain.digesting.world.keccak aCall =
          transactionHash Blockchain.digesting.world.keccak aCreation →
        aCall = aCreation) ↔ ToldApart aCall aCreation) ∧
      DetailsMatch Blockchain.digesting
        [(aCall, ⟨0, [], FixedHash.zero, []⟩), (aCreation, ⟨0, [], FixedHash.zero, []⟩)] := by
  have hinj := digesting_injOn ⟨0, [], FixedHash.zero, []⟩ ⟨0, [], FixedHash.zero, []⟩
  have hdiffer : tailBytes aCall ≠ tailBytes aCreation := by decide
  constructor
  · have hpair : Blockchain.digesting.world.keccak (transactionBytes aCall) =
        Blockchain.digesting.world.keccak (transactionBytes aCreation) →
          transactionBytes aCall = transactionBytes aCreation := by
      apply hinj
      · exact ⟨_, List.mem_cons_self, rfl⟩
      · exact ⟨_, List.mem_cons_of_mem _ List.mem_cons_self, rfl⟩
    exact (transactionHash_inj_iff Blockchain.digesting).1 aCall aCreation hpair
  · refine ((transactionHash_inj_iff Blockchain.digesting).2 _ hinj).mpr ?_
    intro entry hmem entry' hmem'
    simp only [List.mem_cons, List.not_mem_nil, or_false] at hmem hmem'
    obtain rfl | rfl := hmem
    · obtain rfl | rfl := hmem'
      · exact Or.inr (Or.inl trivial)
      · exact Or.inr (Or.inr hdiffer)
    · obtain rfl | rfl := hmem'
      · exact Or.inr (Or.inr hdiffer.symm)
      · exact Or.inr (Or.inl rfl)

/-- A creation with one byte of code, and one with the byte behind its salt instead. -/
theorem transactionHash_collides :
    (∀ keccak : Bytes → H256,
      transactionHash keccak (Script.transaction (.create [0] FixedHash.zero) 100000) =
        transactionHash keccak
          { Script.transaction (.create [] FixedHash.zero) 100000 with args := [0] }) ∧
      Script.transaction (.create [0] FixedHash.zero) 100000 ≠
        { Script.transaction (.create [] FixedHash.zero) 100000 with args := [0] } ∧
      ∀ result result' : ResultData, ¬ DetailsMatch Blockchain.atEpoch
        [(Script.transaction (.create [0] FixedHash.zero) 100000, result),
          ({ Script.transaction (.create [] FixedHash.zero) 100000 with args := [0] }, result')] := by
  have hbytes : transactionBytes (Script.transaction (.create [0] FixedHash.zero) 100000) =
      transactionBytes { Script.transaction (.create [] FixedHash.zero) 100000 with args := [0] } :=
    transactionBytes_eq_iff.mpr ⟨⟨rfl, rfl, rfl, rfl⟩, by decide⟩
  have hdiffer : Script.transaction (.create [0] FixedHash.zero) 100000 ≠
      { Script.transaction (.create [] FixedHash.zero) 100000 with args := [0] } := by
    intro heq
    cases congrArg Transaction.args heq
  have hhash : ∀ keccak : Bytes → H256,
      transactionHash keccak (Script.transaction (.create [0] FixedHash.zero) 100000) =
        transactionHash keccak
          { Script.transaction (.create [] FixedHash.zero) 100000 with args := [0] } :=
    fun keccak => congrArg keccak hbytes
  refine ⟨hhash, hdiffer, ?_⟩
  intro result result' hmatch
  obtain ⟨found, hfound⟩ := hmatch _ List.mem_cons_self
  obtain ⟨found', hfound'⟩ := hmatch _ (List.mem_cons_of_mem _ List.mem_cons_self)
  rw [hhash, hfound'] at hfound
  exact hdiffer (congrArg Prod.fst (Outcome.ok.inj hfound)).symm

end Durian.Chain
