import Durian.Base.Exec
import Mathlib.Algebra.Group.Nat.Defs

/-!
# Machine words and byte strings

Fixed-width arithmetic as a compiled program performs it: checked operations answer `none` on
overflow, plain ones panic. Byte strings of a fixed length carry their length, so that a value of
the wrong size cannot be built.
-/

namespace Effects

abbrev Bytes := List UInt8

/-! ### Words of 32 and 64 bits -/

def checkedAdd (a b : UInt64) : Option UInt64 :=
  if a.toNat + b.toNat < 2 ^ 64 then some (a + b) else none

def checkedMul (a b : UInt64) : Option UInt64 :=
  if a.toNat * b.toNat < 2 ^ 64 then some (a * b) else none

def checkedAddU32 (a b : UInt32) : Option UInt32 :=
  if a.toNat + b.toNat < 2 ^ 32 then some (a + b) else none

def checkedMulU32 (a b : UInt32) : Option UInt32 :=
  if a.toNat * b.toNat < 2 ^ 32 then some (a * b) else none

def mulOrPanic {ε : Type} (a b : UInt64) : Outcome ε UInt64 :=
  if a.toNat * b.toNat < 2 ^ 64 then .ok (a * b) else .fail .panic

def addOrPanic {ε : Type} (a b : UInt64) : Outcome ε UInt64 :=
  if a.toNat + b.toNat < 2 ^ 64 then .ok (a + b) else .fail .panic

def divOrPanic {ε : Type} (a b : UInt64) : Outcome ε UInt64 :=
  if b = 0 then .fail .panic else .ok (a / b)

theorem mulOrPanic_panicsOnly {ε : Type} (a b : UInt64) :
    (mulOrPanic a b : Outcome ε UInt64).PanicsOnly := by
  unfold mulOrPanic
  split
  · exact Outcome.panicsOnly_ok _
  · exact Outcome.panicsOnly_panic

theorem addOrPanic_panicsOnly {ε : Type} (a b : UInt64) :
    (addOrPanic a b : Outcome ε UInt64).PanicsOnly := by
  unfold addOrPanic
  split
  · exact Outcome.panicsOnly_ok _
  · exact Outcome.panicsOnly_panic

theorem divOrPanic_panicsOnly {ε : Type} (a b : UInt64) :
    (divOrPanic a b : Outcome ε UInt64).PanicsOnly := by
  unfold divOrPanic
  split
  · exact Outcome.panicsOnly_panic
  · exact Outcome.panicsOnly_ok _

theorem toNat_add_of_lt {a b : UInt64} (h : a.toNat + b.toNat < 2 ^ 64) :
    (a + b).toNat = a.toNat + b.toNat := by
  rw [UInt64.toNat_add]
  exact Nat.mod_eq_of_lt h

theorem toNat_mul_of_lt {a b : UInt64} (h : a.toNat * b.toNat < 2 ^ 64) :
    (a * b).toNat = a.toNat * b.toNat := by
  rw [UInt64.toNat_mul]
  exact Nat.mod_eq_of_lt h

/-! ### Words of 256 bits -/

abbrev U256 := BitVec 256

def U256.addOrPanic {ε : Type} (a b : U256) : Outcome ε U256 :=
  if a.toNat + b.toNat < 2 ^ 256 then .ok (a + b) else .fail .panic

def U256.mulOrPanic {ε : Type} (a b : U256) : Outcome ε U256 :=
  if a.toNat * b.toNat < 2 ^ 256 then .ok (a * b) else .fail .panic

def U256.divOrPanic {ε : Type} (a b : U256) : Outcome ε U256 :=
  if b = 0 then .fail .panic else .ok (a / b)

def U256.lowU64 (a : U256) : UInt64 := UInt64.ofNat a.toNat

def U256.ofU64 (a : UInt64) : U256 := BitVec.ofNat 256 a.toNat

/-- The number a byte string spells, most significant byte first. -/
def natOfBigEndian (bytes : Bytes) : Nat := bytes.foldl (fun n b => 256 * n + b.toNat) 0

def natOfLittleEndian (bytes : Bytes) : Nat := natOfBigEndian bytes.reverse

def natToBigEndian : Nat → Nat → Bytes
  | 0, _ => []
  | n + 1, x => natToBigEndian n (x / 256) ++ [UInt8.ofNat x]

@[simp]
theorem natToBigEndian_length (n x : Nat) : (natToBigEndian n x).length = n := by
  induction n generalizing x with
  | zero => rfl
  | succ n ih => simp [natToBigEndian, ih]

/-- The bytes of a number spell it, up to what they have no room for. -/
theorem natOfBigEndian_natToBigEndian (n x : Nat) :
    natOfBigEndian (natToBigEndian n x) = x % 256 ^ n := by
  induction n generalizing x with
  | zero => rw [pow_zero, Nat.mod_one]; rfl
  | succ n ih =>
      have hlast : (UInt8.ofNat x).toNat = x % 256 := rfl
      rw [natToBigEndian, natOfBigEndian, List.foldl_append, List.foldl_cons, List.foldl_nil,
        ← natOfBigEndian, ih, hlast, pow_succ', Nat.mod_mul, Nat.add_comm]

theorem foldl_bigEndian_lt (bytes : Bytes) (n : Nat) :
    bytes.foldl (fun n b => 256 * n + b.toNat) n < (n + 1) * 256 ^ bytes.length := by
  induction bytes generalizing n with
  | nil => simp
  | cons b bytes ih =>
      have hb : b.toNat < 256 := b.toNat_lt
      have hhead : 256 * n + b.toNat + 1 ≤ (n + 1) * 256 := by omega
      rw [List.foldl_cons, List.length_cons, pow_succ', ← Nat.mul_assoc]
      exact Nat.lt_of_lt_of_le (ih _) (Nat.mul_le_mul_right _ hhead)

theorem natOfBigEndian_lt (bytes : Bytes) : natOfBigEndian bytes < 256 ^ bytes.length := by
  have h := foldl_bigEndian_lt bytes 0
  rwa [Nat.zero_add, Nat.one_mul] at h

def U256.fromBigEndian {ε : Type} (slice : Bytes) : Outcome ε U256 :=
  if slice.length ≤ 32 then .ok (BitVec.ofNat 256 (natOfBigEndian slice)) else .fail .panic

def U256.fromLittleEndian {ε : Type} (slice : Bytes) : Outcome ε U256 :=
  if slice.length ≤ 32 then .ok (BitVec.ofNat 256 (natOfLittleEndian slice)) else .fail .panic

theorem U256.fromLittleEndian_of_le {ε : Type} {slice : Bytes} (h : slice.length ≤ 32) :
    (U256.fromLittleEndian slice : Outcome ε U256) =
      .ok (BitVec.ofNat 256 (natOfLittleEndian slice)) := if_pos h

theorem U256.fromLittleEndian_of_lt {ε : Type} {slice : Bytes} (h : 32 < slice.length) :
    (U256.fromLittleEndian slice : Outcome ε U256) = .fail .panic := if_neg (Nat.not_le.mpr h)

/-! ### Byte strings of a fixed length -/

structure FixedHash (n : Nat) where
  bytes : Bytes
  length_eq : bytes.length = n
  deriving DecidableEq

namespace FixedHash

variable {n : Nat}

def zero : FixedHash n := ⟨List.replicate n 0, List.length_replicate⟩

def asBytes (h : FixedHash n) : Bytes := h.bytes

def fromSlice {ε : Type} (slice : Bytes) : Outcome ε (FixedHash n) :=
  if h : slice.length = n then .ok ⟨slice, h⟩ else .fail .panic

@[simp]
theorem fromSlice_asBytes {ε : Type} (h : FixedHash n) :
    (fromSlice h.asBytes : Outcome ε (FixedHash n)) = .ok h := dif_pos h.length_eq

theorem fromSlice_of_length {ε : Type} {slice : Bytes} (h : slice.length = n) :
    (fromSlice slice : Outcome ε (FixedHash n)) = .ok ⟨slice, h⟩ := by
  rw [fromSlice, dif_pos h]

theorem fromSlice_of_length_ne {ε : Type} {slice : Bytes} (h : slice.length ≠ n) :
    (fromSlice slice : Outcome ε (FixedHash n)) = .fail .panic := by
  rw [fromSlice, dif_neg h]

end FixedHash

abbrev H160 := FixedHash 20

abbrev H256 := FixedHash 32

def U256.toBigEndian (a : U256) : H256 := ⟨natToBigEndian 32 a.toNat, natToBigEndian_length 32 _⟩

def U256.toLittleEndian (a : U256) : Bytes := a.toBigEndian.bytes.reverse

@[simp]
theorem U256.toLittleEndian_length (a : U256) : a.toLittleEndian.length = 32 := by
  rw [U256.toLittleEndian, List.length_reverse]
  exact a.toBigEndian.length_eq

theorem U256.fromBigEndian_toBigEndian {ε : Type} (a : U256) :
    (U256.fromBigEndian a.toBigEndian.bytes : Outcome ε U256) = .ok a := by
  rw [U256.fromBigEndian, if_pos (Nat.le_of_eq a.toBigEndian.length_eq), U256.toBigEndian,
    natOfBigEndian_natToBigEndian, Nat.mod_eq_of_lt (show a.toNat < 256 ^ 32 from a.isLt),
    BitVec.ofNat_toNat, BitVec.setWidth_eq]

theorem U256.fromLittleEndian_toLittleEndian {ε : Type} (a : U256) :
    (U256.fromLittleEndian a.toLittleEndian : Outcome ε U256) = .ok a := by
  have hlength : a.toLittleEndian.length ≤ 32 := Nat.le_of_eq a.toLittleEndian_length
  have hbig := (U256.fromBigEndian_toBigEndian a : _ = (Outcome.ok a : Outcome ε U256))
  rw [U256.fromBigEndian, if_pos (Nat.le_of_eq a.toBigEndian.length_eq)] at hbig
  rw [U256.fromLittleEndian, if_pos hlength, natOfLittleEndian, U256.toLittleEndian,
    List.reverse_reverse, hbig]

/-- The last twenty bytes of a longer hash. -/
def H256.toH160 (h : H256) : H160 := ⟨h.bytes.drop 12, by simp [h.length_eq]⟩

end Effects
