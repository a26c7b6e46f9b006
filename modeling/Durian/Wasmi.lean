import Durian.Error

/-!
# What the host sees of the interpreter

Values, signatures and the linear memory of the WebAssembly interpreter, as far as the virtual
machine uses them. A memory is a whole number of pages; reading or writing a range that does not lie
inside it fails and changes nothing.
-/

namespace Durian

open Effects

inductive ValueType where
  | i32
  | i64
  | f32
  | f64
  deriving DecidableEq

/-- Integers are kept as their bits, which is how the host reads them. -/
inductive RuntimeValue where
  | i32 (bits : UInt32)
  | i64 (bits : UInt64)
  | f32 (bits : UInt32)
  | f64 (bits : UInt64)
  deriving DecidableEq

def RuntimeValue.valueType : RuntimeValue → ValueType
  | .i32 _ => .i32
  | .i64 _ => .i64
  | .f32 _ => .f32
  | .f64 _ => .f64

structure Signature where
  params : List ValueType
  returnType : Option ValueType
  deriving DecidableEq

def ValueType.debug : ValueType → String
  | .i32 => "I32"
  | .i64 => "I64"
  | .f32 => "F32"
  | .f64 => "F64"

def Signature.debug (signature : Signature) : String :=
  "Signature \x7b params: [" ++ ", ".intercalate (signature.params.map ValueType.debug)
    ++ "], return_type: " ++ (match signature.returnType with
      | some t => "Some(" ++ t.debug ++ ")"
      | none => "None") ++ " \x7d"

abbrev RuntimeArgs := List RuntimeValue

class FromRuntimeValue (T : Type) where
  tryInto : RuntimeValue → Option T

instance : FromRuntimeValue UInt32 where
  tryInto
    | .i32 bits => some bits
    | _ => none

instance : FromRuntimeValue UInt64 where
  tryInto
    | .i64 bits => some bits
    | _ => none

/-- The argument at an index, where it is there and has the type asked for. -/
def RuntimeArgs.nthChecked {T : Type} [FromRuntimeValue T] (args : RuntimeArgs) (idx : Nat) :
    Except TrapKind T :=
  match args[idx]? with
  | none => .error (.wasm .unexpectedSignature)
  | some value =>
      match FromRuntimeValue.tryInto value with
      | none => .error (.wasm .unexpectedSignature)
      | some x => .ok x

def RuntimeArgs.Typed (args : RuntimeArgs) (params : List ValueType) : Prop :=
  args.map RuntimeValue.valueType = params

instance (args : RuntimeArgs) (params : List ValueType) : Decidable (args.Typed params) :=
  inferInstanceAs (Decidable (args.map RuntimeValue.valueType = params))

theorem RuntimeArgs.nthChecked_u32 {args : RuntimeArgs} {params : List ValueType} {idx : Nat}
    (htyped : args.Typed params) (hidx : params[idx]? = some .i32) :
    ∃ x : UInt32, args.nthChecked idx = .ok x := by
  rw [← htyped, List.getElem?_map, Option.map_eq_some_iff] at hidx
  obtain ⟨value, hvalue, htype⟩ := hidx
  cases value with
  | i32 bits => exact ⟨bits, by rw [RuntimeArgs.nthChecked, hvalue]; rfl⟩
  | i64 | f32 | f64 => cases htype

theorem RuntimeArgs.nthChecked_u64 {args : RuntimeArgs} {params : List ValueType} {idx : Nat}
    (htyped : args.Typed params) (hidx : params[idx]? = some .i64) :
    ∃ x : UInt64, args.nthChecked idx = .ok x := by
  rw [← htyped, List.getElem?_map, Option.map_eq_some_iff] at hidx
  obtain ⟨value, hvalue, htype⟩ := hidx
  cases value with
  | i64 bits => exact ⟨bits, by rw [RuntimeArgs.nthChecked, hvalue]; rfl⟩
  | i32 | f32 | f64 => cases htype

/-! ### Linear memory -/

def pageSize : Nat := 65536

structure Memory where
  pages : Nat
  byte : Nat → UInt8

namespace Memory

def len (m : Memory) : Nat := m.pages * pageSize

def zeroed (pages : Nat) : Memory := ⟨pages, fun _ => 0⟩

def slice (m : Memory) (offset size : Nat) : Bytes :=
  (List.range size).map fun i => m.byte (offset + i)

@[simp]
theorem slice_length (m : Memory) (offset size : Nat) : (m.slice offset size).length = size := by
  simp [slice]

def outOfBounds (m : Memory) (offset size : Nat) : WasmiError :=
  .memory ("trying to access region [" ++ toString offset ++ ".." ++ toString (offset + size)
    ++ "] in memory [0.." ++ toString m.len ++ "]")

def get (m : Memory) (offset : UInt32) (size : Nat) : Except WasmiError Bytes :=
  if offset.toNat + size ≤ m.len then .ok (m.slice offset.toNat size)
  else .error (m.outOfBounds offset.toNat size)

def set (m : Memory) (offset : UInt32) (value : Bytes) : Except WasmiError Memory :=
  if offset.toNat + value.length ≤ m.len then
    .ok { m with byte := fun i =>
      if offset.toNat ≤ i then value.getD (i - offset.toNat) (m.byte i) else m.byte i }
  else .error (m.outOfBounds offset.toNat value.length)

theorem get_ok {m : Memory} {offset : UInt32} {size : Nat} {bytes : Bytes}
    (h : m.get offset size = .ok bytes) : bytes = m.slice offset.toNat size := by
  unfold get at h
  split at h
  · exact (Except.ok.inj h).symm
  · cases h

theorem get_of_le {m : Memory} {offset : UInt32} {size : Nat}
    (h : offset.toNat + size ≤ m.len) : m.get offset size = .ok (m.slice offset.toNat size) :=
  if_pos h

theorem get_length {m : Memory} {offset : UInt32} {size : Nat} {bytes : Bytes}
    (h : m.get offset size = .ok bytes) : bytes.length = size := by
  rw [get_ok h, slice_length]

def stored (m : Memory) (offset : UInt32) (value : Bytes) : Memory :=
  { m with byte := fun i =>
    if offset.toNat ≤ i then value.getD (i - offset.toNat) (m.byte i) else m.byte i }

theorem set_of_le {m : Memory} {offset : UInt32} {value : Bytes}
    (h : offset.toNat + value.length ≤ m.len) : m.set offset value = .ok (m.stored offset value) :=
  if_pos h

theorem stored_outside {m : Memory} {offset : UInt32} {value : Bytes} {i : Nat}
    (h : i < offset.toNat ∨ offset.toNat + value.length ≤ i) :
    (m.stored offset value).byte i = m.byte i := by
  change (if offset.toNat ≤ i then value.getD (i - offset.toNat) (m.byte i) else m.byte i) = _
  split
  · rw [List.getD_eq_getElem?_getD, List.getElem?_eq_none (by omega)]
    rfl
  · rfl

theorem slice_stored (m : Memory) (offset : UInt32) (value : Bytes) :
    (m.stored offset value).slice offset.toNat value.length = value := by
  refine List.ext_getElem (slice_length _ _ _) fun i hi hi' => ?_
  simp only [slice, List.getElem_map, List.getElem_range, stored]
  rw [if_pos (Nat.le_add_right _ _), Nat.add_sub_cancel_left, List.getD_eq_getElem?_getD,
    List.getElem?_eq_getElem hi', Option.getD_some]

/-- A memory has changed in one range, which lies within it and now holds the bytes. -/
structure Holds (m m' : Memory) (offset : UInt32) (value : Bytes) : Prop where
  within : offset.toNat + value.length ≤ m.len
  pages : m'.pages = m.pages
  inside : m'.slice offset.toNat value.length = value
  outside : ∀ i, i < offset.toNat ∨ offset.toNat + value.length ≤ i → m'.byte i = m.byte i

theorem holds_stored {m : Memory} {offset : UInt32} {value : Bytes}
    (h : offset.toNat + value.length ≤ m.len) : Holds m (m.stored offset value) offset value :=
  ⟨h, rfl, m.slice_stored offset value, fun _ => stored_outside⟩

end Memory

structure FuncRef where
  signature : Signature
  index : Nat
  deriving DecidableEq

structure MemoryDescriptor where
  initial : UInt32
  maximum : Option UInt32
  deriving DecidableEq

/-- `MemoryInstance::alloc`. -/
def Memory.alloc (initial : Nat) (maximum : Option Nat) : Except WasmiError Memory :=
  if initial ≤ maximum.getD initial then .ok (zeroed initial)
  else .error (.memory ("maximum limit " ++ toString (maximum.getD initial)
    ++ " is less than minimum " ++ toString initial))

inductive External where
  | function (signature : Signature)
  | table
  | memory (descriptor : MemoryDescriptor)
  | global
  deriving DecidableEq

structure ImportEntry where
  module : String
  field : String
  external : External
  deriving DecidableEq

end Durian
