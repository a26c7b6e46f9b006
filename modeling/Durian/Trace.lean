import Durian.Execute
import Mathlib.Data.List.Induction

/-!
# What a run did

The writes a run performed and the bytes it handed back, read off the trace of its host calls. The
host's own record of both, the cache and the result, is not looked at.
-/

namespace Durian

open Effects

def Transaction.contract {M L γ : Type} (crates : Crates M L γ) (transaction : Transaction) :
    Address :=
  match transaction.action with
  | .create code salt => contractAddress crates.keccak transaction.sender code salt
  | .call address => address

namespace Runtime

/-- The number an argument of type i32 carries. -/
def Call.word (call : Call) (idx : Nat) : Nat :=
  match (call.args.nthChecked idx : Except TrapKind UInt32) with
  | .ok ptr => ptr.toNat
  | .error _ => 0

def hashAt (memory : Memory) (ptr : Nat) : H256 :=
  ⟨memory.slice ptr 32, memory.slice_length ptr 32⟩

/-- The slot and the value of a write, where the call was one that succeeded. -/
def slotWrite (event : HostEvent) : Option (H256 × H256) :=
  match event.call.index, event.reply with
  | Ids.storageWriteFunc, .ok _ =>
      some (hashAt event.memory (event.call.word 0), hashAt event.memory (event.call.word 1))
  | _, _ => none

def writes (trace : List HostEvent) : List (H256 × H256) := trace.filterMap slotWrite

/-- The call was a `ret` that ended the run, or the start of it. -/
def IsReturn (event : HostEvent) : Prop :=
  event.call.index = Ids.retFunc ∧ event.reply = .fail (.err (.host .return))

instance (event : HostEvent) : Decidable (IsReturn event) :=
  inferInstanceAs (Decidable (_ ∧ _))

/-- The range of memory a run that ended by `ret` handed back. -/
def returned (trace : List HostEvent) : Bytes :=
  match trace.getLast? with
  | some event =>
      if IsReturn event then event.memory.slice (event.call.word 0) (event.call.word 1) else []
  | none => []

theorem slotWrite_of_index_ne {event : HostEvent} (h : event.call.index ≠ Ids.storageWriteFunc) :
    slotWrite event = none := by
  unfold slotWrite
  split
  · exact absurd ‹_› h
  · rfl

theorem slotWrite_of_fail {event : HostEvent} {f : Failure TrapKind} (h : event.reply = .fail f) :
    slotWrite event = none := by
  unfold slotWrite
  rw [h]
  split
  · cases ‹Outcome.fail f = _›
  · rfl

theorem slotWrite_of_ok {event : HostEvent} {value : Option RuntimeValue}
    (hindex : event.call.index = Ids.storageWriteFunc) (hreply : event.reply = .ok value) :
    slotWrite event =
      some (hashAt event.memory (event.call.word 0), hashAt event.memory (event.call.word 1)) := by
  unfold slotWrite
  rw [hindex, hreply]
  rfl

theorem writes_concat (trace : List HostEvent) (event : HostEvent) :
    writes (trace ++ [event]) = writes trace ++ (slotWrite event).toList := by
  rw [writes, List.filterMap_append]
  cases hwrite : slotWrite event <;> simp [writes, hwrite]

theorem returned_concat (trace : List HostEvent) (event : HostEvent) :
    returned (trace ++ [event]) =
      if IsReturn event then event.memory.slice (event.call.word 0) (event.call.word 1) else [] := by
  rw [returned, List.getLast?_concat]

theorem returned_of_succeeded {trace : List HostEvent} (h : ∀ event ∈ trace, event.Succeeded) :
    returned trace = [] := by
  induction trace using List.reverseRecOn with
  | nil => rfl
  | append_singleton trace event _ =>
      obtain ⟨reply, hreply⟩ := h event (by simp)
      rw [returned_concat, if_neg]
      rintro ⟨_, hfail⟩
      rw [hreply] at hfail
      cases hfail

end Runtime

end Durian
