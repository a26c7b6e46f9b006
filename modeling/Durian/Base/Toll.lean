import Durian.Base.Overlay
import Mathlib.Algebra.BigOperators.Group.Finset.Basic
import Mathlib.Algebra.Order.BigOperators.Group.Finset

/-!
# Changes that are paid for

A toll is what it costs to turn one value into another, where no detour is cheaper. A store that is
written key by key, each time at the toll from the value that is there, has been paid at least the
toll from what it was to what it has become, on all keys together.
-/

namespace Effects

open Finset

structure Toll (V : Type) where
  cost : V → V → Nat
  stay : ∀ v, cost v v = 0
  triangle : ∀ u v w, cost u w ≤ cost u v + cost v w

/-- What a store without gaps reads once it has been written. -/
def readAfter {K V : Type} [DecidableEq K] (store : K → V) (ws : List (K × V)) (key : K) : V :=
  (lastWrite ws key).getD (store key)

section ReadAfter

variable {K V : Type} [DecidableEq K] (store : K → V)

@[simp]
theorem readAfter_nil : readAfter store [] = store := rfl

theorem readAfter_append (ws ws' : List (K × V)) :
    readAfter store (ws ++ ws') = readAfter (readAfter store ws) ws' := by
  funext key
  rw [readAfter, readAfter, readAfter, lastWrite_append]
  cases lastWrite ws' key <;> rfl

theorem readAfter_singleton (k : K) (v : V) :
    readAfter store [(k, v)] = Function.update store k v := by
  funext key
  by_cases hkey : k = key
  · simp [readAfter, lastWrite, hkey]
  · simp [readAfter, lastWrite, hkey, Ne.symm hkey]

/-- A store with gaps, read with a value for the gaps. -/
theorem getD_overlay (store : K → Option V) (default : V) (ws : List (K × V)) (key : K) :
    (overlay store ws key).getD default = readAfter (fun key => (store key).getD default) ws key := by
  rw [overlay, readAfter]
  cases lastWrite ws key <;> rfl

end ReadAfter

namespace Toll

variable {K V : Type} (toll : Toll V)

section Paid

variable [DecidableEq K]

/-- What the writes cost one after another. -/
def paid (toll : Toll V) (store : K → V) : List (K × V) → Nat
  | [] => 0
  | w :: ws => toll.cost (store w.1) w.2 + toll.paid (Function.update store w.1 w.2) ws

theorem paid_concat (store : K → V) (ws : List (K × V)) (k : K) (v : V) :
    toll.paid store (ws ++ [(k, v)]) = toll.paid store ws + toll.cost (readAfter store ws k) v := by
  induction ws generalizing store with
  | nil => simp [paid]
  | cons w ws ih =>
      rw [List.cons_append, paid, paid, ih, ← readAfter_singleton, ← readAfter_append, Nat.add_assoc]
      rfl

end Paid

theorem sum_triangle (f g h : K → V) (keys : Finset K) :
    ∑ key ∈ keys, toll.cost (f key) (h key) ≤
      ∑ key ∈ keys, toll.cost (f key) (g key) + ∑ key ∈ keys, toll.cost (g key) (h key) := by
  rw [← sum_add_distrib]
  apply sum_le_sum
  intro key _
  exact toll.triangle _ _ _

variable [DecidableEq K]

theorem sum_update_le (store : K → V) (k : K) (v : V) (keys : Finset K) :
    ∑ key ∈ keys, toll.cost (store key) (Function.update store k v key) ≤ toll.cost (store k) v := by
  have hother : ∀ key, key ≠ k → toll.cost (store key) (Function.update store k v key) = 0 := by
    intro key hkey
    rw [Function.update_of_ne hkey, toll.stay]
  by_cases hk : k ∈ keys
  · rw [sum_eq_single_of_mem k hk fun key _ => hother key, Function.update_self]
  · rw [sum_eq_zero fun key hkey => hother key fun heq => hk (heq ▸ hkey)]
    exact Nat.zero_le _

/-- **The writes pay for the change.** The induction is on the writes: the first one pays for what
it changes, the others for the rest of the way. -/
theorem sum_le_paid (store : K → V) (ws : List (K × V)) (keys : Finset K) :
    ∑ key ∈ keys, toll.cost (store key) (readAfter store ws key) ≤ toll.paid store ws := by
  induction ws generalizing store with
  | nil => simp [toll.stay, paid]
  | cons w ws ih =>
      obtain ⟨k, v⟩ := w
      have hsplit : readAfter store ((k, v) :: ws) = readAfter (Function.update store k v) ws := by
        rw [← readAfter_singleton, ← readAfter_append]
        rfl
      calc ∑ key ∈ keys, toll.cost (store key) (readAfter store ((k, v) :: ws) key)
          ≤ ∑ key ∈ keys, toll.cost (store key) (Function.update store k v key) +
              ∑ key ∈ keys, toll.cost (Function.update store k v key)
                (readAfter (Function.update store k v) ws key) := by
            rw [hsplit]
            exact toll.sum_triangle _ _ _ _
        _ ≤ toll.cost (store k) v + toll.paid (Function.update store k v) ws :=
            Nat.add_le_add (toll.sum_update_le store k v keys) (ih _)

end Toll

end Effects
