import Mathlib.Data.List.Nodup

/-!
# Writes over a store

A run that writes keys in some order leaves each key with the value of the last write to it. A list
that writes each key once says the same of any order.
-/

namespace Effects

variable {K V : Type} [DecidableEq K]

/-- The value the last write to a key put there. -/
def lastWrite : List (K × V) → K → Option V
  | [], _ => none
  | w :: ws, key => (lastWrite ws key).or (if w.1 = key then some w.2 else none)

def overlay (store : K → Option V) (ws : List (K × V)) (key : K) : Option V :=
  (lastWrite ws key).or (store key)

@[simp]
theorem lastWrite_nil (key : K) : lastWrite ([] : List (K × V)) key = none := rfl

theorem lastWrite_append (ws ws' : List (K × V)) (key : K) :
    lastWrite (ws ++ ws') key = (lastWrite ws' key).or (lastWrite ws key) := by
  induction ws with
  | nil => simp
  | cons w ws ih => rw [List.cons_append, lastWrite, ih, lastWrite, Option.or_assoc]

theorem lastWrite_concat (ws : List (K × V)) (k : K) (v : V) (key : K) :
    lastWrite (ws ++ [(k, v)]) key = if k = key then some v else lastWrite ws key := by
  rw [lastWrite_append]
  by_cases hkey : k = key <;> simp [lastWrite, hkey]

theorem mem_of_lastWrite {ws : List (K × V)} {key : K} {v : V} (h : lastWrite ws key = some v) :
    (key, v) ∈ ws := by
  induction ws with
  | nil => cases h
  | cons w ws ih =>
      rw [lastWrite, Option.or_eq_some_iff] at h
      obtain hlater | ⟨_, hnow⟩ := h
      · exact List.mem_cons_of_mem _ (ih hlater)
      · split at hnow
        · rename_i hkey
          cases hnow
          exact hkey ▸ List.mem_cons_self
        · cases hnow

/-- A list that writes each key once leaves exactly its entries. -/
theorem lastWrite_eq_some_iff {ws : List (K × V)} (hnodup : (ws.map Prod.fst).Nodup) {key : K}
    {v : V} : lastWrite ws key = some v ↔ (key, v) ∈ ws := by
  refine ⟨mem_of_lastWrite, fun hmem => ?_⟩
  induction ws with
  | nil => cases hmem
  | cons w ws ih =>
      rw [List.map_cons, List.nodup_cons] at hnodup
      obtain rfl | hmem := List.mem_cons.mp hmem
      · have hnone : lastWrite ws key = none := by
          refine Option.eq_none_iff_forall_ne_some.mpr fun v' hv' => hnodup.1 ?_
          exact List.mem_map.mpr ⟨_, mem_of_lastWrite hv', rfl⟩
        simp [lastWrite, hnone]
      · rw [lastWrite, ih hnodup.2 hmem, Option.some_or]

/-- `slots` writes each key once, and leaves what `ws` leaves. -/
structure Compresses (slots ws : List (K × V)) : Prop where
  nodup : (slots.map Prod.fst).Nodup
  lastWrite_eq : ∀ key, lastWrite slots key = lastWrite ws key

theorem Compresses.mem_iff {slots ws : List (K × V)} (h : Compresses slots ws) {key : K} {v : V} :
    (key, v) ∈ slots ↔ lastWrite ws key = some v := by
  rw [← h.lastWrite_eq, lastWrite_eq_some_iff h.nodup]

theorem Compresses.overlay_eq {slots ws : List (K × V)} (h : Compresses slots ws)
    (store : K → Option V) : overlay store slots = overlay store ws := by
  funext key
  rw [overlay, overlay, h.lastWrite_eq]

theorem Compresses.perm {slots slots' ws : List (K × V)} (h : Compresses slots ws)
    (h' : Compresses slots' ws) : slots.Perm slots' := by
  refine (List.perm_ext_iff_of_nodup (List.Nodup.of_map Prod.fst h.nodup)
    (List.Nodup.of_map Prod.fst h'.nodup)).mpr ?_
  rintro ⟨key, v⟩
  rw [h.mem_iff, h'.mem_iff]

theorem overlay_cons (store : K → Option V) (k : K) (v : V) (ws : List (K × V)) :
    overlay store ((k, v) :: ws) = overlay (fun key => if key = k then some v else store key) ws := by
  funext key
  rw [overlay, overlay, lastWrite, Option.or_assoc]
  by_cases hkey : k = key
  · simp [hkey]
  · simp [hkey, Ne.symm hkey]

/-- What is written later lies over what was written before. -/
theorem overlay_append (store : K → Option V) (ws ws' : List (K × V)) :
    overlay store (ws ++ ws') = overlay (overlay store ws) ws' := by
  funext key
  rw [overlay, overlay, overlay, lastWrite_append, Option.or_assoc]

end Effects
