import Mathlib.Data.List.Chain
import Mathlib.Data.Set.Function

/-!
# Chains of digests

Entries that name the digest of the entry before them. Where no two entries at hand have one digest,
the digest of the last entry tells the whole history.
-/

namespace Effects

variable {B D : Type} {digest prev : B → D} {entries entries' : List B} {entry former : B}

/-- Every entry names the digest of the entry before it. -/
def Linked (digest prev : B → D) (entries : List B) : Prop :=
  entries.IsChain fun former entry => prev entry = digest former

theorem linked_singleton (entry : B) : Linked digest prev [entry] :=
  List.isChain_singleton entry

theorem Linked.concat (h : Linked digest prev entries) (hlast : entries.getLast? = some former)
    (hprev : prev entry = digest former) : Linked digest prev (entries ++ [entry]) := by
  refine List.IsChain.append h (List.isChain_singleton entry) ?_
  intro x hx y hy
  rw [hlast, Option.mem_some_iff] at hx
  rw [List.head?_cons, Option.mem_some_iff] at hy
  rw [← hx, ← hy, hprev]

theorem Linked.init (h : Linked digest prev (entries ++ [entry])) : Linked digest prev entries :=
  List.IsChain.left_of_append h

theorem Linked.prev_eq (h : Linked digest prev (entries ++ [entry]))
    (hlast : entries.getLast? = some former) : prev entry = digest former :=
  (List.isChain_append.mp h).2.2 former hlast entry rfl

/-- **A digest tells its history.** Of two linked lists whose last entries have one digest, one is
the end of the other. -/
theorem Linked.suffix (h : Linked digest prev entries) (h' : Linked digest prev entries')
    (hinj : Set.InjOn digest {entry | entry ∈ entries ∨ entry ∈ entries'}) {last last' : B}
    (hlast : entries.getLast? = some last) (hlast' : entries'.getLast? = some last')
    (hsame : digest last = digest last') : entries <:+ entries' ∨ entries' <:+ entries := by
  induction entries using List.reverseRecOn generalizing entries' last last' with
  | nil => exact Or.inl List.nil_suffix
  | append_singleton init entry ih =>
      cases entries' using List.reverseRecOn with
      | nil => exact Or.inr List.nil_suffix
      | append_singleton init' entry' =>
          rw [List.getLast?_concat, Option.some_inj] at hlast hlast'
          subst hlast hlast'
          have hentry : entry = entry' := by
            apply hinj _ _ hsame
            · exact Or.inl (List.mem_append_right _ (List.mem_singleton_self _))
            · exact Or.inr (List.mem_append_right _ (List.mem_singleton_self _))
          subst hentry
          cases hinit : init.getLast? with
          | none =>
              rw [List.getLast?_eq_none_iff.mp hinit]
              exact Or.inl (List.suffix_append _ _)
          | some former =>
              cases hinit' : init'.getLast? with
              | none =>
                  rw [List.getLast?_eq_none_iff.mp hinit']
                  exact Or.inr (List.suffix_append _ _)
              | some former' =>
                  have hformer := (h.prev_eq hinit).symm.trans (h'.prev_eq hinit')
                  have hbefore := ih h.init h'.init (hinj.mono ?_) hinit hinit' hformer
                  · refine hbefore.imp ?_ ?_
                    · rintro ⟨rest, rfl⟩
                      exact ⟨rest, by rw [List.append_assoc]⟩
                    · rintro ⟨rest, rfl⟩
                      exact ⟨rest, by rw [List.append_assoc]⟩
                  · intro entry hmem
                    exact hmem.imp (List.mem_append_left _) (List.mem_append_left _)

theorem Linked.eq_of_length (h : Linked digest prev entries) (h' : Linked digest prev entries')
    (hinj : Set.InjOn digest {entry | entry ∈ entries ∨ entry ∈ entries'}) {last last' : B}
    (hlast : entries.getLast? = some last) (hlast' : entries'.getLast? = some last')
    (hsame : digest last = digest last') (hlength : entries.length = entries'.length) :
    entries = entries' := by
  obtain hsuffix | hsuffix := h.suffix h' hinj hlast hlast' hsame
  · exact hsuffix.eq_of_length hlength
  · exact (hsuffix.eq_of_length hlength.symm).symm

end Effects
