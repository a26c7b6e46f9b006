import Durian.Base.Interleave
import Mathlib.Data.Set.Basic

/-!
# What a call touches

The state of an object falls into cells. A call is answered by the cells that it touches, and changes
some of these and no others. Where neither of two calls changes what the other touches, they can be
made in either order.
-/

namespace Effects

variable {σ κ α χ ν : Type}

/-- The cells of an object, those that each call touches, and those of them that it changes. -/
structure Footprint (serve : κ → σ → α × σ) (χ ν : Type) where
  content : χ → σ → ν
  touches : κ → Set χ
  changes : κ → Set χ
  changes_subset : ∀ call, changes call ⊆ touches call
  answer : ∀ call s t, (∀ c ∈ touches call, content c s = content c t) →
    (serve call s).1 = (serve call t).1
  after : ∀ call s t, (∀ c ∈ touches call, content c s = content c t) →
    ∀ c ∈ changes call, content c (serve call s).2 = content c (serve call t).2
  frame : ∀ call s, ∀ c ∉ changes call, content c (serve call s).2 = content c s

namespace Footprint

variable {serve : κ → σ → α × σ} (f : Footprint serve χ ν) {s t : σ} {x y : κ}

/-- Neither call changes what the other touches. -/
structure Independent (x y : κ) : Prop where
  left : ∀ c ∈ f.changes x, c ∉ f.touches y
  right : ∀ c ∈ f.changes y, c ∉ f.touches x

variable {f}

theorem Independent.symm (h : f.Independent x y) : f.Independent y x :=
  ⟨h.right, h.left⟩

theorem content_after (hsame : ∀ c, f.content c s = f.content c t) (call : κ) (c : χ) :
    f.content c (serve call s).2 = f.content c (serve call t).2 := by
  by_cases hc : c ∈ f.changes call
  · exact f.after call s t (fun c _ => hsame c) c hc
  · rw [f.frame call s c hc, f.frame call t c hc, hsame c]

/-- States with the same content are never told apart. -/
theorem alike_of_content (hsame : ∀ c, f.content c s = f.content c t) : Alike serve s t := by
  intro calls
  induction calls generalizing s t with
  | nil => rfl
  | cons call calls ih =>
      rw [answers, answers, f.answer call s t fun c _ => hsame c, ih (content_after hsame call)]

/-- A call finds what it touches unchanged by one that is independent of it. -/
theorem Independent.kept (h : f.Independent x y) (s : σ) :
    ∀ c ∈ f.touches y, f.content c (serve x s).2 = f.content c s := by
  intro c hc
  apply f.frame
  intro hchanged
  exact h.left c hchanged hc

/-- A cell that the first of two independent calls changes is changed alike after the second. -/
theorem Independent.content_of_changed (h : f.Independent x y) (s : σ) {c : χ}
    (hc : c ∈ f.changes x) :
    f.content c (serve y (serve x s).2).2 = f.content c (serve x (serve y s).2).2 := by
  have hkept : c ∉ f.changes y := by
    intro hchanged
    exact h.left c hc (f.changes_subset y hchanged)
  calc f.content c (serve y (serve x s).2).2
      = f.content c (serve x s).2 := f.frame y _ c hkept
    _ = f.content c (serve x (serve y s).2).2 :=
        f.after x _ _ (fun c hc => (h.symm.kept s c hc).symm) c hc

theorem Independent.content_eq (h : f.Independent x y) (s : σ) (c : χ) :
    f.content c (serve y (serve x s).2).2 = f.content c (serve x (serve y s).2).2 := by
  by_cases hx : c ∈ f.changes x
  · exact h.content_of_changed s hx
  by_cases hy : c ∈ f.changes y
  · exact (h.symm.content_of_changed s hy).symm
  rw [f.frame y _ c hy, f.frame x s c hx, f.frame x _ c hx, f.frame y s c hy]

/-- **Independent calls** can be made in either order. -/
theorem Independent.swaps {x y : Made κ α} (h : f.Independent x.call y.call) : Swaps serve x y := by
  rintro s t ⟨hx, hy, rfl⟩
  refine ⟨_, ⟨?_, ?_, rfl⟩, alike_of_content (h.content_eq s)⟩
  · rw [← hy]
    exact (f.answer y.call _ _ (h.kept s)).symm
  · rw [← hx]
    exact f.answer x.call _ _ (h.symm.kept s)

end Footprint

end Effects
