import Durian.Base.Exec

/-!
# A value behind a lock

A lock that a panic under it poisons for good, and that a call which does not come back holds for
good. Whoever takes it unwraps, so a call that finds it poisoned panics, and one that finds it held
waits.
-/

namespace Effects

inductive Guarded (σ : Type) where
  | free (s : σ)
  | held (s : σ)
  | poisoned (s : σ)

namespace Guarded

variable {σ ε α : Type}

/-- What is behind the lock, for whoever could look. -/
def content : Guarded σ → σ
  | .free s => s
  | .held s => s
  | .poisoned s => s

def IsFree : Guarded σ → Prop
  | .free _ => True
  | _ => False

/-- What is left of the lock by a call that ends like this. -/
def release : Outcome ε α → σ → Guarded σ
  | .ok _, s => .free s
  | .fail (.err _), s => .free s
  | .fail .panic, s => .poisoned s
  | .fail .fuel, s => .held s

/-- A call under the lock. -/
def locked (m : Exec σ ε α) : Exec (Guarded σ) ε α
  | .free s => ((m s).1, release (m s).1 (m s).2)
  | .held s => (.fail .fuel, .held s)
  | .poisoned s => (.fail .panic, .poisoned s)

theorem isFree_release (o : Outcome ε α) (s : σ) : (release o s).IsFree ↔ o.Returns := by
  cases o with
  | ok a => exact Iff.rfl
  | fail f => cases f <;> exact Iff.rfl

theorem content_release (o : Outcome ε α) (s : σ) : (release o s).content = s := by
  cases o with
  | ok a => rfl
  | fail f => cases f <;> rfl

theorem eq_free {g : Guarded σ} (h : g.IsFree) : g = .free g.content := by
  cases g with
  | free s => rfl
  | held s => exact h.elim
  | poisoned s => exact h.elim

/-- A call that leaves the lock free exactly where it comes back, and a lock that is not free as it
is. -/
structure Guards (m : Exec (Guarded σ) ε α) : Prop where
  free_iff : ∀ s, (m (.free s)).2.IsFree ↔ (m (.free s)).1.Returns
  shut : ∀ g, ¬ g.IsFree → (m g).2 = g

theorem guards_locked (m : Exec σ ε α) : Guards (locked m) where
  free_iff s := isFree_release _ _
  shut g hg := by
    cases g with
    | free s => exact absurd trivial hg
    | held s => rfl
    | poisoned s => rfl

theorem guards_pure (a : α) : Guards (pure a : Exec (Guarded σ) ε α) where
  free_iff _ := Iff.rfl
  shut _ _ := rfl

/-- Under a lock that is not free no call comes back. -/
theorem not_returns_locked (m : Exec σ ε α) {g : Guarded σ} (hg : ¬ g.IsFree) :
    ¬ (locked m g).1.Returns := by
  cases g with
  | free s => exact absurd trivial hg
  | held s => exact id
  | poisoned s => exact id

theorem locked_eq_free {m : Exec σ ε α} {s s' : σ} (h : (locked m (.free s)).2 = .free s') :
    (m s).1.Returns ∧ (m s).2 = s' := by
  change release (m s).1 (m s).2 = .free s' at h
  constructor
  · rw [← isFree_release _ (m s).2, h]
    trivial
  · rw [← content_release (m s).1 (m s).2, h]
    rfl

theorem locked_of_ok {β : Type} {m : Exec σ ε α} {s s' : σ} {a : α} (h : m s = (.ok a, s'))
    (k : α → β) : locked (m >>= fun a => pure (k a)) (.free s) = (.ok (k a), .free s') := by
  rw [locked, Exec.bind_of_ok h]
  rfl

theorem locked_of_panic {β : Type} {m : Exec σ ε α} {s s' : σ} (h : m s = (.fail .panic, s'))
    (k : α → Exec σ ε β) : locked (m >>= k) (.free s) = (.fail .panic, .poisoned s') := by
  rw [locked, Exec.bind_of_fail h]
  rfl

/-! ### Calls one after another -/

/-- The lock after calls, whatever they ended with. -/
def after (calls : List (Exec (Guarded σ) ε α)) (g : Guarded σ) : Guarded σ :=
  calls.foldl (fun g call => (call g).2) g

def outcomes : List (Exec (Guarded σ) ε α) → Guarded σ → List (Outcome ε α)
  | [], _ => []
  | call :: calls, g => (call g).1 :: outcomes calls (call g).2

variable {calls : List (Exec (Guarded σ) ε α)} {g : Guarded σ}

theorem after_cons {call : Exec (Guarded σ) ε α} : after (call :: calls) g = after calls (call g).2 :=
  rfl

theorem after_append (calls calls' : List (Exec (Guarded σ) ε α)) :
    after (calls ++ calls') g = after calls' (after calls g) :=
  List.foldl_append

theorem after_of_shut (h : ∀ call ∈ calls, Guards call) (hg : ¬ g.IsFree) : after calls g = g := by
  induction calls with
  | nil => rfl
  | cons call calls ih =>
      rw [after_cons, (h call List.mem_cons_self).shut g hg]
      exact ih fun call hmem => h call (List.mem_cons_of_mem _ hmem)

/-- Calls that leave the lock free all found it free. -/
theorem isFree_of_after (h : ∀ call ∈ calls, Guards call) (hfree : (after calls g).IsFree) :
    g.IsFree := by
  by_contra hg
  rw [after_of_shut h hg] at hfree
  exact hg hfree

/-- **The lock is free exactly as long as every call came back.** -/
theorem isFree_after_iff (h : ∀ call ∈ calls, Guards call) (hg : g.IsFree) :
    (after calls g).IsFree ↔ ∀ outcome ∈ outcomes calls g, outcome.Returns := by
  induction calls generalizing g with
  | nil => exact iff_of_true hg nofun
  | cons call calls ih =>
      have hcall := h call List.mem_cons_self
      have hrest := fun call hmem => h call (List.mem_cons_of_mem _ hmem)
      rw [eq_free hg, outcomes, List.forall_mem_cons, ← hcall.free_iff g.content]
      by_cases hnext : (call (.free g.content)).2.IsFree
      · rw [and_iff_right hnext]
        exact ih hrest hnext
      · refine iff_of_false ?_ fun hall => hnext hall.1
        exact fun hfree => hnext (isFree_of_after hrest hfree)

end Guarded

end Effects
