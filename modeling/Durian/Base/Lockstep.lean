import Durian.Base.Exec

/-!
# Calls in lockstep

Two calls that end alike on related states, as long as the first comes back. Where the caller stops
the first in the middle, the other goes on alone, and may be known to be lost from there on.
-/

namespace Effects

namespace Outcome

variable {ε δ α : Type} {g : ε → δ}

theorem mapErr_id (o : Outcome ε α) : o.mapErr id = o := by
  rcases o with a | f
  · rfl
  · cases f <;> rfl

theorem mapErr_eq_fuel {o : Outcome ε α} (h : o.mapErr g = .fail .fuel) : o = .fail .fuel := by
  rcases o with a | f
  · cases h
  · cases f with
    | fuel => rfl
    | panic => cases h
    | err e => cases h

theorem mapErr_eq_cases {o o' : Outcome ε α} (h : o.mapErr g = o'.mapErr g) :
    (∃ a, o = .ok a ∧ o' = .ok a) ∨ (∃ e e', o = .fail (.err e) ∧ o' = .fail (.err e')) ∨
      (o = .fail .panic ∧ o' = .fail .panic) ∨ (o = .fail .fuel ∧ o' = .fail .fuel) := by
  rcases o with a | f <;> rcases o' with a' | f'
  · exact Or.inl ⟨a, rfl, by rw [Outcome.ok.inj h]⟩
  · cases h
  · cases h
  · have hsame : f.map g = f'.map g := Outcome.fail.inj h
    cases f <;> cases f' <;> simp [Failure.map] at hsame ⊢

end Outcome

namespace Exec

variable {σ ε δ α β : Type}

theorem mapErr_id (m : Exec σ ε α) : m.mapErr id = m := by
  funext s
  rw [mapErr_apply, Outcome.mapErr_id]

theorem mapErr_bind (g : ε → δ) (m : Exec σ ε α) (k : α → Exec σ ε β) :
    (m >>= k).mapErr g = m.mapErr g >>= fun a => (k a).mapErr g := by
  funext s
  rw [bind_apply, mapErr_apply, mapErr_apply, bind_apply]
  rcases m s with ⟨a | f, s'⟩ <;> rfl

theorem mapErr_ite (g : ε → δ) (p : Prop) [Decidable p] (m n : Exec σ ε α) :
    (if p then m else n).mapErr g = if p then m.mapErr g else n.mapErr g :=
  apply_ite _ _ _ _

theorem mapErr_forEach (g : ε → δ) (f : α → Exec σ ε Unit) (l : List α) :
    (forEach f l).mapErr g = forEach (fun a => (f a).mapErr g) l := by
  induction l with
  | nil => rfl
  | cons a l ih => rw [forEach_cons, forEach_cons, mapErr_bind, ih]

theorem mapErr_zoom {τ : Type} (g : ε → δ) (view : τ → σ) (put : σ → τ → τ) (m : τ → Exec σ ε α) :
    (zoom view put m).mapErr g = zoom view put fun t => (m t).mapErr g := rfl

end Exec

/-- States related by `R`. A first call that does not come back releases the second, which is lost
then. -/
def Coupling.lockstepOr {σ τ : Type} (R : σ → τ → Prop) (lost : τ → Prop) (ε : Type) :
    Coupling σ τ ε where
  rel := R
  escapes f := f = .fuel
  lost := lost
  allows _ := True

/-- States related by `R`. Of a second call that is released nothing is said. -/
abbrev Coupling.lockstep {σ τ : Type} (R : σ → τ → Prop) (ε : Type) : Coupling σ τ ε :=
  .lockstepOr R (fun _ => True) ε

namespace Sim

variable {σ τ σ' τ' ε ε' δ α β : Type} {R : σ → τ → Prop} {lost : τ → Prop}

theorem lockstepOr_iff {m : Exec σ ε α} {n : Exec τ ε α} :
    Sim (.lockstepOr R lost ε) m n ↔ (∀ t, lost t → lost (n t).2) ∧ ∀ s t, R s t →
      ((m s).1 = .fail .fuel ∧ lost (n t).2) ∨ ((m s).1 = (n t).1 ∧ R (m s).2 (n t).2) := by
  constructor
  · refine fun h => ⟨h.lost, fun s t hrel => ?_⟩
    rcases hm : m s with ⟨a | f, s'⟩
    · obtain ⟨t', hn, hrel'⟩ := h.of_ok hrel hm
      rw [hn]
      exact Or.inr ⟨rfl, hrel'⟩
    · obtain ⟨hescape, ht⟩ | ⟨_, t', hn, hrel'⟩ := h.of_fail hrel hm
      · exact Or.inl ⟨by rw [hescape], ht⟩
      · rw [hn]
        exact Or.inr ⟨rfl, hrel'⟩
  · refine fun h => ⟨h.1, fun s t hrel => ?_⟩
    have hst := h.2 s t hrel
    rcases hm : m s with ⟨a | f, s'⟩
    · rw [hm] at hst
      obtain ⟨hsame, hrel'⟩ := hst.resolve_left fun hfuel => by cases hfuel.1
      exact ⟨(n t).2, Prod.ext hsame.symm rfl, hrel'⟩
    · rw [hm] at hst
      refine hst.imp (fun ⟨hfuel, ht⟩ => ⟨Outcome.fail.inj hfuel, ht⟩) fun ⟨hsame, hrel'⟩ => ?_
      exact ⟨trivial, (n t).2, Prod.ext hsame.symm rfl, hrel'⟩

theorem lockstep_iff {m : Exec σ ε α} {n : Exec τ ε α} :
    Sim (.lockstep R ε) m n ↔ ∀ s t, R s t →
      (m s).1 = .fail .fuel ∨ ((m s).1 = (n t).1 ∧ R (m s).2 (n t).2) := by
  simp only [lockstepOr_iff, imp_self, implies_true, and_true, true_and]

theorem lockstep_mapErr (g : ε → ε') {m : Exec σ ε α} {n : Exec τ ε α}
    (h : Sim (.lockstepOr R lost ε) m n) :
    Sim (.lockstepOr R lost ε') (m.mapErr g) (n.mapErr g) :=
  h.mapErr ⟨rfl, rfl, fun f hf => by rw [hf]; rfl, fun _ _ => trivial⟩

theorem lockstep_infallible {m : Exec σ Empty α} {n : Exec τ Empty α}
    (h : Sim (.lockstepOr R lost Empty) m n) :
    Sim (.lockstepOr R lost ε) m.infallible n.infallible :=
  lockstep_mapErr Empty.elim h

theorem lockstep_zoom {R' : σ' → τ' → Prop} {lost' : τ' → Prop} {view : σ' → σ} {view' : τ' → τ}
    {put : σ → σ' → σ'} {put' : τ → τ' → τ'} {m : σ' → Exec σ ε α} {n : τ' → Exec τ ε α}
    (hview : ∀ s t, R' s t → R (view s) (view' t))
    (hput : ∀ s t u v, R' s t → R u v → R' (put u s) (put' v t))
    (hescapes : ∀ s t v, R' s t → lost v → lost' (put' v t))
    (h : ∀ s t, R' s t → Sim (.lockstepOr R lost ε) (m s) (n t))
    (hlost : ∀ t, lost' t → lost' (put' (n t (view' t)).2 t)) :
    Sim (.lockstepOr R' lost' ε) (Exec.zoom view put m) (Exec.zoom view' put' n) := by
  rw [lockstepOr_iff]
  refine ⟨hlost, fun s t hrel => ?_⟩
  refine ((lockstepOr_iff.mp (h s t hrel)).2 _ _ (hview s t hrel)).imp ?_ ?_
  · exact fun ⟨hfuel, ht⟩ => ⟨hfuel, hescapes s t _ hrel ht⟩
  · exact fun ⟨hsame, hrel'⟩ => ⟨hsame, hput s t _ _ hrel hrel'⟩

theorem lockstep_modify {f : σ → σ} {g : τ → τ} (h : ∀ s t, R s t → R (f s) (g t)) :
    Sim (.lockstep R ε) (Exec.modify f) (Exec.modify g) :=
  Sim.modify h fun _ => id

/-- A call whose error the caller does not look at, but only that there was one. -/
theorem lockstep_attempt_bind (g : ε → δ) {m : Exec σ ε α} {n : Exec τ ε α}
    {k : Except ε α → Exec σ ε' β} {l : Except ε α → Exec τ ε' β}
    (h : Sim (.lockstepOr R lost δ) (m.mapErr g) (n.mapErr g))
    (hok : ∀ a, Sim (.lockstepOr R lost ε') (k (.ok a)) (l (.ok a)))
    (herror : ∀ e e', Sim (.lockstepOr R lost ε') (k (.error e)) (l (.error e'))) :
    Sim (.lockstepOr R lost ε') (Exec.attempt m >>= k) (Exec.attempt n >>= l) := by
  have hlost : ∀ t, lost (n t).2 → lost ((Exec.attempt n >>= l) t).2 := by
    intro t ht
    rw [Exec.bind_apply, Exec.attempt]
    rcases hn : n t with ⟨a | f, t'⟩
    · rw [hn] at ht
      exact (hok a).lost t' ht
    · rw [hn] at ht
      cases f with
      | err e => exact (herror e e).lost t' ht
      | panic => exact ht
      | fuel => exact ht
  rw [lockstepOr_iff]
  refine ⟨fun t ht => hlost t (h.lost t ht), fun s t hrel => ?_⟩
  have hst := (lockstepOr_iff.mp h).2 s t hrel
  rw [Exec.mapErr_apply, Exec.mapErr_apply] at hst
  obtain ⟨hfuel, ht⟩ | ⟨hsame, hrel'⟩ := hst
  · refine Or.inl ⟨?_, hlost t ht⟩
    rw [Exec.bind_apply, Exec.attempt]
    rcases hm : m s with ⟨o, s'⟩
    rw [hm] at hfuel
    obtain rfl := Outcome.mapErr_eq_fuel hfuel
    rfl
  · rw [Exec.bind_apply, Exec.bind_apply, Exec.attempt, Exec.attempt]
    rcases hm : m s with ⟨o, s'⟩
    rcases hn : n t with ⟨o', t'⟩
    rw [hm, hn] at hsame hrel'
    obtain ⟨a, rfl, rfl⟩ | ⟨e, e', rfl, rfl⟩ | ⟨rfl, rfl⟩ | ⟨rfl, rfl⟩ := Outcome.mapErr_eq_cases hsame
    · exact (lockstepOr_iff.mp (hok a)).2 s' t' hrel'
    · exact (lockstepOr_iff.mp (herror e e')).2 s' t' hrel'
    · exact Or.inr ⟨rfl, hrel'⟩
    · exact Or.inr ⟨rfl, hrel'⟩

theorem lockstep_unwrap {m : Exec σ ε α} {n : Exec τ ε α} (h : Sim (.lockstepOr R lost ε) m n) :
    Sim (.lockstepOr R lost ε') (Exec.unwrap m) (Exec.unwrap n) := by
  have hsnd : ∀ t, (Exec.unwrap n t : Outcome ε' α × τ).2 = (n t).2 := by
    intro t
    rw [Exec.unwrap]
    rcases n t with ⟨a | f, t'⟩
    · rfl
    · cases f <;> rfl
  rw [lockstepOr_iff]
  refine ⟨fun t ht => by rw [hsnd]; exact h.lost t ht, fun s t hrel => ?_⟩
  have hst := (lockstepOr_iff.mp h).2 s t hrel
  rw [hsnd]
  rw [Exec.unwrap, Exec.unwrap]
  rcases hm : m s with ⟨a | f, s'⟩
  · rw [hm] at hst
    obtain ⟨hsame, hrel'⟩ := hst.resolve_left fun hfuel => by cases hfuel.1
    rw [show n t = (.ok a, (n t).2) from Prod.ext hsame.symm rfl]
    exact Or.inr ⟨rfl, hrel'⟩
  · rw [hm] at hst
    refine hst.elim (fun ⟨hfuel, ht⟩ => ?_) fun ⟨hsame, hrel'⟩ => ?_
    · cases hfuel
      exact Or.inl ⟨rfl, ht⟩
    · rw [show n t = (.fail f, (n t).2) from Prod.ext hsame.symm rfl]
      cases f <;> exact Or.inr ⟨rfl, hrel'⟩

theorem lockstep_getOrPanic {f : σ → Option α} {g : τ → Option α} (h : ∀ s t, R s t → f s = g t) :
    Sim (.lockstepOr R lost ε) (Exec.getOrPanic f) (Exec.getOrPanic g) := by
  rw [lockstepOr_iff]
  refine ⟨fun t ht => ?_, fun s t hrel => ?_⟩
  · rw [Exec.getOrPanic]
    cases g t <;> exact ht
  · rw [Exec.getOrPanic, Exec.getOrPanic, h s t hrel]
    cases g t <;> exact Or.inr ⟨rfl, hrel⟩

/-- Calls that keep step both ways come back together. -/
theorem lockstep_both {m : Exec σ ε α} {n : Exec τ ε α} (h : Sim (.lockstep R ε) m n)
    (h' : Sim (.lockstep (flip R) ε) n m) {s : σ} {t : τ} (hrel : R s t) :
    (m s).1 = (n t).1 ∧ ((m s).1 ≠ .fail .fuel → R (m s).2 (n t).2) := by
  obtain hfuel | ⟨hsame, hrel'⟩ := lockstep_iff.mp h s t hrel
  · refine ⟨?_, absurd hfuel⟩
    obtain hfuel' | ⟨hsame, _⟩ := lockstep_iff.mp h' t s hrel
    · rw [hfuel, hfuel']
    · exact hsame.symm
  · exact ⟨hsame, fun _ => hrel'⟩

end Sim

/-! ### A call and its image -/

/-- `n` does on the images of states what `m` does on the states. -/
def Mirrors {σ τ ε α : Type} (f : σ → τ) (m : Exec σ ε α) (n : Exec τ ε α) : Prop :=
  ∀ s, n (f s) = ((m s).1, f (m s).2)

namespace Mirrors

variable {σ τ ε α β : Type} {f : σ → τ} {m : Exec σ ε α} {n : Exec τ ε α}

theorem lift (f : σ → τ) (o : Outcome ε α) : Mirrors f (Exec.lift o) (Exec.lift o) :=
  fun _ => rfl

theorem bind {k : α → Exec σ ε β} {l : α → Exec τ ε β} (h : Mirrors f m n)
    (hk : ∀ a, Mirrors f (k a) (l a)) : Mirrors f (m >>= k) (n >>= l) := by
  intro s
  rw [Exec.bind_apply, Exec.bind_apply, h s]
  rcases m s with ⟨a | failure, s'⟩
  · exact hk a s'
  · rfl

theorem forEach {k : α → Exec σ ε Unit} {l : α → Exec τ ε Unit} {items : List α}
    (h : ∀ a ∈ items, Mirrors f (k a) (l a)) :
    Mirrors f (Exec.forEach k items) (Exec.forEach l items) := by
  induction items with
  | nil => exact fun _ => rfl
  | cons a items ih =>
      rw [Exec.forEach_cons, Exec.forEach_cons]
      apply (h a List.mem_cons_self).bind
      intro _
      apply ih
      exact fun b hb => h b (List.mem_cons_of_mem a hb)

theorem sim (h : Mirrors f m n) : Sim (.lockstep (fun s t => t = f s) ε) m n := by
  rw [Sim.lockstep_iff]
  rintro s _ rfl
  rw [h s]
  exact Or.inr ⟨rfl, rfl⟩

theorem sim_flip (h : Mirrors f m n) : Sim (.lockstep (flip fun s t => t = f s) ε) n m := by
  rw [Sim.lockstep_iff]
  rintro _ s rfl
  rw [h s]
  exact Or.inr ⟨rfl, rfl⟩

end Mirrors

end Effects
