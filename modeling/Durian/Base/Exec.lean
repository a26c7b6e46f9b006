import Mathlib.Logic.Basic
import Mathlib.Tactic.Common

/-!
# Calls that may fail

A call runs on a state and ends with a value or with a failure, and leaves a state either way. The
failures are kept apart because they mean different things to a caller: an error is an answer, a
panic unwinds through every caller, and running out of fuel stands for a call that has not returned.

Everything proved about pairs of calls goes through `Sim`: two calls started in related states end
alike in related states, up to failures of the first that release the second. Invariants of one call
are the diagonal case.
-/

namespace Effects

/-- How a call ends without a value. -/
inductive Failure (ε : Type) where
  | err (e : ε)
  | panic
  | fuel
  deriving DecidableEq, Repr

def Failure.map {ε ε' : Type} (g : ε → ε') : Failure ε → Failure ε'
  | .err e => .err (g e)
  | .panic => .panic
  | .fuel => .fuel

theorem Failure.map_elim_ne_err {ε : Type} (f : Failure Empty) (e : ε) :
    (f.map Empty.elim : Failure ε) ≠ .err e := by
  cases f with
  | err e' => exact e'.elim
  | panic => exact fun h => by cases h
  | fuel => exact fun h => by cases h

inductive Outcome (ε α : Type) where
  | ok (a : α)
  | fail (f : Failure ε)
  deriving DecidableEq, Repr

namespace Outcome

variable {ε ε' α β : Type}

/-- A sequence stops at the first failure. -/
protected def bind (o : Outcome ε α) (k : α → Outcome ε β) : Outcome ε β :=
  match o with
  | .ok a => k a
  | .fail f => .fail f

instance : Monad (Outcome ε) where
  pure := .ok
  bind := Outcome.bind

@[simp]
theorem pure_eq_ok (a : α) : (pure a : Outcome ε α) = .ok a := rfl

@[simp]
theorem ok_bind (a : α) (k : α → Outcome ε β) : (Outcome.ok a >>= k) = k a := rfl

@[simp]
theorem fail_bind (f : Failure ε) (k : α → Outcome ε β) : (Outcome.fail f >>= k) = .fail f := rfl

theorem bind_eq_ok_iff {o : Outcome ε α} {k : α → Outcome ε β} {b : β} :
    (o >>= k) = .ok b ↔ ∃ a, o = .ok a ∧ k a = .ok b := by
  cases o <;> simp

def mapErr (g : ε → ε') : Outcome ε α → Outcome ε' α
  | .ok a => .ok a
  | .fail f => .fail (f.map g)

def toOption : Outcome ε α → Option α
  | .ok a => some a
  | .fail _ => none

def ofExcept : Except ε α → Outcome ε α
  | .ok a => .ok a
  | .error e => .fail (.err e)

/-- The call returned to its caller, with a value or with an error. -/
def Returns : Outcome ε α → Prop
  | .ok _ => True
  | .fail (.err _) => True
  | .fail _ => False

instance : DecidablePred (Returns : Outcome ε α → Prop)
  | .ok _ => isTrue trivial
  | .fail (.err _) => isTrue trivial
  | .fail .panic => isFalse id
  | .fail .fuel => isFalse id

/-- The call has no error to report: it may only panic. -/
def PanicsOnly (o : Outcome ε α) : Prop :=
  ∀ f, o = .fail f → f = .panic

theorem panicsOnly_ok (a : α) : (Outcome.ok a : Outcome ε α).PanicsOnly := by
  intro f hf
  cases hf

theorem panicsOnly_panic : (Outcome.fail .panic : Outcome ε α).PanicsOnly := by
  intro f hf
  cases hf
  rfl

theorem PanicsOnly.bind {o : Outcome ε α} {k : α → Outcome ε β} (ho : o.PanicsOnly)
    (hk : ∀ a, (k a).PanicsOnly) : (o >>= k).PanicsOnly := by
  cases o with
  | ok a => exact hk a
  | fail f => exact fun f' hf' => ho f' (by cases hf'; rfl)

/-- The call returns a value exactly where `valid` says so, and an error otherwise. -/
def DecidedBy (o : Outcome ε α) (valid : Prop) : Prop :=
  (valid → ∃ a, o = .ok a) ∧ (¬ valid → ∃ e, o = .fail (.err e))

/-- A call that panics where it should report an error decides only what it has to accept. -/
theorem decidedBy_iff_of_panic {o : Outcome ε α} {valid : Prop} (hok : valid → ∃ a, o = .ok a)
    (hpanic : ¬ valid → o = .fail .panic) : o.DecidedBy valid ↔ valid := by
  constructor
  · intro h
    by_contra hnot
    obtain ⟨e, he⟩ := h.2 hnot
    rw [hpanic hnot] at he
    cases he
  · exact fun hvalid => ⟨hok, fun hnot => absurd hvalid hnot⟩

theorem returns_ofExcept (x : Except ε α) : (ofExcept x).Returns := by
  cases x <;> trivial

end Outcome

/-- A call on a state `σ` with errors `ε` and values `α`. -/
def Exec (σ ε α : Type) : Type := σ → Outcome ε α × σ

namespace Exec

variable {σ τ ε ε' α β : Type}

/-- A sequence stops at the first failure, in the state that failure left. -/
protected def bind (m : Exec σ ε α) (k : α → Exec σ ε β) : Exec σ ε β := fun s =>
  match m s with
  | (.ok a, s') => k a s'
  | (.fail f, s') => (.fail f, s')

instance : Monad (Exec σ ε) where
  pure a := fun s => (.ok a, s)
  bind := Exec.bind

@[simp]
theorem pure_apply (a : α) (s : σ) : (pure a : Exec σ ε α) s = (.ok a, s) := rfl

theorem bind_apply (m : Exec σ ε α) (k : α → Exec σ ε β) (s : σ) :
    (m >>= k) s = match m s with
      | (.ok a, s') => k a s'
      | (.fail f, s') => (.fail f, s') := rfl

theorem bind_of_ok {m : Exec σ ε α} {k : α → Exec σ ε β} {s s' : σ} {a : α}
    (h : m s = (.ok a, s')) : (m >>= k) s = k a s' := by
  rw [bind_apply, h]

theorem bind_of_fail {m : Exec σ ε α} {k : α → Exec σ ε β} {s s' : σ} {f : Failure ε}
    (h : m s = (.fail f, s')) : (m >>= k) s = (.fail f, s') := by
  rw [bind_apply, h]

theorem bind_congr_left {m n : Exec σ ε α} {s : σ} (h : m s = n s) (k : α → Exec σ ε β) :
    (m >>= k) s = (n >>= k) s := by
  rw [bind_apply, bind_apply, h]

theorem bind_eq_ok_iff {m : Exec σ ε α} {k : α → Exec σ ε β} {s t : σ} {b : β} :
    (m >>= k) s = (.ok b, t) ↔ ∃ a u, m s = (.ok a, u) ∧ k a u = (.ok b, t) := by
  rw [bind_apply]
  rcases hm : m s with ⟨_ | _, u⟩ <;> simp

theorem bind_eq_fail_iff {m : Exec σ ε α} {k : α → Exec σ ε β} {s t : σ} {f : Failure ε} :
    (m >>= k) s = (.fail f, t) ↔
      m s = (.fail f, t) ∨ ∃ a u, m s = (.ok a, u) ∧ k a u = (.fail f, t) := by
  rw [bind_apply]
  rcases hm : m s with ⟨_ | _, u⟩ <;> simp

theorem bind_pure_snd (m : Exec σ ε α) (b : β) (s : σ) :
    ((m >>= fun _ => pure b) s).2 = (m s).2 := by
  rw [bind_apply]
  rcases m s with ⟨_ | _, _⟩ <;> rfl

theorem bind_snd {m : Exec σ ε α} {k : α → Exec σ ε β} (h : ∀ a s, (k a s).2 = s) (s : σ) :
    ((m >>= k) s).2 = (m s).2 := by
  rw [bind_apply]
  rcases m s with ⟨a | f, s'⟩
  · exact h a s'
  · rfl

instance : LawfulMonad (Exec σ ε) := by
  refine LawfulMonad.mk' _ ?_ (fun _ _ => rfl) ?_
  · intro α m
    funext s
    change (match m s with | (.ok a, s') => _ | (.fail f, s') => _) = m s
    rcases m s with ⟨_ | _, s'⟩ <;> rfl
  · intro α β γ m k l
    funext s
    simp only [bind_apply]
    rcases m s with ⟨_ | _, s'⟩ <;> rfl

theorem eq_ok_of_toOption {m : Exec σ ε α} {s : σ} {f : α → β} {b : β}
    (h : (m s).1.toOption.map f = some b) : ∃ a, m s = (.ok a, (m s).2) ∧ f a = b := by
  rcases hm : m s with ⟨a | e, s'⟩
  · rw [hm] at h
    exact ⟨a, rfl, Option.some.inj h⟩
  · rw [hm] at h
    cases h

/-! ### Primitive calls -/

def lift (o : Outcome ε α) : Exec σ ε α := fun s => (o, s)

def throw (e : ε) : Exec σ ε α := lift (.fail (.err e))

def panic : Exec σ ε α := lift (.fail .panic)

def gets (f : σ → α) : Exec σ ε α := fun s => (.ok (f s), s)

def modify (f : σ → σ) : Exec σ ε Unit := fun s => (.ok (), f s)

def mapErr (g : ε → ε') (m : Exec σ ε α) : Exec σ ε' α := fun s => ((m s).1.mapErr g, (m s).2)

/-- A call that has no error to report, used where errors are `ε`. -/
def infallible (m : Exec σ Empty α) : Exec σ ε α := m.mapErr Empty.elim

/-- A call whose errors the caller looks at instead of passing them on. -/
def attempt (m : Exec σ ε α) : Exec σ ε' (Except ε α) := fun s =>
  match m s with
  | (.ok a, s') => (.ok (.ok a), s')
  | (.fail (.err e), s') => (.ok (.error e), s')
  | (.fail .panic, s') => (.fail .panic, s')
  | (.fail .fuel, s') => (.fail .fuel, s')

theorem attempt_snd (m : Exec σ ε α) (s : σ) :
    (attempt m s : Outcome ε' (Except ε α) × σ).2 = (m s).2 := by
  rw [attempt]
  rcases m s with ⟨a | f, s'⟩
  · rfl
  · cases f <;> rfl

/-- A call whose errors the caller holds to be impossible. -/
def unwrap (m : Exec σ ε α) : Exec σ ε' α := fun s =>
  match m s with
  | (.ok a, s') => (.ok a, s')
  | (.fail (.err _), s') => (.fail .panic, s')
  | (.fail .panic, s') => (.fail .panic, s')
  | (.fail .fuel, s') => (.fail .fuel, s')

/-- A part of the state that the caller holds to be there. -/
def getOrPanic (f : σ → Option α) : Exec σ ε α := fun s =>
  match f s with
  | some a => (.ok a, s)
  | none => (.fail .panic, s)

theorem getOrPanic_snd (f : σ → Option α) (s : σ) :
    (getOrPanic f s : Outcome ε α × σ).2 = s := by
  rw [getOrPanic]
  cases f s <;> rfl

theorem getOrPanic_bind_snd {f : σ → Option α} {k : α → Exec σ ε β} (h : ∀ a s, (k a s).2 = s)
    (s : σ) : ((getOrPanic f >>= k) s).2 = s := by
  rw [bind_snd h, getOrPanic_snd]

theorem getOrPanic_bind_fst {f : σ → Option α} {k : α → Exec σ ε β} {s t : σ} (hf : f s = f t)
    (hk : ∀ a, (k a s).1 = (k a t).1) :
    ((getOrPanic f >>= k) s).1 = ((getOrPanic f >>= k) t).1 := by
  rw [bind_apply, bind_apply, getOrPanic, getOrPanic, hf]
  cases f t with
  | some a => exact hk a
  | none => rfl

def zoom (view : σ → τ) (put : τ → σ → σ) (m : σ → Exec τ ε α) : Exec σ ε α := fun s =>
  ((m s (view s)).1, put (m s (view s)).2 s)

/-- A loop that stops at the first failure of its body. -/
def forEach (f : α → Exec σ ε Unit) : List α → Exec σ ε Unit
  | [] => pure ()
  | a :: l => do
      f a
      forEach f l

@[simp]
theorem lift_apply (o : Outcome ε α) (s : σ) : (lift o : Exec σ ε α) s = (o, s) := rfl

@[simp]
theorem lift_ok_bind (a : α) (k : α → Exec σ ε β) : (lift (.ok a) >>= k) = k a := rfl

@[simp]
theorem gets_apply (f : σ → α) (s : σ) : (gets f : Exec σ ε α) s = (.ok (f s), s) := rfl

theorem mapErr_apply (g : ε → ε') (m : Exec σ ε α) (s : σ) :
    mapErr g m s = ((m s).1.mapErr g, (m s).2) := rfl

theorem zoom_apply (view : σ → τ) (put : τ → σ → σ) (m : σ → Exec τ ε α) (s : σ) :
    zoom view put m s = ((m s (view s)).1, put (m s (view s)).2 s) := rfl

@[simp]
theorem forEach_nil (f : α → Exec σ ε Unit) : forEach f [] = pure () := rfl

theorem forEach_cons (f : α → Exec σ ε Unit) (a : α) (l : List α) :
    forEach f (a :: l) = (f a >>= fun _ => forEach f l) := rfl

/-- A loop that failed did so at some item, having done all before it and none after. -/
theorem forEach_eq_fail {f : α → Exec σ ε Unit} {l : List α} {s t : σ} {e : Failure ε}
    (h : forEach f l s = (.fail e, t)) : ∃ l₁ a l₂ u, l = l₁ ++ a :: l₂ ∧
      forEach f l₁ s = (.ok (), u) ∧ f a u = (.fail e, t) := by
  induction l generalizing s with
  | nil => cases h
  | cons a l ih =>
      rw [forEach_cons] at h
      obtain hfail | ⟨_, u, hok, hrest⟩ := bind_eq_fail_iff.mp h
      · exact ⟨[], a, l, s, rfl, rfl, hfail⟩
      · obtain ⟨l₁, b, l₂, v, hl, hdone, hfail⟩ := ih hrest
        refine ⟨a :: l₁, b, l₂, v, by rw [hl]; rfl, ?_, hfail⟩
        rw [forEach_cons, bind_of_ok hok]
        exact hdone

theorem forEach_invariant {f : α → Exec σ ε Unit} (inv : σ → Prop) {l : List α}
    (hstep : ∀ a ∈ l, ∀ s, inv s → inv (f a s).2) {s : σ} (hs : inv s) : inv (forEach f l s).2 := by
  induction l generalizing s with
  | nil => exact hs
  | cons a l ih =>
      have hnext := hstep a List.mem_cons_self s hs
      rw [forEach_cons, bind_apply]
      rcases hfa : f a s with ⟨_ | e, t⟩
      · rw [hfa] at hnext
        exact ih (fun b hb => hstep b (List.mem_cons_of_mem a hb)) hnext
      · rwa [hfa] at hnext

theorem forEach_ite {f : α → Exec σ ε Unit} (p : α → Bool) (l : List α) :
    forEach (fun a => if p a then f a else pure ()) l = forEach f (l.filter p) := by
  induction l with
  | nil => rfl
  | cons a l ih =>
      rw [forEach_cons, ih]
      by_cases ha : p a = true
      · simp only [ha, if_true, List.filter_cons_of_pos, forEach_cons]
      · rw [List.filter_cons_of_neg ha, if_neg ha]
        rfl

theorem forEach_map {β : Type} (g : β → α) (f : α → Exec σ ε Unit) (l : List β) :
    forEach f (l.map g) = forEach (fun b => f (g b)) l := by
  induction l with
  | nil => rfl
  | cons b l ih => rw [List.map_cons, forEach_cons, forEach_cons, ih]

/-- Every value the call returns is as `post` says. -/
def Yields (m : Exec σ ε α) (post : α → Prop) : Prop :=
  ∀ s a s', m s = (.ok a, s') → post a

theorem Yields.pure {a : α} {post : α → Prop} (h : post a) :
    (Pure.pure a : Exec σ ε α).Yields post := by
  intro s b s' hb
  cases hb
  exact h

theorem Yields.throw (e : ε) (post : α → Prop) : (throw e : Exec σ ε α).Yields post := by
  intro s a s' h
  cases h

theorem Yields.bind {m : Exec σ ε α} {k : α → Exec σ ε β} {post : β → Prop}
    (h : ∀ a, (k a).Yields post) : (m >>= k).Yields post := by
  intro s b s' hb
  obtain ⟨a, t, _, hk⟩ := bind_eq_ok_iff.mp hb
  exact h a t b s' hk

theorem Yields.mapErr {m : Exec σ ε α} {g : ε → ε'} {post : α → Prop} (h : m.Yields post) :
    (m.mapErr g).Yields post := by
  intro s a s' ha
  rw [mapErr_apply] at ha
  rcases hm : m s with ⟨b | f, t⟩
  · rw [hm] at ha
    cases ha
    exact h s _ _ hm
  · rw [hm] at ha
    cases ha

theorem Yields.ite {p : Prop} [Decidable p] {m n : Exec σ ε α} {post : α → Prop}
    (hm : m.Yields post) (hn : n.Yields post) : (if p then m else n).Yields post := by
  split
  · exact hm
  · exact hn

end Exec

/-! ### Two calls in step -/

/-- How two calls are compared: which states are related, which failures of the first release the
second, in which states the second is lost then, and which failures may happen at all. -/
structure Coupling (σ τ ε : Type) where
  rel : σ → τ → Prop
  escapes : Failure ε → Prop
  lost : τ → Prop
  allows : Failure ε → Prop

/-- The same comparison after the errors have been renamed by `g`. -/
structure Coupling.Renamed {σ τ ε ε' : Type} (g : ε → ε') (C : Coupling σ τ ε)
    (C' : Coupling σ τ ε') : Prop where
  rel : C'.rel = C.rel
  lost : C'.lost = C.lost
  escapes : ∀ f, C.escapes f → C'.escapes (f.map g)
  allows : ∀ f, C.allows f → C'.allows (f.map g)

/-- From related states, `n` ends as `m` does and the states stay related, unless `m` ends in a
failure that escapes the comparison. Then `n` ends lost, and what is lost stays lost. -/
structure Sim {σ τ ε α : Type} (C : Coupling σ τ ε) (m : Exec σ ε α) (n : Exec τ ε α) : Prop where
  lost : ∀ t, C.lost t → C.lost (n t).2
  step : ∀ s t, C.rel s t →
    match m s with
    | (.ok a, s') => ∃ t', n t = (.ok a, t') ∧ C.rel s' t'
    | (.fail f, s') =>
        (C.escapes f ∧ C.lost (n t).2) ∨ (C.allows f ∧ ∃ t', n t = (.fail f, t') ∧ C.rel s' t')

namespace Sim

variable {σ τ ε ε' α β : Type} {C : Coupling σ τ ε}

theorem of_ok {m : Exec σ ε α} {n : Exec τ ε α} (h : Sim C m n) {s s' : σ} {t : τ} {a : α}
    (hrel : C.rel s t) (hm : m s = (.ok a, s')) : ∃ t', n t = (.ok a, t') ∧ C.rel s' t' := by
  have hst := h.step s t hrel
  rwa [hm] at hst

theorem of_fail {m : Exec σ ε α} {n : Exec τ ε α} (h : Sim C m n) {s s' : σ} {t : τ}
    {f : Failure ε} (hrel : C.rel s t) (hm : m s = (.fail f, s')) :
    (C.escapes f ∧ C.lost (n t).2) ∨
      (C.allows f ∧ ∃ t', n t = (.fail f, t') ∧ C.rel s' t') := by
  have hst := h.step s t hrel
  rwa [hm] at hst

/-- Where no failure escapes, the two calls end alike. -/
theorem eq_of_no_escape {m : Exec σ ε α} {n : Exec τ ε α} (h : Sim C m n)
    (hescapes : ∀ f, ¬ C.escapes f) {s : σ} {t : τ} (hrel : C.rel s t) :
    (m s).1 = (n t).1 ∧ C.rel (m s).2 (n t).2 := by
  rcases hm : m s with ⟨a | f, s'⟩
  · obtain ⟨t', hn, hrel'⟩ := h.of_ok hrel hm
    rw [hn]
    exact ⟨rfl, hrel'⟩
  · obtain ⟨_, t', hn, hrel'⟩ := (h.of_fail hrel hm).resolve_left fun h => hescapes f h.1
    rw [hn]
    exact ⟨rfl, hrel'⟩

theorem pure (a : α) : Sim C (Pure.pure a) (Pure.pure a) where
  lost _ := id
  step _ t hrel := ⟨t, rfl, hrel⟩

/-- The rule for sequences, with what is known of the value the first part returns. -/
theorem bind_of {m : Exec σ ε α} {n : Exec τ ε α} {k : α → Exec σ ε β} {l : α → Exec τ ε β}
    (post : α → Prop) (hpost : n.Yields post)
    (hmn : Sim C m n) (hkl : ∀ a, post a → Sim C (k a) (l a)) : Sim C (m >>= k) (n >>= l) := by
  have hlost : ∀ t, C.lost (n t).2 → C.lost ((n >>= l) t).2 := by
    intro t ht
    rcases hn : n t with ⟨a | f, t'⟩
    · rw [hn] at ht
      rw [Exec.bind_of_ok hn]
      exact (hkl a (hpost t a t' hn)).lost t' ht
    · rw [hn] at ht
      rwa [Exec.bind_of_fail hn]
  refine ⟨fun t ht => hlost t (hmn.lost t ht), fun s t hrel => ?_⟩
  rcases hm : m s with ⟨a | f, s'⟩
  · obtain ⟨t', hn, hrel'⟩ := hmn.of_ok hrel hm
    rw [Exec.bind_of_ok hm, Exec.bind_of_ok hn]
    exact (hkl a (hpost t a t' hn)).step s' t' hrel'
  · rw [Exec.bind_of_fail hm]
    refine (hmn.of_fail hrel hm).imp (fun ⟨hescape, ht⟩ => ⟨hescape, hlost t ht⟩) ?_
    rintro ⟨hallow, t', hn, hrel'⟩
    exact ⟨hallow, t', Exec.bind_of_fail hn, hrel'⟩

theorem bind {m : Exec σ ε α} {n : Exec τ ε α} {k : α → Exec σ ε β} {l : α → Exec τ ε β}
    (hmn : Sim C m n) (hkl : ∀ a, Sim C (k a) (l a)) : Sim C (m >>= k) (n >>= l) :=
  hmn.bind_of (fun _ => True) (fun _ _ _ _ => trivial) fun a _ => hkl a

theorem lift {o : Outcome ε α} (h : ∀ f, o = .fail f → C.allows f) :
    Sim C (Exec.lift o) (Exec.lift o) := by
  refine ⟨fun _ => id, fun s t hrel => ?_⟩
  cases o with
  | ok a => exact ⟨t, rfl, hrel⟩
  | fail f => exact Or.inr ⟨h f rfl, t, rfl, hrel⟩

theorem throw {e : ε} (h : C.allows (.err e)) :
    Sim C (Exec.throw e : Exec σ ε α) (Exec.throw e) :=
  lift fun _ heq => by cases heq; exact h

theorem gets {f : σ → α} {g : τ → α} (h : ∀ s t, C.rel s t → f s = g t) :
    Sim C (Exec.gets f) (Exec.gets g) where
  lost _ := id
  step s t hrel := ⟨t, by rw [Exec.gets_apply, h s t hrel], hrel⟩

theorem modify {f : σ → σ} {g : τ → τ} (h : ∀ s t, C.rel s t → C.rel (f s) (g t))
    (hlost : ∀ t, C.lost t → C.lost (g t)) : Sim C (Exec.modify f) (Exec.modify g) where
  lost := hlost
  step s t hrel := ⟨g t, rfl, h s t hrel⟩

theorem mapErr {C' : Coupling σ τ ε'} {g : ε → ε'} {m : Exec σ ε α} {n : Exec τ ε α}
    (hC : Coupling.Renamed g C C') (h : Sim C m n) : Sim C' (m.mapErr g) (n.mapErr g) := by
  refine ⟨fun t ht => ?_, fun s t hst => ?_⟩
  · rw [hC.lost] at ht ⊢
    exact h.lost t ht
  rw [hC.rel] at hst
  rw [Exec.mapErr_apply]
  rcases hm : m s with ⟨a | f, s'⟩
  · obtain ⟨t', hn, hst'⟩ := h.of_ok hst hm
    exact ⟨t', by rw [Exec.mapErr_apply, hn]; rfl, by rwa [hC.rel]⟩
  · obtain ⟨hescape, ht⟩ | ⟨hallow, t', hn, hst'⟩ := h.of_fail hst hm
    · exact Or.inl ⟨hC.escapes f hescape, by rwa [hC.lost, Exec.mapErr_apply]⟩
    · exact Or.inr ⟨hC.allows f hallow, t', by rw [Exec.mapErr_apply, hn]; rfl, by rwa [hC.rel]⟩

theorem forEach {f : α → Exec σ ε Unit} {g : α → Exec τ ε Unit} (h : ∀ a, Sim C (f a) (g a))
    (l : List α) : Sim C (Exec.forEach f l) (Exec.forEach g l) := by
  induction l with
  | nil => exact Sim.pure ()
  | cons a l ih => exact (h a).bind fun _ => ih

theorem ite {p : Prop} [Decidable p] {m m' : Exec σ ε α} {n n' : Exec τ ε α}
    (h : Sim C m n) (h' : Sim C m' n') : Sim C (if p then m else m') (if p then n else n') := by
  split
  · exact h
  · exact h'

end Sim

/-- The diagonal comparison: one call, whose states keep `inv` and whose failures are in `allows`.
-/
def Coupling.diagonal {σ ε : Type} (inv : σ → Prop) (allows : Failure ε → Prop) :
    Coupling σ σ ε where
  rel s t := s = t ∧ inv s
  escapes _ := False
  lost _ := False
  allows := allows

theorem Sim.diagonal_iff {σ ε α : Type} {inv : σ → Prop} {allows : Failure ε → Prop}
    {m : Exec σ ε α} :
    Sim (Coupling.diagonal inv allows) m m ↔
      ∀ s, inv s → inv (m s).2 ∧ ∀ f, (m s).1 = .fail f → allows f := by
  constructor
  · intro h s hs
    rcases hm : m s with ⟨a | f, s'⟩
    · obtain ⟨_, _, _, hinv⟩ := h.of_ok ⟨rfl, hs⟩ hm
      exact ⟨hinv, fun f hf => by cases hf⟩
    · obtain ⟨hfalse, _⟩ | ⟨hallow, _, _, _, hinv⟩ := h.of_fail ⟨rfl, hs⟩ hm
      · exact hfalse.elim
      · exact ⟨hinv, fun f' hf => by cases hf; exact hallow⟩
  · refine fun h => ⟨fun _ => id, ?_⟩
    rintro s t ⟨rfl, hs⟩
    have hstep := h s hs
    rcases hm : m s with ⟨a | f, s'⟩
    · rw [hm] at hstep
      exact ⟨s', rfl, rfl, hstep.1⟩
    · rw [hm] at hstep
      exact Or.inr ⟨hstep.2 f rfl, s', rfl, rfl, hstep.1⟩

end Effects
