import Mathlib.Data.List.Pairwise

/-!
# Two callers of one object

An object answers calls one at a time, and each call may change it. Two callers decide on their next
call by the answers they got so far, and a schedule says whose turn it is. What an interleaving of
the two did is a list of calls with their answers. Where every call that came too early can be
swapped with the calls it overtook, the one caller might as well have gone before the other.
-/

namespace Effects

inductive Side where
  | first
  | second
  deriving DecidableEq

def Side.other : Side → Side
  | .first => .second
  | .second => .first

structure Made (κ α : Type) where
  call : κ
  answer : α

/-- An object in use, with the calls made so far. -/
structure Pool (σ κ α : Type) where
  object : σ
  log : List (Side × Made κ α)

section Interleave

variable {σ κ α : Type}

def callsOf (side : Side) (log : List (Side × Made κ α)) : List (Made κ α) :=
  (log.filter fun entry => entry.1 = side).map Prod.snd

variable (serve : κ → σ → α × σ)

/-- One turn: the side's next call, which is made on the object. -/
def Pool.turn (asks : Side → List (Made κ α) → Option κ) (side : Side) (pool : Pool σ κ α) :
    Option (Pool σ κ α) :=
  (asks side (callsOf side pool.log)).map fun call =>
    { object := (serve call pool.object).2
      log := pool.log ++ [(side, ⟨call, (serve call pool.object).1⟩)] }

/-- The turns of a schedule, where each side has a call to make. -/
def Pool.follow (asks : Side → List (Made κ α) → Option κ) :
    List Side → Pool σ κ α → Option (Pool σ κ α)
  | [], pool => some pool
  | side :: schedule, pool =>
      (pool.turn serve asks side).bind (Pool.follow asks schedule)

/-- Calls made one after another with their answers lead from one state of the object to another. -/
def Leads : List (Made κ α) → σ → σ → Prop
  | [], s, t => s = t
  | made :: rest, s, t => (serve made.call s).1 = made.answer ∧ Leads rest (serve made.call s).2 t

def answers : List κ → σ → List α
  | [], _ => []
  | call :: calls, s => (serve call s).1 :: answers calls (serve call s).2

/-- No calls tell the two states of the object apart. -/
def Alike (s t : σ) : Prop := ∀ calls, answers serve calls s = answers serve calls t

/-- Wherever `x` is made right before `y`, they can be made the other way round, with the same
answers. -/
def Swaps (x y : Made κ α) : Prop :=
  ∀ s t, Leads serve [x, y] s t → ∃ t', Leads serve [y, x] s t' ∧ Alike serve t t'

variable {serve}

theorem Alike.refl (s : σ) : Alike serve s s := fun _ => rfl

theorem Alike.trans {s t u : σ} (hst : Alike serve s t) (htu : Alike serve t u) :
    Alike serve s u := fun calls => (hst calls).trans (htu calls)

theorem Alike.call {s t : σ} (h : Alike serve s t) (call : κ) :
    (serve call s).1 = (serve call t).1 ∧ Alike serve (serve call s).2 (serve call t).2 := by
  refine ⟨?_, fun calls => ?_⟩
  · exact (List.cons.inj (h [call])).1
  · exact (List.cons.inj (h (call :: calls))).2

theorem Leads.cons {call : κ} {answer : α} {rest : List (Made κ α)} {s t u : σ}
    (hserve : serve call s = (answer, t)) (hrest : Leads serve rest t u) :
    Leads serve (⟨call, answer⟩ :: rest) s u := by
  rw [Leads, hserve]
  exact ⟨rfl, hrest⟩

theorem leads_append {before after : List (Made κ α)} {s t : σ} :
    Leads serve (before ++ after) s t ↔
      ∃ u, Leads serve before s u ∧ Leads serve after u t := by
  induction before generalizing s with
  | nil => simp [Leads]
  | cons made before ih =>
      simp only [List.cons_append, Leads, ih]
      constructor
      · rintro ⟨hanswer, u, hbefore, hafter⟩
        exact ⟨u, ⟨hanswer, hbefore⟩, hafter⟩
      · rintro ⟨u, ⟨hanswer, hbefore⟩, hafter⟩
        exact ⟨hanswer, u, hbefore, hafter⟩

theorem Leads.of_alike {calls : List (Made κ α)} {s t s' : σ} (h : Leads serve calls s t)
    (hs : Alike serve s s') : ∃ t', Leads serve calls s' t' ∧ Alike serve t t' := by
  induction calls generalizing s s' with
  | nil =>
      cases h
      exact ⟨s', rfl, hs⟩
  | cons made calls ih =>
      obtain ⟨hanswer, hrest⟩ := h
      obtain ⟨hsame, hnext⟩ := hs.call made.call
      obtain ⟨t', hrest', ht⟩ := ih hrest hnext
      exact ⟨t', ⟨hsame.symm.trans hanswer, hrest'⟩, ht⟩

/-- The invariant of an interleaving: the log leads to where the object is. -/
theorem Pool.turn_leads {asks : Side → List (Made κ α) → Option κ} {side : Side}
    {pool pool' : Pool σ κ α} {s : σ} (h : pool.turn serve asks side = some pool')
    (hlog : Leads serve (pool.log.map Prod.snd) s pool.object) :
    Leads serve (pool'.log.map Prod.snd) s pool'.object := by
  obtain ⟨call, _, rfl⟩ := Option.map_eq_some_iff.mp h
  rw [List.map_append]
  exact leads_append.mpr ⟨pool.object, hlog, rfl, rfl⟩

theorem Pool.follow_leads {asks : Side → List (Made κ α) → Option κ} {schedule : List Side}
    {pool pool' : Pool σ κ α} {s : σ} (h : pool.follow serve asks schedule = some pool')
    (hlog : Leads serve (pool.log.map Prod.snd) s pool.object) :
    Leads serve (pool'.log.map Prod.snd) s pool'.object := by
  induction schedule generalizing pool with
  | nil =>
      cases h
      exact hlog
  | cons side schedule ih =>
      obtain ⟨next, hturn, hrest⟩ := Option.bind_eq_some_iff.mp h
      exact ih hrest (Pool.turn_leads hturn hlog)

theorem Pool.follow_cons {asks : Side → List (Made κ α) → Option κ} {side : Side} {schedule : List Side}
    {s s' : σ} {log : List (Side × Made κ α)} {call : κ} {answer : α}
    (hasks : asks side (callsOf side log) = some call) (hserve : serve call s = (answer, s')) :
    Pool.follow serve asks (side :: schedule) ⟨s, log⟩ =
      Pool.follow serve asks schedule ⟨s', log ++ [(side, ⟨call, answer⟩)]⟩ := by
  rw [Pool.follow, Pool.turn, hasks, Option.map_some, Option.bind_some, hserve]

/-- A call that swaps with all that follow can be made after them. -/
theorem leads_postpone {x : Made κ α} {calls : List (Made κ α)} (hswaps : ∀ y ∈ calls, Swaps serve x y)
    {s t : σ} (h : Leads serve (x :: calls) s t) :
    ∃ t', Leads serve (calls ++ [x]) s t' ∧ Alike serve t t' := by
  induction calls generalizing s t with
  | nil => exact ⟨t, h, Alike.refl t⟩
  | cons y calls ih =>
      obtain ⟨u, hpair, hrest⟩ := leads_append.mp (show Leads serve ([x, y] ++ calls) s t from h)
      obtain ⟨u', hswapped, hu⟩ := hswaps y List.mem_cons_self s u hpair
      obtain ⟨v, hrest', hv⟩ := hrest.of_alike hu
      obtain ⟨hy, hx, rfl⟩ := hswapped
      obtain ⟨w, hlater, hw⟩ := ih (fun z hz => hswaps z (List.mem_cons_of_mem y hz)) ⟨hx, hrest'⟩
      exact ⟨w, ⟨hy, hlater⟩, hv.trans hw⟩

theorem callsOf_cons_self (side : Side) (made : Made κ α) (log : List (Side × Made κ α)) :
    callsOf side ((side, made) :: log) = made :: callsOf side log := by
  simp [callsOf]

theorem callsOf_cons_other {side side' : Side} (h : side' ≠ side) (made : Made κ α)
    (log : List (Side × Made κ α)) : callsOf side ((side', made) :: log) = callsOf side log := by
  simp [callsOf, h]

/-- **One before the other.** Where every call of the other side swaps with the later calls of
`side`, the calls of `side` can all be made first. -/
theorem leads_separate {side : Side} {log : List (Side × Made κ α)}
    (hswaps : log.Pairwise fun x y => x.1 ≠ side → y.1 = side → Swaps serve x.2 y.2) {s t : σ}
    (h : Leads serve (log.map Prod.snd) s t) :
    ∃ u t', Leads serve (callsOf side log) s u ∧ Leads serve (callsOf side.other log) u t' ∧
      Alike serve t t' := by
  induction log generalizing s with
  | nil => exact ⟨s, t, rfl, h, Alike.refl t⟩
  | cons entry log ih =>
      obtain ⟨side', x⟩ := entry
      obtain ⟨hhead, htail⟩ := List.pairwise_cons.mp hswaps
      obtain ⟨hx, hrest⟩ := h
      obtain ⟨u, t', hside, hother, halike⟩ := ih htail hrest
      by_cases hturn : side' = side
      · subst hturn
        rw [callsOf_cons_self, callsOf_cons_other (by cases side' <;> decide)]
        exact ⟨u, t', ⟨hx, hside⟩, hother, halike⟩
      · have hlater : ∀ y ∈ callsOf side log, Swaps serve x y := by
          intro y hy
          obtain ⟨entry, hentry, rfl⟩ := List.mem_map.mp hy
          rw [List.mem_filter, decide_eq_true_eq] at hentry
          exact hhead entry hentry.1 hturn hentry.2
        obtain ⟨u', hmoved, hu⟩ := leads_postpone hlater ⟨hx, hside⟩
        obtain ⟨v, hfirst, hlast⟩ := leads_append.mp hmoved
        obtain ⟨t'', hother', ht⟩ := hother.of_alike hu
        obtain rfl : side' = side.other := by
          cases side' <;> cases side <;> first | rfl | exact absurd rfl hturn
        rw [callsOf_cons_other hturn, callsOf_cons_self]
        obtain ⟨hx', rfl⟩ := hlast
        exact ⟨v, t'', hfirst, ⟨hx', hother'⟩, halike.trans ht⟩

end Interleave

end Effects
