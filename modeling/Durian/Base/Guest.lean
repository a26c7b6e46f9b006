import Durian.Base.Exec

/-!
# A guest that calls its host

A guest computes on its own state and on a memory it shares with a host. It may rewrite the memory,
ask the host for something and go on with the reply, or finish. The host serves requests on a state
of its own; a request it fails ends the session, so a guest never sees a failed reply.

The trace of a session lists the requests in order, each with the memory the guest sent it from and
the reply. Its turns are the same requests with the states the host served them in. Invariants and
comparisons of hosts lift from one request to a whole session.
-/

namespace Effects

/-- What a guest does after computing for a while: it leaves a memory, and finishes or asks. -/
inductive Action (γ μ κ ρ ω : Type) where
  | finish (result : ω) (memory : μ) (next : γ)
  | request (call : κ) (memory : μ) (resume : ρ → γ)

structure Host (σ μ κ ε ρ : Type) where
  memory : σ → μ
  setMemory : μ → σ → σ
  serve : κ → Exec σ ε ρ

structure Event (μ κ ε ρ : Type) where
  call : κ
  memory : μ
  reply : Outcome ε ρ

def Event.Succeeded {μ κ ε ρ : Type} (event : Event μ κ ε ρ) : Prop :=
  ∃ r, event.reply = .ok r

inductive Ending (ε ω : Type) where
  | finished (result : ω)
  | failed (f : Failure ε)

structure Session (γ σ μ κ ε ρ ω : Type) where
  ending : Ending ε ω
  guest : γ
  host : σ
  trace : List (Event μ κ ε ρ)

section Run

variable {γ σ τ μ κ ε ρ ω : Type}

def Host.event (host : Host σ μ κ ε ρ) (call : κ) (s : σ) : Event μ κ ε ρ where
  call := call
  memory := host.memory s
  reply := (host.serve call s).1

/-- A session of at most `n` steps of the guest, from its state `g` and the host's state `s`. -/
def Host.run (host : Host σ μ κ ε ρ) (guest : γ → μ → Action γ μ κ ρ ω) :
    Nat → γ → σ → Session γ σ μ κ ε ρ ω
  | 0, g, s => { ending := .failed .fuel, guest := g, host := s, trace := [] }
  | n + 1, g, s =>
      match guest g (host.memory s) with
      | .finish result memory next =>
          { ending := .finished result, guest := next, host := host.setMemory memory s, trace := [] }
      | .request call memory resume =>
          let s₁ := host.setMemory memory s
          match host.serve call s₁ with
          | (.ok reply, s₂) =>
              let rest := host.run guest n (resume reply) s₂
              { rest with trace := host.event call s₁ :: rest.trace }
          | (.fail f, s₂) =>
              { ending := .failed f, guest := g, host := s₂, trace := [host.event call s₁] }

variable {host : Host σ μ κ ε ρ} {guest : γ → μ → Action γ μ κ ρ ω}

theorem Host.run_finish {n : Nat} {g next : γ} {s : σ} {result : ω} {memory : μ}
    (h : guest g (host.memory s) = .finish result memory next) :
    host.run guest (n + 1) g s =
      { ending := .finished result, guest := next, host := host.setMemory memory s,
        trace := [] } := by
  rw [Host.run, h]

theorem Host.run_request_ok {n : Nat} {g : γ} {s s' : σ} {call : κ} {memory : μ} {resume : ρ → γ}
    {reply : ρ} (h : guest g (host.memory s) = .request call memory resume)
    (hserve : host.serve call (host.setMemory memory s) = (.ok reply, s')) :
    host.run guest (n + 1) g s =
      { host.run guest n (resume reply) s' with
        trace := host.event call (host.setMemory memory s) ::
          (host.run guest n (resume reply) s').trace } := by
  rw [Host.run, h]
  simp only [hserve]

theorem Host.run_request_fail {n : Nat} {g : γ} {s s' : σ} {call : κ} {memory : μ}
    {resume : ρ → γ} {f : Failure ε} (h : guest g (host.memory s) = .request call memory resume)
    (hserve : host.serve call (host.setMemory memory s) = (.fail f, s')) :
    host.run guest (n + 1) g s =
      { ending := .failed f, guest := g, host := s',
        trace := [host.event call (host.setMemory memory s)] } := by
  rw [Host.run, h]
  simp only [hserve]

/-- **Invariants of a session.** What holds at the start, survives the guest's writes to the shared
memory and is extended by each request holds of the trace and the host at the end. -/
theorem Host.run_invariant (host : Host σ μ κ ε ρ) (guest : γ → μ → Action γ μ κ ρ ω)
    (inv : List (Event μ κ ε ρ) → σ → Prop)
    (hmemory : ∀ trace memory s, inv trace s → inv trace (host.setMemory memory s))
    (hserve : ∀ trace call s, (∀ event ∈ trace, event.Succeeded) → inv trace s →
      inv (trace ++ [host.event call s]) (host.serve call s).2)
    (n : Nat) (g : γ) (s : σ) (trace : List (Event μ κ ε ρ))
    (htrace : ∀ event ∈ trace, event.Succeeded) (hinv : inv trace s) :
    inv (trace ++ (host.run guest n g s).trace) (host.run guest n g s).host := by
  induction n generalizing g s trace with
  | zero => simpa [Host.run] using hinv
  | succ n ih =>
      cases haction : guest g (host.memory s) with
      | finish result memory next =>
          rw [Host.run_finish haction]
          simpa using hmemory trace memory s hinv
      | request call memory resume =>
          have hstep := hserve trace call _ htrace (hmemory trace memory s hinv)
          rcases hreply : host.serve call (host.setMemory memory s) with ⟨reply | f, s'⟩
          · rw [Host.run_request_ok haction hreply]
            rw [hreply] at hstep
            have hevent : (host.event call (host.setMemory memory s)).Succeeded :=
              ⟨reply, by rw [Host.event, hreply]⟩
            have hrest := ih (resume reply) s' _ (by
              intro event hmem
              rcases List.mem_append.mp hmem with hmem | hmem
              · exact htrace event hmem
              · exact List.mem_singleton.mp hmem ▸ hevent) hstep
            simpa using hrest
          · rw [Host.run_request_fail haction hreply]
            rwa [hreply] at hstep

theorem Host.run_succeeded_of_finished {n : Nat} {g : γ} {s : σ} {result : ω}
    (h : (host.run guest n g s).ending = .finished result) :
    ∀ event ∈ (host.run guest n g s).trace, event.Succeeded := by
  induction n generalizing g s with
  | zero => simp [Host.run] at h
  | succ n ih =>
      cases haction : guest g (host.memory s) with
      | finish result memory next => simp [Host.run_finish haction]
      | request call memory resume =>
          rcases hreply : host.serve call (host.setMemory memory s) with ⟨reply | f, s'⟩
          · rw [Host.run_request_ok haction hreply] at h ⊢
            intro event hmem
            rcases List.mem_cons.mp hmem with rfl | hmem
            · exact ⟨reply, by rw [Host.event, hreply]⟩
            · exact ih h event hmem
          · simp [Host.run_request_fail haction hreply] at h

theorem Host.run_trace_of_failed {n : Nat} {g : γ} {s : σ} {f : Failure ε}
    (h : (host.run guest n g s).ending = .failed f) :
    (f = .fuel ∧ ∀ event ∈ (host.run guest n g s).trace, event.Succeeded) ∨
      ∃ served last, (host.run guest n g s).trace = served ++ [last] ∧
        (∀ event ∈ served, event.Succeeded) ∧ last.reply = .fail f := by
  induction n generalizing g s with
  | zero =>
      simp only [Host.run, Ending.failed.injEq] at h
      exact Or.inl ⟨h.symm, by simp [Host.run]⟩
  | succ n ih =>
      cases haction : guest g (host.memory s) with
      | finish result memory next => simp [Host.run_finish haction] at h
      | request call memory resume =>
          rcases hreply : host.serve call (host.setMemory memory s) with ⟨reply | f', s'⟩
          · rw [Host.run_request_ok haction hreply] at h ⊢
            have hevent : (host.event call (host.setMemory memory s)).Succeeded :=
              ⟨reply, by rw [Host.event, hreply]⟩
            obtain ⟨hfuel, hall⟩ | ⟨served, last, heq, hall, hlast⟩ := ih h
            · exact Or.inl ⟨hfuel, List.forall_mem_cons.mpr ⟨hevent, hall⟩⟩
            · refine Or.inr ⟨host.event call (host.setMemory memory s) :: served, last, ?_,
                List.forall_mem_cons.mpr ⟨hevent, hall⟩, hlast⟩
              simp [heq]
          · rw [Host.run_request_fail haction hreply] at h ⊢
            simp only [Ending.failed.injEq] at h
            refine Or.inr ⟨[], host.event call (host.setMemory memory s), rfl, by simp, ?_⟩
            rw [Host.event, hreply, ← h]

/-! ### The turns of a session -/

/-- A request and the state the host serves it in. -/
structure Turn (σ κ : Type) where
  call : κ
  state : σ

def Turn.outcome (turn : Turn σ κ) (host : Host σ μ κ ε ρ) : Outcome ε ρ × σ :=
  host.serve turn.call turn.state

/-- The turns of the session that `run` has with the guest. -/
def Host.turns (host : Host σ μ κ ε ρ) (guest : γ → μ → Action γ μ κ ρ ω) :
    Nat → γ → σ → List (Turn σ κ)
  | 0, _, _ => []
  | n + 1, g, s =>
      match guest g (host.memory s) with
      | .finish _ _ _ => []
      | .request call memory resume =>
          let turn : Turn σ κ := ⟨call, host.setMemory memory s⟩
          match turn.outcome host with
          | (.ok reply, s') => turn :: host.turns guest n (resume reply) s'
          | (.fail _, _) => [turn]

theorem Host.turns_finish {n : Nat} {g next : γ} {s : σ} {result : ω} {memory : μ}
    (h : guest g (host.memory s) = .finish result memory next) : host.turns guest (n + 1) g s = [] := by
  rw [Host.turns, h]

theorem Host.turns_request_ok {n : Nat} {g : γ} {s s' : σ} {call : κ} {memory : μ} {resume : ρ → γ}
    {reply : ρ} (h : guest g (host.memory s) = .request call memory resume)
    (hserve : host.serve call (host.setMemory memory s) = (.ok reply, s')) :
    host.turns guest (n + 1) g s =
      ⟨call, host.setMemory memory s⟩ :: host.turns guest n (resume reply) s' := by
  rw [Host.turns, h]
  simp only [Turn.outcome, hserve]

theorem Host.turns_request_fail {n : Nat} {g : γ} {s s' : σ} {call : κ} {memory : μ}
    {resume : ρ → γ} {f : Failure ε} (h : guest g (host.memory s) = .request call memory resume)
    (hserve : host.serve call (host.setMemory memory s) = (.fail f, s')) :
    host.turns guest (n + 1) g s = [⟨call, host.setMemory memory s⟩] := by
  rw [Host.turns, h]
  simp only [Turn.outcome, hserve]

/-- The trace lists what became of the turns. -/
theorem Host.trace_eq_turns (n : Nat) (g : γ) (s : σ) :
    (host.run guest n g s).trace =
      (host.turns guest n g s).map fun turn => host.event turn.call turn.state := by
  induction n generalizing g s with
  | zero => rfl
  | succ n ih =>
      cases haction : guest g (host.memory s) with
      | finish result memory next => rw [Host.run_finish haction, Host.turns_finish haction]; rfl
      | request call memory resume =>
          rcases hreply : host.serve call (host.setMemory memory s) with ⟨reply | f, s'⟩
          · rw [Host.run_request_ok haction hreply, Host.turns_request_ok haction hreply, List.map_cons,
              ← ih]
          · rw [Host.run_request_fail haction hreply, Host.turns_request_fail haction hreply]
            rfl

/-- What the guest's writes and the requests keep holds of the host in every turn and at the end. -/
theorem Host.turns_invariant (host : Host σ μ κ ε ρ) (guest : γ → μ → Action γ μ κ ρ ω)
    (inv : σ → Prop)
    (hmemory : ∀ memory s, inv s → inv (host.setMemory memory s))
    (hserve : ∀ call s, inv s → inv (host.serve call s).2) (n : Nat) (g : γ) {s : σ} (hs : inv s) :
    (∀ turn ∈ host.turns guest n g s, inv turn.state) ∧ inv (host.run guest n g s).host := by
  induction n generalizing g s with
  | zero => exact ⟨nofun, hs⟩
  | succ n ih =>
      cases haction : guest g (host.memory s) with
      | finish result memory next =>
          rw [Host.run_finish haction, Host.turns_finish haction]
          exact ⟨nofun, hmemory memory s hs⟩
      | request call memory resume =>
          have hset := hmemory memory s hs
          have hserved := hserve call _ hset
          rcases hreply : host.serve call (host.setMemory memory s) with ⟨reply | f, s'⟩
          · rw [hreply] at hserved
            rw [Host.run_request_ok haction hreply, Host.turns_request_ok haction hreply]
            exact ⟨List.forall_mem_cons.mpr ⟨hset, (ih (resume reply) hserved).1⟩,
              (ih (resume reply) hserved).2⟩
          · rw [hreply] at hserved
            rw [Host.run_request_fail haction hreply, Host.turns_request_fail haction hreply]
            exact ⟨List.forall_mem_singleton.mpr hset, hserved⟩

/-- What the guest's writes keep and the session has changed was changed in one of its turns. -/
theorem Host.turns_changed {α : Type} {f : σ → α}
    (hmemory : ∀ memory s, f (host.setMemory memory s) = f s) {n : Nat} {g : γ} {s : σ}
    (h : f (host.run guest n g s).host ≠ f s) :
    ∃ turn ∈ host.turns guest n g s, f (turn.outcome host).2 ≠ f turn.state := by
  by_contra hnone
  push Not at hnone
  apply h
  clear h
  induction n generalizing g s with
  | zero => rfl
  | succ n ih =>
      cases haction : guest g (host.memory s) with
      | finish result memory next =>
          rw [Host.run_finish haction]
          exact hmemory memory s
      | request call memory resume =>
          rcases hreply : host.serve call (host.setMemory memory s) with ⟨reply | e, s'⟩
          · rw [Host.turns_request_ok haction hreply] at hnone
            obtain ⟨hfirst, hrest⟩ := List.forall_mem_cons.mp hnone
            have hkept : f s' = f (host.setMemory memory s) := by
              simpa only [Turn.outcome, hreply] using hfirst
            rw [Host.run_request_ok haction hreply]
            exact (ih hrest).trans (hkept.trans (hmemory memory s))
          · rw [Host.turns_request_fail haction hreply] at hnone
            have hkept : f s' = f (host.setMemory memory s) := by
              simpa only [Turn.outcome, hreply] using hnone _ List.mem_cons_self
            rw [Host.run_request_fail haction hreply]
            exact hkept.trans (hmemory memory s)

/-- A turn that fails is the end of the session. -/
theorem Host.ending_of_turn_fail {n : Nat} {g : γ} {s : σ} {turn : Turn σ κ} {f : Failure ε}
    (hmem : turn ∈ host.turns guest n g s) (hfail : (turn.outcome host).1 = .fail f) :
    (host.run guest n g s).ending = .failed f := by
  induction n generalizing g s with
  | zero => cases hmem
  | succ n ih =>
      cases haction : guest g (host.memory s) with
      | finish result memory next =>
          rw [Host.turns_finish haction] at hmem
          cases hmem
      | request call memory resume =>
          rcases hreply : host.serve call (host.setMemory memory s) with ⟨reply | e, s'⟩
          · rw [Host.turns_request_ok haction hreply] at hmem
            rw [Host.run_request_ok haction hreply]
            obtain rfl | hmem := List.mem_cons.mp hmem
            · rw [Turn.outcome, hreply] at hfail
              cases hfail
            · exact ih hmem
          · rw [Host.turns_request_fail haction hreply] at hmem
            obtain rfl := List.mem_singleton.mp hmem
            rw [Turn.outcome, hreply] at hfail
            rw [Host.run_request_fail haction hreply]
            exact congrArg Ending.failed (Outcome.fail.inj hfail)

/-- **Sessions in step.** Two hosts that show the guest the same memory and serve each request in
step give the guest the same session, unless the first ends in a failure that escapes and the second
is lost. -/
theorem Host.run_sim {other : Host τ μ κ ε ρ} {C : Coupling σ τ ε}
    (hmemory : ∀ s t, C.rel s t → host.memory s = other.memory t)
    (hset : ∀ memory s t, C.rel s t → C.rel (host.setMemory memory s) (other.setMemory memory t))
    (hlost : ∀ memory t, C.lost t → C.lost (other.setMemory memory t))
    (hserve : ∀ call, Sim C (host.serve call) (other.serve call))
    (n : Nat) (g : γ) (s : σ) (t : τ) (hrel : C.rel s t) :
    (∃ f, (host.run guest n g s).ending = .failed f ∧ C.escapes f ∧
        C.lost (other.run guest n g t).host) ∨
      ((host.run guest n g s).ending = (other.run guest n g t).ending ∧
        (host.run guest n g s).guest = (other.run guest n g t).guest ∧
        (host.run guest n g s).trace = (other.run guest n g t).trace ∧
        C.rel (host.run guest n g s).host (other.run guest n g t).host) := by
  have hstays : ∀ n g t, C.lost t → C.lost (other.run guest n g t).host := fun n g t ht =>
    (Host.turns_invariant other guest C.lost hlost (fun call => (hserve call).lost) n g ht).2
  induction n generalizing g s t with
  | zero => exact Or.inr ⟨rfl, rfl, rfl, hrel⟩
  | succ n ih =>
      cases haction : guest g (host.memory s) with
      | finish result memory next =>
          have haction' := haction
          rw [hmemory s t hrel] at haction'
          rw [Host.run_finish haction, Host.run_finish haction']
          exact Or.inr ⟨rfl, rfl, rfl, hset memory s t hrel⟩
      | request call memory resume =>
          have haction' := haction
          rw [hmemory s t hrel] at haction'
          have hrel₁ := hset memory s t hrel
          have hshown := hmemory _ _ hrel₁
          rcases hreply : host.serve call (host.setMemory memory s) with ⟨reply | f, s'⟩
          · obtain ⟨t', hreply', hrel'⟩ := (hserve call).of_ok hrel₁ hreply
            rw [Host.run_request_ok haction hreply, Host.run_request_ok haction' hreply']
            have hevent : host.event call (host.setMemory memory s) =
                other.event call (other.setMemory memory t) := by
              simp only [Host.event, hshown, hreply, hreply']
            refine (ih (resume reply) s' t' hrel').imp id fun ⟨hending, hguest, htrace, hhost⟩ => ?_
            exact ⟨hending, hguest, by simp only [hevent, htrace], hhost⟩
          · rw [Host.run_request_fail haction hreply]
            obtain ⟨hescape, ht⟩ | ⟨_, t', hreply', hrel'⟩ := (hserve call).of_fail hrel₁ hreply
            · refine Or.inl ⟨f, rfl, hescape, ?_⟩
              rcases hother : other.serve call (other.setMemory memory t) with ⟨reply' | f', t'⟩
              · rw [hother] at ht
                rw [Host.run_request_ok haction' hother]
                exact hstays n (resume reply') t' ht
              · rw [hother] at ht
                rwa [Host.run_request_fail haction' hother]
            · rw [Host.run_request_fail haction' hreply']
              refine Or.inr ⟨rfl, rfl, ?_, hrel'⟩
              simp only [Host.event, hshown, hreply, hreply']

end Run

end Effects
