import Durian.Proof.Reading
import Durian.Proof.Staged
import Durian.Script

/-!
# Failing host calls

A call that fails has not come to its effect. It may have charged gas and have filled the cache with
answers of the provider, but the memory, the logs, the result and everything the cache holds are as
they were, and so is what the storage and the accounts read as. The `Return` with which a result is
handed over is the one error that comes after an effect.
-/

namespace Durian.Runtime

open Effects

variable {π : Type} [Provider π]

/-- One runtime follows another when nothing happened but charges and reads. -/
structure Unharmed (rt rt' : Runtime (State π)) : Prop where
  rest : rt' = { rt with gasCounter := rt'.gasCounter, state := rt'.state }
  gas : rt.gasCounter ≤ rt'.gasCounter
  cache : State.Grown rt.state rt'.state
  markedAccounts : ∀ a, (∃ info, rt'.state.accounts.lookup a = some (info, true)) ↔
    ∃ info, rt.state.accounts.lookup a = some (info, true)
  markedSlots : ∀ a k, rt'.state.marked a k = rt.state.marked a k
  storage : (∀ (query : Query) (p : π), slot (query.after p) = slot p) → ∀ a k,
    (State.storageAt a k rt.state).1.Returns → (State.storageAt a k rt'.state).1.Returns →
      (State.storageAt a k rt'.state).1 = (State.storageAt a k rt.state).1
  fields : (∀ (query : Query) (p : π) a,
      (Provider.account a (query.after p)).1 = (Provider.account a p).1) →
    ∀ a, (State.fields a rt'.state).1 = (State.fields a rt.state).1

theorem Calm.unharmed {rt rt' : Runtime (State π)} (h : Calm rt rt') : Unharmed rt rt' := by
  obtain ⟨counter, st, hgas, hreads⟩ := h
  refine ⟨rfl, hgas, hreads.grown, hreads.grown.marked_iff, hreads.marked_eq, ?_,
    hreads.grown.fields_eq⟩
  intro hquery a k hbefore hafter
  rw [State.storageAt_of_returns hquery hbefore, State.storageAt_of_returns hquery hafter,
    hreads.reading_eq hquery]

/-- **A failing host call has no effect but gas.** Whatever the function, its arguments and the
runtime, a call that fails with anything but `Return` leaves the runtime unharmed. -/
theorem failed_call_unharmed (index : Nat) (args : RuntimeArgs) (rt rt' : Runtime (State π))
    (f : Failure TrapKind) (hrun : invokeIndex index args rt = (.fail f, rt'))
    (hreturn : f ≠ .err (.host .return)) : Unharmed rt rt' := by
  have hstages := invokeIndex_stages index args rt
  rw [hrun] at hstages
  cases hstages with
  | calm h => exact h.unharmed
  | @effect _ mid e h _ hends =>
      cases e with
      | result bytes => exact absurd (Outcome.fail.inj hends) hreturn
      | memory ptr bytes => obtain ⟨_, hok⟩ := hends; cases hok
      | slot key value => obtain ⟨_, hok⟩ := hends; cases hok
      | log topics data => obtain ⟨_, hok⟩ := hends; cases hok

/-- A `storage_read` to a place past the memory has charged its price before it fails. -/
theorem failed_call_unharmed_read :
    ∃ (e : Error) (rt' : Runtime (State Answers)),
      invokeIndex Ids.storageReadFunc [.i32 0, .i32 65536]
          (Script.runtime (State.new (Answers.only ⟨0, 0, [1]⟩))) =
        (.fail (.err (.host e)), rt') ∧ rt'.gasCounter = 133 ∧
      Unharmed (Script.runtime (State.new (Answers.only ⟨0, 0, [1]⟩))) rt' := by
  have hrun : invokeIndex Ids.storageReadFunc [.i32 0, .i32 65536]
      (Script.runtime (State.new (Answers.only ⟨0, 0, [1]⟩))) =
        (.fail (.err (.host (.wasm
          "Wasm Memory error: trying to access region [65536..65568] in memory [0..65536]"))),
          (invokeIndex Ids.storageReadFunc [.i32 0, .i32 65536]
            (Script.runtime (State.new (Answers.only ⟨0, 0, [1]⟩)))).2) :=
    Prod.ext (by decide) rfl
  exact ⟨_, _, hrun, by decide, failed_call_unharmed _ _ _ _ _ hrun (by decide)⟩

end Durian.Runtime
