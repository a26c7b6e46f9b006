import Durian.Commit

/-!
# Atomicity of failures

An execution that answers with an error should leave the blockchain as it was. Everything up to the
flush only queries the provider, so the one error that leaves something behind is a write of the
flush that the provider refuses: the writes before it have been made, and there is no call to take
them back.
-/

namespace Durian

open Effects

variable {M L γ π : Type} [Provider π] (crates : Crates M L γ) (logTrace : Bool)
  (order : HashOrder) (fuel : Nat) (transaction : Transaction) (p : π)

/-- After an error, what `view` shows of the provider is what it showed before. -/
def FailsAtomically {α : Type} (view : π → α) : Prop :=
  ∀ e q, execute crates logTrace order fuel transaction p = (.fail (.err e), q) → view q = view p

/-- The flush of a run began with the provider at `q₀` and stopped at `q`, where the provider
refused a write with the error `e`. The writes made before it stand. -/
inductive StoppedFlush {α : Type} (view : π → α) (ran : Ran π) (e : Error) (q : π) : Prop where
  | at {q₀ q₁ : π} {deployment : Option Mutation} {made rest : List Mutation} {refused : Mutation}
      (hreturned : Runtime.returned ran.trace ≠ [])
      (hdeploys : Deploys p transaction (transaction.contract crates)
        (Runtime.returned ran.trace) q₀ deployment)
      (hflush : IsFlush (transaction.contract crates) (Runtime.writes ran.trace) deployment
        (made ++ refused :: rest))
      (hbegun : view q₀ = view p) (hmade : Mutation.performAll made q₀ = (.ok (), q₁))
      (hrefused : refused.perform q₁ = (.fail (.err e), q)) (hstands : view q = view q₁)

variable {crates logTrace order fuel transaction p}

theorem FailsClean.queried {α : Type} {view : π → α} (hπ : FailsClean view) {p q : π}
    (h : Queried p q) : view q = view p :=
  h.eq_of view hπ.query

/-- **Atomicity of failures.** After an error the provider is as it was, unless the run had ended
and handed something back, and the error is the refusal of a write of its flush. -/
theorem failsAtomically_or_stoppedFlush {α : Type} {view : π → α} (hπ : FailsClean view) {e : Error}
    {q : π} (h : execute crates logTrace order fuel transaction p = (.fail (.err e), q)) :
    view q = view p ∨ ∃ ran q', runContract crates logTrace fuel transaction p = (.ok ran, q') ∧
      StoppedFlush crates transaction p view ran e q := by
  rcases hrun : runContract crates logTrace fuel transaction p with ⟨ran | f, q'⟩
  · have hsound := (runContract_sound crates hrun).2
    have hrunView := hπ.queried hsound.cached.sourced.queried
    have hsettles := execute_settles crates order hrun
    rw [h] at hsettles
    generalize hout : (Outcome.fail (.err e), q) = out at hsettles
    cases hsettles with
    | refused =>
        cases hout
        exact Or.inl hrunView
    | empty => cases hout
    | crashed _ _ hf =>
        cases hout
        exact absurd rfl (hf e)
    | flushed hreturned hdeploys hflush =>
        obtain hfail | ⟨_, _, _, hpure⟩ := Exec.bind_eq_fail_iff.mp hout.symm
        · obtain ⟨made, refused, rest, q₁, rfl, hmade, hrefused⟩ := Exec.forEach_eq_fail hfail
          exact Or.inr ⟨ran, q', rfl, .at hreturned hdeploys hflush (hπ.queried hdeploys.queried)
            hmade hrefused (hπ.mutation refused q₁ q _ hrefused)⟩
        · cases hpure
  · rw [execute_of_fail crates hrun] at h
    cases h
    exact Or.inl (hπ.queried (runContract_queried hrun))

/-! ### A provider that refuses -/

/-- A chain with room for a number of mutations. -/
structure Limited where
  chain : Blockchain
  room : Nat

namespace Limited

def onChain {ε α : Type} (m : Exec Blockchain ε α) : Exec Limited ε α :=
  Exec.zoom Limited.chain (fun chain p => { p with chain := chain }) fun _ => m

def guarded (m : Exec Blockchain Error Unit) : Exec Limited Error Unit := fun p =>
  match p.room with
  | 0 => (.fail (.err .storageUpdateError), p)
  | room + 1 => onChain m { p with room := room }

instance : Provider Limited where
  exist address := onChain (Provider.exist address)
  account address := onChain (Provider.account address)
  updateAccount address balance nonce := guarded (Provider.updateAccount address balance nonce)
  createContract address code := guarded (Provider.createContract address code)
  storageAt address key := onChain (Provider.storageAt address key)
  setStorage address key value := guarded (Provider.setStorage address key value)
  timestamp := onChain Provider.timestamp
  blockNumber := onChain Provider.blockNumber
  blockHash number := onChain (Provider.blockHash number)
  blockAuthor := onChain Provider.blockAuthor
  difficulty := onChain Provider.difficulty
  gasLimit := onChain Provider.gasLimit

theorem perform_eq (mutation : Mutation) :
    (mutation.perform : Exec Limited Error Unit) = guarded mutation.perform := by
  cases mutation <;> rfl

theorem failsClean : FailsClean Limited.chain where
  query query p := by
    have hquery := Blockchain.after_eq query p.chain
    cases query <;> exact hquery
  mutation mutation p p' f h := by
    rw [perform_eq, guarded] at h
    split at h
    · cases h
      rfl
    · rw [onChain, Exec.zoom_apply] at h
      obtain ⟨hfail, rfl⟩ := Prod.mk.inj h
      exact Blockchain.failsClean.mutation mutation p.chain _ f (Prod.ext hfail rfl)

end Limited

/-- A contract that writes two slots and hands back one byte. -/
def Script.storingTwice : Script :=
  Script.storing [Script.storageWrite (Script.page [7]) 1 0, Script.ret (Script.page [7]) 0 1]

/-- One account, and room for one write. -/
def Limited.almostFull : Limited := ⟨Script.chain [Account.new FixedHash.zero 0 0 [1]], 1⟩

theorem execute_almostFull :
    (execute Script.storingTwice.crates false HashOrder.listed 10
      (Script.transaction (.call FixedHash.zero) 100000) Limited.almostFull).1 =
    .fail (.err .storageUpdateError) := by decide

theorem failsAtomically_or_stoppedFlush_almostFull :
    let q := (execute Script.storingTwice.crates false HashOrder.listed 10
      (Script.transaction (.call FixedHash.zero) 100000) Limited.almostFull).2
    q.chain = Limited.almostFull.chain ∨
      ∃ ran q', runContract Script.storingTwice.crates false 10
          (Script.transaction (.call FixedHash.zero) 100000) Limited.almostFull = (.ok ran, q') ∧
        StoppedFlush Script.storingTwice.crates (Script.transaction (.call FixedHash.zero) 100000)
          Limited.almostFull Limited.chain ran .storageUpdateError q :=
  failsAtomically_or_stoppedFlush Limited.failsClean (Prod.ext execute_almostFull rfl)

/-- A chain with room for one write takes the first of two and refuses the second: the transaction
is answered with an error, and the first write stays. -/
theorem not_failsAtomically_almostFull :
    FailsClean Limited.chain ∧
      ¬ FailsAtomically Script.storingTwice.crates false HashOrder.listed 10
        (Script.transaction (.call FixedHash.zero) 100000) Limited.almostFull Limited.chain := by
  refine ⟨Limited.failsClean, fun h => ?_⟩
  have hleft : slot (execute Script.storingTwice.crates false HashOrder.listed 10
      (Script.transaction (.call FixedHash.zero) 100000) Limited.almostFull).2.chain FixedHash.zero
    FixedHash.zero = some (Runtime.hashAt (Script.page [7]) 0) := by decide
  have herr := execute_almostFull
  generalize hout : execute Script.storingTwice.crates false HashOrder.listed 10
      (Script.transaction (.call FixedHash.zero) 100000) Limited.almostFull = out at herr hleft
  rw [h .storageUpdateError out.2 (hout.trans (Prod.ext herr rfl))] at hleft
  exact absurd hleft (by decide)

end Durian
