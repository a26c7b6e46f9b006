import Durian.Outcome
import Durian.Traced

/-!
# Confinement of the writes

What a transaction asks of the provider, beyond queries, is confined to the contract it runs:
nothing while the contract runs, then at most one deployment, and one write for each slot the run
wrote. The list of a traced provider shows it, at whatever point the transaction ends.
-/

namespace Durian

open Effects

def Mutation.key : Mutation → Option H256
  | .setStorage _ key _ => some key
  | _ => none

/-- Mutations that a transaction at `address` may ask for after a run that wrote `ws`. -/
structure Confined (action : Action) (address : Address) (ws : List (H256 × H256))
    (issued : List Mutation) : Prop where
  address : ∀ mutation ∈ issued, mutation.address = address
  call : ∀ callee, action = .call callee → ∀ mutation ∈ issued, mutation.IsSetStorage
  deployment : ∀ before mutation after, issued = before ++ mutation :: after →
    ¬ mutation.IsSetStorage → before = []
  once : (issued.filterMap Mutation.key).Nodup
  written : ∀ a key value, Mutation.setStorage a key value ∈ issued → lastWrite ws key = some value

theorem Confined.nil {action : Action} {address : Address} {ws : List (H256 × H256)} :
    Confined action address ws [] where
  address := by simp
  call := by simp
  deployment := by simp
  once := by simp
  written := by simp

theorem Confined.shorten {action : Action} {address : Address} {ws : List (H256 × H256)}
    {done issued : List Mutation} (h : Confined action address ws issued) (hdone : done <+: issued) :
    Confined action address ws done where
  address mutation hmem := h.address mutation (hdone.subset hmem)
  call callee haction mutation hmem := h.call callee haction mutation (hdone.subset hmem)
  deployment := by
    intro before mutation after heq hdeploy
    obtain ⟨rest, rfl⟩ := hdone
    exact h.deployment before mutation (after ++ rest) (by rw [heq]; simp) hdeploy
  once := h.once.sublist (hdone.sublist.filterMap _)
  written a key value hmem := h.written a key value (hdone.subset hmem)

section Flush

variable {π : Type} [Provider π] {p q : π} {transaction : Transaction} {address : Address}
  {code : Bytes} {ws : List (H256 × H256)} {deployment : Option Mutation}
  {mutations : List Mutation}

theorem Deploys.mem (h : Deploys p transaction address code q deployment) {mutation : Mutation}
    (hmem : mutation ∈ deployment) : mutation.address = address ∧ mutation.key = none ∧
      ¬ mutation.IsSetStorage ∧ ∃ initCode salt, transaction.action = .create initCode salt := by
  cases h with
  | call => cases hmem
  | @create initCode salt _ known _ haction =>
      cases hmem
      cases known with
      | true => exact ⟨rfl, rfl, id, initCode, salt, haction⟩
      | false => exact ⟨rfl, rfl, id, initCode, salt, haction⟩

theorem IsFlush.confined (hdeploys : Deploys p transaction address code q deployment)
    (hflush : IsFlush address ws deployment mutations) :
    Confined transaction.action address ws mutations := by
  obtain ⟨slots, hslots, rfl⟩ := hflush
  have hslot : ∀ mutation ∈ slots.map (Mutation.slot address), mutation.IsSetStorage := by
    intro mutation hmem
    obtain ⟨slot, _, rfl⟩ := List.mem_map.mp hmem
    trivial
  have hkeys : (slots.map (Mutation.slot address)).filterMap Mutation.key = slots.map Prod.fst := by
    rw [List.filterMap_map]
    exact congrFun List.filterMap_eq_map slots
  refine ⟨fun mutation hmem => ?_, fun callee haction mutation hmem => ?_, ?_, ?_, ?_⟩
  · rcases List.mem_append.mp hmem with hmem | hmem
    · exact (hdeploys.mem (Option.mem_toList.mp hmem)).1
    · obtain ⟨slot, _, rfl⟩ := List.mem_map.mp hmem
      rfl
  · rcases List.mem_append.mp hmem with hmem | hmem
    · obtain ⟨_, _, _, initCode, salt, hcreate⟩ := hdeploys.mem (Option.mem_toList.mp hmem)
      rw [haction] at hcreate
      cases hcreate
    · exact hslot mutation hmem
  · intro before mutation after heq hdeploy
    cases before with
    | nil => rfl
    | cons first before =>
        refine absurd (hslot mutation ?_) hdeploy
        cases deployment with
        | none =>
            rw [Option.toList_none, List.nil_append] at heq
            rw [heq]
            simp
        | some deployment =>
            rw [Option.toList_some, List.singleton_append] at heq
            rw [(List.cons.inj heq).2]
            simp
  · rw [List.filterMap_append, hkeys]
    cases deployment with
    | none => exact hslots.nodup
    | some deployment =>
        rw [Option.toList_some, List.filterMap_cons_none (hdeploys.mem rfl).2.1]
        exact hslots.nodup
  · intro a key value hmem
    rcases List.mem_append.mp hmem with hmem | hmem
    · exact absurd trivial (hdeploys.mem (Option.mem_toList.mp hmem)).2.2.1
    · obtain ⟨slot, hslot, heq⟩ := List.mem_map.mp hmem
      cases heq
      exact hslots.mem_iff.mp hslot

end Flush

variable {M L γ π : Type} [Provider π] (crates : Crates M L γ) (logTrace : Bool)
  (order : HashOrder) (fuel : Nat) (transaction : Transaction) (p : π)

variable {crates logTrace fuel transaction p} in
/-- After a run that ended, what the end of the transaction asks for is confined. -/
theorem confined_of_run {ran : Ran (Traced π)} {q : Traced π}
    (hrun : runContract crates logTrace fuel transaction (Traced.start p) = (.ok ran, q)) :
    q.issued = [] ∧
      Confined transaction.action (transaction.contract crates) (Runtime.writes ran.trace)
        (execute crates logTrace order fuel transaction (Traced.start p)).2.issued := by
  obtain ⟨rfl, hsound⟩ := runContract_sound crates hrun
  have hissued := Traced.issued_queried hsound.cached.sourced.queried
  refine ⟨hissued, ?_⟩
  have hsettles := execute_settles crates order hrun
  generalize execute crates logTrace order fuel transaction (Traced.start p) = out at hsettles ⊢
  cases hsettles with
  | refused => exact hissued ▸ Confined.nil
  | empty => exact hissued ▸ Confined.nil
  | crashed _ _ _ hq => exact Traced.issued_queried hq ▸ Confined.nil
  | @flushed q _ mutations _ hdeploys hflush =>
      obtain ⟨done, hdone, hlist⟩ := Traced.issued_forEach mutations q
      rw [Exec.bind_pure_snd, Mutation.performAll, hlist, Traced.issued_queried hdeploys.queried]
      exact (hflush.confined hdeploys).shorten hdone

variable {crates logTrace fuel transaction p} in
/-- A run that does not end asks for nothing. -/
theorem issued_of_fail {f : Failure Error} {q : Traced π}
    (hrun : runContract crates logTrace fuel transaction (Traced.start p) = (.fail f, q)) :
    q.issued = [] ∧
      (execute crates logTrace order fuel transaction (Traced.start p)).2.issued = [] := by
  have hissued := Traced.issued_queried (runContract_queried hrun)
  rw [execute_of_fail crates hrun]
  exact ⟨hissued, hissued⟩

/-- A call only asks for writes to slots. -/
theorem isSetStorage_of_call {callee : Address} (haction : transaction.action = .call callee) :
    ∀ mutation ∈ (execute crates logTrace order fuel transaction (Traced.start p)).2.issued,
      mutation.IsSetStorage := by
  rcases hrun : runContract crates logTrace fuel transaction (Traced.start p) with ⟨ran | f, q⟩
  · exact (confined_of_run order hrun).2.call callee haction
  · rw [(issued_of_fail order hrun).2]
    exact fun mutation hmem => absurd hmem List.not_mem_nil

/-- **Confinement of the writes.** Nothing is asked of the provider while the contract runs. Where
the run does not end nothing is asked at all, and where it does what is asked is confined. -/
theorem execute_confined :
    (runContract crates logTrace fuel transaction (Traced.start p)).2.issued = [] ∧
      match runContract crates logTrace fuel transaction (Traced.start p) with
      | (.ok ran, _) =>
          Confined transaction.action (transaction.contract crates) (Runtime.writes ran.trace)
            (execute crates logTrace order fuel transaction (Traced.start p)).2.issued
      | (.fail _, _) =>
          (execute crates logTrace order fuel transaction (Traced.start p)).2.issued = [] := by
  rcases hrun : runContract crates logTrace fuel transaction (Traced.start p) with ⟨ran | f, q⟩
  · exact confined_of_run order hrun
  · exact issued_of_fail order hrun

end Durian
