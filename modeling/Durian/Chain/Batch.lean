import Durian.Chain.Locality

/-!
# Transactions at different contracts

A batch of transactions no two of which are at one contract: each ends as it would alone on the
blockchain the batch began with, and leaves its contract as it would alone. Nothing else changes, so
the order of the batch makes no difference.
-/

namespace Durian.Chain

open Effects

/-- A transaction with what one execution of it takes besides. -/
structure Job where
  logTrace : Bool
  order : HashOrder
  fuel : Nat
  transaction : Transaction

section Run

variable {M L γ : Type} (crates : Crates M L γ)

def Job.execute (job : Job) : Exec Blockchain Error ResultData :=
  Durian.execute crates job.logTrace job.order job.fuel job.transaction

def Job.contract (job : Job) : Address := job.transaction.contract crates

/-- The blockchain after a batch, whatever its transactions ended with. -/
def afterBatch (jobs : List Job) (chain : Blockchain) : Blockchain :=
  jobs.foldl (fun chain job => (job.execute crates chain).2) chain

def batchResults : List Job → Blockchain → List (Outcome Error ResultData)
  | [], _ => []
  | job :: jobs, chain =>
      (job.execute crates chain).1 :: batchResults jobs (job.execute crates chain).2

end Run

namespace Blockchain

variable {M L γ : Type} {crates : Crates M L γ} {chain chain' : Blockchain} {address : Address}

/-- `chain'` is what a transaction at `address` can leave of `chain`. -/
structure Beside (address : Address) (chain chain' : Blockchain) : Prop where
  unique : chain'.Unique
  outline : chain'.outline = chain.outline
  holding : ∀ a, a ≠ address → chain'.holding a = chain.holding a
  counter : chain.counter ≤ chain'.counter ∧ chain'.counter ≤ chain.counter + 1

theorem Unique.beside (h : chain.Unique) (address : Address) : Beside address chain chain :=
  ⟨h, rfl, fun _ _ => rfl, by omega⟩

theorem Changed.beside {change : Change} (h : Changed address change chain chain') :
    Beside address chain chain' := by
  obtain ⟨held, _, hrewritten⟩ := h
  have hcounter := hrewritten.counter
  have hvacancy : chain.vacancy address ≤ 1 := by
    unfold vacancy
    split <;> omega
  refine ⟨hrewritten.unique, hrewritten.outline, ?_, by omega⟩
  intro a ha
  rw [hrewritten.holding, Function.update_of_ne ha]

theorem Unique.job_beside (h : chain.Unique) (job : Job) :
    Beside (job.contract crates) chain (job.execute crates chain).2 := by
  have hcommits := h.execute_commits crates job.logTrace job.order job.fuel job.transaction
  rw [Job.execute]
  generalize Durian.execute crates job.logTrace job.order job.fuel job.transaction chain = ended
    at hcommits
  cases hcommits with
  | failed f => exact h.beside _
  | empty => exact h.beside _
  | posted hrun hreturned hchanged => exact hchanged.beside

/-- What happened at another address is nothing to a transaction. -/
theorem Beside.agreeAt (h : chain.Unique) (hbeside : Beside address chain chain')
    (hroom : chain'.counter + 1 < 2 ^ 31) {a : Address} (ha : a ≠ address) :
    AgreeAt a chain' chain where
  left_unique := hbeside.unique
  right_unique := h
  outline := hbeside.outline
  holding := hbeside.holding a ha
  room _ := by
    obtain ⟨hle, _⟩ := hbeside.counter
    exact iff_of_true hroom (by omega)

theorem Beside.job_eq (h : chain.Unique) (hbeside : Beside address chain chain')
    (hroom : chain'.counter + 1 < 2 ^ 31) {job : Job} (hjob : job.contract crates ≠ address) :
    (job.execute crates chain').1 = (job.execute crates chain).1 ∧
      (job.execute crates chain').2.holding (job.contract crates) =
        (job.execute crates chain).2.holding (job.contract crates) := by
  have hagree := hbeside.agreeAt h hroom hjob
  obtain ⟨hsame, hafter⟩ := (followsAt_agreeAt _).execute_eq crates job.logTrace job.order job.order
    job.fuel hagree
  exact ⟨hsame, hafter.holding⟩

/-- A batch as its transactions alone: their outcomes, and what they leave at their contracts. -/
structure Independent (crates : Crates M L γ) (jobs : List Job) (chain : Blockchain) : Prop where
  results : batchResults crates jobs chain = jobs.map fun job => (job.execute crates chain).1
  here : ∀ job ∈ jobs, (afterBatch crates jobs chain).holding (job.contract crates) =
    (job.execute crates chain).2.holding (job.contract crates)
  elsewhere : ∀ address ∉ jobs.map (Job.contract crates),
    (afterBatch crates jobs chain).holding address = chain.holding address

theorem Unique.independent (h : chain.Unique) {jobs : List Job}
    (hdistinct : (jobs.map (Job.contract crates)).Nodup)
    (hroom : chain.counter + jobs.length < 2 ^ 31) : Independent crates jobs chain := by
  induction jobs generalizing chain with
  | nil =>
      constructor
      · rfl
      · intro job hmem
        cases hmem
      · intro address _
        rfl
  | cons first jobs ih =>
      rw [List.map_cons, List.nodup_cons] at hdistinct
      obtain ⟨hfirst, hdistinct⟩ := hdistinct
      rw [List.length_cons] at hroom
      have hbeside : Beside (first.contract crates) chain (first.execute crates chain).2 :=
        h.job_beside first
      have hcounter := hbeside.counter
      have hrest := ih hbeside.unique hdistinct (by omega)
      have hother : ∀ job ∈ jobs, job.contract crates ≠ first.contract crates := by
        intro job hmem heq
        exact hfirst (heq ▸ List.mem_map_of_mem hmem)
      have hjob : ∀ job ∈ jobs, (job.execute crates (first.execute crates chain).2).1 =
            (job.execute crates chain).1 ∧
          (job.execute crates (first.execute crates chain).2).2.holding (job.contract crates) =
            (job.execute crates chain).2.holding (job.contract crates) := by
        intro job hmem
        have hpos := List.length_pos_of_mem hmem
        exact hbeside.job_eq h (by omega) (hother job hmem)
      constructor
      · rw [batchResults, List.map_cons, hrest.results]
        exact congrArg _ (List.map_congr_left fun job hmem => (hjob job hmem).1)
      · intro job hmem
        change (afterBatch crates jobs (first.execute crates chain).2).holding _ = _
        obtain rfl | hmem := List.mem_cons.mp hmem
        · exact hrest.elsewhere _ hfirst
        · rw [hrest.here job hmem, (hjob job hmem).2]
      · intro address hmem
        rw [List.map_cons, List.mem_cons, not_or] at hmem
        change (afterBatch crates jobs (first.execute crates chain).2).holding _ = _
        rw [hrest.elsewhere address hmem.2, hbeside.holding address hmem.1]

theorem Independent.holding_perm {jobs jobs' : List Job} (h : Independent crates jobs chain)
    (h' : Independent crates jobs' chain) (hperm : jobs'.Perm jobs) :
    (afterBatch crates jobs' chain).holding = (afterBatch crates jobs chain).holding := by
  funext address
  by_cases hmem : address ∈ jobs.map (Job.contract crates)
  · obtain ⟨job, hjob, rfl⟩ := List.mem_map.mp hmem
    rw [h.here job hjob, h'.here job (hperm.mem_iff.mpr hjob)]
  · rw [h.elsewhere address hmem, h'.elsewhere address]
    exact fun hmem' => hmem ((hperm.map _).mem_iff.mp hmem')

end Blockchain

section Batches

variable {M L γ : Type} {crates : Crates M L γ} {world : World} {alice bob carol dave : Address}
  {now : Int} {chain : Blockchain}

/-- **Transactions at different contracts are independent.** On a blockchain that can be reached, a
batch of transactions at different contracts ends, transaction by transaction, as each would alone,
and the order of the batch makes no difference to what is held afterwards. -/
theorem batch_independent (hdistinct : [alice, bob, carol, dave, nagaAddress].Nodup)
    (hreaches : Reaches crates (Blockchain.new world alice bob carol dave now) chain)
    {jobs : List Job} (hcontracts : (jobs.map (Job.contract crates)).Nodup)
    (hroom : chain.counter + jobs.length < 2 ^ 31) :
    Blockchain.Independent crates jobs chain ∧ ∀ jobs' : List Job, jobs'.Perm jobs →
      (afterBatch crates jobs' chain).holding = (afterBatch crates jobs chain).holding := by
  have hunique := unique_of_reaches hdistinct hreaches
  have hjobs := hunique.independent hcontracts hroom
  refine ⟨hjobs, fun jobs' hperm => ?_⟩
  have hcontracts' := (hperm.map (Job.contract crates)).nodup_iff.mpr hcontracts
  exact hjobs.holding_perm (hunique.independent hcontracts' (by rwa [hperm.length_eq])) hperm

/-- A contract is created, and another one called. -/
def createAndCall : List Job :=
  [⟨false, HashOrder.listed, 10, Script.transaction (.create [1] FixedHash.zero) 100000⟩,
    ⟨false, HashOrder.listed, 10, Script.transaction (.call (addressOf 2)) 100000⟩]

theorem batch_independent_createAndCall :
    batchResults Script.returning.crates createAndCall Blockchain.atEpoch =
        createAndCall.map (fun job => (job.execute Script.returning.crates Blockchain.atEpoch).1) ∧
      (afterBatch Script.returning.crates createAndCall.reverse Blockchain.atEpoch).holding =
        (afterBatch Script.returning.crates createAndCall Blockchain.atEpoch).holding := by
  have hreaches : Reaches Script.returning.crates
      (Blockchain.new World.listed (addressOf 1) (addressOf 2) (addressOf 3) (addressOf 4) 0)
      Blockchain.atEpoch := Relation.ReflTransGen.refl
  have hcontracts : (createAndCall.map (Job.contract Script.returning.crates)).Nodup := by decide
  obtain ⟨hjobs, horder⟩ := batch_independent (by decide) hreaches hcontracts (by decide)
  exact ⟨hjobs.results, horder _ (List.reverse_perm _)⟩

end Batches

end Durian.Chain
