import Durian.Recorded

/-!
# A provider whose calls are screened

Any provider, up to the first call that is not acceptable. A run on it comes back exactly where the
run on the provider does and each call that the run makes is acceptable when it is made.
-/

namespace Durian

open Effects

/-- Each of the calls is acceptable to the provider as those before it leave it. -/
def Accepted {π : Type} [Provider π] (accepts : Request → π → Prop) :
    List (Made Request Reply) → π → Prop
  | [], _ => True
  | made :: rest, p => accepts made.call p ∧ Accepted accepts rest (made.call.perform p).2

section Accepted

variable {π : Type} [Provider π] {accepts : Request → π → Prop} {calls : List (Made Request Reply)}
  {made : Made Request Reply} {p q : π}

theorem accepted_concat (h : Leads Request.perform calls p q) :
    Accepted accepts (calls ++ [made]) p ↔ Accepted accepts calls p ∧ accepts made.call q := by
  induction calls generalizing p with
  | nil =>
      cases h
      simp [Accepted]
  | cons first calls ih => rw [List.cons_append, Accepted, ih h.2, Accepted, and_assoc]

theorem Accepted.of_concat (h : Accepted accepts (calls ++ [made]) p) : Accepted accepts calls p := by
  induction calls generalizing p with
  | nil => trivial
  | cons first calls ih => exact ⟨h.1, ih h.2⟩

theorem accepted_of_forall (h : ∀ made ∈ calls, ∀ p, accepts made.call p) :
    Accepted accepts calls p := by
  induction calls generalizing p with
  | nil => trivial
  | cons made calls ih =>
      obtain ⟨hmade, hcalls⟩ := List.forall_mem_cons.mp h
      exact ⟨hmade p, ih hcalls⟩

end Accepted

structure Screened (π : Type) (accepts : Request → π → Prop) where
  provider : π

namespace Screened

variable {π ε α : Type} {accepts : Request → π → Prop}

open Classical in
/-- A call that is made if it is acceptable. -/
noncomputable def ask (request : Request) (m : Exec π ε α) : Exec (Screened π accepts) ε α :=
  fun screened =>
    if accepts request screened.provider then
      ((m screened.provider).1, ⟨(m screened.provider).2⟩)
    else (.fail .fuel, screened)

noncomputable instance [Provider π] : Provider (Screened π accepts) where
  exist address := ask (.exist address) (Provider.exist address)
  account address := ask (.account address) (Provider.account address)
  updateAccount address balance nonce :=
    ask (.updateAccount address balance nonce) (Provider.updateAccount address balance nonce)
  createContract address code :=
    ask (.createContract address code) (Provider.createContract address code)
  storageAt address key := ask (.storageAt address key) (Provider.storageAt address key)
  setStorage address key value :=
    ask (.setStorage address key value) (Provider.setStorage address key value)
  timestamp := ask .timestamp Provider.timestamp
  blockNumber := ask .blockNumber Provider.blockNumber
  blockHash number := ask (.blockHash number) (Provider.blockHash number)
  blockAuthor := ask .blockAuthor Provider.blockAuthor
  difficulty := ask .difficulty Provider.difficulty
  gasLimit := ask .gasLimit Provider.gasLimit

/-! ### Beside the provider and its record -/

section Record

variable [Provider π] (accepts) (p : π)

/-- The record leads from `p` to where the screened provider is, and each call was acceptable. -/
structure Beside (screened : Screened π accepts) (recorded : Recorded π) : Prop where
  provider : recorded.provider = screened.provider
  leads : Leads Request.perform recorded.calls p recorded.provider
  accepted : Accepted accepts recorded.calls p

/-- Once a call was not acceptable, the record shows it. -/
def Shown (recorded : Recorded π) : Prop :=
  ¬ Accepted accepts recorded.calls p

variable {accepts p}

theorem ask_beside {request : Request} {m : Exec π ε α}
    (hafter : ∀ p, (request.perform p).2 = (m p).2) :
    Sim (.lockstepOr (Beside accepts p) (Shown accepts p) ε) (ask request m)
      (Recorded.ask request m) := by
  rw [Sim.lockstepOr_iff]
  constructor
  · intro recorded hshown haccepted
    exact hshown haccepted.of_concat
  · rintro ⟨q⟩ recorded ⟨rfl, hleads, haccepted⟩
    unfold ask
    split
    · rename_i hacceptable
      refine Or.inr ⟨rfl, (hafter _), leads_append.mpr ⟨_, hleads, rfl, rfl⟩, ?_⟩
      exact (accepted_concat hleads).mpr ⟨haccepted, hacceptable⟩
    · rename_i hrefused
      exact Or.inl ⟨rfl, fun hall => hrefused ((accepted_concat hleads).mp hall).2⟩

theorem lockstep_recorded (accepts : Request → π → Prop) (p : π) :
    LockstepOr (Beside accepts p) (Shown accepts p) (id : Error → Error) where
  exist address := ask_beside fun _ => rfl
  account address := Sim.lockstep_mapErr id (ask_beside fun _ => rfl)
  storageAt address key := Sim.lockstep_mapErr id (ask_beside fun _ => rfl)
  mutation mutation := by
    cases mutation <;> exact Sim.lockstep_mapErr id (ask_beside fun _ => rfl)
  blockNumber := ask_beside fun _ => rfl
  blockHash number := ask_beside fun _ => rfl
  blockAuthor := ask_beside fun _ => rfl
  difficulty := ask_beside fun _ => rfl
  gasLimit := ask_beside fun _ => rfl

end Record

end Screened

/-! ### An image of the provider -/

variable {π σ δ : Type} {accepts : Request → π → Prop} {f : π → σ} {g : Error → δ}

/-- `n` does on the image of a provider what `m` does on the provider, where `request` may be made. -/
def MirrorsWhere {ε α : Type} (accepts : Request → π → Prop) (f : π → σ) (request : Request)
    (m : Exec π ε α) (n : Exec σ ε α) : Prop :=
  ∀ p, accepts request p → n (f p) = ((m p).1, f (m p).2)

theorem MirrorsWhere.sim {ε α : Type} {request : Request} {m : Exec π ε α} {n : Exec σ ε α}
    (h : MirrorsWhere accepts f request m n) :
    Sim (.lockstep (fun (s : Screened π accepts) t => t = f s.provider) ε)
      (Screened.ask request m) n := by
  rw [Sim.lockstep_iff]
  rintro screened _ rfl
  unfold Screened.ask
  split
  · rename_i hacceptable
    rw [h _ hacceptable]
    exact Or.inr ⟨rfl, rfl⟩
  · exact Or.inl rfl

theorem MirrorsWhere.sim_mapErr {α : Type} {request : Request} {m : Exec π Error α} {n : Exec σ Error α}
    (h : MirrorsWhere accepts f request (m.mapErr g) (n.mapErr g)) :
    Sim (.lockstep (fun (s : Screened π accepts) t => t = f s.provider) δ)
      ((Screened.ask request m).mapErr g) (n.mapErr g) := by
  rw [Sim.lockstep_iff]
  rintro screened _ rfl
  rw [Exec.mapErr_apply, Screened.ask]
  split
  · rename_i hacceptable
    rw [h _ hacceptable, Exec.mapErr_apply]
    exact Or.inr ⟨rfl, rfl⟩
  · exact Or.inl rfl

variable [Provider π] [Provider σ]

/-- The image answers every acceptable call as the provider does, up to the text of an error. -/
structure MirroredWhere (accepts : Request → π → Prop) (f : π → σ) (g : Error → δ) : Prop where
  exist : ∀ address, MirrorsWhere accepts f (.exist address) (Provider.exist address)
    (Provider.exist address)
  account : ∀ address, MirrorsWhere accepts f (.account address)
    ((Provider.account address).mapErr g) ((Provider.account address).mapErr g)
  updateAccount : ∀ address balance nonce,
    MirrorsWhere accepts f (.updateAccount address balance nonce)
      ((Provider.updateAccount address balance nonce).mapErr g)
      ((Provider.updateAccount address balance nonce).mapErr g)
  createContract : ∀ address code, MirrorsWhere accepts f (.createContract address code)
    ((Provider.createContract address code).mapErr g) ((Provider.createContract address code).mapErr g)
  storageAt : ∀ address key, MirrorsWhere accepts f (.storageAt address key)
    ((Provider.storageAt address key).mapErr g) ((Provider.storageAt address key).mapErr g)
  setStorage : ∀ address key value, MirrorsWhere accepts f (.setStorage address key value)
    ((Provider.setStorage address key value).mapErr g)
    ((Provider.setStorage address key value).mapErr g)
  blockNumber : MirrorsWhere accepts f .blockNumber Provider.blockNumber Provider.blockNumber
  blockHash : ∀ number, MirrorsWhere accepts f (.blockHash number) (Provider.blockHash number)
    (Provider.blockHash number)
  blockAuthor : MirrorsWhere accepts f .blockAuthor Provider.blockAuthor Provider.blockAuthor
  difficulty : MirrorsWhere accepts f .difficulty Provider.difficulty Provider.difficulty
  gasLimit : MirrorsWhere accepts f .gasLimit Provider.gasLimit Provider.gasLimit

theorem MirroredWhere.lockstep (h : MirroredWhere accepts f g) :
    Lockstep (fun (s : Screened π accepts) t => t = f s.provider) g where
  exist address := (h.exist address).sim
  account address := (h.account address).sim_mapErr
  storageAt address key := (h.storageAt address key).sim_mapErr
  mutation mutation := by
    cases mutation with
    | updateAccount address balance nonce => exact (h.updateAccount address balance nonce).sim_mapErr
    | createContract address code => exact (h.createContract address code).sim_mapErr
    | setStorage address key value => exact (h.setStorage address key value).sim_mapErr
  blockNumber := h.blockNumber.sim
  blockHash number := (h.blockHash number).sim
  blockAuthor := h.blockAuthor.sim
  difficulty := h.difficulty.sim
  gasLimit := h.gasLimit.sim

theorem mirroredWhere_id (accepts : Request → π → Prop) :
    MirroredWhere accepts (id : π → π) (id : Error → Error) := by
  constructor <;> intros <;> exact fun _ _ => rfl

/-! ### A run whose calls are acceptable -/

section Execute

variable {M L γ : Type} (crates : Crates M L γ) (logTrace : Bool) (order : HashOrder) (fuel : Nat)
  (transaction : Transaction)

/-- The run comes to an end, and each call it makes is acceptable when it is made. -/
def AcceptedRun (accepts : Request → π → Prop) (p : π) : Prop :=
  (execute crates logTrace order fuel transaction p).1 ≠ .fail .fuel ∧
    Accepted accepts (providerCalls crates logTrace order fuel transaction p) p

variable {crates logTrace order fuel transaction} {p : π}

/-- The screened provider stops no run but one with a call that is not acceptable. -/
theorem acceptedRun_iff : AcceptedRun crates logTrace order fuel transaction accepts p ↔
    (execute crates logTrace order fuel transaction (Screened.mk p : Screened π accepts)).1 ≠
      .fail .fuel := by
  have hrecord := (Sim.lockstepOr_iff.mp (execute_sim crates logTrace order fuel transaction
    (Screened.lockstep_recorded accepts p))).2 ⟨p⟩ (Recorded.start p) ⟨rfl, rfl, trivial⟩
  have hrun := Sim.lockstep_iff.mp (execute_sim crates logTrace order fuel transaction
    (mirroredWhere_id accepts).lockstep) ⟨p⟩ p rfl
  rw [Exec.mapErr_id, Exec.mapErr_id] at hrecord hrun
  constructor
  · rintro ⟨hends, haccepted⟩ hfuel
    obtain ⟨_, hshown⟩ | ⟨hsame, _⟩ := hrecord
    · exact hshown haccepted
    · obtain hstops | ⟨hrecorded, _⟩ := execute_recorded crates logTrace order fuel transaction p
      · exact hends hstops
      · exact hends (hrecorded.trans (hsame.symm.trans hfuel))
  · intro hends
    obtain ⟨_, hbeside⟩ := hrecord.resolve_left fun h => hends h.1
    obtain ⟨hsame, _⟩ := hrun.resolve_left hends
    exact ⟨hsame ▸ hends, hbeside.accepted⟩

/-- **A run on an image.** Where every call of the run is acceptable, the run comes to the same end on
the image, and leaves the image of where it left the provider. -/
theorem MirroredWhere.execute (h : MirroredWhere accepts f g)
    (hrun : AcceptedRun crates logTrace order fuel transaction accepts p) :
    (Durian.execute crates logTrace order fuel transaction p).1.mapErr g =
        (Durian.execute crates logTrace order fuel transaction (f p)).1.mapErr g ∧
      (Durian.execute crates logTrace order fuel transaction (f p)).2 =
        f (Durian.execute crates logTrace order fuel transaction p).2 := by
  have hends := acceptedRun_iff.mp hrun
  have hhere := (Sim.lockstep_iff.mp (execute_sim crates logTrace order fuel transaction
    (mirroredWhere_id accepts).lockstep) ⟨p⟩ p rfl).resolve_left
  have himage := (Sim.lockstep_iff.mp (execute_sim crates logTrace order fuel transaction
    h.lockstep) ⟨p⟩ (f p) rfl).resolve_left
  rw [Exec.mapErr_id, Exec.mapErr_id] at hhere
  rw [Exec.mapErr_apply, Exec.mapErr_apply] at himage
  obtain ⟨hsame, hprovider⟩ := hhere hends
  obtain ⟨hsame', hprovider'⟩ := himage fun hfuel => hends (Outcome.mapErr_eq_fuel hfuel)
  rw [← hsame, hprovider]
  exact ⟨hsame', hprovider'⟩

end Execute

end Durian
