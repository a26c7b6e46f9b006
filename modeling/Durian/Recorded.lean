import Durian.Replay

/-!
# A provider whose calls are recorded

Any provider, with every call that was made to it and the way it ended. The record makes no
difference to the caller.
-/

namespace Durian

open Effects

/-- The call was answered, with a value or with an error. -/
def Reply.Returns : Reply → Prop
  | .known outcome => outcome.Returns
  | .account outcome => outcome.Returns
  | .done outcome => outcome.Returns
  | .hash outcome => outcome.Returns
  | .number outcome => outcome.Returns
  | .author outcome => outcome.Returns
  | .amount outcome => outcome.Returns

def Query.request : Query → Request
  | .exist address => .exist address
  | .account address => .account address
  | .storageAt address key => .storageAt address key
  | .timestamp => .timestamp
  | .blockNumber => .blockNumber
  | .blockHash number => .blockHash number
  | .blockAuthor => .blockAuthor
  | .difficulty => .difficulty
  | .gasLimit => .gasLimit

structure Recorded (π : Type) where
  provider : π
  calls : List (Made Request Reply)

namespace Recorded

variable {π : Type} [Provider π]

def start (p : π) : Recorded π := ⟨p, []⟩

/-- The record with one more call, made to the provider as it is now. -/
def called (request : Request) (recorded : Recorded π) : Recorded π where
  provider := (request.perform recorded.provider).2
  calls := recorded.calls ++ [⟨request, (request.perform recorded.provider).1⟩]

def ask {ε α : Type} (request : Request) (m : Exec π ε α) : Exec (Recorded π) ε α := fun recorded =>
  ((m recorded.provider).1, recorded.called request)

instance : Provider (Recorded π) where
  exist address := ask (.exist address) (Provider.exist address)
  account address := ask (.account address) (Provider.account address)
  updateAccount address balance nonce :=
    ask (.updateAccount address balance nonce) (Provider.updateAccount address balance nonce)
  createContract address code :=
    ask (.createContract address code) (Provider.createContract address code)
  storageAt address key := ask (.storageAt address key) (Provider.storageAt address key)
  setStorage address key value :=
    ask (.setStorage address key value) (Provider.setStorage address key value)
  timestamp := ask .timestamp Provider.timestamp
  blockNumber := ask .blockNumber Provider.blockNumber
  blockHash number := ask (.blockHash number) (Provider.blockHash number)
  blockAuthor := ask .blockAuthor Provider.blockAuthor
  difficulty := ask .difficulty Provider.difficulty
  gasLimit := ask .gasLimit Provider.gasLimit

theorem request_perform_snd (query : Query) (p : π) : (query.request.perform p).2 = query.after p := by
  cases query <;> rfl

theorem after_eq (query : Query) (recorded : Recorded π) :
    query.after recorded = recorded.called query.request := by
  cases query <;> rfl

/-- The provider and its record. -/
def Beside (p : π) (recorded : Recorded π) : Prop := recorded.provider = p

theorem ask_sim {ε α : Type} {request : Request} {m : Exec π ε α}
    (hafter : ∀ p, (request.perform p).2 = (m p).2) : Sim (.lockstep Beside ε) m (ask request m) := by
  rw [Sim.lockstep_iff]
  rintro _ recorded rfl
  exact Or.inr ⟨rfl, hafter recorded.provider⟩

theorem lockstep : Lockstep (Beside (π := π)) (id : Error → Error) where
  exist address := ask_sim fun _ => rfl
  account address := Sim.lockstep_mapErr id (ask_sim fun _ => rfl)
  storageAt address key := Sim.lockstep_mapErr id (ask_sim fun _ => rfl)
  mutation mutation := by
    cases mutation with
    | updateAccount address balance nonce => exact Sim.lockstep_mapErr id (ask_sim fun _ => rfl)
    | createContract address code => exact Sim.lockstep_mapErr id (ask_sim fun _ => rfl)
    | setStorage address key value => exact Sim.lockstep_mapErr id (ask_sim fun _ => rfl)
  blockNumber := ask_sim fun _ => rfl
  blockHash number := ask_sim fun _ => rfl
  blockAuthor := ask_sim fun _ => rfl
  difficulty := ask_sim fun _ => rfl
  gasLimit := ask_sim fun _ => rfl

end Recorded

section Execute

variable {M L γ π : Type} [Provider π] (crates : Crates M L γ) (logTrace : Bool) (order : HashOrder)
  (fuel : Nat) (transaction : Transaction)

/-- A transaction that comes back does so alike when its calls are recorded. -/
theorem execute_recorded (p : π) :
    (execute crates logTrace order fuel transaction p).1 = .fail .fuel ∨
      ((execute crates logTrace order fuel transaction p).1 =
          (execute crates logTrace order fuel transaction (Recorded.start p)).1 ∧
        (execute crates logTrace order fuel transaction (Recorded.start p)).2.provider =
          (execute crates logTrace order fuel transaction p).2) := by
  have hsim := Sim.lockstep_iff.mp (execute_sim crates logTrace order fuel transaction
    (Recorded.lockstep (π := π))) p (Recorded.start p) rfl
  rwa [Exec.mapErr_id, Exec.mapErr_id] at hsim

/-- The calls `execute` makes to the provider, and how each ended. -/
def providerCalls (p : π) : List (Made Request Reply) :=
  (execute crates logTrace order fuel transaction (Recorded.start p)).2.calls

end Execute

end Durian
