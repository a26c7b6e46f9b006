import Durian.Base.Interleave
import Durian.Proof.Lockstep

/-!
# Runs by their provider calls

To the provider a run is the calls it makes, each chosen by the answers to those before. The next
call is found by running `execute` on a provider that gives the answers it was given so far, and
that stops the run at the first call it has no answer to.
-/

namespace Durian

open Effects

/-! ### The calls and their answers -/

inductive Request where
  | exist (address : Address)
  | account (address : Address)
  | updateAccount (address : Address) (balance nonce : U256)
  | createContract (address : Address) (code : Bytes)
  | storageAt (address : Address) (key : H256)
  | setStorage (address : Address) (key value : H256)
  | timestamp
  | blockNumber
  | blockHash (number : UInt64)
  | blockAuthor
  | difficulty
  | gasLimit
  deriving DecidableEq

inductive Reply where
  | known (outcome : Outcome Empty Bool)
  | account (outcome : Outcome Error StateAccount)
  | done (outcome : Outcome Error Unit)
  | hash (outcome : Outcome Error H256)
  | number (outcome : Outcome Empty UInt64)
  | author (outcome : Outcome Error Address)
  | amount (outcome : Outcome Error U256)

namespace Reply

def known? : Reply → Option (Outcome Empty Bool)
  | .known outcome => some outcome
  | _ => none

def account? : Reply → Option (Outcome Error StateAccount)
  | .account outcome => some outcome
  | _ => none

def done? : Reply → Option (Outcome Error Unit)
  | .done outcome => some outcome
  | _ => none

def hash? : Reply → Option (Outcome Error H256)
  | .hash outcome => some outcome
  | _ => none

def number? : Reply → Option (Outcome Empty UInt64)
  | .number outcome => some outcome
  | _ => none

def author? : Reply → Option (Outcome Error Address)
  | .author outcome => some outcome
  | _ => none

def amount? : Reply → Option (Outcome Error U256)
  | .amount outcome => some outcome
  | _ => none

end Reply

def Request.perform {π : Type} [Provider π] (request : Request) (p : π) : Reply × π :=
  match request with
  | .exist address => ((Provider.exist address p).map .known id)
  | .account address => ((Provider.account address p).map .account id)
  | .updateAccount address balance nonce =>
      ((Provider.updateAccount address balance nonce p).map .done id)
  | .createContract address code => ((Provider.createContract address code p).map .done id)
  | .storageAt address key => ((Provider.storageAt address key p).map .hash id)
  | .setStorage address key value => ((Provider.setStorage address key value p).map .done id)
  | .timestamp => ((Provider.timestamp p).map .number id)
  | .blockNumber => ((Provider.blockNumber p).map .number id)
  | .blockHash number => ((Provider.blockHash number p).map .hash id)
  | .blockAuthor => ((Provider.blockAuthor p).map .author id)
  | .difficulty => ((Provider.difficulty p).map .amount id)
  | .gasLimit => ((Provider.gasLimit p).map .amount id)

/-! ### A provider that only knows what was answered -/

/-- The answers still to be given, and the call there was no answer to. -/
structure Replay where
  rest : List (Made Request Reply)
  asked : Option Request

namespace Replay

def start (calls : List (Made Request Reply)) : Replay := ⟨calls, none⟩

def ask {ε α : Type} (request : Request) (read : Reply → Option (Outcome ε α)) : Exec Replay ε α :=
  fun replay =>
    match replay.rest with
    | [] => (.fail .fuel, { replay with asked := some request })
    | made :: rest =>
        if made.call = request then
          match read made.answer with
          | some outcome => (outcome, { replay with rest := rest })
          | none => (.fail .fuel, replay)
        else (.fail .fuel, replay)

instance : Provider Replay where
  exist address := ask (.exist address) Reply.known?
  account address := ask (.account address) Reply.account?
  updateAccount address balance nonce := ask (.updateAccount address balance nonce) Reply.done?
  createContract address code := ask (.createContract address code) Reply.done?
  storageAt address key := ask (.storageAt address key) Reply.hash?
  setStorage address key value := ask (.setStorage address key value) Reply.done?
  timestamp := ask .timestamp Reply.number?
  blockNumber := ask .blockNumber Reply.number?
  blockHash number := ask (.blockHash number) Reply.hash?
  blockAuthor := ask .blockAuthor Reply.author?
  difficulty := ask .difficulty Reply.amount?
  gasLimit := ask .gasLimit Reply.amount?

variable {π : Type} [Provider π]

/-- What is left to be replayed is what the provider goes on to answer, up to the state `q`. -/
def Foretells (q : π) (replay : Replay) (p : π) : Prop := Leads Request.perform replay.rest p q

theorem ask_sim {ε α : Type} (q : π) {request : Request} {read : Reply → Option (Outcome ε α)}
    {m : Exec π ε α} (hread : ∀ p, read (request.perform p).1 = some (m p).1)
    (hafter : ∀ p, (request.perform p).2 = (m p).2) :
    Sim (.lockstep (Foretells q) ε) (ask request read) m := by
  rw [Sim.lockstep_iff]
  rintro ⟨rest, asked⟩ p hrel
  unfold ask
  cases rest with
  | nil => exact Or.inl rfl
  | cons made rest =>
      obtain ⟨hanswer, hrest⟩ := hrel
      by_cases hcall : made.call = request
      · subst hcall
        simp only [if_pos]
        rw [← hanswer, hread]
        exact Or.inr ⟨rfl, hafter p ▸ hrest⟩
      · simp only [if_neg hcall]
        exact Or.inl trivial

theorem lockstep (q : π) : Lockstep (Foretells q) (id : Error → Error) where
  exist address := ask_sim q (fun _ => rfl) fun _ => rfl
  account address := Sim.lockstep_mapErr id (ask_sim q (fun _ => rfl) fun _ => rfl)
  storageAt address key := Sim.lockstep_mapErr id (ask_sim q (fun _ => rfl) fun _ => rfl)
  mutation mutation := by
    cases mutation with
    | updateAccount address balance nonce =>
        exact Sim.lockstep_mapErr id (ask_sim q (fun _ => rfl) fun _ => rfl)
    | createContract address code =>
        exact Sim.lockstep_mapErr id (ask_sim q (fun _ => rfl) fun _ => rfl)
    | setStorage address key value =>
        exact Sim.lockstep_mapErr id (ask_sim q (fun _ => rfl) fun _ => rfl)
  blockNumber := ask_sim q (fun _ => rfl) fun _ => rfl
  blockHash number := ask_sim q (fun _ => rfl) fun _ => rfl
  blockAuthor := ask_sim q (fun _ => rfl) fun _ => rfl
  difficulty := ask_sim q (fun _ => rfl) fun _ => rfl
  gasLimit := ask_sim q (fun _ => rfl) fun _ => rfl

end Replay

end Durian
