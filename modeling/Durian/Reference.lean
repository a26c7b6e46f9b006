import Durian.Base.Overlay
import Durian.Env
import Durian.Proof.Cache

/-!
# A runtime without a cache

The same host functions over a plain state: the fixed answers of the provider, and a list of what
was written. A slot reads as the value written to it last, else as the provider answers it, else as
zero. There is nothing else in the state that a read or a write could depend on.
-/

namespace Durian

open Effects

structure Reference where
  answers : Answers
  written : List ((Address × H256) × H256)

namespace Reference

def new (answers : Answers) : Reference := ⟨answers, []⟩

def read (ref : Reference) (address : Address) (key : H256) : H256 :=
  match lastWrite ref.written (address, key) with
  | some value => value
  | none =>
      match ref.answers.storageAt address key with
      | .ok value => value
      | .error _ => FixedHash.zero

def write (address : Address) (key value : H256) (ref : Reference) : Reference :=
  { ref with written := ref.written ++ [((address, key), value)] }

def answer {ε α : Type} (f : Answers → Except ε α) : Exec Reference ε α := fun ref =>
  (.ofExcept (f ref.answers), ref)

instance : StateOps Reference where
  balance address := Exec.gets fun ref => (ref.answers.cached address).balance
  storageAt address key := Exec.gets fun ref => ref.read address key
  setStorage address key value := Exec.modify (write address key value)
  timestamp := Exec.gets fun ref => ref.answers.blockNumber
  blockNumber := Exec.gets fun ref => ref.answers.blockNumber
  blockHash number := answer fun answers => answers.blockHash number
  blockAuthor := answer Answers.blockAuthor
  difficulty := answer Answers.difficulty
  gasLimit := answer Answers.gasLimit

theorem read_write (ref : Reference) (address a : Address) (key k value : H256) :
    (ref.write address key value).read a k =
      if a = address ∧ k = key then value else ref.read a k := by
  rw [read, write, lastWrite_concat]
  by_cases hslot : (address, key) = (a, k)
  · obtain ⟨rfl, rfl⟩ := Prod.mk.inj hslot
    simp
  · rw [if_neg hslot, if_neg fun h => hslot (by rw [h.1, h.2])]
    rfl

end Reference

namespace Runtime

def onState {ω ω' : Type} (state : ω') (rt : Runtime ω) : Runtime ω' where
  schedule := rt.schedule
  gasCounter := rt.gasCounter
  gasLimit := rt.gasLimit
  params := rt.params
  memory := rt.memory
  result := rt.result
  state := state
  logs := rt.logs
  logTrace := rt.logTrace
  allocates := rt.allocates

structure Step where
  memory : Memory
  call : Call

/-- What a contract sees of a call: the reply, the gas and the memory. -/
structure Observation where
  reply : Outcome TrapKind (Option RuntimeValue)
  gasCounter : UInt64
  memory : Memory

/-- What is seen of calls one after another. A call that fails does not stop the next. -/
def observe {ω : Type} [StateOps ω] : List Step → Runtime ω → List Observation
  | [], _ => []
  | step :: steps, rt =>
      let (reply, rt') := invokeIndex step.call.index step.call.args { rt with memory := step.memory }
      ⟨reply, rt'.gasCounter, rt'.memory⟩ :: observe steps rt'

end Runtime

end Durian
