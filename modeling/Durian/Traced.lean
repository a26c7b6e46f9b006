import Durian.Laws

/-!
# A provider that keeps a list

Any provider, with a list of the mutations that were asked of it. A mutation is listed before it is
performed, so one that fails is on the list as well.
-/

namespace Durian

open Effects

structure Traced (π : Type) where
  provider : π
  issued : List Mutation

namespace Traced

variable {π : Type}

def pass {ε α : Type} (m : Exec π ε α) : Exec (Traced π) ε α :=
  Exec.zoom Traced.provider (fun p t => { t with provider := p }) fun _ => m

variable [Provider π]

def record (mutation : Mutation) : Exec (Traced π) Error Unit := fun t =>
  pass mutation.perform { t with issued := t.issued ++ [mutation] }

instance : Provider (Traced π) where
  exist address := pass (Provider.exist address)
  account address := pass (Provider.account address)
  updateAccount address balance nonce := record (.updateAccount address balance nonce)
  createContract address code := record (.createContract address code)
  storageAt address key := pass (Provider.storageAt address key)
  setStorage address key value := record (.setStorage address key value)
  timestamp := pass Provider.timestamp
  blockNumber := pass Provider.blockNumber
  blockHash number := pass (Provider.blockHash number)
  blockAuthor := pass Provider.blockAuthor
  difficulty := pass Provider.difficulty
  gasLimit := pass Provider.gasLimit

def start (p : π) : Traced π := ⟨p, []⟩

theorem perform_eq (mutation : Mutation) :
    (mutation.perform : Exec (Traced π) Error Unit) = record mutation := by
  cases mutation <;> rfl

theorem issued_after (query : Query) (t : Traced π) : (query.after t).issued = t.issued := by
  cases query <;> rfl

theorem issued_queried {t t' : Traced π} (h : Queried t t') : t'.issued = t.issued :=
  h.eq_of Traced.issued issued_after

theorem issued_perform (mutation : Mutation) (t : Traced π) :
    (mutation.perform t).2.issued = t.issued ++ [mutation] := by
  rw [perform_eq]
  rfl

theorem issued_of_forEach {mutations : List Mutation} {t t' : Traced π}
    (h : Exec.forEach Mutation.perform mutations t = (.ok (), t')) :
    t'.issued = t.issued ++ mutations := by
  induction mutations generalizing t with
  | nil => cases h; simp
  | cons mutation mutations ih =>
      obtain ⟨_, t₁, hfirst, hrest⟩ := Exec.bind_eq_ok_iff.mp h
      have hissued := issued_perform mutation t
      rw [hfirst] at hissued
      rw [ih hrest, hissued]
      simp

theorem issued_forEach (mutations : List Mutation) (t : Traced π) :
    ∃ done, done <+: mutations ∧
      (Exec.forEach Mutation.perform mutations t).2.issued = t.issued ++ done := by
  rcases hrun : Exec.forEach Mutation.perform mutations t with ⟨_ | f, t'⟩
  · exact ⟨mutations, List.prefix_rfl, issued_of_forEach hrun⟩
  · obtain ⟨made, refused, rest, t₁, rfl, hmade, hrefused⟩ := Exec.forEach_eq_fail hrun
    refine ⟨made ++ [refused], ⟨rest, by simp⟩, ?_⟩
    have hissued := issued_perform refused t₁
    rw [hrefused, issued_of_forEach hmade] at hissued
    rw [hissued, List.append_assoc]

end Traced

end Durian
