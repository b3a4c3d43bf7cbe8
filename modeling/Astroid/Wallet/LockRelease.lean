import Astroid.Wallet.Machine

/-!
# The reentrancy lock

`transfer`, `withdraw` and `batch_execute_validated` take the lock by hand and release it by
hand, on every error path.  What they wrote before an error is taken here to stay, so that
the release is the code's own and not the host's.  Each of them is specified by two triples
(`GuardsLock`): with the lock free it leaves the lock free, however it returns and whatever
the policy, the budget, the registry, the tokens and the sub-calls answered; with the lock
held it fails and has written nothing.

A trap ends the invocation and returns nothing to anybody, so nothing is said of it.
-/

namespace Astroid
namespace WalletContract

open Act

variable {World : Type} {H : WalletHost World} {env : Env H.self} {α β : Type}

/-- The lock is free. -/
def State.Unlocked (s : State World) : Prop := s.reentrancyLock = false

/-- What an error leaves behind: a free lock. -/
def LeavesUnlocked (fault : Fault) (s : State World) : Prop := fault ≠ .trap → s.Unlocked

/-- A computation that takes the lock and gives it back. -/
structure GuardsLock (x : WalletM World α) : Prop where
  released : Triple State.Unlocked x (fun _ => State.Unlocked) LeavesUnlocked
  refused : ∀ s : State World, s.reentrancyLock = true →
    Triple (fun s' => s' = s) x (fun _ _ => False) (fun _ s' => s' = s)

/-! ## The steps -/

theorem unlocked_unlock (s : State World) : s.unlock.Unlocked := rfl

/-- **An error is passed on with the lock released**, whatever `x` did. -/
theorem unlockOnError_releases (x : WalletM World α) :
    Triple (fun _ => True) (unlockOnError x) (fun _ _ => True) LeavesUnlocked := by
  have hx : Triple (fun _ => True) x (fun _ _ => True) (fun _ _ => True) :=
    ⟨fun _ _ _ _ => trivial, fun _ _ _ _ => trivial⟩
  refine hx.onError ?_
  intro fault s _ hreturned
  rw [if_neg hreturned]
  exact unlocked_unlock s

/-- What comes before the lock only reads. -/
theorem GuardsLock.read {f : State World → Result α} {rest : α → WalletM World β}
    (h : ∀ a, GuardsLock (rest a)) : GuardsLock (Act.read f >>= rest) where
  released := by
    refine Triple.bind (Triple.read ?_ ?_) fun a => (h a).released
    · exact fun s a hs _ => hs
    · exact fun s fault hs _ _ => hs
  refused := by
    intro s hs
    refine Triple.bind (Triple.read ?_ ?_) fun a => (h a).refused s hs
    · exact fun _ _ hs' _ => hs'
    · exact fun _ _ hs' _ => hs'

/-- Taking the lock fails when it is held, and then nothing else runs. -/
theorem GuardsLock.lock {rest : Unit → WalletM World β}
    (h : Triple (fun _ => True) (rest ()) (fun _ => State.Unlocked) LeavesUnlocked) :
    GuardsLock (Act.step State.lock >>= rest) where
  released := by
    refine Triple.bind (Triple.step ?_ ?_) fun _ => h
    · exact fun _ _ _ _ => trivial
    · exact fun s fault hs _ _ => hs
  refused := by
    intro s hs
    have hlocked : s.lock = .error (.error .invalidState) := by
      unfold State.lock
      rw [hs]
      rfl
    refine Triple.bind (Q := fun _ _ => False) (Triple.step ?_ ?_) ?_
    · rintro s' s'' rfl hlock
      rw [hlocked] at hlock
      cases hlock
    · exact fun _ _ hs' _ => hs'
    · exact fun _ => ⟨fun hfalse => hfalse.elim, fun hfalse => hfalse.elim⟩

/-- A step under the lock, released on error. -/
theorem releases_then {x : WalletM World α} {rest : α → WalletM World β}
    (h : ∀ a, Triple (fun _ => True) (rest a) (fun _ => State.Unlocked) LeavesUnlocked) :
    Triple (fun _ => True) (unlockOnError x >>= rest) (fun _ => State.Unlocked) LeavesUnlocked :=
  Triple.bind (unlockOnError_releases x) h

/-- The release at the end. -/
theorem unlock_releases : Triple (fun _ => True) (Act.step fun s : State World => .ok s.unlock)
    (fun _ => State.Unlocked) LeavesUnlocked := by
  refine Triple.step ?_ ?_
  · intro s s' _ h
    cases h
    exact unlocked_unlock s
  · intro s fault _ h
    cases h

/-! ## The entrypoints -/

theorem spend_guardsLock (caller : Address) (walletId : ℕ) (payee asset : Address) (amount : ℤ) :
    GuardsLock (spend H env caller walletId payee asset amount) := by
  refine .lock ?_
  refine releases_then fun _ => releases_then fun _ => releases_then fun _ =>
    releases_then fun _ => releases_then fun _ => releases_then fun _ => ?_
  exact unlock_releases

theorem transfer_guardsLock (caller : Address) (walletId : ℕ) (payee asset : Address)
    (amount : ℤ) : GuardsLock (transfer H env caller walletId payee asset amount) := by
  refine .read fun _ => .read fun _ => .read fun wallet => .read fun _ => .read fun _ => ?_
  exact spend_guardsLock caller walletId payee asset amount

theorem withdraw_guardsLock (caller : Address) (walletId : ℕ) (asset : Address) (amount : ℤ) :
    GuardsLock (withdraw H env caller walletId asset amount) := by
  refine .read fun _ => .read fun _ => .read fun wallet => .read fun _ => ?_
  exact spend_guardsLock caller walletId wallet.owner asset amount

theorem batchExecuteValidated_guardsLock (caller : Address) (walletId : ℕ)
    (actions : List BatchAction) :
    GuardsLock (batchExecuteValidated H env caller walletId actions) := by
  refine .read fun _ => .read fun wallet => .read fun _ => .read fun _ => .read fun _ => .lock ?_
  refine releases_then ?_
  rintro ⟨registryPolicy, registryBudget⟩
  -- neither the choice of the gates nor the write-back can fail
  refine Triple.bind (Q := fun _ _ => True) (Triple.read (fun _ _ _ _ => trivial) ?_) ?_
  · intro s fault _ h
    cases h
  rintro ⟨policy, budget⟩
  refine releases_then fun totals => releases_then fun _ => ?_
  refine Triple.bind (Q := fun _ _ => True) (Triple.step (fun _ _ _ _ => trivial) ?_) ?_
  · intro s fault _ h
    cases h
  refine fun _ => releases_then fun _ => ?_
  refine Triple.bind unlock_releases fun _ => ?_
  exact Triple.pure fun _ hs => hs

/-! ## The law -/

/-- What the triples say of one run, with the state it leaves even when it fails. -/
theorem GuardsLock.run {x : WalletM World α} (h : GuardsLock x) (s : State World) :
    (s.reentrancyLock = false → (x s).1 ≠ .error .trap → (x s).2.reentrancyLock = false) ∧
      (s.reentrancyLock = true → ∃ fault, x s = (.error fault, s)) := by
  cases hx : x s with
  | mk result s' =>
      cases result with
      | ok a =>
          refine ⟨fun hs _ => h.released.returned hs hx, ?_⟩
          intro hs
          exact ((h.refused s hs).returned rfl hx).elim
      | error fault =>
          refine ⟨fun hs htrap => h.released.failed hs hx ?_, ?_⟩
          · rintro rfl
            exact htrap rfl
          · intro hs
            obtain rfl : s' = s := (h.refused s hs).failed rfl hx
            exact ⟨fault, rfl⟩

/-- **The lock is always released.**  Whatever the arguments are and whatever the other
contracts answer, a call that found the lock free and returned, with a value or with an
error, left it free, although nothing it wrote is taken back; and a call that found the lock
held failed without having written anything. -/
theorem lock_always_released (H : WalletHost World) (env : Env H.self) (s : State World) :
    (s.reentrancyLock = false →
      (∀ caller walletId payee asset amount,
        let r := transfer H env caller walletId payee asset amount s
        r.1 ≠ .error .trap → r.2.reentrancyLock = false) ∧
      (∀ caller walletId asset amount,
        let r := withdraw H env caller walletId asset amount s
        r.1 ≠ .error .trap → r.2.reentrancyLock = false) ∧
      ∀ caller walletId actions,
        let r := batchExecuteValidated H env caller walletId actions s
        r.1 ≠ .error .trap → r.2.reentrancyLock = false) ∧
    (s.reentrancyLock = true →
      (∀ caller walletId payee asset amount, ∃ fault,
        transfer H env caller walletId payee asset amount s = (.error fault, s)) ∧
      (∀ caller walletId asset amount, ∃ fault,
        withdraw H env caller walletId asset amount s = (.error fault, s)) ∧
      ∀ caller walletId actions, ∃ fault,
        batchExecuteValidated H env caller walletId actions s = (.error fault, s)) := by
  have htransfer : ∀ caller walletId payee asset amount,
      GuardsLock (transfer H env caller walletId payee asset amount) := transfer_guardsLock
  have hwithdraw : ∀ caller walletId asset amount,
      GuardsLock (withdraw H env caller walletId asset amount) := withdraw_guardsLock
  have hbatch : ∀ caller walletId actions,
      GuardsLock (batchExecuteValidated H env caller walletId actions) :=
    batchExecuteValidated_guardsLock
  refine ⟨fun hfree => ⟨?_, ?_, ?_⟩, fun hheld => ⟨?_, ?_, ?_⟩⟩
  · intro caller walletId payee asset amount
    exact ((htransfer caller walletId payee asset amount).run s).1 hfree
  · intro caller walletId asset amount
    exact ((hwithdraw caller walletId asset amount).run s).1 hfree
  · intro caller walletId actions
    exact ((hbatch caller walletId actions).run s).1 hfree
  · intro caller walletId payee asset amount
    exact ((htransfer caller walletId payee asset amount).run s).2 hheld
  · intro caller walletId asset amount
    exact ((hwithdraw caller walletId asset amount).run s).2 hheld
  · intro caller walletId actions
    exact ((hbatch caller walletId actions).run s).2 hheld

/-- A transfer of 200 out of 100 fails under the lock and leaves it free; under a lock that is
held a withdrawal of 50 fails at once. -/
theorem lock_always_released_overdrawn :
    let s := play (deployed funded) opening
    (transfer referenceHost (signedBy 1 [1]) (.account 1) 1 (.account 2) (.contract 7) 200
      s).2.reentrancyLock = false ∧
    ∃ fault, withdraw referenceHost (signedBy 1 [1]) (.account 1) 1 (.contract 7) 50
      { s with reentrancyLock := true } = (.error fault, { s with reentrancyLock := true }) := by
  intro s
  have hfree := (lock_always_released referenceHost (signedBy 1 [1]) s).1 rfl
  have hheld := (lock_always_released referenceHost (signedBy 1 [1])
    { s with reentrancyLock := true }).2 rfl
  refine ⟨hfree.1 _ _ _ _ _ ?_, hheld.2.1 _ _ _ _⟩
  have hrefused : (transfer referenceHost (signedBy 1 [1]) (.account 1) 1 (.account 2)
      (.contract 7) 200 s).1 = .error (.error .insufficientFunds) := by decide
  rw [hrefused]
  decide

end WalletContract
end Astroid
