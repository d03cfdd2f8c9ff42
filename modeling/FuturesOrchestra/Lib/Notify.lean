/-!
# A notification primitive

What a client may assume of an asynchronous notification primitive without stored
permits: a class, so that a development is parametric in the implementation, and one
implementation, `WaitList`.

A `notified` future is named by a number. Enabling it registers it as a waiter, and
`notifyWaiters` wakes every waiter that was registered before. Nothing is assumed
of a future that is not registered at that moment.
-/

namespace Interleaving

/-- A notification primitive with states in `ν`. -/
class Notify (ν : Type) where
  new : ν
  /-- The future is registered as a waiter. -/
  registered : ν → Nat → Bool
  /-- The future has received a notification, so that awaiting it returns. -/
  woken : ν → Nat → Bool
  /-- Creates the future and registers it. -/
  enable : Nat → ν → ν
  notifyWaiters : ν → ν
  /-- Drops the future. -/
  forget : Nat → ν → ν
  enable_self (w : Nat) (n : ν) : registered (enable w n) w = true ∨ woken (enable w n) w = true
  registered_enable_other {v w : Nat} (n : ν) : v ≠ w → registered (enable w n) v = registered n v
  woken_enable_other {v w : Nat} (n : ν) : v ≠ w → woken (enable w n) v = woken n v
  notifyWaiters_registered {w : Nat} {n : ν} :
    registered n w = true → woken (notifyWaiters n) w = true
  notifyWaiters_woken {w : Nat} {n : ν} : woken n w = true → woken (notifyWaiters n) w = true
  registered_forget_other {v w : Nat} (n : ν) : v ≠ w → registered (forget w n) v = registered n v
  woken_forget_other {v w : Nat} (n : ν) : v ≠ w → woken (forget w n) v = woken n v

/-- The registered waiters and the woken ones. -/
structure WaitList where
  waiting : List Nat
  woken : List Nat
deriving DecidableEq, Repr

namespace WaitList

instance : Notify WaitList where
  new := ⟨[], []⟩
  registered n w := n.waiting.contains w
  woken n w := n.woken.contains w
  enable w n := ⟨w :: n.waiting, n.woken⟩
  notifyWaiters n := ⟨[], n.waiting ++ n.woken⟩
  forget w n := ⟨n.waiting.filter (· != w), n.woken.filter (· != w)⟩
  enable_self w n := by simp
  registered_enable_other n hne := by simp [hne]
  woken_enable_other n _ := rfl
  notifyWaiters_registered h := by simp_all
  notifyWaiters_woken h := by simp_all
  registered_forget_other n hne := by simp [hne]
  woken_forget_other n hne := by simp [hne]

end WaitList

end Interleaving
