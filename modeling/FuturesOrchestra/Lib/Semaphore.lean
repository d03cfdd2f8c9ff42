import Mathlib.Tactic.ByContra

/-!
# A fair counting semaphore

What a client may assume of an asynchronous counting semaphore that serves its
waiters in the order they came: a class, so that a development is parametric in
the implementation, and one implementation, `FairSemaphore`.

An `acquire` future is named by a number. Polling it either takes a permit or
leaves it registered as a waiter; dropping it before that withdraws it.
-/

namespace Interleaving

/-- A fair counting semaphore with states in `σ`. -/
class Semaphore (σ : Type) where
  /-- A semaphore with that many permits. -/
  new : Nat → σ
  /-- The permits that are free. -/
  permits : σ → Nat
  /-- The registered `acquire` futures, the oldest first. -/
  waiters : σ → List Nat
  /-- One poll of an `acquire` future: `true` when it resolved to a permit. -/
  pollAcquire : Nat → σ → σ × Bool
  /-- Takes a permit without waiting. -/
  tryAcquire : σ → Option σ
  /-- Drops an `acquire` future that has not resolved. -/
  dropAcquire : Nat → σ → σ
  /-- Gives one permit back. -/
  release : σ → σ
  permits_new (n : Nat) : permits (new n) = n
  waiters_new (n : Nat) : waiters (new n) = []
  pollAcquire_ready (w : Nat) (g : σ) :
    (pollAcquire w g).2 = true ↔ 0 < permits g ∧ (waiters g).head?.getD w = w
  pollAcquire_taken (w : Nat) (g : σ) : (pollAcquire w g).2 = true →
    permits (pollAcquire w g).1 + 1 = permits g ∧
      waiters (pollAcquire w g).1 = (waiters g).erase w
  pollAcquire_pending (w : Nat) (g : σ) : (pollAcquire w g).2 = false →
    permits (pollAcquire w g).1 = permits g ∧
      waiters (pollAcquire w g).1 = if w ∈ waiters g then waiters g else waiters g ++ [w]
  tryAcquire_taken (g g' : σ) : tryAcquire g = some g' →
    permits g' + 1 = permits g ∧ waiters g = [] ∧ waiters g' = []
  tryAcquire_refused (g : σ) : tryAcquire g = none ↔ permits g = 0 ∨ waiters g ≠ []
  permits_dropAcquire (w : Nat) (g : σ) : permits (dropAcquire w g) = permits g
  waiters_dropAcquire (w : Nat) (g : σ) : waiters (dropAcquire w g) = (waiters g).erase w
  permits_release (g : σ) : permits (release g) = permits g + 1
  waiters_release (g : σ) : waiters (release g) = waiters g

namespace Semaphore

attribute [simp] permits_new waiters_new permits_dropAcquire waiters_dropAcquire
  permits_release waiters_release

/-- A free permit goes to the oldest waiter, or to anybody when nobody waits. -/
theorem exists_served {σ : Type} [Semaphore σ] (g : σ) (h : 0 < permits g) (v : Nat) :
    (pollAcquire v g).2 = true ∨ ∃ w ∈ waiters g, (pollAcquire w g).2 = true := by
  cases hwaiters : waiters g with
  | nil => exact .inl ((pollAcquire_ready v g).mpr ⟨h, by rw [hwaiters]; rfl⟩)
  | cons w rest =>
    refine .inr ⟨w, List.mem_cons_self, ?_⟩
    exact (pollAcquire_ready w g).mpr ⟨h, by rw [hwaiters]; rfl⟩

end Semaphore

/-- Permits and a queue of waiters. A waiter that a release could serve keeps
its place until it is polled. -/
structure FairSemaphore where
  permits : Nat
  waiters : List Nat
deriving DecidableEq, Repr

namespace FairSemaphore

/-- Whether a poll of `w` finds a permit and nobody ahead of it. -/
def serves (g : FairSemaphore) (w : Nat) : Bool :=
  0 < g.permits && (g.waiters.head?.getD w == w)

def poll (w : Nat) (g : FairSemaphore) : FairSemaphore × Bool :=
  if g.serves w then (⟨g.permits - 1, g.waiters.erase w⟩, true)
  else (⟨g.permits, if w ∈ g.waiters then g.waiters else g.waiters ++ [w]⟩, false)

def take (g : FairSemaphore) : Option FairSemaphore :=
  if 0 < g.permits ∧ g.waiters = [] then some ⟨g.permits - 1, []⟩ else none

instance : Semaphore FairSemaphore where
  new n := ⟨n, []⟩
  permits := permits
  waiters := waiters
  pollAcquire := poll
  tryAcquire := take
  dropAcquire w g := ⟨g.permits, g.waiters.erase w⟩
  release g := ⟨g.permits + 1, g.waiters⟩
  permits_new _ := rfl
  waiters_new _ := rfl
  pollAcquire_ready w g := by
    simp only [poll]
    split <;> simp_all [serves]
  pollAcquire_taken w g h := by
    simp only [poll] at h ⊢
    split at h
    · next hs =>
      have hpos : 0 < g.permits := by
        simp only [serves, Bool.and_eq_true, decide_eq_true_eq] at hs
        exact hs.1
      simp [hs]
      omega
    · cases h
  pollAcquire_pending w g h := by
    simp only [poll] at h ⊢
    split at h
    · cases h
    · next hs => simp [hs]
  tryAcquire_taken g g' h := by
    simp only [take] at h
    split at h
    · next hs =>
      obtain rfl := Option.some.inj h
      exact ⟨Nat.sub_add_cancel hs.1, hs.2, rfl⟩
    · cases h
  tryAcquire_refused g := by
    simp only [take]
    split
    · next hs => simp [hs.2]; omega
    · next hs =>
      simp only [true_iff]
      by_contra hno
      exact hs ⟨by omega, by simpa using fun e => hno (.inr e)⟩
  permits_dropAcquire _ _ := rfl
  waiters_dropAcquire _ _ := rfl
  permits_release _ := rfl
  waiters_release _ := rfl

end FairSemaphore

end Interleaving
