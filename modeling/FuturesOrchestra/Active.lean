import Mathlib.Data.Finset.Basic
import FuturesOrchestra.Task

/-!
# The registry of active tasks

`ActiveSlots`, the slot array of the strict pool, and `DeferredRegistry`, the
shard of the relaxed pool whose removal is left to the next inserter. Both are
generic in the reference `α` they store for a task core.
-/

namespace FuturesOrchestra

/-- A dense slot array and its free list. The head of `free` is the end of the
source's vector, where it pushes and pops. -/
structure ActiveSlots (α : Type) where
  slots : List (Option α)
  free : List Nat
deriving DecidableEq, Repr

namespace ActiveSlots

variable {α : Type}

def empty : ActiveSlots α := ⟨[], []⟩

/-- Stores `core` and returns the index of its slot. -/
def insert (a : ActiveSlots α) (core : α) : ActiveSlots α × Nat :=
  match a.free with
  | slot :: free => (⟨a.slots.set slot (some core), free⟩, slot)
  | [] => (⟨a.slots ++ [some core], []⟩, a.slots.length)

/-- Clears a slot that holds a core; any other index is left alone. -/
def remove (a : ActiveSlots α) (slot : Nat) : ActiveSlots α :=
  match a.slots[slot]? with
  | some (some _) => ⟨a.slots.set slot none, slot :: a.free⟩
  | _ => a

def len (a : ActiveSlots α) : Nat := a.slots.length - a.free.length

def allTokens (a : ActiveSlots α) : List α := a.slots.filterMap id

def tokensMatching (labelsOf : α → Finset TaskLabel) (labels : Finset TaskLabel)
    (a : ActiveSlots α) : List α :=
  a.allTokens.filter fun core => ¬ Disjoint (labelsOf core) labels

/-- The pass of `sweep_finished` over the slots from `index` on: the slots after
it, and the free list with the reclaimed indices pushed. -/
def sweepFrom (isFinished : α → Bool) :
    Nat → List (Option α) → List Nat → List (Option α) × List Nat
  | _, [], free => ([], free)
  | index, slot :: rest, free =>
    if slot.any isFinished then
      let (rest', free') := sweepFrom isFinished (index + 1) rest (index :: free)
      (none :: rest', free')
    else
      let (rest', free') := sweepFrom isFinished (index + 1) rest free
      (slot :: rest', free')

def sweepFinished (isFinished : α → Bool) (a : ActiveSlots α) : ActiveSlots α :=
  let (slots, free) := sweepFrom isFinished 0 a.slots a.free
  ⟨slots, free⟩

end ActiveSlots

/-- A registry shard whose entries are reclaimed by a later insert: `inFlight`
is what shutdown waits on, and readers of the slots skip finished entries. -/
structure DeferredRegistry (α : Type) where
  inFlight : Nat
  slots : ActiveSlots α
deriving DecidableEq, Repr

namespace DeferredRegistry

variable {α : Type}

def empty : DeferredRegistry α := ⟨0, .empty⟩

/-- The first half of `insert`: the counter goes up before the slots are locked. -/
def count (r : DeferredRegistry α) : DeferredRegistry α := { r with inFlight := r.inFlight + 1 }

/-- The second half of `insert`, under the write lock: sweep when no slot is
free, then store the core. -/
def store (isFinished : α → Bool) (core : α) (r : DeferredRegistry α) : DeferredRegistry α :=
  let slots := if r.slots.free.isEmpty then r.slots.sweepFinished isFinished else r.slots
  { r with slots := (slots.insert core).1 }

/-- The finishing task's half of removal. -/
def finish (r : DeferredRegistry α) : DeferredRegistry α := { r with inFlight := r.inFlight - 1 }

def len (r : DeferredRegistry α) : Nat := r.inFlight

def allTokens (isFinished : α → Bool) (r : DeferredRegistry α) : List α :=
  r.slots.allTokens.filter fun core => !isFinished core

def tokensMatching (isFinished : α → Bool) (labelsOf : α → Finset TaskLabel)
    (labels : Finset TaskLabel) (r : DeferredRegistry α) : List α :=
  (r.allTokens isFinished).filter fun core => ¬ Disjoint (labelsOf core) labels

end DeferredRegistry

end FuturesOrchestra
