import FuturesOrchestra.Lib.Machine
import FuturesOrchestra.Proofs.ActiveSlots

/-!
# Histories of a slot array

What the slot array is for: a registry of the cores that were inserted and neither
removed nor swept. The ledger below keeps these cores the direct way, one ticket for
each insert with the slot that the insert has returned, and a run of the slot array
and its ledger relates the two over every history.
-/

namespace FuturesOrchestra

open Interleaving

variable {α : Type}

/-- A call on an `ActiveSlots`. `remove` is a removal of any index by anybody, `release n`
the removal by the owner of the `n`-th ticket of the slot it was given, and the flags of
the cores are what `sweepFinished` finds. -/
inductive SlotOp (α : Type)
  | insert (core : α)
  | remove (slot : Nat)
  | release (ticket : Nat)
  | sweepFinished (isFinished : α → Bool)

/-- A slot array with its ledger: `tickets` are the inserts whose core was neither
released by its owner nor swept, each with its slot, and `peak` is the largest number of
cores ever stored at once. -/
structure SlotLedger (α : Type) where
  slots : ActiveSlots α
  tickets : List (Nat × α)
  peak : Nat

namespace SlotLedger

/-- The slot array after a call, with the peak of the cores it stores. -/
def note (s : SlotLedger α) (a : ActiveSlots α) (tickets : List (Nat × α)) : SlotLedger α :=
  ⟨a, tickets, max s.peak (a.slots.countP (·.isSome))⟩

def step (s : SlotLedger α) : SlotOp α → Option (SlotLedger α)
  | .insert core =>
    let (a, slot) := s.slots.insert core
    some (s.note a (s.tickets ++ [(slot, core)]))
  | .remove slot => some (s.note (s.slots.remove slot) s.tickets)
  | .release n =>
    match s.tickets[n]? with
    | none => none
    | some (slot, _) => some (s.note (s.slots.remove slot) (s.tickets.eraseIdx n))
  | .sweepFinished isFinished =>
    some (s.note (s.slots.sweepFinished isFinished)
      (s.tickets.filter fun ticket => !isFinished ticket.2))

/-- Whether the call may take `core` out of `slot`. -/
def evicts (slot : Nat) (core : α) (s : SlotLedger α) : SlotOp α → Prop
  | .insert _ => False
  | .remove i => i = slot
  | .release n => ∃ other, s.tickets[n]? = some (slot, other)
  | .sweepFinished isFinished => isFinished core = true

/-- A slot that holds a core is removed by the owner of its ticket only. -/
def owned (s : SlotLedger α) : SlotOp α → Bool
  | .remove slot => (s.slots.get slot).isNone
  | _ => true

/-- The histories of a slot array. -/
def machine (α : Type) : Machine (SlotLedger α) (SlotOp α) := ⟨⟨.empty, [], 0⟩, step⟩

end SlotLedger

namespace ActiveSlots

variable {a : ActiveSlots α} {core : α} {slot : Nat}

theorem remove_of_empty (h : a.get slot = none) : a.remove slot = a := by
  unfold remove
  split
  · next other hslot =>
    rw [get_eq_some.mpr hslot] at h
    cases h
  · rfl

/-- The number of stored cores. -/
theorem length_allTokens (a : ActiveSlots α) :
    a.allTokens.length = a.slots.countP (·.isSome) :=
  List.length_filterMap_eq_countP

/-- The stored cores with their slots. -/
def entries (a : ActiveSlots α) : List (Nat × α) :=
  (List.range a.slots.length).filterMap fun i => (a.get i).map (Prod.mk i)

theorem mem_entries : (slot, core) ∈ a.entries ↔ a.get slot = some core := by
  simp only [entries, List.mem_filterMap, List.mem_range, Option.map_eq_some_iff, Prod.mk.injEq]
  constructor
  · rintro ⟨i, -, _, hget, rfl, rfl⟩
    exact hget
  · intro hget
    exact ⟨slot, (List.getElem?_eq_some_iff.mp (get_eq_some.mp hget)).1, core, hget, rfl, rfl⟩

theorem nodup_entries (a : ActiveSlots α) : a.entries.Nodup := by
  refine List.nodup_range.filterMap fun i j entry hi hj => ?_
  obtain ⟨_, -, rfl⟩ := Option.map_eq_some_iff.mp hi
  obtain ⟨_, -, heq⟩ := Option.map_eq_some_iff.mp hj
  exact (congrArg Prod.fst heq).symm

theorem allTokens_eq (a : ActiveSlots α) : a.allTokens = a.entries.map Prod.snd := by
  have hslots : a.slots = (List.range a.slots.length).map a.get := by
    refine List.ext_getElem? fun i => ?_
    by_cases hi : i < a.slots.length
    · simp [hi, get]
    · simp [hi]
  have hget (i : Nat) : ((a.get i).map (Prod.mk i)).map Prod.snd = a.get i := by
    cases a.get i <;> rfl
  rw [allTokens, hslots, List.filterMap_map, entries, List.map_filterMap]
  simp only [hget]
  rfl

/-- A core that is in one slot only is listed once. -/
theorem nodup_allTokens (h : ∀ i j core, a.get i = some core → a.get j = some core → i = j) :
    a.allTokens.Nodup := by
  rw [allTokens_eq]
  refine List.Nodup.map_on ?_ (nodup_entries a)
  rintro ⟨i, core⟩ hi ⟨j, _⟩ hj rfl
  rw [h i j core (mem_entries.mp hi) (mem_entries.mp hj)]

theorem length_slots_remove (a : ActiveSlots α) (slot : Nat) :
    (a.remove slot).slots.length = a.slots.length := by
  unfold remove
  split
  · exact List.length_set
  · rfl

theorem length_slots_sweepFinished (a : ActiveSlots α) (isFinished : α → Bool) :
    (a.sweepFinished isFinished).slots.length = a.slots.length := by
  rw [slots_sweepFinished, List.length_map]

/-- The array grows only when every slot holds a core. -/
theorem length_slots_insert (h : a.Valid) (core : α) :
    (a.insert core).1.slots.length = max a.slots.length (a.len + 1) := by
  have hslots := length_slots h
  have hlen := len_eq h
  rcases a.insert_eq core with ⟨slot, free, hfree, heq⟩ | ⟨hfree, heq⟩
  · rw [hfree, List.length_cons] at hslots
    rw [heq, List.length_set]
    omega
  · rw [hfree, List.length_nil] at hslots
    rw [heq, List.length_append, List.length_singleton]
    omega

end ActiveSlots

/-! ## Every history -/

/-- What holds after every history: the free list is right, and the array is as long as
its peak. -/
structure SlotLedger.Kept (s : SlotLedger α) : Prop where
  valid : s.slots.Valid
  peak : s.slots.slots.length = s.peak

/-- What holds after every history in which owners remove their own slots: the array stores
the cores of the ledger, each under the slot of its ticket. -/
structure SlotLedger.Owned (s : SlotLedger α) : Prop where
  valid : s.slots.Valid
  nodup : (s.tickets.map Prod.fst).Nodup
  get : ∀ slot core, s.slots.get slot = some core ↔ (slot, core) ∈ s.tickets

namespace SlotLedger

variable {s s' : SlotLedger α} {op : SlotOp α} {slot : Nat} {core : α}

/-- A call inserts a core, or removes a slot, or sweeps. -/
theorem step_cases (h : s.step op = some s') :
    (∃ core tickets, op = .insert core ∧ s' = s.note (s.slots.insert core).1 tickets) ∨
    (∃ i tickets, (op = .remove i ∨ ∃ n core, op = .release n ∧ s.tickets[n]? = some (i, core)) ∧
      s' = s.note (s.slots.remove i) tickets) ∨
    ∃ isFinished tickets, op = .sweepFinished isFinished ∧
      s' = s.note (s.slots.sweepFinished isFinished) tickets := by
  cases op with
  | insert core =>
    cases h
    exact .inl ⟨core, _, rfl, rfl⟩
  | remove i =>
    cases h
    exact .inr (.inl ⟨i, _, .inl rfl, rfl⟩)
  | release n =>
    simp only [step] at h
    split at h
    · cases h
    · next i core hticket =>
      cases h
      exact .inr (.inl ⟨i, _, .inr ⟨n, core, rfl, hticket⟩, rfl⟩)
  | sweepFinished isFinished =>
    cases h
    exact .inr (.inr ⟨isFinished, _, rfl, rfl⟩)

theorem Kept.step (hs : s.Kept) (h : s.step op = some s') : s'.Kept := by
  have hstored := ActiveSlots.length_slots hs.valid
  rcases step_cases h with ⟨core, tickets, -, rfl⟩ | ⟨i, tickets, -, rfl⟩ |
    ⟨isFinished, tickets, -, rfl⟩
  · refine ⟨hs.valid.insert core, ?_⟩
    show (s.slots.insert core).1.slots.length = max s.peak _
    rw [ActiveSlots.length_slots_insert hs.valid, hs.peak, ← ActiveSlots.length_allTokens,
      ← ActiveSlots.len_eq (hs.valid.insert core), ActiveSlots.len_insert hs.valid]
  · have hvalid := hs.valid.remove i
    have hbound := ActiveSlots.length_slots hvalid
    rw [ActiveSlots.length_slots_remove, hs.peak] at hbound
    refine ⟨hvalid, ?_⟩
    show (s.slots.remove i).slots.length = max s.peak _
    rw [ActiveSlots.length_slots_remove, hs.peak, ← ActiveSlots.length_allTokens]
    omega
  · have hvalid := hs.valid.sweepFinished isFinished
    have hbound := ActiveSlots.length_slots hvalid
    rw [ActiveSlots.length_slots_sweepFinished, hs.peak] at hbound
    refine ⟨hvalid, ?_⟩
    show (s.slots.sweepFinished isFinished).slots.length = max s.peak _
    rw [ActiveSlots.length_slots_sweepFinished, hs.peak, ← ActiveSlots.length_allTokens]
    omega

theorem kept {ok : SlotLedger α → SlotOp α → Prop} (h : (machine α).Reachable ok s) : s.Kept :=
  h.invariant (fun hs _ hstep => hs.step hstep) ⟨ActiveSlots.valid_empty, rfl⟩

/-- A core stays in its slot until a call evicts it. -/
theorem stays (hs : s.Kept) (hget : s.slots.get slot = some core) (hkeeps : ¬evicts slot core s op)
    (h : s.step op = some s') : s'.slots.get slot = some core := by
  rcases step_cases h with ⟨other, tickets, -, rfl⟩ | ⟨i, tickets, hop, rfl⟩ |
    ⟨isFinished, tickets, rfl, rfl⟩
  · show (s.slots.insert other).1.get slot = some core
    rw [ActiveSlots.get_insert hs.valid, if_neg]
    · exact hget
    · rintro rfl
      rw [ActiveSlots.get_insert_slot hs.valid] at hget
      cases hget
  · show (s.slots.remove i).get slot = some core
    rw [ActiveSlots.get_remove, if_neg]
    · exact hget
    · rintro rfl
      rcases hop with rfl | ⟨n, other, rfl, hticket⟩
      · exact hkeeps rfl
      · exact hkeeps ⟨other, hticket⟩
  · show (s.slots.sweepFinished isFinished).get slot = some core
    rw [ActiveSlots.get_sweepFinished, hget, Option.filter_some, if_pos]
    rw [Bool.not_eq_true']
    exact Bool.eq_false_iff.mpr hkeeps

/-! ## Owners -/

theorem Owned.step (hs : s.Owned) (hok : s.owned op = true) (h : s.step op = some s') : s'.Owned := by
  cases op with
  | insert core =>
    cases h
    have hfresh : ∀ other, ((s.slots.insert core).2, other) ∉ s.tickets := by
      intro other hmem
      rw [← hs.get, ActiveSlots.get_insert_slot hs.valid] at hmem
      cases hmem
    refine ⟨hs.valid.insert core, ?_, fun i other => ?_⟩
    · show ((s.tickets ++ [((s.slots.insert core).2, core)]).map Prod.fst).Nodup
      rw [List.map_append, List.nodup_append]
      refine ⟨hs.nodup, List.nodup_singleton _, ?_⟩
      rintro i hi j hj rfl
      obtain rfl := List.mem_singleton.mp hj
      obtain ⟨⟨_, other⟩, hmem, rfl⟩ := List.mem_map.mp hi
      exact hfresh other hmem
    · show (s.slots.insert core).1.get i = some other ↔
        (i, other) ∈ s.tickets ++ [((s.slots.insert core).2, core)]
      rw [ActiveSlots.get_insert hs.valid, List.mem_append, List.mem_singleton, Prod.mk.injEq]
      by_cases hi : i = (s.slots.insert core).2
      · subst hi
        simp [hfresh, eq_comm]
      · simp [hi, hs.get]
  | remove i =>
    cases h
    have hempty : s.slots.get i = none := Option.isNone_iff_eq_none.mp hok
    have hsame : s.slots.remove i = s.slots := ActiveSlots.remove_of_empty hempty
    refine ⟨hs.valid.remove i, hs.nodup, fun j other => ?_⟩
    show (s.slots.remove i).get j = some other ↔ (j, other) ∈ s.tickets
    rw [hsame, hs.get]
  | release n =>
    simp only [SlotLedger.step] at h
    split at h
    · cases h
    · next i core hticket =>
      cases h
      have hlt : n < s.tickets.length := (List.getElem?_eq_some_iff.mp hticket).1
      have hnth : s.tickets[n] = (i, core) := (List.getElem?_eq_some_iff.mp hticket).2
      -- no other ticket has the slot that is released
      have hperm : s.tickets.Perm ((i, core) :: s.tickets.eraseIdx n) := by
        rw [← hnth]
        exact (List.getElem_cons_eraseIdx_perm hlt).symm
      have hnodup : (i :: (s.tickets.eraseIdx n).map Prod.fst).Nodup :=
        (hperm.map Prod.fst).nodup_iff.mp hs.nodup
      refine ⟨hs.valid.remove i, (List.nodup_cons.mp hnodup).2, fun j other => ?_⟩
      show (s.slots.remove i).get j = some other ↔ (j, other) ∈ s.tickets.eraseIdx n
      rw [ActiveSlots.get_remove]
      by_cases hj : j = i
      · subst hj
        have hgone : (j, other) ∉ s.tickets.eraseIdx n := fun hmem =>
          (List.nodup_cons.mp hnodup).1 (List.mem_map_of_mem hmem)
        simp [hgone]
      · rw [if_neg hj, hs.get, hperm.mem_iff, List.mem_cons]
        simp [hj]
  | sweepFinished isFinished =>
    cases h
    refine ⟨hs.valid.sweepFinished isFinished, ?_, fun i core => ?_⟩
    · exact hs.nodup.sublist ((List.filter_sublist (l := s.tickets)).map Prod.fst)
    · show (s.slots.sweepFinished isFinished).get i = some core ↔
        (i, core) ∈ s.tickets.filter fun ticket => !isFinished ticket.2
      rw [ActiveSlots.get_sweepFinished, Option.filter_eq_some_iff, hs.get, List.mem_filter]

theorem owned_of_reachable (h : (machine α).Reachable (fun s op => s.owned op = true) s) : s.Owned := by
  refine h.invariant (fun hs hok hstep => hs.step hok hstep)
    ⟨ActiveSlots.valid_empty, List.nodup_nil, fun slot core => ?_⟩
  show (ActiveSlots.empty : ActiveSlots α).get slot = some core ↔ (slot, core) ∈ []
  simp

theorem Owned.allTokens (hs : s.Owned) : s.slots.allTokens.Perm (s.tickets.map Prod.snd) := by
  rw [ActiveSlots.allTokens_eq]
  refine List.Perm.map Prod.snd ?_
  have hnodup : s.tickets.Nodup := hs.nodup.of_map
  refine (List.perm_ext_iff_of_nodup s.slots.nodup_entries hnodup).mpr fun ⟨slot, core⟩ => ?_
  rw [ActiveSlots.mem_entries, hs.get]

/-- The slot array is a correct slot map, over every history: its free list names the empty
slots once each, its length counts the stored cores and never underflows, an insert takes an
empty slot and its core stays there until it is removed or swept, an index without a core is
removed in vain, and the array is as long as the largest number of cores ever stored at once.
When the owners of the slots are the ones who remove cores, it stores the inserted cores that
were neither removed nor swept. -/
theorem slots_form_a_map (α : Type) :
    (∀ s : SlotLedger α, (machine α).Reachable Machine.anyStep s →
      s.slots.free.Nodup ∧ (∀ i, i ∈ s.slots.free ↔ s.slots.slots[i]? = some none) ∧
      s.slots.free.length ≤ s.slots.slots.length ∧
      s.slots.len = s.slots.slots.countP (·.isSome) ∧
      s.slots.slots.length = s.peak ∧
      (∀ slot, s.slots.get slot = none → s.slots.remove slot = s.slots) ∧
      ∀ core s', s.step (.insert core) = some s' →
        s.slots.get (s.slots.insert core).2 = none ∧
        (∀ i, i ≠ (s.slots.insert core).2 → s'.slots.get i = s.slots.get i) ∧
        ∀ s'', (machine α).Steps (fun u op => ¬evicts (s.slots.insert core).2 core u op) s' s'' →
          s''.slots.get (s.slots.insert core).2 = some core) ∧
    ∀ s : SlotLedger α, (machine α).Reachable (fun s op => s.owned op = true) s →
      s.slots.allTokens.Perm (s.tickets.map Prod.snd) := by
  refine ⟨fun s h => ?_, fun s h => (owned_of_reachable h).allTokens⟩
  have hs := kept h
  have hlen := ActiveSlots.len_eq hs.valid
  have hslots := ActiveSlots.length_slots hs.valid
  refine ⟨hs.valid.nodup, hs.valid.mem_free, by omega, hlen.trans s.slots.length_allTokens,
    hs.peak, fun slot => ActiveSlots.remove_of_empty, fun core s' hstep => ?_⟩
  have hs' := hs.step hstep
  obtain rfl := Option.some.inj hstep
  refine ⟨ActiveSlots.get_insert_slot hs.valid core, fun i hi => ?_, fun s'' hsteps => ?_⟩
  · show (s.slots.insert core).1.get i = s.slots.get i
    rw [ActiveSlots.get_insert hs.valid, if_neg hi]
  · refine (hsteps.invariant (I := fun u => u.Kept ∧
      u.slots.get (s.slots.insert core).2 = some core) ?_ ⟨hs', ?_⟩).2
    · rintro u op u' ⟨hu, hget⟩ hkeeps hnext
      exact ⟨hu.step hnext, stays hu hget hkeeps hnext⟩
    · show (s.slots.insert core).1.get _ = some core
      rw [ActiveSlots.get_insert hs.valid, if_pos rfl]

/-- Three inserts, a removal by the owner of the middle one, a fourth insert that takes its
slot, a removal of an index that was never used, and a sweep of core 30. -/
def reused : SlotLedger Nat :=
  (machine Nat).after owned
    [.insert 10, .insert 20, .insert 30, .release 1, .insert 40, .remove 7,
      .sweepFinished (· == 30)] (machine Nat).init

theorem slots_form_a_map_reused :
    reused.slots.slots = [some 10, some 40, none] ∧ reused.slots.len = 2 ∧
      reused.slots.slots.length = reused.peak ∧ reused.slots.allTokens.Perm [10, 40] := by
  have hlaw := slots_form_a_map Nat
  have hreach : (machine Nat).Reachable (fun s op => s.owned op = true) reused :=
    Machine.steps_after _ _ _ _
  exact ⟨by decide, by decide, (hlaw.1 reused hreach.any).2.2.2.2.1, hlaw.2 reused hreach⟩

end SlotLedger

end FuturesOrchestra
