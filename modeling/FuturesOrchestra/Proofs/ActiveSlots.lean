import FuturesOrchestra.Active
import Mathlib.Data.List.Nodup

/-!
# The slot array is a map

`get` reads an `ActiveSlots` as a partial map from indices to cores. Under
`Valid`, which says that the free list names the empty slots once each, `insert`
adds one binding at a fresh index, `remove` takes one away and `sweepFinished`
restricts the map to the unfinished cores.
-/

namespace FuturesOrchestra.ActiveSlots

variable {α : Type} {a : ActiveSlots α} {core : α} {i slot : Nat} {isFinished : α → Bool}

/-- The core stored in slot `i`. -/
def get (a : ActiveSlots α) (i : Nat) : Option α := (a.slots[i]?).join

/-- The free list names the empty slots, and none of them twice. -/
structure Valid (a : ActiveSlots α) : Prop where
  nodup : a.free.Nodup
  mem_free : ∀ i, i ∈ a.free ↔ a.slots[i]? = some none

theorem get_eq_some : a.get i = some core ↔ a.slots[i]? = some (some core) := by
  simp [get, Option.join_eq_some_iff]

theorem get_of_free (h : a.Valid) (hi : i ∈ a.free) : a.get i = none := by
  rw [get, (h.mem_free i).mp hi]
  rfl

theorem valid_empty : (empty : ActiveSlots α).Valid :=
  ⟨List.nodup_nil, fun i => by simp [empty]⟩

@[simp] theorem get_empty : (empty : ActiveSlots α).get i = none := by
  simp [empty, get]

/-! ## Insertion -/

/-- An insert goes to the slot on top of the free list, or to a new one. -/
theorem insert_eq (a : ActiveSlots α) (core : α) :
    (∃ slot free, a.free = slot :: free ∧
      a.insert core = (⟨a.slots.set slot (some core), free⟩, slot)) ∨
    (a.free = [] ∧ a.insert core = (⟨a.slots ++ [some core], []⟩, a.slots.length)) := by
  unfold insert
  split
  · next slot free hfree => exact .inl ⟨slot, free, hfree, rfl⟩
  · next hfree => exact .inr ⟨hfree, rfl⟩

/-- The slot of an insert was empty. -/
theorem get_insert_slot (h : a.Valid) (core : α) : a.get (a.insert core).2 = none := by
  rcases a.insert_eq core with ⟨slot, free, hfree, heq⟩ | ⟨_, heq⟩
  · rw [heq]
    exact get_of_free h (by simp [hfree])
  · simp [heq, get]

theorem get_insert (h : a.Valid) (core : α) (i : Nat) :
    (a.insert core).1.get i = if i = (a.insert core).2 then some core else a.get i := by
  rcases a.insert_eq core with ⟨slot, free, hfree, heq⟩ | ⟨_, heq⟩
  · have hslot : a.slots[slot]? = some none := (h.mem_free slot).mp (by simp [hfree])
    have hlt : slot < a.slots.length := (List.getElem?_eq_some_iff.mp hslot).1
    rw [heq]
    by_cases hi : i = slot
    · simp [get, hi, hlt]
    · simp [get, hi, List.getElem?_set_ne (Ne.symm hi)]
  · rw [heq]
    rcases lt_trichotomy i a.slots.length with hlt | rfl | hgt
    · simp [get, hlt, hlt.ne, List.getElem?_append_left hlt]
    · simp [get]
    · have hnone : (a.slots ++ [some core])[i]? = none := by simp; omega
      simp [get, hnone, hgt.ne', hgt.le]

theorem Valid.insert (h : a.Valid) (core : α) : (a.insert core).1.Valid := by
  rcases a.insert_eq core with ⟨slot, free, hfree, heq⟩ | ⟨hfree, heq⟩
  · have hnodup : slot ∉ free ∧ free.Nodup := by simpa [hfree] using h.nodup
    have hslot : a.slots[slot]? = some none := (h.mem_free slot).mp (by simp [hfree])
    have hlt : slot < a.slots.length := (List.getElem?_eq_some_iff.mp hslot).1
    rw [heq]
    refine ⟨hnodup.2, fun i => ?_⟩
    have hmem := h.mem_free i
    rw [hfree, List.mem_cons] at hmem
    by_cases hi : i = slot
    · simp [hi, hnodup.1, hlt]
    · simp only [hi, false_or] at hmem
      rw [List.getElem?_set_ne (Ne.symm hi)]
      exact hmem
  · rw [heq]
    refine ⟨List.nodup_nil, fun i => ?_⟩
    have hmem := h.mem_free i
    simp only [hfree, List.not_mem_nil, false_iff] at hmem ⊢
    rw [List.getElem?_append]
    split
    · exact hmem
    · rw [List.getElem?_singleton]
      split <;> simp

/-! ## Removal -/

theorem get_remove (slot i : Nat) :
    (a.remove slot).get i = if i = slot then none else a.get i := by
  unfold remove
  split
  · next core hslot =>
    have hlt : slot < a.slots.length := (List.getElem?_eq_some_iff.mp hslot).1
    by_cases hi : i = slot
    · simp [get, hi, hlt]
    · simp [get, hi, List.getElem?_set_ne (Ne.symm hi)]
  · next hslot =>
    by_cases hi : i = slot
    · subst hi
      rw [if_pos rfl]
      cases hget : a.get i with
      | none => rfl
      | some core => exact absurd (get_eq_some.mp hget) (hslot core)
    · rw [if_neg hi]

theorem Valid.remove (h : a.Valid) (slot : Nat) : (a.remove slot).Valid := by
  unfold ActiveSlots.remove
  split
  · next core hslot =>
    have hlt : slot < a.slots.length := (List.getElem?_eq_some_iff.mp hslot).1
    have hfresh : slot ∉ a.free := by
      rw [h.mem_free, hslot]
      simp
    refine ⟨List.nodup_cons.mpr ⟨hfresh, h.nodup⟩, fun i => ?_⟩
    rw [List.mem_cons]
    by_cases hi : i = slot
    · simp [hi, hlt]
    · simp [hi, List.getElem?_set_ne (Ne.symm hi), h.mem_free]
  · exact h

theorem len_remove_le (a : ActiveSlots α) (slot : Nat) : (a.remove slot).len ≤ a.len := by
  unfold remove
  split
  · simp only [len, List.length_set, List.length_cons]
    omega
  · exact le_rfl

/-! ## Sweeping -/

/-- The sweep from `index` on: it empties the slots of finished cores and pushes
their indices, which lie at `index` and after it. -/
theorem sweepFrom_spec (isFinished : α → Bool) (slots : List (Option α)) (index : Nat) (free : List Nat) :
    (sweepFrom isFinished index slots free).1 = slots.map (·.filter (!isFinished ·)) ∧
    ∃ swept : List Nat, (sweepFrom isFinished index slots free).2 = swept ++ free ∧ swept.Nodup ∧
      ∀ i, i ∈ swept ↔ ∃ j core, i = index + j ∧ slots[j]? = some (some core) ∧
        isFinished core = true := by
  induction slots generalizing index free with
  | nil => exact ⟨rfl, [], rfl, List.nodup_nil, by simp⟩
  | cons slot rest ih =>
    unfold sweepFrom
    split
    · next hany =>
      obtain ⟨hslots, swept, hfree, hnodup, hmem⟩ := ih (index + 1) (index :: free)
      obtain ⟨core, rfl, hfinished⟩ : ∃ core, slot = some core ∧ isFinished core = true := by
        simpa [Option.any_eq_true] using hany
      refine ⟨by simp [hslots, Option.filter, hfinished], swept ++ [index], by simp [hfree], ?_, fun i => ?_⟩
      · refine hnodup.append (List.nodup_singleton _) ?_
        simp only [List.disjoint_singleton]
        intro hindex
        obtain ⟨j, -, heq, -⟩ := (hmem index).mp hindex
        omega
      · rw [List.mem_append, List.mem_singleton, hmem]
        constructor
        · rintro (⟨j, core', rfl, hj⟩ | rfl)
          · exact ⟨j + 1, core', by omega, by simpa using hj⟩
          · exact ⟨0, core, rfl, rfl, hfinished⟩
        · rintro ⟨j, core', rfl, hj, hfin⟩
          cases j with
          | zero => exact .inr rfl
          | succ j => exact .inl ⟨j, core', by omega, by simpa using hj, hfin⟩
    · next hany =>
      obtain ⟨hslots, swept, hfree, hnodup, hmem⟩ := ih (index + 1) free
      have hkept : slot.filter (!isFinished ·) = slot := by
        cases slot <;> simp_all
      refine ⟨by simp [hslots, hkept], swept, hfree, hnodup, fun i => ?_⟩
      rw [hmem]
      constructor
      · rintro ⟨j, core', rfl, hj⟩
        exact ⟨j + 1, core', by omega, by simpa using hj⟩
      · rintro ⟨j, core', rfl, hj, hfin⟩
        cases j with
        | zero =>
          obtain rfl : slot = some core' := by simpa using hj
          exact absurd hfin (by simpa using hany)
        | succ j => exact ⟨j, core', by omega, by simpa using hj, hfin⟩

theorem slots_sweepFinished :
    (a.sweepFinished isFinished).slots = a.slots.map (·.filter (!isFinished ·)) :=
  (sweepFrom_spec isFinished a.slots 0 a.free).1

theorem get_sweepFinished (isFinished : α → Bool) (i : Nat) :
    (a.sweepFinished isFinished).get i = (a.get i).filter (!isFinished ·) := by
  rw [get, get, slots_sweepFinished, List.getElem?_map]
  cases a.slots[i]? <;> rfl

theorem Valid.sweepFinished (h : a.Valid) (isFinished : α → Bool) :
    (a.sweepFinished isFinished).Valid := by
  obtain ⟨-, swept, hfree, hnodup, hmem⟩ :=
    sweepFrom_spec isFinished a.slots 0 a.free
  have hfree' : (a.sweepFinished isFinished).free = swept ++ a.free := hfree
  simp only [Nat.zero_add] at hmem
  refine ⟨?_, fun i => ?_⟩
  · rw [hfree']
    refine hnodup.append h.nodup fun i hi hold => ?_
    obtain ⟨j, core, rfl, hj, -⟩ := (hmem i).mp hi
    rw [h.mem_free, hj] at hold
    cases hold
  · rw [hfree', List.mem_append, hmem, h.mem_free, slots_sweepFinished, List.getElem?_map]
    cases hslot : a.slots[i]? with
    | none => simp [hslot]
    | some o => cases o <;> simp [hslot]

/-! ## Reading -/

theorem mem_allTokens : core ∈ a.allTokens ↔ ∃ i, a.get i = some core := by
  simp only [allTokens, List.mem_filterMap, id_eq, exists_eq_right, get_eq_some]
  exact List.mem_iff_getElem?

/-- Every slot is free or occupied. -/
theorem length_slots (h : a.Valid) : a.allTokens.length + a.free.length = a.slots.length := by
  have hperm : a.free.Perm ((List.range a.slots.length).filter fun i =>
      (a.slots[i]?).any (·.isNone)) := by
    refine (List.perm_ext_iff_of_nodup h.nodup (List.nodup_range.filter _)).mpr fun i => ?_
    rw [h.mem_free, List.mem_filter, List.mem_range]
    constructor
    · intro hi
      exact ⟨(List.getElem?_eq_some_iff.mp hi).1, by simp [hi]⟩
    · rintro ⟨hlt, hi⟩
      simpa [hlt] using hi
  have hindices : (List.range a.slots.length).map (a.slots[·]?) = a.slots.map some := by
    refine List.ext_getElem? fun i => ?_
    by_cases hi : i < a.slots.length
    · simp [hi]
    · simp [hi]
  have hfree : a.free.length = a.slots.countP (·.isNone) := by
    calc a.free.length
        = ((List.range a.slots.length).map (a.slots[·]?)).countP
            (Option.any (Option.isNone (α := α))) := by
          rw [hperm.length_eq, ← List.countP_eq_length_filter, List.countP_map]
          rfl
      _ = a.slots.countP (·.isNone) := by
          rw [hindices, List.countP_map]
          rfl
  have htokens : a.allTokens.length = a.slots.countP (·.isSome) :=
    List.length_filterMap_eq_countP
  have hsplit := List.length_eq_countP_add_countP (fun slot : Option α => slot.isSome) (l := a.slots)
  have hempty : a.slots.countP (fun slot => ¬slot.isSome) = a.slots.countP (·.isNone) :=
    List.countP_congr fun slot _ => by cases slot <;> simp
  omega

/-- `len` counts the stored cores. -/
theorem len_eq (h : a.Valid) : a.len = a.allTokens.length := by
  have hslots := length_slots h
  unfold len
  omega

theorem len_insert (h : a.Valid) (core : α) : (a.insert core).1.len = a.len + 1 := by
  have hslots := length_slots h
  rcases a.insert_eq core with ⟨slot, free, hfree, heq⟩ | ⟨hfree, heq⟩
  · rw [hfree, List.length_cons] at hslots
    rw [heq, len, len, hfree, List.length_set, List.length_cons]
    show a.slots.length - free.length = a.slots.length - (free.length + 1) + 1
    omega
  · rw [heq, len, len, hfree, List.length_append]
    rfl

theorem len_remove {slot : Nat} (h : a.Valid) (hslot : a.get slot = some core) :
    (a.remove slot).len + 1 = a.len := by
  have hslots := length_slots h
  have hpos : 0 < a.allTokens.length :=
    List.length_pos_of_mem (mem_allTokens.mpr ⟨slot, hslot⟩)
  have hremove : a.remove slot = ⟨a.slots.set slot none, slot :: a.free⟩ := by
    unfold remove
    rw [get_eq_some.mp hslot]
  rw [hremove, len, len, List.length_set, List.length_cons]
  omega

theorem get_of_len_eq_zero (h : a.Valid) (hlen : a.len = 0) (i : Nat) : a.get i = none := by
  rw [len_eq h, List.length_eq_zero_iff] at hlen
  cases hget : a.get i with
  | none => rfl
  | some core =>
    have hmem : core ∈ a.allTokens := mem_allTokens.mpr ⟨i, hget⟩
    simp [hlen] at hmem

end FuturesOrchestra.ActiveSlots

/-! ## The deferred shard -/

namespace FuturesOrchestra.DeferredRegistry

variable {α : Type} {r : DeferredRegistry α} {core other : α} {i : Nat} {isFinished : α → Bool}

/-- The slots that an insert into the shard goes to: swept when none is free. -/
def swept (isFinished : α → Bool) (r : DeferredRegistry α) : ActiveSlots α :=
  if r.slots.free.isEmpty then r.slots.sweepFinished isFinished else r.slots

theorem slots_store :
    (r.store isFinished core).slots = ((r.swept isFinished).insert core).1 := rfl

theorem valid_swept (h : r.slots.Valid) : (r.swept isFinished).Valid := by
  unfold swept
  split
  · exact h.sweepFinished isFinished
  · exact h

/-- The sweep leaves an unfinished core in its slot and brings none. -/
theorem get_swept (hget : r.slots.get i = some core) (hcore : isFinished core = false) :
    (r.swept isFinished).get i = some core := by
  unfold swept
  split
  · simp [ActiveSlots.get_sweepFinished, hget, hcore]
  · exact hget

theorem get_of_swept (hget : (r.swept isFinished).get i = some core) :
    r.slots.get i = some core := by
  unfold swept at hget
  split at hget
  · rw [ActiveSlots.get_sweepFinished, Option.filter_eq_some_iff] at hget
    exact hget.1
  · exact hget

theorem valid_store (h : r.slots.Valid) (core : α) : (r.store isFinished core).slots.Valid :=
  (valid_swept h).insert core

theorem get_store_self (h : r.slots.Valid) (isFinished : α → Bool) (core : α) :
    ∃ i, (r.store isFinished core).slots.get i = some core :=
  ⟨_, by rw [slots_store, ActiveSlots.get_insert (valid_swept h), if_pos rfl]⟩

/-- A stored core stays where it is while it is not finished. -/
theorem get_store_kept (h : r.slots.Valid) (hget : r.slots.get i = some other)
    (hother : isFinished other = false) :
    (r.store isFinished core).slots.get i = some other := by
  have hswept := get_swept hget hother
  rw [slots_store, ActiveSlots.get_insert (valid_swept h), if_neg]
  · exact hswept
  · rintro rfl
    rw [ActiveSlots.get_insert_slot (valid_swept h) core] at hswept
    cases hswept

theorem get_of_store (h : r.slots.Valid)
    (hget : (r.store isFinished core).slots.get i = some other) :
    other = core ∨ r.slots.get i = some other := by
  rw [slots_store, ActiveSlots.get_insert (valid_swept h)] at hget
  split at hget
  · exact .inl (Option.some.inj hget).symm
  · exact .inr (get_of_swept hget)

end FuturesOrchestra.DeferredRegistry
