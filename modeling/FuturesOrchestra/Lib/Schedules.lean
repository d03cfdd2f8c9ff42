import FuturesOrchestra.Lib.Machine
import Mathlib.Algebra.Order.Ring.Nat

/-!
# Schedules

Two rules about the run of one schedule. `exec_filter` compares it with the run in
which some of its steps are left out. `spent_le` bounds what it costs: when a step
that costs something lowers a rank, and only some actions raise it, the cost is
bounded by the rank at the start and by those actions.
-/

namespace Interleaving

namespace Machine

variable {S T A : Type} {M : Machine S A}

/-- The rule of simulation for a schedule with steps of which the second system
knows nothing: when it answers the kept steps, and the others do not break the
relation, it runs the rest of the schedule. -/
theorem exec_filter {R : S → T → Prop} {N : Machine T A} {ok : S → A → Bool} {keep : A → Bool}
    {as : List A} {s s' : S} {t : T}
    (hkept : ∀ {s a s' t}, R s t → keep a = true → M.step s a = some s' →
      ∃ t', N.step t a = some t' ∧ R s' t')
    (hleft : ∀ {s a s' t}, R s t → keep a = false → ok s a = true → M.step s a = some s' →
      R s' t)
    (hs : R s t) (h : M.exec ok as s = some s') :
    ∃ t', N.exec (fun _ _ => true) (as.filter keep) t = some t' ∧ R s' t' := by
  induction as generalizing s t with
  | nil =>
    obtain rfl : s = s' := by simpa [exec] using h
    exact ⟨t, rfl, hs⟩
  | cons a as ih =>
    simp only [exec] at h
    split at h
    · next hok =>
      obtain ⟨u, hstep, hrest⟩ := Option.bind_eq_some_iff.mp h
      cases hkeep : keep a with
      | true =>
        obtain ⟨t', ht, hu⟩ := hkept hs hkeep hstep
        obtain ⟨t'', hmore, hfinal⟩ := ih hu hrest
        refine ⟨t'', ?_, hfinal⟩
        rw [List.filter_cons_of_pos hkeep, exec, if_pos rfl, ht]
        exact hmore
      | false =>
        obtain ⟨t'', hmore, hfinal⟩ := ih (hleft hs hkeep hok hstep) hrest
        refine ⟨t'', ?_, hfinal⟩
        rw [List.filter_cons_of_neg (by simp [hkeep])]
        exact hmore
    · cases h

/-! ## Accounting -/

/-- What a schedule costs, when action `a` costs `cost s a` in state `s`. -/
def spent (M : Machine S A) (cost : S → A → Nat) : List A → S → Nat
  | [], _ => 0
  | a :: as, s => cost s a + ((M.step s a).map (M.spent cost as)).getD 0

/-- The accounting rule: a step that costs something lowers the rank by at least its
cost, but for what its action pays. -/
theorem spent_le {I : S → Prop} {ok : S → A → Bool} {rank : S → Nat} {cost : S → A → Nat}
    {paid : A → Nat} {as : List A} {s s' : S}
    (hstep : ∀ {s a s'}, I s → ok s a = true → M.step s a = some s' →
      I s' ∧ rank s' + cost s a ≤ rank s + paid a)
    (hs : I s) (h : M.exec ok as s = some s') :
    M.spent cost as s + rank s' ≤ rank s + (as.map paid).sum := by
  induction as generalizing s with
  | nil =>
    obtain rfl : s = s' := by simpa [exec] using h
    simp [spent]
  | cons a as ih =>
    simp only [exec] at h
    split at h
    · next hok =>
      obtain ⟨u, hu, hrest⟩ := Option.bind_eq_some_iff.mp h
      obtain ⟨hi, hfalls⟩ := hstep hs hok hu
      have hmore := ih hi hrest
      simp only [spent, hu, Option.map_some, Option.getD_some, List.map_cons, List.sum_cons]
      omega
    · cases h

end Machine

end Interleaving
