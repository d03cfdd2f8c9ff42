/-!
# Transition systems

An executable transition system and its runs. A run is restricted by a
predicate `ok` on the state before a step and the action taken, so that a
result can range over every run, or over the runs whose steps all meet a
condition.
-/

namespace Interleaving

/-- An initial state and a partial step function: `none` says that the action
is not enabled. -/
structure Machine (S A : Type) where
  init : S
  step : S → A → Option S

namespace Machine

variable {S A : Type} {M : Machine S A} {ok ok' : S → A → Prop}

/-- `M.Steps ok s t`: some run from `s` whose steps all meet `ok` ends in `t`. -/
inductive Steps (M : Machine S A) (ok : S → A → Prop) (s : S) : S → Prop
  | refl : Steps M ok s s
  | tail {t u : S} {a : A} :
      Steps M ok s t → ok t a → M.step t a = some u → Steps M ok s u

/-- The states some run from the initial state reaches by steps that meet `ok`. -/
abbrev Reachable (M : Machine S A) (ok : S → A → Prop) (s : S) : Prop :=
  M.Steps ok M.init s

/-- No condition on the steps of a run. -/
abbrev anyStep : S → A → Prop := fun _ _ => True

theorem Steps.trans {s t u : S} (h : M.Steps ok s t) (k : M.Steps ok t u) : M.Steps ok s u := by
  induction k with
  | refl => exact h
  | tail _ hok hstep ih => exact ih.tail hok hstep

theorem Steps.mono {s t : S} (himp : ∀ s a, ok s a → ok' s a) (h : M.Steps ok s t) :
    M.Steps ok' s t := by
  induction h with
  | refl => exact .refl
  | tail _ hok hstep ih => exact ih.tail (himp _ _ hok) hstep

theorem Steps.any {s t : S} (h : M.Steps ok s t) : M.Steps anyStep s t :=
  h.mono fun _ _ _ => trivial

/-- The induction rule of invariants: what every admitted step preserves holds
at the end of a run when it holds at its start. -/
theorem Steps.invariant {I : S → Prop} {s t : S} (h : M.Steps ok s t)
    (hstep : ∀ {s a s'}, I s → ok s a → M.step s a = some s' → I s') (hs : I s) : I t := by
  induction h with
  | refl => exact hs
  | tail _ hok hnext ih => exact hstep ih hok hnext

/-- Runs a schedule, refusing a step that is not enabled or that `ok` does not
admit. -/
def exec (M : Machine S A) (ok : S → A → Bool) : List A → S → Option S
  | [], s => some s
  | a :: as, s => if ok s a then (M.step s a).bind (M.exec ok as) else none

/-- An executed schedule is a run. -/
theorem steps_of_exec {ok : S → A → Bool} {as : List A} {s t : S}
    (h : M.exec ok as s = some t) : M.Steps (fun s a => ok s a = true) s t := by
  induction as generalizing s with
  | nil =>
    obtain rfl : s = t := by simpa [exec] using h
    exact .refl
  | cons a as ih =>
    simp only [exec] at h
    split at h
    · next hok =>
      obtain ⟨u, hstep, hrest⟩ := Option.bind_eq_some_iff.mp h
      have hfirst : M.Steps (fun s a => ok s a = true) s u := .tail .refl hok hstep
      exact hfirst.trans (ih hrest)
    · cases h

/-- The state a schedule ends in, or the state it starts in when some step of it
is refused. -/
def after (M : Machine S A) (ok : S → A → Bool) (as : List A) (s : S) : S :=
  (M.exec ok as s).getD s

theorem steps_after (M : Machine S A) (ok : S → A → Bool) (as : List A) (s : S) :
    M.Steps (fun s a => ok s a = true) s (M.after ok as s) := by
  unfold after
  cases h : M.exec ok as s with
  | none => exact .refl
  | some t => exact steps_of_exec h

/-- The induction rule of progress: when every state of `I` has an admitted step that
reaches the goal, or keeps `I` and lowers the rank, some run reaches the goal. -/
theorem exists_steps_of_rank {α : Type} {r : α → α → Prop} (hwf : WellFounded r) (rank : S → α)
    {I goal : S → Prop}
    (h : ∀ s, I s → ∃ a s', ok s a ∧ M.step s a = some s' ∧
      (goal s' ∨ I s' ∧ r (rank s') (rank s)))
    {s : S} (hs : I s) : ∃ s', M.Steps ok s s' ∧ goal s' := by
  induction hn : rank s using hwf.induction generalizing s with
  | _ n ih =>
    obtain ⟨a, s', hok, hstep, hgoal | ⟨hs', hlt⟩⟩ := h s hs
    · exact ⟨s', .tail .refl hok hstep, hgoal⟩
    · obtain ⟨u, hsteps, hu⟩ := ih (rank s') (hn ▸ hlt) hs' rfl
      have hfirst : M.Steps ok s s' := .tail .refl hok hstep
      exact ⟨u, hfirst.trans hsteps, hu⟩

/-! ## One action again and again -/

/-- Taking `a` again and again leads from the state to a step that meets `goal`. -/
inductive LeadsTo (M : Machine S A) (a : A) (goal : S → S → Prop) : S → Prop
  | now {s s' : S} : M.step s a = some s' → goal s s' → LeadsTo M a goal s
  | later {s s' : S} : M.step s a = some s' → LeadsTo M a goal s' → LeadsTo M a goal s

section LeadsTo

variable {a : A} {goal : S → S → Prop}

/-- The rule of a rank that falls until the goal is met. -/
theorem LeadsTo.of_rank {I : Nat → S → Prop}
    (h : ∀ n s, I n s → ∃ s', M.step s a = some s' ∧ (goal s s' ∨ ∃ m < n, I m s'))
    {n : Nat} {s : S} (hs : I n s) : M.LeadsTo a goal s := by
  induction n using Nat.strongRecOn generalizing s with
  | _ n ih =>
    obtain ⟨s', hstep, hgoal | ⟨m, hlt, hs'⟩⟩ := h n s hs
    · exact .now hstep hgoal
    · exact .later hstep (ih m hlt hs')

/-- An invariant that excludes the goal. -/
theorem LeadsTo.refute {I : S → Prop}
    (h : ∀ s s', I s → M.step s a = some s' → ¬goal s s' ∧ I s') {s : S} (hs : I s) :
    ¬M.LeadsTo a goal s := by
  intro hleads
  induction hleads with
  | now hstep hgoal => exact (h _ _ hs hstep).1 hgoal
  | later hstep _ ih => exact ih (h _ _ hs hstep).2

end LeadsTo

/-! ## Runs with a log -/

section Log

variable {L : Type} {observe : S → A → List L}

/-- The machine that also keeps what `observe` sees of each step. -/
def logged (M : Machine S A) (observe : S → A → List L) : Machine (S × List L) A :=
  ⟨(M.init, []), fun x a => (M.step x.1 a).map fun s => (s, x.2 ++ observe x.1 a)⟩

theorem logged_step {x y : S × List L} {a : A} (h : (M.logged observe).step x a = some y) :
    M.step x.1 a = some y.1 ∧ y.2 = x.2 ++ observe x.1 a := by
  obtain ⟨s, hs, rfl⟩ := Option.map_eq_some_iff.mp h
  exact ⟨hs, rfl⟩

/-- A run with a log is a run. -/
theorem Steps.of_logged {x y : S × List L}
    (h : (M.logged observe).Steps (fun x a => ok x.1 a) x y) : M.Steps ok x.1 y.1 := by
  induction h with
  | refl => exact .refl
  | tail _ hok hstep ih => exact ih.tail hok (logged_step hstep).1

/-- Every run has a log. -/
theorem Steps.exists_log {s t : S} (h : M.Steps ok s t) (log : List L) :
    ∃ log', (M.logged observe).Steps (fun x a => ok x.1 a) (s, log) (t, log') := by
  induction h with
  | refl => exact ⟨log, .refl⟩
  | @tail t u a _ hok hstep ih =>
    obtain ⟨log', ih⟩ := ih
    refine ⟨log' ++ observe t a, ih.tail hok ?_⟩
    simp only [logged, hstep, Option.map_some]

/-- A log only grows. -/
theorem Steps.log_grows {ok : S × List L → A → Prop} {x y : S × List L}
    (h : (M.logged observe).Steps ok x y) : ∃ more, y.2 = x.2 ++ more := by
  induction h with
  | refl => exact ⟨[], (List.append_nil _).symm⟩
  | tail _ _ hstep ih =>
    obtain ⟨more, hmore⟩ := ih
    exact ⟨more ++ _, by rw [(logged_step hstep).2, hmore, List.append_assoc]⟩

end Log

end Machine

end Interleaving
