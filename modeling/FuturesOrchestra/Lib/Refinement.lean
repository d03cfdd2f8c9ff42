import FuturesOrchestra.Lib.Machine

/-!
# Refinement between transition systems

One transition system stands for another. `Refines` has an abstraction function
and lets the abstract system stay where it is. A property of the abstract system is
proved there and carried over.
-/

namespace Interleaving

namespace Machine

variable {S A T B : Type} {M : Machine S A} {N : Machine T B} {ok : S → A → Prop}

/-- The system takes one step or stays. -/
def StepOrStay (N : Machine T B) (t t' : T) : Prop := t' = t ∨ ∃ b, N.step t b = some t'

theorem StepOrStay.steps {t t' : T} (h : N.StepOrStay t t') : N.Steps anyStep t t' := by
  rcases h with rfl | ⟨b, hstep⟩
  · exact .refl
  · exact .tail .refl trivial hstep

/-- `view` shows every step of `M` as one step of `N`, or as none. -/
structure Refines (M : Machine S A) (N : Machine T B) (view : S → T) : Prop where
  init : view M.init = N.init
  step : ∀ {s a s'}, M.Reachable anyStep s → M.step s a = some s' →
    N.StepOrStay (view s) (view s')

namespace Refines

variable {view : S → T} {s s' : S}

/-- A run of the concrete system is a run of the abstract one. -/
theorem steps (h : M.Refines N view) (hreach : M.Reachable anyStep s) (hsteps : M.Steps ok s s') :
    N.Steps anyStep (view s) (view s') := by
  induction hsteps with
  | refl => exact .refl
  | tail hbefore _ hstep ih =>
    have hmid := hreach.trans hbefore.any
    exact ih.trans (h.step hmid hstep).steps

theorem reachable (h : M.Refines N view) (hsteps : M.Reachable ok s) :
    N.Reachable anyStep (view s) := by
  have hrun := h.steps .refl hsteps
  rwa [h.init] at hrun

/-- What holds of every state the abstract system reaches holds of every view. -/
theorem invariant {I : T → Prop} (h : M.Refines N view)
    (hstep : ∀ {t b t'}, I t → N.step t b = some t' → I t') (hinit : I N.init)
    (hsteps : M.Reachable ok s) : I (view s) :=
  (h.reachable hsteps).invariant (fun hi _ hnext => hstep hi hnext) hinit

/-- What every step of the abstract system keeps is kept from any state on. -/
theorem kept {I : T → Prop} (h : M.Refines N view)
    (hstep : ∀ {t b t'}, I t → N.step t b = some t' → I t') (hreach : M.Reachable anyStep s)
    (hsteps : M.Steps ok s s') (hs : I (view s)) : I (view s') :=
  (h.steps hreach hsteps).invariant (fun hi _ hnext => hstep hi hnext) hs

end Refines

end Machine

end Interleaving
