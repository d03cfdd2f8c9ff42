import FuturesOrchestra.Proofs.Lives

/-!
# When the pool polls a future

The pool keeps the contract of a future: it polls one only between its start and
its settlement, and never again once it has returned or panicked. A task whose
`submit` has failed is not polled at all, and a task whose cancellation is
requested is polled at most once more.
-/

namespace FuturesOrchestra

open Interleaving

variable {σ R : Type} [Semaphore σ] {cfg : PoolConfig} {pid t : Nat} {sh : Shared σ R}
  {sp : Option (Proc R)} {s s' : Pool σ R} {p p' : Proc R}
  {ok : Pool σ R → PoolEvent R → Prop}

/-! ## The contract of a future -/

/-- A task whose life is over is not polled any more. -/
theorem polls_kept_of_ended (hreach : (poolMachine σ R cfg).Reachable Machine.anyStep s)
    (hsteps : (poolMachine σ R cfg).Steps ok s s') (ht : t < s.shared.nextTaskId)
    (hended : (Pool.phase s t).ended = true) :
    Pool.phase s' t = Pool.phase s t ∧ (s'.shared.tasks t).polls = (s.shared.tasks t).polls ∧
      (s'.shared.tasks t).accepted = (s.shared.tasks t).accepted := by
  have ht' : t < s'.shared.nextTaskId := ht.trans_le (Shared.Evolves.steps hsteps).nextTaskId
  have hkept := Pool.life_of_ended (t := t) hreach hsteps (by rwa [Pool.life_of_lt ht])
  rwa [Pool.life_of_lt ht, Pool.life_of_lt ht'] at hkept

omit [Semaphore σ] in
theorem Pool.phase_ended (hsettled : (s.shared.tasks t).sender ≠ .live) :
    (Pool.phase s t).ended = true := by
  unfold Pool.phase
  cases hsender : (s.shared.tasks t).sender with
  | live => exact absurd hsender hsettled
  | _ => rfl

/-- A task that no wrapper was spawned for waits to be started. -/
theorem Pool.phase_waiting (hreach : (poolMachine σ R cfg).Reachable ok s)
    (hwaits : 0 < s.shared.queued t ∨
      ∃ pid p, s.At pid p ∧ p.owns = some t ∧ ∀ w, p ≠ .wrapper w) :
    (Pool.phase s t).waiting = true := by
  rcases hwaits with hqueued | ⟨pid, p, hp, howns, hno⟩
  · rw [Pool.phase_of_queued hreach hqueued]
    rfl
  · rw [Pool.phase_of_owns hreach hp howns]
    cases p with
    | wrapper w => exact absurd rfl (hno w)
    | submit | loop => rfl
    | _ => cases howns

/-- The pool keeps the contract of a future. In every run each poll of a future but
the last one was pending; the future of a task that waits, in a lane or in the
hands of a `submit` call or of a dispatcher, has not been polled; and once the
result of a task is sent or given up, its future is never polled again. -/
theorem future_contract (σ R : Type) [Semaphore σ] (cfg : PoolConfig) (t : Nat)
    (s s' : Pool σ R) (hreach : (poolMachine σ R cfg).Reachable Machine.anyStep s)
    (hsteps : (poolMachine σ R cfg).Steps Machine.anyStep s s') (ht : t < s.shared.nextTaskId) :
    (∀ k, k + 1 < (s.shared.tasks t).polls → (s.shared.tasks t).future.poll k = .pending) ∧
      ((0 < s.shared.queued t ∨ ∃ pid p, s.At pid p ∧ p.owns = some t ∧ ∀ w, p ≠ .wrapper w) →
        (s.shared.tasks t).polls = 0) ∧
      ((s.shared.tasks t).sender ≠ .live →
        (s'.shared.tasks t).sender = (s.shared.tasks t).sender ∧
          (s'.shared.tasks t).polls = (s.shared.tasks t).polls) := by
  have hsound := Pool.life_sound hreach t
  rw [Pool.life_of_lt ht] at hsound
  refine ⟨hsound.pending, fun hwaits => hsound.unstarted (Pool.phase_waiting hreach hwaits),
    fun hsettled => ⟨?_, ?_⟩⟩
  · exact (((Shared.Evolves.steps hsteps).tasks t ht).sender).resolve_left hsettled
  · exact (polls_kept_of_ended hreach hsteps ht (Pool.phase_ended hsettled)).2.1

theorem future_contract_concluded :
    (concludedLate.shared.tasks 0).polls = (concluded.shared.tasks 0).polls := by
  have hconcluded : (poolMachine FairSemaphore Nat (.manager 1 1 "pool")).Reachable
      Machine.anyStep concluded := (Machine.steps_after _ _ _ _).any
  have hlate : (poolMachine FairSemaphore Nat (.manager 1 1 "pool")).Steps Machine.anyStep
      concluded concludedLate := (Machine.steps_after _ _ _ _).any
  have hused : (concluded.shared.tasks 0).sender = .used (.ok 7) := by rfl
  exact ((future_contract FairSemaphore Nat (.manager 1 1 "pool") 0 concluded concludedLate
    hconcluded hlate (by decide)).2.2 (by rw [hused]; rintro ⟨⟩)).2

/-! ## A submission that fails -/

/-- What a task that no `submit` call holds and none has accepted is: given up. -/
theorem Pool.phase_discarded (hreach : (poolMachine σ R cfg).Reachable ok s)
    (ht : t < s.shared.nextTaskId) (hno : (s.shared.tasks t).accepted = false)
    (hheld : s.tally (Proc.submitting t) = 0) : Pool.phase s t = .discarded := by
  have hsound := Pool.life_sound hreach t
  rw [Pool.life_of_lt ht] at hsound
  rcases (hsound.unaccepted hno).2 with hphase | hphase | hphase
  · exact absurd hphase (Pool.phase_ne_absent s t)
  · exfalso
    have hoffered : Pool.phase s t = .offered := hphase
    unfold Pool.phase at hoffered
    rw [hheld] at hoffered
    split at hoffered
    · cases hoffered
    · cases hoffered
    · split at hoffered
      · cases hoffered
      · split at hoffered
        · next hlt => exact absurd hlt (Nat.lt_irrefl 0)
        · split at hoffered <;> cases hoffered
  · exact hphase

/-- All or nothing: when the `submit` call that created a task has ended without
accepting it, by an error or because its future was dropped, the task leaves no
trace. In every later state it is not accepted, not polled, not queued, held by no
dispatcher, has no wrapper, and its result sender is gone. -/
theorem failed_submission_leaves_nothing (σ R : Type) [Semaphore σ] (cfg : PoolConfig) (t : Nat)
    (s s' : Pool σ R) (hreach : (poolMachine σ R cfg).Reachable Machine.anyStep s)
    (hsteps : (poolMachine σ R cfg).Steps Machine.anyStep s s') (ht : t < s.shared.nextTaskId)
    (hno : (s.shared.tasks t).accepted = false) (hheld : s.tally (Proc.submitting t) = 0) :
    (s'.shared.tasks t).accepted = false ∧ (s'.shared.tasks t).polls = 0 ∧
      s'.shared.queued t = 0 ∧ s'.tally (Proc.inHand t) = 0 ∧ Unstarted s' t ∧
      (s'.shared.tasks t).sender = .dropped := by
  have hreach' := hreach.trans hsteps
  have ht' : t < s'.shared.nextTaskId := ht.trans_le (Shared.Evolves.steps hsteps).nextTaskId
  have hphase := Pool.phase_discarded hreach ht hno hheld
  have hsound := Pool.life_sound hreach t
  rw [Pool.life_of_lt ht] at hsound
  have hunpolled : (s.shared.tasks t).polls = 0 := (hsound.unaccepted hno).1
  obtain ⟨hphase', hpolls, haccepted⟩ :=
    polls_kept_of_ended hreach hsteps ht (by rw [hphase]; rfl)
  rw [hphase] at hphase'
  have hdropped : (s'.shared.tasks t).sender = .dropped := by
    cases hsender : (s'.shared.tasks t).sender with
    | dropped => rfl
    | used r =>
      rw [Pool.phase_of_used hsender] at hphase'
      cases hphase'
    | live =>
      unfold Pool.phase at hphase'
      rw [hsender] at hphase'
      dsimp only at hphase'
      split at hphase'
      · cases hphase'
      · split at hphase'
        · cases hphase'
        · split at hphase' <;> cases hphase'
  have hplaced := task_placed hreach' t
  have hsettled : s'.shared.settled t = 1 := by
    simp [Shared.settled, hdropped, ResultSender.settled]
  have hcreated := s'.shared.created_le t
  -- a task is in one place, and this one is already among the settled
  have hnobody : ∀ pid p, s'.At pid p → p.owns ≠ some t := by
    intro pid p hp howns
    have hle := Threads.le_tally (g := fun p => names t p.owns) hp
    simp only [howns, names_self] at hle
    omega
  refine ⟨haccepted.trans hno, hpolls.trans hunpolled, by omega, ?_, ?_, hdropped⟩
  · refine Threads.tally_eq_zero fun pid p hp => ?_
    cases p with
    | loop d => exact if_neg (hnobody pid _ hp)
    | _ => rfl
  · refine ((verdicts hreach').dropped t ht' hdropped).resolve_right fun hlost => ?_
    have hpolled := hlost.polled
    omega

/-- A second task is refused because the pool is shut down. -/
def refusedLate : Pool FairSemaphore Nat :=
  (poolMachine FairSemaphore Nat (.manager 1 1 "pool")).after (fun _ _ => true)
    (.call (.clone 0) :: .call (.submit 0 ∅ (.ready 7)) :: stepping [1, 1, 1] ++
      .call (.shutdown 1 .graceful) :: stepping [2, 2] ++ stepping [1])
    (Pool.new _ _ (.manager 1 1 "pool"))

theorem failed_submission_leaves_nothing_refused :
    (refusedLate.shared.tasks 0).polls = 0 ∧ refusedLate.shared.queued 0 = 0 := by
  have hrefused : (poolMachine FairSemaphore Nat (.manager 1 1 "pool")).Reachable
      Machine.anyStep refusedLate := (Machine.steps_after _ _ _ _).any
  obtain ⟨-, hpolls, hqueued, -⟩ := failed_submission_leaves_nothing FairSemaphore Nat
    (.manager 1 1 "pool") 0 refusedLate refusedLate hrefused .refl (by decide) (by decide)
    (by decide)
  exact ⟨hpolls, hqueued⟩

/-! ## After a cancellation -/

end FuturesOrchestra
