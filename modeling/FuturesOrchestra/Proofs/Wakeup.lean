import FuturesOrchestra.Token

/-!
# No wake-up is lost

A call of `cancelled` registers before it looks at the flag for the second time, and `cancel`
raises the flag before it notifies. So whoever parks has registered while the flag was down,
and the first `cancel` that returns has notified after that.
-/

namespace FuturesOrchestra

open Interleaving Notify

variable {ν : Type} [Notify ν] {pid : Nat} {sh sh' : TokenState ν} {p p' : TokenProc}
  {sp : Option TokenProc}

/-- `TokenStep pid sh p sh' p'`: a step of a call on the token. -/
inductive TokenStep (pid : Nat) (sh : TokenState ν) :
    TokenProc → TokenState ν → TokenProc → Prop
  | found (hflag : sh.state.cancelled = true) :
      TokenStep pid sh (.waiter .check) sh (.waiter .returned)
  | missed (hflag : sh.state.cancelled = false) :
      TokenStep pid sh (.waiter .check) sh (.waiter .enable)
  | enable :
      TokenStep pid sh (.waiter .enable) { sh with notify := Notify.enable pid sh.notify }
        (.waiter .recheck)
  | foundAgain (hflag : sh.state.cancelled = true) :
      TokenStep pid sh (.waiter .recheck) { sh with notify := forget pid sh.notify }
        (.waiter .returned)
  | park (hflag : sh.state.cancelled = false) :
      TokenStep pid sh (.waiter .recheck) sh (.waiter .parked)
  | wake (hwoken : woken sh.notify pid = true) :
      TokenStep pid sh (.waiter .parked) { sh with notify := forget pid sh.notify }
        (.waiter .check)
  | abandon :
      TokenStep pid sh (.waiter .parked) { sh with notify := forget pid sh.notify }
        (.waiter .dropped)
  | store :
      TokenStep pid sh (.canceller .store)
        { sh with state := { sh.state with cancelled := true } } (.canceller .notify)
  | notify :
      TokenStep pid sh (.canceller .notify) { sh with notify := notifyWaiters sh.notify }
        (.canceller .returned)

theorem TokenStep.of_run {b : Signal} (h : TokenProc.run b pid sh p = some (sh', p', sp)) :
    TokenStep pid sh p sh' p' ∧ sp = none := by
  revert h
  fun_cases TokenProc.run b pid sh p
  case case1 pc =>
    intro h
    obtain ⟨⟨_, _⟩, hstep, heq⟩ := Option.map_eq_some_iff.mp h
    cases heq
    refine ⟨?_, rfl⟩
    cases pc with
    | check =>
      cases hflag : sh.state.cancelled with
      | true =>
        simp only [WaiterPc.step, hflag] at hstep
        cases hstep
        exact .found hflag
      | false =>
        simp only [WaiterPc.step, hflag] at hstep
        cases hstep
        exact .missed hflag
    | enable =>
      cases hstep
      exact .enable
    | recheck =>
      simp only [WaiterPc.step] at hstep
      split at hstep
      · next hflag =>
        cases hstep
        exact .foundAgain hflag
      · next hflag =>
        cases hstep
        exact .park (Bool.not_eq_true _ ▸ hflag)
    | parked =>
      simp only [WaiterPc.step] at hstep
      split at hstep
      · next hwoken =>
        cases hstep
        exact .wake hwoken
      · cases hstep
    | returned | dropped => cases hstep
  case case2 pc =>
    intro h
    obtain ⟨⟨_, _⟩, hstep, heq⟩ := Option.map_eq_some_iff.mp h
    cases heq
    refine ⟨?_, rfl⟩
    cases pc with
    | parked =>
      cases hstep
      exact .abandon
    | _ => cases hstep
  case case3 pc =>
    intro h
    obtain ⟨⟨_, _⟩, hstep, heq⟩ := Option.map_eq_some_iff.mp h
    cases heq
    refine ⟨?_, rfl⟩
    cases pc with
    | store =>
      cases hstep
      exact .store
    | notify =>
      cases hstep
      exact .notify
    | returned => cases hstep
  case case4 => nofun

/-! ## The invariant -/

/-- A call of `cancel` has raised the flag. -/
def TokenProc.raised : TokenProc → Bool
  | .canceller .notify | .canceller .returned => true
  | _ => false

/-- What a call on the token relies on, where `spent` tells whether some `cancel` has returned:
whoever has registered is still registered or was woken, and woken once that has happened. -/
def TokenProc.Relies (spent : Prop) (pid : Nat) (sh : TokenState ν) : TokenProc → Prop
  | .waiter .recheck => registered sh.notify pid = true ∨ woken sh.notify pid = true
  | .waiter .parked =>
    woken sh.notify pid = true ∨ registered sh.notify pid = true ∧ ¬spent
  | .waiter .returned => sh.state.cancelled = true
  | _ => True

/-- Some call of `cancel` has returned. -/
def CancelReturned (s : Threads (TokenState ν) TokenProc) : Prop :=
  ∃ pid, s.At pid (.canceller .returned)

/-- The invariant of a token. -/
structure Waking (s : Threads (TokenState ν) TokenProc) : Prop where
  raised : s.shared.state.cancelled = true ↔ ∃ pid p, s.At pid p ∧ p.raised = true
  relies : ∀ pid p, s.At pid p → p.Relies (CancelReturned s) pid s.shared

section Runs

variable {s : Threads (TokenState ν) TokenProc}

omit [Notify ν] in
theorem CancelReturned.of_update (hp : s.At pid p) (hp' : p' ≠ .canceller .returned)
    (h : CancelReturned (s.update pid sh p' none)) : CancelReturned s := by
  obtain ⟨qid, hq⟩ := h
  rcases Threads.update_getElem? hp hq with ⟨-, rfl⟩ | ⟨-, hold⟩ | ⟨-, hnew⟩
  · exact absurd rfl hp'
  · exact ⟨qid, hold⟩
  · cases hnew

/-- Before the flag is up nobody has returned from `cancel`. -/
theorem Waking.not_returned (hs : Waking s) (hflag : s.shared.state.cancelled = false) :
    ¬CancelReturned s := by
  rintro ⟨pid, hp⟩
  rw [hs.raised.mpr ⟨pid, _, hp, rfl⟩] at hflag
  cases hflag

/-- A step other than a notification keeps what the other calls rely on. -/
theorem TokenStep.others (h : TokenStep pid sh p sh' p') (hp' : p' ≠ .canceller .returned)
    {qid : Nat} {q : TokenProc} {spent spent' : Prop} (hne : qid ≠ pid) (hover : spent' → spent)
    (hq : q.Relies spent qid sh) : q.Relies spent' qid sh' := by
  have hregistered : registered sh'.notify qid = registered sh.notify qid := by
    cases h with
    | enable => exact registered_enable_other _ hne
    | foundAgain | wake | abandon => exact registered_forget_other _ hne
    | notify => exact absurd rfl hp'
    | _ => rfl
  have hwoken : woken sh'.notify qid = woken sh.notify qid := by
    cases h with
    | enable => exact woken_enable_other _ hne
    | foundAgain | wake | abandon => exact woken_forget_other _ hne
    | notify => exact absurd rfl hp'
    | _ => rfl
  have hflag (hflag : sh.state.cancelled = true) : sh'.state.cancelled = true := by
    cases h <;> first | exact hflag | rfl
  cases q with
  | canceller => exact trivial
  | waiter pc =>
    cases pc with
    | recheck =>
      show registered sh'.notify qid = true ∨ woken sh'.notify qid = true
      rw [hregistered, hwoken]
      exact hq
    | parked =>
      show woken sh'.notify qid = true ∨ registered sh'.notify qid = true ∧ ¬spent'
      rw [hregistered, hwoken]
      exact hq.imp_right fun ⟨hstays, hno⟩ => ⟨hstays, fun hyes => hno (hover hyes)⟩
    | returned => exact hflag hq
    | _ => exact trivial

/-- A notification wakes everybody who has registered. -/
theorem relies_notified {qid : Nat} {q : TokenProc} {spent spent' : Prop}
    (hq : q.Relies spent qid sh) :
    q.Relies spent' qid { sh with notify := notifyWaiters sh.notify } := by
  cases q with
  | canceller => exact trivial
  | waiter pc =>
    cases pc with
    | recheck => exact .inr (hq.elim notifyWaiters_registered notifyWaiters_woken)
    | parked => exact .inl (hq.elim notifyWaiters_woken fun h => notifyWaiters_registered h.1)
    | returned => exact hq
    | _ => exact trivial

/-- The flag is up once a `cancel` has raised it. -/
theorem Waking.raised_update (hs : Waking s) (hp : s.At pid p) (h : TokenStep pid s.shared p sh p') :
    sh.state.cancelled = true ↔ ∃ qid q, (s.update pid sh p' none).At qid q ∧ q.raised = true := by
  have hkept (hsame : p'.raised = p.raised) (hflag : sh.state = s.shared.state) :
      sh.state.cancelled = true ↔
        ∃ qid q, (s.update pid sh p' none).At qid q ∧ q.raised = true := by
    rw [hflag, hs.raised]
    constructor
    · rintro ⟨qid, q, hq, hraised⟩
      by_cases hne : qid = pid
      · subst hne
        obtain rfl := Option.some.inj (hp.symm.trans hq)
        exact ⟨qid, p', Threads.update_self hp, hsame.trans hraised⟩
      · exact ⟨qid, q, Threads.update_other hne hq, hraised⟩
    · rintro ⟨qid, q, hq, hraised⟩
      rcases Threads.update_getElem? hp hq with ⟨rfl, rfl⟩ | ⟨-, hold⟩ | ⟨-, hnew⟩
      · exact ⟨qid, p, hp, hsame ▸ hraised⟩
      · exact ⟨qid, q, hold, hraised⟩
      · cases hnew
  cases h with
  | store => exact iff_of_true rfl ⟨pid, _, Threads.update_self hp, rfl⟩
  | _ => exact hkept rfl rfl

theorem Waking.step (hs : Waking s) (hp : s.At pid p) (h : TokenStep pid s.shared p sh p') :
    Waking (s.update pid sh p' none) := by
  refine ⟨hs.raised_update hp h, fun qid q hq => ?_⟩
  rw [Threads.update_shared]
  have hself := hs.relies pid p hp
  by_cases hreturned : p' = .canceller .returned
  · -- the notification
    subst hreturned
    cases h with
    | notify =>
      rcases Threads.update_getElem? hp hq with ⟨rfl, rfl⟩ | ⟨-, hold⟩ | ⟨-, hnew⟩
      · exact trivial
      · exact relies_notified (hs.relies qid q hold)
      · cases hnew
  · have hover : CancelReturned (s.update pid sh p' none) → CancelReturned s :=
      CancelReturned.of_update hp hreturned
    rcases Threads.update_getElem? hp hq with ⟨rfl, rfl⟩ | ⟨hne, hold⟩ | ⟨-, hnew⟩
    · cases h with
      | found hflag | foundAgain hflag => exact hflag
      | enable => exact enable_self _ _
      | park hflag =>
        rcases hself with hregistered | hwoken
        · exact .inr ⟨hregistered, fun hyes => hs.not_returned hflag (hover hyes)⟩
        · exact .inl hwoken
      | notify => exact absurd rfl hreturned
      | _ => exact trivial
    · exact h.others hreturned hne hover (hs.relies qid q hold)
    · cases hnew

theorem Waking.spawn (hs : Waking s) (call : TokenCall) :
    Waking (s.spawn s.shared (some call.enter)) := by
  have hover : CancelReturned (s.spawn s.shared (some call.enter)) → CancelReturned s := by
    rintro ⟨qid, hq⟩
    rcases Threads.spawn_getElem? hq with hold | ⟨-, hnew⟩
    · exact ⟨qid, hold⟩
    · cases call <;> cases hnew
  refine ⟨hs.raised.trans ?_, fun qid q hq => ?_⟩
  · constructor
    · rintro ⟨qid, q, hq, hraised⟩
      exact ⟨qid, q, Threads.spawn_other hq, hraised⟩
    · rintro ⟨qid, q, hq, hraised⟩
      rcases Threads.spawn_getElem? hq with hold | ⟨-, hnew⟩
      · exact ⟨qid, q, hold, hraised⟩
      · cases call <;> cases hnew <;> cases hraised
  · rcases Threads.spawn_getElem? hq with hold | ⟨-, hnew⟩
    · have hbefore := hs.relies qid q hold
      cases q with
      | canceller => exact trivial
      | waiter pc =>
        cases pc with
        | parked =>
          exact hbefore.imp_right fun ⟨hstays, hno⟩ => ⟨hstays, fun hyes => hno (hover hyes)⟩
        | recheck | returned => exact hbefore
        | _ => exact trivial
    · cases call <;> cases hnew <;> exact trivial

theorem waking {ok : Threads (TokenState ν) TokenProc → Event Signal TokenCall → Prop}
    (h : (tokenMachine ν).Reachable ok s) : Waking s := by
  refine Program.induct ?_ ?_ h ⟨⟨nofun, ?_⟩, nofun⟩
  · intro s b pid p sh p' sp hs _ hp hrun
    obtain ⟨hstep, rfl⟩ := TokenStep.of_run hrun
    exact hs.step hp hstep
  · intro s c sh sp hs _ hcall
    obtain ⟨rfl, rfl⟩ := Prod.mk.inj (Option.some.inj hcall)
    exact hs.spawn c
  · rintro ⟨pid, p, hp, -⟩
    cases hp

end Runs

/-- No cancellation wake-up is lost. In every reachable state of a token, with any number of
waiters and of calls of `cancel`: once some `cancel` has returned, every parked waiter has a
notification pending; and a call of `cancelled` has returned only when the flag is up, which
only a `cancel` raises. -/
theorem no_lost_wakeup (ν : Type) [Notify ν] (s : Threads (TokenState ν) TokenProc)
    (h : (tokenMachine ν).Reachable Machine.anyStep s) :
    (CancelReturned s → ∀ pid, s.At pid (.waiter .parked) → woken s.shared.notify pid = true) ∧
      (∀ pid, s.At pid (.waiter .returned) → s.shared.state.cancelled = true) ∧
      (s.shared.state.cancelled = true → ∃ pid p, s.At pid p ∧ p.raised = true) := by
  have hs := waking h
  refine ⟨fun hreturned pid hp => ?_, fun pid hp => hs.relies pid _ hp, hs.raised.mp⟩
  exact (hs.relies pid _ hp).resolve_right fun hno => hno.2 hreturned

/-- One waiter is parked, another one was dropped and a third one is about to look at the flag
again when `cancel` notifies. -/
def cancelledWhileParking : Threads (TokenState WaitList) TokenProc :=
  (tokenMachine WaitList).after (fun _ _ => true)
    [.call .cancelled, .call .cancelled, .call .cancelled, .call .cancel,
      .run .step 0, .run .step 0, .run .step 0, .run .step 1, .run .step 1, .run .step 1,
      .run .abandon 1, .run .step 2, .run .step 2, .run .step 3, .run .step 3, .run .step 2]
    (tokenMachine WaitList).init

theorem no_lost_wakeup_parking :
    cancelledWhileParking.procs =
        [.waiter .parked, .waiter .dropped, .waiter .returned, .canceller .returned] ∧
      woken cancelledWhileParking.shared.notify 0 = true ∧
      cancelledWhileParking.shared.state.cancelled = true := by
  have hlaw := no_lost_wakeup WaitList cancelledWhileParking (Machine.steps_after _ _ _ _).any
  exact ⟨by decide, hlaw.1 ⟨3, rfl⟩ 0 rfl, hlaw.2.1 2 rfl⟩

end FuturesOrchestra
