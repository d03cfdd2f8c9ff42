import FuturesOrchestra.Proofs.Stuck

/-!
# Every call comes back

`shutdown`, the `Drop` of a handle, label cancellation and handler registration do not
depend on anybody else's progress: from any state of a run such a call returns by its
own steps and timeouts alone, whatever the dispatchers, the tasks and the handlers do.
Only a registration can be held up, by a worker that is calling handlers.
-/

namespace FuturesOrchestra

open Interleaving

variable {σ R : Type} {cfg : PoolConfig} {pid : Nat} {sh sh' : Shared σ R}
  {sp : Option (Proc R)} {p p' : Proc R}

/-! ## How far a call is from its end -/

/-- The process is one of these calls. -/
def Proc.isCall : Proc R → Bool
  | .shutdown _ | .drop _ | .labelCancel _ | .addHandler _ => true
  | _ => false

def DropPc.toGo : DropPc → Nat
  | .count => 6
  | .token => 5
  | .cancel => 4
  | .close => 3
  | .closeSink => 2
  | .release => 1
  | .done => 0

/-- The stage of a `shutdown` call, and what is left of the loop it is in. -/
def ShutdownPc.toGo (cfg : PoolConfig) : ShutdownPc → Nat × Nat
  | .readToken => (12, 0)
  | .cancel => (11, 0)
  | .close => (10, 0)
  | .sweep shard _ => (9, cfg.lanes + 1 - shard)
  | .cancelAll tokens => (8, tokens.length)
  | .count shard _ => (7, cfg.lanes + 1 - shard)
  | .wait => (6, 0)
  | .takeHandles => (5, 0)
  | .join handles => (4, handles.length)
  | .closeSink => (3, 0)
  | .takeNotifier => (2, 0)
  | .awaitNotifier => (1, 0)
  | .dropSelf pc => (0, pc.toGo + 1)
  | .returned | .abandoned => (0, 0)

def LabelCancelPc.toGo (cfg : PoolConfig) : LabelCancelPc → Nat × Nat
  | .start => (3, 0)
  | .sweep shard _ => (2, cfg.lanes + 1 - shard)
  | .cancelAll tokens => (1, tokens.length)
  | .returned => (0, 0)

def AddHandlerPc.toGo : AddHandlerPc → Nat
  | .init => 2
  | .push => 1
  | .returned => 0

def Proc.stages (cfg : PoolConfig) : Proc R → Nat × Nat
  | .shutdown c => c.pc.toGo cfg
  | .drop c => (0, c.pc.toGo)
  | .labelCancel c => c.pc.toGo cfg
  | .addHandler c => (0, c.pc.toGo)
  | _ => (0, 0)

/-- The order of the stages. -/
abbrev Earlier : Nat × Nat → Nat × Nat → Prop := Prod.Lex (· < ·) (· < ·)

theorem Earlier.stage {a b i j : Nat} (h : a < b) : Earlier (a, i) (b, j) := .left _ _ h

theorem Earlier.within {a i j : Nat} (h : i < j) : Earlier (a, i) (a, j) := .right _ h

/-- A shard that is read exists. -/
theorem Shared.lt_of_readTokens {shard : Nat} {found : List Nat}
    (hshards : cfg.kind = .rlxd → sh.shards.length = cfg.lanes)
    (h : sh.readTokens cfg shard = some found) : shard < cfg.lanes + 1 := by
  unfold Shared.readTokens at h
  split at h
  · split at h
    · omega
    · cases h
  · next hkind =>
    obtain ⟨r, hr, -⟩ := Option.map_eq_some_iff.mp h
    have hlt := (List.getElem?_eq_some_iff.mp hr).1
    rw [hshards hkind] at hlt
    omega

theorem Shared.lt_of_readLen {shard n : Nat}
    (hshards : cfg.kind = .rlxd → sh.shards.length = cfg.lanes)
    (h : sh.readLen cfg shard = some n) : shard < cfg.lanes + 1 := by
  unfold Shared.readLen at h
  split at h
  · split at h
    · omega
    · cases h
  · next hkind =>
    obtain ⟨r, hr, -⟩ := Option.map_eq_some_iff.mp h
    have hlt := (List.getElem?_eq_some_iff.mp hr).1
    rw [hshards hkind] at hlt
    omega

/-- A `shutdown` call does not go back, but for the ticks of its wait. -/
theorem ShutdownStep.earlier {b : Signal} {c c' : ShutdownCall}
    (hshards : cfg.kind = .rlxd → sh.shards.length = cfg.lanes)
    (hwait : c.pc ≠ .wait) (hb : b ≠ .abandon)
    (h : ShutdownStep cfg b sh c sh' c') : Earlier (c'.pc.toGo cfg) (c.pc.toGo cfg) := by
  cases h with
  | sweep hpc hread =>
    have hlt := Shared.lt_of_readTokens hshards hread
    rw [hpc]
    exact .within (by omega)
  | count hpc hread =>
    have hlt := Shared.lt_of_readLen hshards hread
    rw [hpc]
    exact .within (by omega)
  | cancelTask hpc | joined hpc | joinTimeout _ hpc =>
    rw [hpc]
    exact .within (Nat.lt_succ_self _)
  -- a tick of the wait loop is the one step that leads nowhere
  | tick hpc => exact absurd hpc hwait
  | dropSelf hpc hdrop =>
    rw [hpc]
    refine .within (Nat.succ_lt_succ ?_)
    cases hdrop <;> decide
  | returned hpc | abandoned hpc =>
    rw [hpc]
    exact .within (Nat.succ_pos _)
  | abandon habandon => exact absurd habandon hb
  | initiate hpc | join hpc | cancel hpc | closeGraceful hpc | closeForceful hpc
  | sweepEnd hpc | cancelEnd hpc | countZero hpc | countWait hpc | waitTimeout _ hpc
  | takeHandles hpc | joinEnd hpc | joinEndAlready hpc | closeSink hpc | takeNotifier hpc
  | noNotifier hpc | notifierDone hpc | notifierTimeout _ hpc =>
    rw [hpc]
    exact .stage (by decide)

theorem LabelCancelStep.earlier {c c' : LabelCancelCall}
    (hshards : cfg.kind = .rlxd → sh.shards.length = cfg.lanes)
    (h : LabelCancelStep cfg sh c sh' c') : Earlier (c'.pc.toGo cfg) (c.pc.toGo cfg) := by
  cases h with
  | sweep hpc hread =>
    have hlt := Shared.lt_of_readTokens hshards hread
    rw [hpc]
    exact .within (by omega)
  | cancelTask hpc =>
    rw [hpc]
    exact .within (Nat.lt_succ_self _)
  | refuse hpc | start hpc | sweepEnd hpc | cancelEnd hpc =>
    rw [hpc]
    exact .stage (by decide)

theorem AddHandlerStep.toGo_lt {c c' : AddHandlerCall} (h : AddHandlerStep pid sh c sh' c' sp) :
    c'.pc.toGo < c.pc.toGo ∧ sh'.notifier.reading = sh.notifier.reading := by
  cases h with
  | init hpc | initialized hpc | push hpc =>
    rw [hpc]
    exact ⟨Nat.lt_succ_self _, rfl⟩

theorem DropStep.toGo_lt {closed closed' : Bool} {pc pc' : DropPc}
    (h : DropStep sh closed pc sh' closed' pc') : pc'.toGo < pc.toGo := by
  cases h <;> decide

/-! ## The way out -/

section Runs

variable [Semaphore σ] {s : Pool σ R} {ok : Pool σ R → PoolEvent R → Prop}

/-- The events that concern process `pid` alone: its steps and its timeouts. -/
def ownEvent (pid : Nat) (_ : Pool σ R) (e : PoolEvent R) : Prop :=
  e = .run .step pid ∨ e = .run .timeout pid

omit [Semaphore σ] in
/-- A `shutdown` call that waits is one timeout further. -/
theorem ShutdownCall.timeout_earlier (cfg : PoolConfig) {c : ShutdownCall}
    (hwaits : c.pc = .wait ∨ (Proc.shutdown c : Proc R).waits sh = true) :
    ∃ c', c.timeout sh = some (sh, c', none) ∧ Earlier (c'.pc.toGo cfg) (c.pc.toGo cfg) := by
  obtain ⟨clone, mode, already, closed, dropped, pc⟩ := c
  cases pc with
  | wait => exact ⟨_, rfl, .stage (by decide)⟩
  | join handles =>
    cases handles with
    | nil => rcases hwaits with h | h <;> cases h
    | cons lane handles => exact ⟨_, rfl, .within (Nat.lt_succ_self _)⟩
  | awaitNotifier => exact ⟨_, rfl, .stage (by decide)⟩
  | _ => rcases hwaits with h | h <;> cases h

/-- A call that has not returned gets further by an event of its own. -/
theorem Proc.exists_earlier (hcfg : cfg.Built) (h : (poolMachine σ R cfg).Reachable ok s)
    (hp : s.At pid p) (hcall : p.isCall = true) (hended : p.ended = false)
    (hreading : ∀ c, p = .addHandler c → s.shared.notifier.reading = false) :
    ∃ b sh' p' sp, (b = .step ∨ b = .timeout) ∧
      Proc.run cfg b pid s.shared p = some (sh', p', sp) ∧ p'.isCall = true ∧
      Earlier (p'.stages cfg) (p.stages cfg) ∧
      ∀ c, p' = .addHandler c → sh'.notifier.reading = false := by
  have hshards := (in_place hcfg h).shards
  have hsome := Proc.isSome_run hcfg h hp
  cases p with
  | shutdown c =>
    -- where the call waits for others its own timeout takes it further
    by_cases hwaits : c.pc = .wait ∨ (Proc.shutdown c : Proc R).waits s.shared = true
    · obtain ⟨c', htimeout, hearlier⟩ := ShutdownCall.timeout_earlier cfg hwaits
      refine ⟨.timeout, s.shared, .shutdown c', none, .inr rfl, ?_, rfl, hearlier, by rintro c ⟨⟩⟩
      simp only [Proc.run, htimeout]
      rfl
    · obtain ⟨hwait, hfree⟩ := not_or.mp hwaits
      rw [hended, Bool.eq_false_of_not_eq_true hfree] at hsome
      obtain ⟨⟨sh', p', sp⟩, hrun⟩ := Option.isSome_iff_exists.mp hsome
      cases Proc.callStep_of_run (p := .shutdown c) True.intro hrun with
      | shutdown hstep =>
        exact ⟨.step, _, _, _, .inl rfl, hrun, rfl,
          hstep.earlier hshards hwait (by decide), by rintro c ⟨⟩⟩
  | drop c =>
    rw [hended] at hsome
    obtain ⟨⟨sh', p', sp⟩, hrun⟩ := Option.isSome_iff_exists.mp hsome
    cases Proc.callStep_of_run (p := .drop c) True.intro hrun with
    | drop hpc hstep =>
      refine ⟨.step, _, _, _, .inl rfl, hrun, rfl, ?_, by rintro c ⟨⟩⟩
      subst hpc
      exact .within hstep.toGo_lt
  | labelCancel c =>
    rw [hended] at hsome
    obtain ⟨⟨sh', p', sp⟩, hrun⟩ := Option.isSome_iff_exists.mp hsome
    cases Proc.callStep_of_run (p := .labelCancel c) True.intro hrun with
    | labelCancel hstep =>
      exact ⟨.step, _, _, _, .inl rfl, hrun, rfl, hstep.earlier hshards, by rintro c ⟨⟩⟩
  | addHandler c =>
    have hfree := hreading c rfl
    have hwaits : (Proc.addHandler c : Proc R).waits s.shared = false := by
      simp [Proc.waits, hfree]
    rw [hended, hwaits] at hsome
    obtain ⟨⟨sh', p', sp⟩, hrun⟩ := Option.isSome_iff_exists.mp hsome
    cases Proc.callStep_of_run (p := .addHandler c) True.intro hrun with
    | addHandler hstep =>
      obtain ⟨hlt, hsame⟩ := hstep.toGo_lt
      exact ⟨.step, _, _, _, .inl rfl, hrun, rfl, .within hlt, fun _ _ => hsame.trans hfree⟩
  | _ => cases hcall

/-- The stage that process `pid` has reached. -/
def Pool.stages (cfg : PoolConfig) (pid : Nat) (s : Pool σ R) : Nat × Nat :=
  ((s.procs[pid]?).map (Proc.stages cfg)).getD (0, 0)

/-- A call that is under way and that nothing can hold up. -/
def UnderWay (cfg : PoolConfig) (pid : Nat) (s : Pool σ R) : Prop :=
  (poolMachine σ R cfg).Reachable Machine.anyStep s ∧
    ∃ p, s.At pid p ∧ p.isCall = true ∧ p.ended = false ∧
      ∀ c, p = .addHandler c → s.shared.notifier.reading = false

/-- Process `pid` is a call that has returned. -/
def HasReturned (pid : Nat) (s : Pool σ R) : Prop :=
  ∃ p, s.At pid p ∧ p.isCall = true ∧ p.ended = true

theorem UnderWay.advance (hcfg : cfg.Built) (hs : UnderWay cfg pid s) :
    ∃ e s', ownEvent pid s e ∧ (poolMachine σ R cfg).step s e = some s' ∧
      (HasReturned pid s' ∨ UnderWay cfg pid s' ∧
        Earlier (s'.stages cfg pid) (s.stages cfg pid)) := by
  obtain ⟨hreach, p, hp, hcall, hended, hreading⟩ := hs
  obtain ⟨b, sh', p', sp, hb, hrun, hcall', hearlier, hreading'⟩ :=
    Proc.exists_earlier hcfg hreach hp hcall hended hreading
  have hstep : (poolMachine σ R cfg).step s (.run b pid) = some (s.update pid sh' p' sp) :=
    Program.step_of_run hp hrun
  have hself : (s.update pid sh' p' sp).At pid p' := Threads.update_self hp
  refine ⟨.run b pid, _, ?_, hstep, ?_⟩
  · rcases hb with rfl | rfl
    · exact .inl rfl
    · exact .inr rfl
  · cases hover : p'.ended with
    | true => exact .inl ⟨p', hself, hcall', hover⟩
    | false =>
      refine .inr ⟨⟨hreach.tail trivial hstep, p', hself, hcall', hover, hreading'⟩, ?_⟩
      simpa only [Pool.stages, hself, hp, Option.map_some, Option.getD_some] using hearlier

end Runs

/-- Every call comes back. From every reachable state a `shutdown` call, the drop of a
handle and a label cancellation return by their own steps and timeouts alone, and so
does the registration of a handler when the worker is not calling handlers. -/
theorem calls_return_alone (σ R : Type) [Semaphore σ] (cfg : PoolConfig) (hcfg : cfg.Built)
    (s : Pool σ R) (h : (poolMachine σ R cfg).Reachable Machine.anyStep s) (pid : Nat)
    (p : Proc R) (hp : s.At pid p) (hcall : p.isCall = true)
    (hreading : ∀ c, p = .addHandler c → s.shared.notifier.reading = false) :
    ∃ s', (poolMachine σ R cfg).Steps (ownEvent pid) s s' ∧ HasReturned pid s' := by
  cases hended : p.ended with
  | true => exact ⟨s, .refl, p, hp, hcall, hended⟩
  | false =>
    have hway : UnderWay cfg pid s := ⟨h, p, hp, hcall, hended, hreading⟩
    exact Machine.exists_steps_of_rank (Nat.lt_wfRel.wf.prod_lex Nat.lt_wfRel.wf)
      (Pool.stages cfg pid) (I := UnderWay cfg pid) (fun _ hs => hs.advance hcfg) hway

theorem calls_return_alone_joining :
    ∃ s', (poolMachine FairSemaphore Nat (.rlxd 1 1 1 "pool")).Steps (ownEvent 1) joining s' ∧
      HasReturned 1 s' := by
  have hwaiting : joining.At 1
      (.shutdown ⟨0, .graceful, false, true, none, .join [0]⟩) := by rfl
  exact calls_return_alone FairSemaphore Nat (.rlxd 1 1 1 "pool") (.inr ⟨1, 1, 1, "pool", rfl⟩)
    joining (Machine.steps_after _ _ _ _).any 1 _ hwaiting rfl (by rintro c ⟨⟩)

end FuturesOrchestra
