import FuturesOrchestra.Proofs.Permits
import FuturesOrchestra.Proofs.Registry
import FuturesOrchestra.Proofs.Verdict

/-!
# What shutdown waits for

`shutdown` cancels the token, and later reads the active count until it finds it
zero. That read sees neither a process that has tested the token before and has not
yet put its task into the registry, nor a relaxed wrapper that has counted itself out
and still holds its future and its permit. When nothing is unseen at a read that
finds a shard empty, the shard is `Quenched` from then on, and a call that has found
every shard so leaves a pool in which nothing runs and nothing starts.
-/

namespace FuturesOrchestra

open Interleaving

variable {σ R : Type} {cfg : PoolConfig} {pid i n : Nat} {sh sh' : Shared σ R}
  {sp : Option (Proc R)}

/-! ## What a read of the active count does not see -/

/-- The call has tested the token and may yet count a task into shard `i`. -/
def SubmitPc.starting (i : Nat) : SubmitPc → Bool
  | .checkClosed | .create | .scan _ _ 0 | .tryAcquire _ | .route _ => true
  | .insertCount _ shard => shard == i
  | _ => false

/-- The loop has tested the token for the task in its hand and will put it into
shard `i`. -/
def DispatcherLoop.starting (kind : PoolKind) (sh : Shared σ R) (i : Nat)
    (d : DispatcherLoop) : Bool :=
  match kind, d.pc with
  | .strict, .precheck true t => !sh.isCancelled t
  | .strict, .insert _ => true
  | .rlxd, .insertCount _ => d.lane == i
  | _, _ => false

/-- The wrapper has counted itself out of shard `i` and still holds its future and
its permit. -/
def Wrapper.leaving (i : Nat) (w : Wrapper R) : Bool :=
  match w.pc with
  | .release => w.slot == i
  | _ => false

/-- The process is past its last look at the token and not yet in shard `i`, or
already out of it and not over. -/
def Proc.unseen (kind : PoolKind) (sh : Shared σ R) (i : Nat) : Proc R → Bool
  | .submit c => kind == .rlxd && c.pc.starting i
  | .loop d => d.starting kind sh i
  | .wrapper w => kind == .rlxd && w.leaving i
  | _ => false

/-- The token is cancelled, shard `i` is empty, nobody is about to fill it and nobody
is on its way out of it. -/
structure Quenched (cfg : PoolConfig) (s : Pool σ R) (i : Nat) : Prop where
  token : s.shared.token = true
  empty : s.shared.readLen cfg i = some 0
  procs : ∀ pid p, s.At pid p → p.unseen cfg.kind s.shared i = false

/-! ## The active count -/

theorem Shared.readLen_eq (hactive : sh'.active = sh.active) (hshards : sh'.shards = sh.shards) :
    sh'.readLen cfg i = sh.readLen cfg i := by
  unfold readLen
  rw [hactive, hshards]

theorem Shared.readLen_setShard {j : Nat} {r r' : DeferredRegistry Nat}
    (hshard : sh.shards[j]? = some r)
    (hr' : j = i → cfg.kind = .rlxd → r.inFlight = 0 → r'.inFlight = 0)
    (hread : sh.readLen cfg i = some 0) : (sh.setShard j r').readLen cfg i = some 0 := by
  unfold readLen at hread ⊢
  cases hkind : cfg.kind with
  | strict => simpa [hkind] using hread
  | rlxd =>
    simp only [hkind] at hread ⊢
    by_cases hj : j = i
    · subst hj
      have hlt : j < sh.shards.length := (List.getElem?_eq_some_iff.mp hshard).1
      have hzero : r.inFlight = 0 := by simpa [hshard, DeferredRegistry.len] using hread
      simpa [hlt, DeferredRegistry.len] using hr' rfl hkind hzero
    · simpa [List.getElem?_set_ne hj] using hread

theorem Shared.readLen_some_iff (hactive : sh'.shards.length = sh.shards.length) :
    (∃ n, sh'.readLen cfg i = some n) ↔ ∃ n, sh.readLen cfg i = some n := by
  unfold readLen
  cases cfg.kind with
  | strict => by_cases hi : i = 0 <;> simp [hi]
  | rlxd => simp [List.getElem?_eq_some_iff, hactive]

theorem Shared.readLen_none_of_le {k : Nat} (hk : sh.readLen cfg k = none) (hki : k ≤ i) :
    sh.readLen cfg i = none := by
  unfold readLen at hk ⊢
  cases hkind : cfg.kind with
  | strict =>
    have hk0 : k ≠ 0 := by
      rintro rfl
      simp [hkind] at hk
    simp [show i ≠ 0 by omega]
  | rlxd =>
    simp only [hkind, Option.map_eq_none_iff, List.getElem?_eq_none_iff] at hk ⊢
    exact hk.trans hki

variable [Semaphore σ]

theorem SubmitStep.starting {kind : PoolKind} {c c' : SubmitCall R}
    (h : SubmitStep kind pid sh c sh' c' sp) (htoken : sh.token = true)
    (hc : c.pc.starting i = false) : c'.pc.starting i = false := by
  cases h with
  | @scan t lane queued l hpc =>
    cases queued with
    | zero => simp [SubmitPc.starting, hpc] at hc
    | succ queued =>
      rw [SubmitCall.goto_pc, Nat.succ_add]
      rfl
  | _ => simp_all [SubmitPc.starting]

theorem LoopStep.starting {d d' : DispatcherLoop} (h : LoopStep cfg pid sh d sh' d' sp)
    (htoken : sh.token = true) (hd : d.starting cfg.kind sh i = false) :
    d'.starting cfg.kind sh' i = false := by
  cases h <;> simp_all [DispatcherLoop.starting]

theorem SubmitStep.readLen {c c' : SubmitCall R} (h : SubmitStep cfg.kind pid sh c sh' c' sp)
    (hc : (Proc.submit c).unseen cfg.kind sh i = false) (hread : sh.readLen cfg i = some 0) :
    sh'.readLen cfg i = some 0 := by
  cases h with
  | insertCount hkind hpc hshard =>
    refine Shared.readLen_setShard hshard ?_ hread
    rintro rfl hkind' -
    simp [Proc.unseen, SubmitPc.starting, hkind', hpc] at hc
  | insert hkind hpc hshard => exact Shared.readLen_setShard hshard (fun _ _ h => h) hread
  | _ => exact hread

theorem LoopStep.readLen {d d' : DispatcherLoop} (h : LoopStep cfg pid sh d sh' d' sp)
    (hd : d.starting cfg.kind sh i = false) (hread : sh.readLen cfg i = some 0) :
    sh'.readLen cfg i = some 0 := by
  cases h with
  | insert hkind hpc => simp [DispatcherLoop.starting, hkind, hpc] at hd
  | insertCount hkind hpc hshard =>
    refine Shared.readLen_setShard hshard ?_ hread
    rintro rfl hkind' -
    simp [DispatcherLoop.starting, hkind', hpc] at hd
  | insertRlxd hkind hpc hshard => exact Shared.readLen_setShard hshard (fun _ _ h => h) hread
  | _ => exact hread

theorem WrapperStep.readLen {w w' : Wrapper R} (h : WrapperStep cfg sh w sh' w')
    (hread : sh.readLen cfg i = some 0) : sh'.readLen cfg i = some 0 := by
  cases h with
  | remove hkind =>
    unfold Shared.readLen at hread ⊢
    simp only [hkind] at hread ⊢
    split at hread
    · next hi =>
      have hlen : (sh.active.remove w.slot).len ≤ sh.active.len := ActiveSlots.len_remove_le _ _
      simp only [Option.some.injEq] at hread
      simp only [hi, if_true, Option.some.injEq]
      omega
    · cases hread
  | countOut hkind hpc hshard =>
    refine Shared.readLen_setShard hshard (fun _ _ hzero => ?_) hread
    simp [DeferredRegistry.finish, hzero]
  | _ => exact hread

theorem Proc.Step.readLen {p p' : Proc R} (h : Proc.Step cfg pid sh p sh' p' sp)
    (hp : p.unseen cfg.kind sh i = false) (hread : sh.readLen cfg i = some 0) :
    sh'.readLen cfg i = some 0 := by
  cases h with
  | submit hstep => exact hstep.readLen hp hread
  | loop hstep => exact hstep.readLen hp hread
  | wrapper hstep => exact hstep.readLen hread
  | bystander _ _ hstep => exact (Shared.readLen_eq hstep.1.active hstep.1.shards).trans hread

/-- A wrapper comes out of a shard that has counted it until then. -/
theorem WrapperStep.leaving {w w' : Wrapper R} (h : WrapperStep cfg sh w sh' w')
    (hcounted : w.countedIn ≠ some i) : w'.leaving i = false := by
  cases h with
  | countOut hkind hpc =>
    have hslot : w.slot ≠ i := by simpa [Wrapper.countedIn, hpc] using hcounted
    simpa [Wrapper.leaving] using hslot
  | _ => rfl

theorem Proc.Step.unseen {p p' : Proc R} (h : Proc.Step cfg pid sh p sh' p' sp)
    (htoken : sh.token = true) (hcounted : cfg.kind = .rlxd → p.countedIn ≠ some i)
    (hp : p.unseen cfg.kind sh i = false) : p'.unseen cfg.kind sh' i = false := by
  cases h with
  | submit hstep =>
    cases hkind : cfg.kind with
    | strict => rfl
    | rlxd =>
      simp only [Proc.unseen, hkind, beq_self_eq_true, Bool.true_and] at hp ⊢
      exact hstep.starting htoken hp
  | loop hstep => exact hstep.starting htoken hp
  | wrapper hstep =>
    cases hkind : cfg.kind with
    | strict => rfl
    | rlxd =>
      simp only [Proc.unseen, beq_self_eq_true, Bool.true_and]
      exact hstep.leaving (hcounted hkind)
  | bystander _ hby' =>
    cases p' with
    | submit | loop | wrapper => exact hby'.elim
    | _ => rfl

omit [Semaphore σ] in
theorem Proc.Fresh.not_unseen {kind : PoolKind} {q : Proc R} (hq : q.Fresh) :
    q.unseen kind sh i = false := by
  cases hq with
  | submit => cases kind <;> rfl
  | bystander hby =>
    cases q with
    | submit | loop | wrapper => exact hby.elim
    | _ => rfl

theorem Proc.Step.started_not_unseen {kind : PoolKind} {p p' q : Proc R}
    (h : Proc.Step cfg pid sh p sh' p' (some q)) : q.unseen kind sh' i = false := by
  cases h with
  | submit hstep =>
    cases hstep
    cases kind <;> rfl
  | loop hstep =>
    cases hstep
    cases kind <;> rfl
  | bystander _ _ hstep => exact (Proc.Fresh.bystander (hstep.2 q rfl)).not_unseen

omit [Semaphore σ] in
theorem DispatcherLoop.starting_kept {kind : PoolKind} {d : DispatcherLoop}
    (hflag : ∀ t, d.pc.task = some t → sh.isCancelled t = true → sh'.isCancelled t = true)
    (hd : d.starting kind sh i = false) : d.starting kind sh' i = false := by
  unfold starting at hd ⊢
  split at hd
  · next t hpc =>
    rw [Bool.not_eq_false'] at hd ⊢
    exact hflag t (by simp [LoopPc.task, hpc]) hd
  · cases hd
  · exact hd
  · rfl

omit [Semaphore σ] in
/-- A cancelled task in the hand of a loop stays cancelled, so that a step of
another process never makes a process start. -/
theorem Proc.unseen_kept {kind : PoolKind} {q : Proc R} (hevolves : sh.Evolves sh')
    (hq : ∀ t, q.carries = some t → t < sh.nextTaskId)
    (hunseen : q.unseen kind sh i = false) : q.unseen kind sh' i = false := by
  cases q with
  | submit | wrapper => exact hunseen
  | loop d =>
    exact DispatcherLoop.starting_kept
      (fun t ht hflag => (hevolves.tasks t (hq t ht)).cancelled hflag) hunseen
  | _ => rfl

section Runs

variable {s s' : Pool σ R} {ok ok' : Pool σ R → PoolEvent R → Prop} {p p' : Proc R}

theorem inFlight_pos (hkind : cfg.kind = .rlxd)
    (hreach : (poolMachine σ R cfg).Reachable ok s) (hp : s.At pid p)
    (hcounted : p.countedIn = some i) : 0 < s.shared.inFlight i := by
  have hle := Threads.le_tally (g := Proc.inShard i) hp
  rw [inFlight_counted hkind hreach i] at hle
  refine lt_of_lt_of_le ?_ hle
  simp [Proc.inShard, hcounted]

/-- Nobody is counted into a shard that is empty. -/
theorem Quenched.uncounted (hs : Quenched cfg s i)
    (hreach : (poolMachine σ R cfg).Reachable ok s) (hp : s.At pid p)
    (hkind : cfg.kind = .rlxd) : p.countedIn ≠ some i := by
  intro hcounted
  have hpositive := inFlight_pos hkind hreach hp hcounted
  obtain ⟨r, hshard, hempty⟩ : ∃ r, s.shared.shards[i]? = some r ∧ r.len = 0 := by
    simpa [Shared.readLen, hkind] using hs.empty
  rw [Shared.inFlight_of_getElem? hshard] at hpositive
  exact hpositive.ne' hempty

theorem Quenched.update (hreach : (poolMachine σ R cfg).Reachable ok s) (hs : Quenched cfg s i)
    (hp : s.At pid p) (hstep : Proc.Step cfg pid s.shared p sh p' sp) :
    Quenched cfg (s.update pid sh p' sp) i := by
  have hevolves := Shared.Evolves.proc hstep
  refine ⟨hevolves.token hs.token, hstep.readLen (hs.procs pid p hp) hs.empty,
    fun qid q hq => ?_⟩
  rw [Threads.update_shared]
  rcases Threads.update_getElem? hp hq with ⟨rfl, rfl⟩ | ⟨_, hold⟩ | ⟨_, rfl⟩
  · exact hstep.unseen hs.token (hs.uncounted hreach hp) (hs.procs _ _ hp)
  · exact Proc.unseen_kept hevolves (fun t ht => lt_of_carries hreach hold ht)
      (hs.procs qid q hold)
  · exact hstep.started_not_unseen

theorem Quenched.spawn (hreach : (poolMachine σ R cfg).Reachable ok s) (hs : Quenched cfg s i)
    (hquiet : s.shared.Quiet sh) (hfresh : ∀ q, sp = some q → q.Fresh) :
    Quenched cfg (s.spawn sh sp) i := by
  refine ⟨hquiet.token hs.token,
    (Shared.readLen_eq hquiet.active hquiet.shards).trans hs.empty, fun qid q hq => ?_⟩
  rw [Threads.spawn_shared]
  rcases Threads.spawn_getElem? hq with hold | ⟨_, hnew⟩
  · exact Proc.unseen_kept (.quiet hquiet) (fun t ht => lt_of_carries hreach hold ht)
      (hs.procs qid q hold)
  · exact (hfresh q hnew).not_unseen

/-! ## Nothing runs in a drained pool -/

/-- Every shard of the registry is quenched. -/
def Drained (cfg : PoolConfig) (s : Pool σ R) : Prop :=
  ∀ i n, s.shared.readLen cfg i = some n → Quenched cfg s i

theorem Drained.update (hreach : (poolMachine σ R cfg).Reachable ok s) (hs : Drained cfg s)
    (hp : s.At pid p) (hstep : Proc.Step cfg pid s.shared p sh p' sp) :
    Drained cfg (s.update pid sh p' sp) := by
  intro i n hread
  obtain ⟨m, hm⟩ := (Shared.readLen_some_iff (Shared.Evolves.proc hstep).shards).mp ⟨n, hread⟩
  exact (hs i m hm).update hreach hp hstep

theorem Drained.spawn (hreach : (poolMachine σ R cfg).Reachable ok s) (hs : Drained cfg s)
    (hquiet : s.shared.Quiet sh) (hfresh : ∀ q, sp = some q → q.Fresh) :
    Drained cfg (s.spawn sh sp) := fun i n hread =>
  (hs i n ((Shared.readLen_eq hquiet.active hquiet.shards).symm.trans hread)).spawn hreach hquiet
    hfresh

/-- The process has put a task into the registry that has not left it: a slot of
the strict registry, a place in the counter of a relaxed shard. -/
def Proc.active (kind : PoolKind) (p : Proc R) : Option Nat :=
  match kind with
  | .strict => p.registered.map Prod.snd
  | .rlxd => p.countedIn

theorem Drained.idle (hreach : (poolMachine σ R cfg).Reachable ok s) (hs : Drained cfg s)
    (hp : s.At pid p) : p.active cfg.kind = none := by
  cases hactive : p.active cfg.kind with
  | none => rfl
  | some i =>
    exfalso
    cases hkind : cfg.kind with
    | strict =>
      have hread : s.shared.readLen cfg 0 = some s.shared.active.len := by
        simp [Shared.readLen, hkind]
      have hempty : s.shared.active.len = 0 :=
        Option.some.inj (hread.symm.trans (hs 0 _ hread).empty)
      rw [hkind] at hactive
      obtain ⟨⟨t, slot⟩, hreg, rfl⟩ := Option.map_eq_some_iff.mp hactive
      have hregistry := registry hreach
      have hholds := hregistry.listed pid p t slot hp hreg
      simp only [Shared.holds, hkind] at hholds
      rw [ActiveSlots.get_of_len_eq_zero hregistry.valid hempty] at hholds
      cases hholds
    | rlxd =>
      rw [hkind] at hactive
      have hpositive := inFlight_pos hkind hreach hp hactive
      cases hshard : s.shared.shards[i]? with
      | none => simp [Shared.inFlight, hshard] at hpositive
      | some r =>
        have hread : s.shared.readLen cfg i = some r.inFlight := by
          simp [Shared.readLen, hkind, hshard, DeferredRegistry.len]
        exact (hs i _ hread).uncounted hreach hp hkind hactive

end Runs

/-! ## A call that has looked at every shard -/

/-- The call has cancelled the token or has found it cancelled. -/
def ShutdownPc.signalled : ShutdownPc → Bool
  | .readToken | .cancel => false
  | _ => true

/-- The call has found shard `i` empty in its last pass over the registry. -/
def ShutdownCall.passed (i : Nat) (c : ShutdownCall) : Bool :=
  match c.pc with
  | .count shard 0 => i < shard
  | .takeHandles | .join _ | .closeSink | .takeNotifier | .awaitNotifier | .returned => true
  | .dropSelf _ => c.dropped.isNone
  | _ => false

/-- The shard that the next step of the call finds empty, as all before it. -/
def ShutdownCall.finds (cfg : PoolConfig) (sh : Shared σ R) (c : ShutdownCall) : Option Nat :=
  match c.pc with
  | .count shard 0 => if sh.readLen cfg shard = some 0 then some shard else none
  | _ => none

def Proc.finds (cfg : PoolConfig) (sh : Shared σ R) : Proc R → Option Nat
  | .shutdown c => c.finds cfg sh
  | _ => none

/-- The event is no timeout of call `pid`, nor a read of the active count by that
call which finds a shard empty and does not see a process in it. -/
def covers (cfg : PoolConfig) (pid : Nat) (s : Pool σ R) : PoolEvent R → Bool
  | .run b qid => qid != pid || (b != .timeout &&
      ((s.procs[qid]?).bind (Proc.finds cfg s.shared)).all fun i =>
        s.procs.all fun p => !p.unseen cfg.kind s.shared i)
  | .call _ => true

omit [Semaphore σ] in
theorem ShutdownStep.signalled {b : Signal} {c c' : ShutdownCall}
    (h : ShutdownStep cfg b sh c sh' c') (hc : c.pc.signalled = true → sh.token = true)
    (hc' : c'.pc.signalled = true) : sh'.token = true := by
  have hkept := (Bystanding.shutdown h).token
  cases h with
  | initiate => cases hc'
  | join _ htoken => exact htoken
  | cancel => rfl
  | abandon _ hpc =>
    refine hkept (hc ?_)
    rcases hpc with hpc | ⟨_, _, hpc⟩ | hpc <;> simp [ShutdownPc.signalled, hpc]
  | _ => exact hkept (hc (by simp [ShutdownPc.signalled, *]))

omit [Semaphore σ] in
/-- A shard joins those a call has found empty by a read that finds it so. -/
theorem ShutdownStep.passed {b : Signal} {c c' : ShutdownCall}
    (h : ShutdownStep cfg b sh c sh' c') (hb : b ≠ .timeout)
    (hread : sh.readLen cfg i = some n) (hc' : c'.passed i = true) :
    c.passed i = true ∨ c.finds cfg sh = some i := by
  cases h with
  | @count shard active m hpc hm =>
    cases hsum : active + m with
    | succ k => simp [ShutdownCall.passed, hsum] at hc'
    | zero =>
      obtain ⟨rfl, rfl⟩ : active = 0 ∧ m = 0 := by omega
      have hle : i < shard + 1 := by simpa [ShutdownCall.passed] using hc'
      rcases Nat.lt_succ_iff_lt_or_eq.mp hle with hlt | rfl
      · exact .inl (by simpa [ShutdownCall.passed, hpc] using hlt)
      · exact .inr (by simp [ShutdownCall.finds, hpc, hm])
  | @countZero shard hpc hnone =>
    refine .inl ?_
    have hlt : i < shard := by
      by_contra hle
      rw [Shared.readLen_none_of_le hnone (by omega)] at hread
      cases hread
    simpa [ShutdownCall.passed, hpc] using hlt
  | waitTimeout hb' | joinTimeout hb' | notifierTimeout hb' => exact absurd hb' hb
  | _ => simp_all [ShutdownCall.passed]

/-- What call `pid` has found empty stays quenched. -/
def Assured (cfg : PoolConfig) (pid : Nat) (s : Pool σ R) : Prop :=
  ∀ c i n, s.At pid (.shutdown c) → c.passed i = true →
    s.shared.readLen cfg i = some n → Quenched cfg s i

section Runs

variable {s s' : Pool σ R} {ok : Pool σ R → PoolEvent R → Prop} {p p' : Proc R}

theorem Pool.not_new_shutdown {c : ShutdownCall} :
    ¬ (poolMachine σ R cfg).init.At pid (.shutdown c) := by
  intro hc
  cases (Pool.init_loop hc).2

/-- A call that has signalled has left the token cancelled. -/
theorem token_of_signalled {c : ShutdownCall} (h : (poolMachine σ R cfg).Reachable ok s)
    (hc : s.At pid (.shutdown c)) (hsignalled : c.pc.signalled = true) :
    s.shared.token = true := by
  refine Pool.invariant (I := fun s => ∀ pid c, s.At pid (.shutdown c) →
    c.pc.signalled = true → s.shared.token = true) .refl ?_ ?_ h ?_ pid c hc hsignalled
  · intro s b pid p sh p' sp _ hs _ hp hrun qid d hd hsignalled
    have hkept := (Shared.Evolves.proc (Proc.step_of_run hrun)).token
    rcases Threads.update_getElem? hp hd with ⟨-, rfl⟩ | ⟨-, hold⟩ | ⟨-, hnew⟩
    · obtain ⟨c, rfl, hstep, -⟩ := Proc.shutdown_of_run hrun
      exact hstep.signalled (hs pid c hp) hsignalled
    · exact hkept (hs qid d hold hsignalled)
    · rcases Proc.started_of_run (hnew ▸ hrun) with ⟨w, heq⟩ | heq <;> cases heq
  · intro s call sh sp _ hs _ hcall qid d hd hsignalled
    rcases Threads.spawn_getElem? hd with hold | ⟨-, rfl⟩
    · exact (Call.enter_quiet hcall).1.token (hs qid d hold hsignalled)
    · simp [ShutdownPc.signalled, (Call.enter_shutdown hcall).1] at hsignalled
  · intro pid c hc
    exact absurd hc Pool.not_new_shutdown

omit [Semaphore σ] in
theorem Assured.of_kept (hs : Assured cfg pid s)
    (hat : ∀ c, s'.At pid (.shutdown c) → s.At pid (.shutdown c))
    (hlen : s'.shared.shards.length = s.shared.shards.length)
    (hquenched : ∀ i, Quenched cfg s i → Quenched cfg s' i) : Assured cfg pid s' := by
  intro c i n hc hpassed hread
  obtain ⟨m, hm⟩ := (Shared.readLen_some_iff hlen).mp ⟨n, hread⟩
  exact hquenched i (hs c i m (hat c hc) hpassed hm)

/-- The step of the call itself: what it newly relies on is covered. -/
theorem Assured.update_self {b : Signal} {c : ShutdownCall}
    (hreach : (poolMachine σ R cfg).Reachable ok s) (hs : Assured cfg pid s)
    (hcovers : covers cfg pid s (.run b pid) = true) (hp : s.At pid (.shutdown c))
    (hrun : Proc.run cfg b pid s.shared (.shutdown c) = some (sh, p', sp)) :
    Assured cfg pid (s.update pid sh p' sp) := by
  have hquenched {i : Nat} (hi : Quenched cfg s i) :=
    hi.update hreach hp (Proc.step_of_run hrun)
  simp only [covers, hp, bne_self_eq_false, Bool.false_or, Bool.and_eq_true, bne_iff_ne,
    Option.bind_some] at hcovers
  obtain ⟨hb, hcount⟩ := hcovers
  cases Proc.callStep_of_run (p := .shutdown c) True.intro hrun with
  | @shutdown _ _ c' hstep =>
    have hquiet := Bystanding.shutdown hstep
    intro d i n hd hpassed hread
    obtain rfl := Proc.shutdown.inj (Option.some.inj (hd.symm.trans (Threads.update_self hp)))
    have hread' : s.shared.readLen cfg i = some n :=
      (Shared.readLen_eq hquiet.active hquiet.shards).symm.trans hread
    rcases hstep.passed hb hread' hpassed with hold | hfinds
    · exact hquenched (hs c i n hp hold hread')
    -- the read that finds shard `i` empty, with no process unseen in it
    · simp only [Proc.finds, hfinds, Option.all_some, List.all_eq_true,
        Bool.not_eq_true'] at hcount
      have hpc : c.pc = .count i 0 ∧ s.shared.readLen cfg i = some 0 := by
        unfold ShutdownCall.finds at hfinds
        split at hfinds
        · next shard hpc =>
          split at hfinds
          · next hzero =>
            cases hfinds
            exact ⟨hpc, hzero⟩
          · cases hfinds
        · cases hfinds
      have htoken := token_of_signalled hreach hp (by simp [ShutdownPc.signalled, hpc.1])
      exact hquenched ⟨htoken, hpc.2, fun qid q hq => hcount q (List.mem_of_getElem? hq)⟩

theorem assured
    (h : (poolMachine σ R cfg).Reachable (fun s a => covers cfg pid s a = true) s) :
    Assured cfg pid s := by
  refine Pool.invariant .refl ?_ ?_ h ?_
  · intro s b qid p sh p' sp hreach hs hcovers hp hrun
    have hstep := Proc.step_of_run hrun
    have hkept (hat : ∀ c, (s.update qid sh p' sp).At pid (.shutdown c) →
        s.At pid (.shutdown c)) : Assured cfg pid (s.update qid sh p' sp) :=
      hs.of_kept hat (Shared.Evolves.proc hstep).shards fun i hi => hi.update hreach hp hstep
    by_cases hpid : qid = pid
    · subst hpid
      cases p with
      | shutdown c => exact hs.update_self hreach hcovers hp hrun
      | _ =>
        refine hkept fun c hc => ?_
        have hself := Option.some.inj (hc.symm.trans (Threads.update_self hp))
        subst hself
        cases Proc.step_of_run hrun with
        | bystander hby => cases Proc.callStep_of_run hby hrun
    · refine hkept fun c hc => ?_
      rcases Threads.update_getElem? hp hc with ⟨rfl, -⟩ | ⟨_, hold⟩ | ⟨_, rfl⟩
      · exact absurd rfl hpid
      · exact hold
      · rcases Proc.started_of_run hrun with ⟨w, h⟩ | h <;> cases h
  · intro s c sh sp hreach hs _ hcall
    obtain ⟨hquiet, hfresh⟩ := Call.enter_quiet hcall
    have hnew {d : ShutdownCall} (hd : (s.spawn sh sp).At pid (.shutdown d)) :
        s.At pid (.shutdown d) ∨ d.pc = .readToken := by
      rcases Threads.spawn_getElem? hd with hold | ⟨_, rfl⟩
      · exact .inl hold
      · exact .inr (Call.enter_shutdown hcall).1
    intro d i n hd hpassed hread
    rcases hnew hd with hold | hpc
    · have hread' := (Shared.readLen_eq hquiet.active hquiet.shards).symm.trans hread
      exact (hs d i n hold hpassed hread').spawn hreach hquiet hfresh
    · simp [ShutdownCall.passed, hpc] at hpassed
  · intro c i n hc
    exact absurd hc Pool.not_new_shutdown

/-- When the call returns, the pool is drained. -/
theorem drained_of_returned {c : ShutdownCall}
    (h : (poolMachine σ R cfg).Reachable (fun s a => covers cfg pid s a = true) s)
    (hc : s.At pid (.shutdown c)) (hpc : c.pc = .returned) : Drained cfg s := fun i n hread =>
  assured h c i n hc (by simp [ShutdownCall.passed, hpc]) hread

/-! ## After the call -/

theorem Drained.steps (hreach : (poolMachine σ R cfg).Reachable Machine.anyStep s)
    (h : (poolMachine σ R cfg).Steps ok s s') (hs : Drained cfg s) : Drained cfg s' :=
  Pool.induct hreach (fun hr hi _ hp hstep => hi.update hr hp hstep)
    (fun hr hi _ hquiet hfresh => hi.spawn hr hquiet hfresh) h hs

/-- A process spawns the wrapper of a task it has put into the registry. -/
theorem Proc.Step.spawner_active {w : Wrapper R}
    (h : Proc.Step cfg pid sh p sh' p' (some (.wrapper w))) : p.active cfg.kind = some w.slot := by
  cases h with
  | submit hstep =>
    cases hstep with
    | spawn hkind hpc => simp [Proc.active, hkind, Proc.countedIn, SubmitPc.countedIn, hpc]
  | loop hstep =>
    cases hstep with
    | spawn hpc =>
      cases hkind : cfg.kind with
      | strict => simp [Proc.active, Proc.registered, LoopPc.registered, hpc]
      | rlxd => simp [Proc.active, Proc.countedIn, DispatcherLoop.countedIn, hpc]
  | bystander _ _ hstep => exact (hstep.2 _ rfl).elim

/-- No task starts in a drained pool: every wrapper was there before. -/
theorem Drained.wrapper_old (hreach : (poolMachine σ R cfg).Reachable Machine.anyStep s)
    (hs : Drained cfg s) (h : (poolMachine σ R cfg).Steps ok s s') {w : Wrapper R}
    (hw : s'.At pid (.wrapper w)) : ∃ w₀, s.At pid (.wrapper w₀) ∧ w.task = w₀.task := by
  have hboth : Drained cfg s' ∧ ∀ pid w, s'.At pid (.wrapper w) →
      ∃ w₀, s.At pid (.wrapper w₀) ∧ w.task = w₀.task := by
    refine Pool.induct (I := fun u => Drained cfg u ∧ ∀ pid w, u.At pid (.wrapper w) →
      ∃ w₀, s.At pid (.wrapper w₀) ∧ w.task = w₀.task) hreach ?_ ?_ h
      ⟨hs, fun pid w hw => ⟨w, hw, rfl⟩⟩
    · rintro u b pid p sh p' sp hr ⟨hdrained, hold⟩ - hp hstep
      refine ⟨hdrained.update hr hp hstep, fun qid w hw => ?_⟩
      rcases Threads.update_getElem? hp hw with ⟨rfl, rfl⟩ | ⟨_, hw⟩ | ⟨_, rfl⟩
      · obtain ⟨w₁, rfl, htask⟩ := hstep.wrapper_kept
        obtain ⟨w₀, hw₀, htask₀⟩ := hold _ _ hp
        exact ⟨w₀, hw₀, htask.trans htask₀⟩
      · exact hold qid w hw
      · have hactive := hstep.spawner_active
        rw [hdrained.idle hr hp] at hactive
        cases hactive
    · rintro u c sh sp hr ⟨hdrained, hold⟩ - hquiet hfresh
      refine ⟨hdrained.spawn hr hquiet hfresh, fun qid w hw => ?_⟩
      rcases Threads.spawn_getElem? hw with hw | ⟨_, hnew⟩
      · exact hold qid w hw
      · cases hfresh _ hnew with
        | bystander hby => exact hby.elim
  exact hboth.2 pid w hw

/-- The program points of each pool's wrapper. -/
def WrapperPc.belongs : PoolKind → WrapperPc R → Bool
  | .strict, .finish | .strict, .release | .strict, .crashed false | .rlxd, .remove => false
  | _, _ => true

omit [Semaphore σ] in
theorem WrapperPc.ended_of_left {pc : WrapperPc R} (h : pc.left = true)
    (hbelongs : pc.belongs .strict = true) : pc = .ended := by
  cases pc with
  | crashed registered => cases registered <;> simp_all [left, belongs]
  | _ => simp_all [left, belongs]

omit [Semaphore σ] in
theorem Wrapper.out_of_countedIn {w : Wrapper R} (h : w.countedIn = none)
    (hbelongs : w.pc.belongs .rlxd = true) :
    w.pc = .release ∨ w.pc = .ended ∨ w.pc = .crashed false := by
  obtain ⟨_, _, _, pc⟩ := w
  cases pc with
  | crashed registered => cases registered <;> simp_all [countedIn]
  | _ => simp_all [countedIn, WrapperPc.belongs]

theorem WrapperStep.belongs {w w' : Wrapper R} (h : WrapperStep cfg sh w sh' w') :
    w'.pc.belongs cfg.kind = true := by
  cases h with
  | finish hkind | countOut hkind | releasePanic hkind | close hkind =>
    rw [hkind]
    rfl
  | _ => cases cfg.kind <;> rfl

/-- A wrapper on its way out has found the shard that it counts itself out of. -/
theorem WrapperStep.release_lt {w w' : Wrapper R} (h : WrapperStep cfg sh w sh' w')
    (hpc : w'.pc = .release) : w'.slot < sh.shards.length := by
  cases h with
  | countOut hkind _ hshard => exact (List.getElem?_eq_some_iff.mp hshard).1
  | _ => cases hpc

/-- The wrapper is at a program point of its pool, and leaves a shard of it. -/
def Wrapper.placed (cfg : PoolConfig) (sh : Shared σ R) (w : Wrapper R) : Prop :=
  w.pc.belongs cfg.kind = true ∧ (w.pc = .release → w.slot < sh.shards.length)

theorem wrapper_placed (h : (poolMachine σ R cfg).Reachable ok s) {w : Wrapper R}
    (hw : s.At pid (.wrapper w)) : w.placed cfg s.shared := by
  refine Pool.induct (I := fun u => ∀ pid w, u.At pid (.wrapper w) → w.placed cfg u.shared)
    .refl ?_ ?_ h ?_ pid w hw
  · intro u b pid p sh p' sp _ hold _ hp hstep qid w hw
    have hlen := (Shared.Evolves.proc hstep).shards
    rw [Threads.update_shared]
    rcases Threads.update_getElem? hp hw with ⟨rfl, rfl⟩ | ⟨_, hw⟩ | ⟨_, rfl⟩
    · cases hstep with
      | wrapper hstep => exact ⟨hstep.belongs, fun hpc => hlen ▸ hstep.release_lt hpc⟩
      | bystander _ hby' => exact hby'.elim
    · exact ⟨(hold qid w hw).1, fun hpc => hlen ▸ (hold qid w hw).2 hpc⟩
    · refine ⟨?_, by simp [hstep.spawned.2]⟩
      rw [hstep.spawned.2]
      cases cfg.kind <;> rfl
  · intro u c sh sp _ hold _ hquiet hfresh qid w hw
    rw [Threads.spawn_shared]
    rcases Threads.spawn_getElem? hw with hw | ⟨_, hnew⟩
    · exact ⟨(hold qid w hw).1, fun hpc => hquiet.shards ▸ (hold qid w hw).2 hpc⟩
    · cases hfresh _ hnew with
      | bystander hby => exact hby.elim
  · intro pid w hw
    cases (Pool.init_loop hw).2

/-- In a drained relaxed pool every wrapper has dropped its future and its permit. -/
theorem Drained.over (hreach : (poolMachine σ R cfg).Reachable ok s) (hs : Drained cfg s)
    (hkind : cfg.kind = .rlxd) {w : Wrapper R} (hw : s.At pid (.wrapper w)) :
    w.pc = .ended ∨ w.pc = .crashed false := by
  have hidle := hs.idle hreach hw
  obtain ⟨hbelongs, hlt⟩ := wrapper_placed hreach hw
  rw [hkind] at hidle hbelongs
  rcases Wrapper.out_of_countedIn hidle hbelongs with hpc | hover
  · have hslot := hlt hpc
    have hread : s.shared.readLen cfg w.slot = some s.shared.shards[w.slot].len := by
      simp [Shared.readLen, hkind, List.getElem?_eq_getElem hslot]
    have hunseen := (hs _ _ hread).procs pid _ hw
    simp [Proc.unseen, hkind, Wrapper.leaving, hpc] at hunseen
  · exact hover

/-! ## The law of the strict pool -/

/-- Once a `shutdown` call of a strict pool has returned, every task that was ever
spawned has ended, the active registry is empty, and no task starts any more: in
every run in which no timeout of that call fires and in which, at every read of
the active count by it that finds zero, the dispatcher has no task in hand that is
past its last look at the token. -/
theorem graceful_shutdown_leaves_nothing_running (σ R : Type) [Semaphore σ]
    (concurrencyLimit queueCapacity : Nat) (poolName : String) (pid : Nat) (c : ShutdownCall)
    (s s' : Pool σ R)
    (h : (poolMachine σ R (.manager concurrencyLimit queueCapacity poolName)).Reachable
      (fun s a => covers (.manager concurrencyLimit queueCapacity poolName) pid s a = true) s)
    (hc : s.At pid (.shutdown c)) (hpc : c.pc = .returned)
    (hsteps : (poolMachine σ R (.manager concurrencyLimit queueCapacity poolName)).Steps
      Machine.anyStep s s') :
    (∀ qid w, s'.At qid (.wrapper w) → w.pc = .ended ∧ ∃ w₀, s.At qid (.wrapper w₀)) ∧
      s'.shared.active.allTokens = [] := by
  have hdrained := drained_of_returned h hc hpc
  have hdrained' := hdrained.steps h.any hsteps
  have hreach' := h.any.trans hsteps
  refine ⟨fun qid w hw => ⟨?_, ?_⟩, ?_⟩
  · have hidle := hdrained'.idle hreach' hw
    simp only [PoolConfig.manager, Proc.active, Proc.registered, Option.map_eq_none_iff] at hidle
    split at hidle
    · next hleft => exact WrapperPc.ended_of_left hleft (wrapper_placed hreach' hw).1
    · cases hidle
  · obtain ⟨w₀, hw₀, -⟩ := hdrained.wrapper_old h.any hsteps hw
    exact ⟨w₀, hw₀⟩
  · have hvalid := (registry hreach').valid
    have hread : s'.shared.readLen (.manager concurrencyLimit queueCapacity poolName) 0 =
        some s'.shared.active.len := rfl
    have hempty : s'.shared.active.len = 0 :=
      Option.some.inj (hread.symm.trans (hdrained' 0 _ hread).empty)
    rw [ActiveSlots.len_eq hvalid] at hempty
    exact List.eq_nil_of_length_eq_zero hempty

end Runs

/-- A task runs when the shutdown begins, and the call waits for it. -/
def shutAfterRunning : Pool FairSemaphore Nat :=
  let M := poolMachine FairSemaphore Nat (.manager 1 1 "pool")
  M.after (covers (.manager 1 1 "pool") 3)
    (.call (.submit 0 ∅ (.ready 7)) :: stepping [1, 1, 1, 1, 1, 1, 1, 1] ++
      stepping [0, 0, 0, 0, 0, 0, 0, 0, 0] ++ .call (.shutdown 0 .graceful) ::
      stepping [3, 3, 3, 3, 3, 3] ++ stepping [2, 2, 2, 2, 2, 2] ++ stepping [3, 3, 3] ++
      stepping [0, 0, 0] ++ stepping [3, 3, 3, 3, 3, 3, 3, 3]) M.init

theorem graceful_shutdown_leaves_nothing_running_waited :
    shutAfterRunning.procs.length = 4 ∧ shutAfterRunning.shared.active.slots = [none] ∧
      shutAfterRunning.shared.active.allTokens = [] :=
  ⟨by decide, by decide, (graceful_shutdown_leaves_nothing_running FairSemaphore Nat 1 1 "pool" 3
    ⟨0, .graceful, false, true, none, .returned⟩ shutAfterRunning shutAfterRunning
    (Machine.steps_after _ _ _ _) rfl rfl .refl).2⟩

/-- The dispatcher has tested the token with a task in its hand when the shutdown
begins, and puts it into the registry after the active count was read. -/
def shutBeforeInsert : Pool FairSemaphore Nat :=
  let M := poolMachine FairSemaphore Nat (.manager 1 1 "pool")
  M.after untimed
    (.call (.submit 0 ∅ .never) :: stepping [1, 1, 1, 1, 1, 1, 1, 1] ++
      stepping [0, 0, 0, 0, 0] ++ .call (.shutdown 0 .graceful) ::
      stepping [2, 2, 2, 2, 2, 2] ++ stepping [0, 0, 0, 0, 0, 0, 0] ++
      stepping [2, 2, 2, 2, 2, 2, 2, 2]) M.init

/-- The call returns while the task runs. -/
theorem shutdown_returns_while_task_runs :
    (poolMachine FairSemaphore Nat (.manager 1 1 "pool")).Reachable
        (fun s a => untimed s a = true) shutBeforeInsert ∧
      shutBeforeInsert.procs[2]? =
        some (.shutdown ⟨0, .graceful, false, true, none, .returned⟩) ∧
      shutBeforeInsert.tally Proc.running = 1 ∧
      shutBeforeInsert.shared.active.allTokens = [0] :=
  ⟨Machine.steps_after _ _ _ _, rfl, by decide, by decide⟩

/-! ## The law of the relaxed pool -/

section Runs

variable {s s' : Pool σ R} {ok : Pool σ R → PoolEvent R → Prop} {p p' : Proc R}

/-- Once a `shutdown` call of a relaxed pool has returned, every task that was ever
spawned has ended, its future and its permit dropped, every in-flight counter is zero,
and neither a dispatcher nor a `submit` call on another handle starts a task any more:
in every run in which no timeout of that call fires and in which, at every read by it
that finds a shard empty, no dispatcher and no `submit` call past its test of the token
may yet count a task into that shard, and no wrapper that has counted itself out of it
still holds its future. -/
theorem rlxd_shutdown_is_final (σ R : Type) [Semaphore σ]
    (concurrencyLimit queueCapacity dispatchers : Nat) (poolName : String) (pid : Nat)
    (c : ShutdownCall) (s s' : Pool σ R)
    (h : (poolMachine σ R (.rlxd concurrencyLimit queueCapacity dispatchers poolName)).Reachable
      (fun s a =>
        covers (.rlxd concurrencyLimit queueCapacity dispatchers poolName) pid s a = true) s)
    (hc : s.At pid (.shutdown c)) (hpc : c.pc = .returned)
    (hsteps : (poolMachine σ R (.rlxd concurrencyLimit queueCapacity dispatchers poolName)).Steps
      Machine.anyStep s s') :
    (∀ qid w, s'.At qid (.wrapper w) →
      (w.pc = .ended ∨ w.pc = .crashed false) ∧ ∃ w₀, s.At qid (.wrapper w₀)) ∧
      ∀ i, s'.shared.inFlight i = 0 := by
  have hdrained := drained_of_returned h hc hpc
  have hdrained' := hdrained.steps h.any hsteps
  have hreach' := h.any.trans hsteps
  refine ⟨fun qid w hw => ⟨?_, ?_⟩, fun i => ?_⟩
  · exact hdrained'.over hreach' rfl hw
  · obtain ⟨w₀, hw₀, -⟩ := hdrained.wrapper_old h.any hsteps hw
    exact ⟨w₀, hw₀⟩
  · cases hshard : s'.shared.shards[i]? with
    | none => simp [Shared.inFlight, hshard]
    | some r =>
      have hread : s'.shared.readLen (.rlxd concurrencyLimit queueCapacity dispatchers poolName) i =
          some r.inFlight := by
        simp [Shared.readLen, PoolConfig.rlxd, hshard, DeferredRegistry.len]
      rw [Shared.inFlight_of_getElem? hshard]
      exact Option.some.inj (hread.symm.trans (hdrained' i _ hread).empty)

end Runs

/-- A directly dispatched task runs when the shutdown begins. -/
def rlxdShutAfterRunning : Pool FairSemaphore Nat :=
  let M := poolMachine FairSemaphore Nat (.rlxd 1 1 2 "pool")
  M.after (covers (.rlxd 1 1 2 "pool") 4)
    (.call (.submit 0 ∅ (.ready 7)) :: stepping (List.replicate 12 2) ++
      .call (.shutdown 0 .graceful) :: stepping [4, 4, 4, 4, 4, 4, 4] ++
      stepping [3, 3, 3, 3, 3, 3, 3] ++ stepping [4, 4, 4, 4] ++ stepping [0, 0, 0, 1, 1, 1] ++
      stepping [4, 4, 4, 4, 4, 4, 4, 4, 4]) M.init

theorem rlxd_shutdown_is_final_waited :
    (rlxdShutAfterRunning.shared.tasks 0).sender = .used (.ok 7) ∧
      rlxdShutAfterRunning.procs[3]? = some (.wrapper ⟨0, 0, false, .ended⟩) ∧
      (∀ qid w, rlxdShutAfterRunning.At qid (.wrapper w) →
        w.pc = .ended ∨ w.pc = .crashed false) ∧
      rlxdShutAfterRunning.shared.inFlight 0 = 0 := by
  obtain ⟨hover, hempty⟩ := rlxd_shutdown_is_final FairSemaphore Nat 1 1 2 "pool" 4
    ⟨0, .graceful, false, true, none, .returned⟩ rlxdShutAfterRunning rlxdShutAfterRunning
    (Machine.steps_after _ _ _ _) rfl rfl .refl
  exact ⟨rfl, rfl, fun qid w hw => (hover qid w hw).1, hempty 0⟩

/-- A `submit` call on another handle has tested the token and the queue when the
shutdown begins. -/
def rlxdShutBeforeDispatch : Pool FairSemaphore Nat :=
  let M := poolMachine FairSemaphore Nat (.rlxd 1 1 2 "pool")
  M.after untimed
    (.call (.clone 0) :: .call (.submit 0 ∅ .never) :: stepping [2, 2] ++
      .call (.shutdown 1 .graceful) :: stepping [3, 3, 3, 3, 3, 3, 3] ++
      stepping [0, 0, 0, 1, 1, 1] ++ stepping [3, 3, 3, 3, 3, 3, 3, 3]) M.init

/-- It goes on after the shutdown has returned. -/
def rlxdDispatchedAfter : Pool FairSemaphore Nat :=
  (poolMachine FairSemaphore Nat (.rlxd 1 1 2 "pool")).after untimed
    (stepping (List.replicate 10 2)) rlxdShutBeforeDispatch

/-- The call dispatches its task directly in a pool that was shut down. -/
theorem submit_dispatches_after_shutdown :
    (poolMachine FairSemaphore Nat (.rlxd 1 1 2 "pool")).Reachable
        (fun s a => untimed s a = true) rlxdShutBeforeDispatch ∧
      rlxdShutBeforeDispatch.procs[3]? =
        some (.shutdown ⟨1, .graceful, false, true, none, .returned⟩) ∧
      rlxdShutBeforeDispatch.tally Proc.running = 0 ∧
      (poolMachine FairSemaphore Nat (.rlxd 1 1 2 "pool")).Steps
        (fun s a => untimed s a = true) rlxdShutBeforeDispatch rlxdDispatchedAfter ∧
      rlxdDispatchedAfter.tally Proc.running = 1 ∧
      rlxdDispatchedAfter.shared.inFlight 0 = 1 :=
  ⟨Machine.steps_after _ _ _ _, rfl, by decide, Machine.steps_after _ _ _ _, by decide,
    by decide⟩

end FuturesOrchestra
