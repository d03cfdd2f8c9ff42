import FuturesOrchestra.Proofs.Evolution

/-!
# The last handle out

Every manager handle that is alive, and every call that has consumed one and not
yet released it, owns one strong reference of the shutdown guard and, until it
closes it, one sender of the queue. The `Drop` of a handle reads the strong count
before it gives its own reference up, so that handles that go at the same time can
each take another one for the last.
-/

namespace FuturesOrchestra

open Interleaving

variable {σ R : Type} {cfg : PoolConfig} {pid : Nat} {sh sh' : Shared σ R}
  {sp : Option (Proc R)}

/-! ## References -/

/-- How many manager handles are alive. -/
def Shared.handles (sh : Shared σ R) : Nat := (sh.clones.map (·.alive.toNat)).sum

/-- The reference of the shutdown guard that the process holds. -/
def Proc.guards : Proc R → Nat
  | .shutdown c =>
    match c.pc with
    | .dropSelf .done | .returned | .abandoned => 0
    | _ => 1
  | .drop c => if c.pc = .done then 0 else 1
  | _ => 0

/-- The sender of the queue that the process holds. -/
def Proc.queueSenders : Proc R → Nat
  | .shutdown c => (!c.closed).toNat
  | .drop c => (!c.closed).toNat
  | _ => 0

/-- A call that has not come to the close of its queue handle has not closed it. -/
def Proc.unclosed : Proc R → Prop
  | .shutdown c =>
    match c.pc with
    | .readToken | .cancel | .close => c.closed = false
    | _ => True
  | _ => True

/-- A change of one handle that keeps it alive or gone keeps their number. -/
theorem sum_alive_modify (clones : List ManagerHandle) (c : Nat)
    {f : ManagerHandle → ManagerHandle} (hf : ∀ handle, (f handle).alive = handle.alive) :
    ((clones.modify c f).map (·.alive.toNat)).sum = (clones.map (·.alive.toNat)).sum := by
  congr 1
  refine List.ext_getElem? fun i => ?_
  simp only [List.getElem?_map, List.getElem?_modify]
  cases clones[i]? with
  | none => rfl
  | some handle => by_cases hi : c = i <;> simp [hi, hf]

theorem Shared.handles_unborrow (c : Nat) : (sh.unborrow c).handles = sh.handles :=
  sum_alive_modify sh.clones c fun _ => rfl

theorem Shared.handles_borrow (c : Nat) : (sh.borrow c).handles = sh.handles :=
  sum_alive_modify sh.clones c fun _ => rfl

theorem Shared.handles_consume {c : Nat} (h : sh.unborrowed c = true) :
    (sh.consume c).handles + 1 = sh.handles := by
  unfold unborrowed at h
  cases hc : sh.clones[c]? with
  | none => simp [hc] at h
  | some handle =>
    have halive : handle.alive = true := by
      simp only [hc, Option.any_some, Bool.and_eq_true] at h
      exact h.1
    have hlt : c < sh.clones.length := (List.getElem?_eq_some_iff.mp hc).1
    have hset : (sh.consume c).clones = sh.clones.set c { handle with alive := false } := by
      refine List.ext_getElem? fun i => ?_
      simp only [consume, List.getElem?_modify, List.getElem?_set]
      by_cases hi : c = i
      · subst hi
        rw [hc]
        simp [hlt]
      · simp [hi]
    have hsum := Threads.sum_map_set { handle with alive := false }
      (fun handle : ManagerHandle => handle.alive.toNat) hc
    unfold handles
    rw [hset]
    simp only [halive, Bool.toNat_true, Bool.toNat_false] at hsum
    omega

theorem Shared.handles_pos {c : Nat} (h : sh.usable c = true) : 0 < sh.handles := by
  unfold usable at h
  cases hc : sh.clones[c]? with
  | none => simp [hc] at h
  | some handle =>
    have halive : handle.alive = true := by simpa [hc] using h
    have hle : handle.alive.toNat ≤ sh.handles :=
      List.le_sum_of_mem (List.mem_map_of_mem (List.mem_of_getElem? hc))
    rw [halive] at hle
    exact hle

theorem Shared.usable_of_unborrowed {c : Nat} (h : sh.unborrowed c = true) :
    sh.usable c = true := by
  unfold unborrowed at h
  unfold usable
  cases hc : sh.clones[c]? with
  | none => simp [hc] at h
  | some handle =>
    simp only [hc, Option.any_some, Bool.and_eq_true] at h ⊢
    exact h.1

/-- A step keeps the handles, the guard count and the senders of the queue. -/
structure Shared.KeepsHandles (sh sh' : Shared σ R) : Prop where
  handles : sh'.handles = sh.handles
  guards : sh'.guards = sh.guards
  queueSenders : sh'.queueSenders = sh.queueSenders

theorem DropStep.handles {closed closed' : Bool} {pc pc' : DropPc}
    (h : DropStep sh closed pc sh' closed' pc') (hguards : sh.handles + 1 ≤ sh.guards)
    (hsenders : sh.handles + (!closed).toNat ≤ sh.queueSenders) :
    sh'.handles = sh.handles ∧
      sh'.guards + 1 = sh.guards + (if pc' = .done then 0 else 1) ∧
      sh'.queueSenders + (!closed).toNat = sh.queueSenders + (!closed').toNat := by
  cases h with
  | close | release | releaseLast =>
    cases closed <;> simp [Shared.closeQueue, Shared.handles] at * <;> omega
  | _ => simp [Shared.handles]

theorem ShutdownStep.handles {b : Signal} {c c' : ShutdownCall}
    (h : ShutdownStep cfg b sh c sh' c') (hc : (Proc.shutdown c : Proc R).unclosed)
    (hguards : sh.handles + (Proc.shutdown c : Proc R).guards ≤ sh.guards)
    (hsenders : sh.handles + (Proc.shutdown c : Proc R).queueSenders ≤ sh.queueSenders) :
    sh'.handles = sh.handles ∧
      sh'.guards + (Proc.shutdown c : Proc R).guards =
        sh.guards + (Proc.shutdown c' : Proc R).guards ∧
      sh'.queueSenders + (Proc.shutdown c : Proc R).queueSenders =
        sh.queueSenders + (Proc.shutdown c' : Proc R).queueSenders ∧
      (Proc.shutdown c' : Proc R).unclosed := by
  cases h with
  | @dropSelf pc _ closed pc' hpc hdrop =>
    have hg : (Proc.shutdown c : Proc R).guards = 1 := by
      cases hdrop <;> simp [Proc.guards, hpc]
    have hg' : (Proc.shutdown { c with closed := closed, pc := .dropSelf pc' } : Proc R).guards =
        if pc' = .done then 0 else 1 := by
      cases pc' <;> simp [Proc.guards]
    obtain ⟨h₁, h₂, h₃⟩ := hdrop.handles (by omega) hsenders
    exact ⟨h₁, by omega, h₃, True.intro⟩
  | closeGraceful hpc | closeForceful hpc =>
    have hopen : c.closed = false := by simpa [Proc.unclosed, hpc] using hc
    simp only [Proc.queueSenders, hopen, Bool.not_false, Bool.toNat_true] at hsenders
    refine ⟨rfl, by simp [Proc.guards, Shared.closeQueue, hpc], ?_, True.intro⟩
    simp only [Shared.closeQueue, Bool.false_eq_true, if_false, Proc.queueSenders, hopen,
      Bool.not_false, Bool.not_true, Bool.toNat_true, Bool.toNat_false]
    omega
  | initiate hpc | cancel hpc =>
    have hopen : c.closed = false := by simpa [Proc.unclosed, hpc] using hc
    exact ⟨rfl, by simp [Proc.guards, hpc], rfl, hopen⟩
  | abandon _ hpc =>
    refine ⟨rfl, ?_, rfl, True.intro⟩
    rcases hpc with hpc | ⟨_, _, hpc⟩ | hpc <;> simp [Proc.guards, hpc]
  | _ =>
    refine ⟨rfl, ?_, rfl, True.intro⟩
    simp [Proc.guards, *]

/-- A process that runs, in the balance of references. -/
structure Balanced (sh sh' : Shared σ R) (p p' : Proc R) : Prop where
  handles : sh'.handles = sh.handles
  guards : sh'.guards + p.guards = sh.guards + p'.guards
  queueSenders : sh'.queueSenders + p.queueSenders = sh.queueSenders + p'.queueSenders
  unclosed : p'.unclosed

theorem Balanced.of_keeps {p p' : Proc R} (h : sh.KeepsHandles sh') (hguards : p'.guards = p.guards)
    (hsenders : p'.queueSenders = p.queueSenders) (hunclosed : p'.unclosed) :
    Balanced sh sh' p p' :=
  ⟨h.handles, by rw [h.guards, hguards], by rw [h.queueSenders, hsenders], hunclosed⟩

theorem Proc.CallStep.balanced {b : Signal} {p p' : Proc R}
    (h : Proc.CallStep cfg b pid sh p sh' p' sp) (hp : p.unclosed)
    (hguards : sh.handles + p.guards ≤ sh.guards)
    (hsenders : sh.handles + p.queueSenders ≤ sh.queueSenders) : Balanced sh sh' p p' := by
  cases h with
  | shutdown hstep =>
    obtain ⟨h₁, h₂, h₃, h₄⟩ := hstep.handles hp hguards hsenders
    exact ⟨h₁, h₂, h₃, h₄⟩
  | @drop c pc sh' closed pc' hpc hstep =>
    have hg : (Proc.drop c : Proc R).guards = 1 := by
      cases hstep <;> simp [Proc.guards, hpc]
    obtain ⟨h₁, h₂, h₃⟩ := hstep.handles (by omega) hsenders
    refine ⟨h₁, ?_, h₃, True.intro⟩
    simp only [hg]
    exact h₂
  | labelCancel hstep =>
    refine .of_keeps ?_ rfl rfl True.intro
    cases hstep <;> exact ⟨by first | rfl | exact Shared.handles_unborrow _, rfl, rfl⟩
  | addHandler hstep =>
    refine .of_keeps ?_ rfl rfl True.intro
    cases hstep <;> exact ⟨by first | rfl | exact Shared.handles_unborrow _, rfl, rfl⟩
  | notifier hstep =>
    refine .of_keeps ?_ rfl rfl True.intro
    cases hstep <;> exact ⟨rfl, rfl, rfl⟩

variable [Semaphore σ]

theorem SubmitStep.keepsHandles {kind : PoolKind} {c c' : SubmitCall R}
    (h : SubmitStep kind pid sh c sh' c' sp) : sh.KeepsHandles sh' := by
  cases h <;> exact ⟨by first | rfl | exact Shared.handles_unborrow _, rfl, rfl⟩

theorem LoopStep.keepsHandles {d d' : DispatcherLoop} (h : LoopStep cfg pid sh d sh' d' sp) :
    sh.KeepsHandles sh' := by
  cases h <;> exact ⟨rfl, rfl, rfl⟩

theorem WrapperStep.keepsHandles {w w' : Wrapper R} (h : WrapperStep cfg sh w sh' w') :
    sh.KeepsHandles sh' := by
  cases h <;> exact ⟨rfl, rfl, rfl⟩

theorem Proc.balanced_of_run {b : Signal} {p p' : Proc R}
    (h : Proc.run cfg b pid sh p = some (sh', p', sp)) (hp : p.unclosed)
    (hguards : sh.handles + p.guards ≤ sh.guards)
    (hsenders : sh.handles + p.queueSenders ≤ sh.queueSenders) : Balanced sh sh' p p' := by
  rcases Proc.split_of_run h with ⟨c, c', rfl, rfl, hstep⟩ | ⟨d, d', rfl, rfl, hstep⟩ |
    ⟨w, w', rfl, rfl, hstep, -⟩ | hstep
  · exact .of_keeps hstep.keepsHandles rfl rfl True.intro
  · exact .of_keeps hstep.keepsHandles rfl rfl True.intro
  · exact .of_keeps hstep.keepsHandles rfl rfl True.intro
  · exact hstep.balanced hp hguards hsenders

/-- No step of a process takes a reference of the guard. -/
theorem Proc.sharedGuards_le {b : Signal} {p p' : Proc R}
    (h : Proc.run cfg b pid sh p = some (sh', p', sp)) : sh'.guards ≤ sh.guards := by
  rcases Proc.split_of_run h with ⟨c, c', rfl, rfl, hstep⟩ | ⟨d, d', rfl, rfl, hstep⟩ |
    ⟨w, w', rfl, rfl, hstep, -⟩ | hstep
  · exact hstep.keepsHandles.guards.le
  · exact hstep.keepsHandles.guards.le
  · exact hstep.keepsHandles.guards.le
  · have hdrop {closed closed' : Bool} {pc pc' : DropPc}
        (hstep : DropStep sh closed pc sh' closed' pc') : sh'.guards ≤ sh.guards := by
      cases hstep <;> simp [Shared.closeQueue]
    cases hstep with
    | shutdown hstep =>
      cases hstep with
      | dropSelf _ hstep => exact hdrop hstep
      | _ => exact le_rfl
    | drop _ hstep => exact hdrop hstep
    | labelCancel hstep | addHandler hstep | notifier hstep => cases hstep <;> exact le_rfl

/-- Every reference has an owner. -/
structure References (s : Pool σ R) : Prop where
  guards : s.shared.handles + s.tally Proc.guards = s.shared.guards
  queueSenders : s.shared.handles + s.tally Proc.queueSenders = s.shared.queueSenders
  unclosed : ∀ pid p, s.At pid p → p.unclosed

/-- The books let every process balance its own step. -/
theorem References.balanced {s : Pool σ R} {b : Signal} {p p' : Proc R} (hs : References s)
    (hp : s.At pid p) (hrun : Proc.run cfg b pid s.shared p = some (sh, p', sp)) :
    Balanced s.shared sh p p' := by
  have hg := Threads.le_tally (g := Proc.guards) hp
  have hq := Threads.le_tally (g := Proc.queueSenders) hp
  have hguards := hs.guards
  have hsenders := hs.queueSenders
  exact Proc.balanced_of_run hrun (hs.unclosed pid p hp) (by omega) (by omega)

omit [Semaphore σ] in
/-- A call moves the references of a handle to the process it starts. -/
theorem Call.references_of_enter {c : Call R} (h : c.enter sh = some (sh', sp)) :
    sh'.handles + Threads.started Proc.guards sp + sh.guards = sh.handles + sh'.guards ∧
      sh'.handles + Threads.started Proc.queueSenders sp + sh.queueSenders =
        sh.handles + sh'.queueSenders ∧ ∀ q, sp = some q → q.unclosed := by
  revert h
  fun_cases Call.enter sh c
  all_goals rintro ⟨⟩
  case case1 =>
    have hnew : (sh.clones ++ [⟨true, 0⟩] : List ManagerHandle).map (·.alive.toNat) =
        sh.clones.map (·.alive.toNat) ++ [1] := by simp
    refine ⟨?_, ?_, by rintro q ⟨⟩⟩ <;>
      simp only [Shared.handles, hnew, List.sum_append, List.sum_singleton,
        Threads.started_none] <;> omega
  case case3 | case9 | case11 =>
    refine ⟨?_, ?_, ?_⟩
    · rw [Shared.handles_borrow]
      rfl
    · rw [Shared.handles_borrow]
      rfl
    · rintro q ⟨⟩
      exact True.intro
  case case5 | case7 => exact ⟨rfl, rfl, by rintro q ⟨⟩⟩
  case case13 hunborrowed | case15 hunborrowed =>
    have hconsume := Shared.handles_consume hunborrowed
    refine ⟨?_, ?_, ?_⟩
    · simp only [Threads.started_some, Proc.guards, Shared.consume] at hconsume ⊢
      simp
      omega
    · simp only [Threads.started_some, Proc.queueSenders, Shared.consume] at hconsume ⊢
      simp
      omega
    · rintro q ⟨⟩
      first | rfl | exact True.intro

theorem references {ok : Pool σ R → PoolEvent R → Prop} {s : Pool σ R}
    (h : (poolMachine σ R cfg).Reachable ok s) : References s := by
  refine Pool.invariant (I := References) .refl ?_ ?_ h ?_
  · intro s b pid p sh p' sp _ hs _ hp hrun
    have hbalanced := hs.balanced hp hrun
    have hnew : Threads.started Proc.guards sp = 0 ∧ Threads.started Proc.queueSenders sp = 0 ∧
        ∀ q, sp = some q → q.unclosed := by
      cases sp with
      | none => exact ⟨rfl, rfl, by rintro q ⟨⟩⟩
      | some q =>
        rcases Proc.started_of_run hrun with ⟨w, rfl⟩ | rfl
        all_goals
          refine ⟨rfl, rfl, ?_⟩
          rintro q ⟨⟩
          exact True.intro
    have htg := Threads.tally_update Proc.guards sh p' sp hp
    have htq := Threads.tally_update Proc.queueSenders sh p' sp hp
    have hguards := hs.guards
    have hsenders := hs.queueSenders
    have hh := hbalanced.handles
    have hbg := hbalanced.guards
    have hbq := hbalanced.queueSenders
    refine ⟨?_, ?_, fun qid q hqid => ?_⟩
    · rw [Threads.update_shared]
      omega
    · rw [Threads.update_shared]
      omega
    · rcases Threads.update_getElem? hp hqid with ⟨rfl, rfl⟩ | ⟨_, hold⟩ | ⟨_, rfl⟩
      · exact hbalanced.unclosed
      · exact hs.unclosed qid q hold
      · exact hnew.2.2 q rfl
  · intro s c sh sp _ hs _ hcall
    obtain ⟨hg, hq, hunclosed⟩ := Call.references_of_enter hcall
    have hguards := hs.guards
    have hsenders := hs.queueSenders
    have htg := Threads.tally_spawn Proc.guards s sh sp
    have htq := Threads.tally_spawn Proc.queueSenders s sh sp
    refine ⟨?_, ?_, fun qid q hqid => ?_⟩
    · rw [Threads.spawn_shared]
      omega
    · rw [Threads.spawn_shared]
      omega
    · rcases Threads.spawn_getElem? hqid with hold | ⟨_, rfl⟩
      · exact hs.unclosed qid q hold
      · exact hunclosed q rfl
  · refine ⟨?_, ?_, fun pid p hp => ?_⟩
    · show (Shared.new cfg : Shared σ R).handles + (Pool.new σ R cfg).tally Proc.guards = 1
      rw [Pool.tally_new (g := Proc.guards) fun _ => rfl]
      rfl
    · show (Shared.new cfg : Shared σ R).handles + (Pool.new σ R cfg).tally Proc.queueSenders = 1
      rw [Pool.tally_new (g := Proc.queueSenders) fun _ => rfl]
      rfl
    · obtain ⟨-, rfl⟩ := Pool.init_loop hp
      exact True.intro

/-! ## The last-one-out test -/

/-- The drop has found itself the last one out and goes on to signal that. -/
def DropPc.committed : DropPc → Bool
  | .token | .cancel | .close | .closeSink => true
  | _ => false

def Proc.committed : Proc R → Bool
  | .drop c => c.pc.committed
  | _ => false

/-- The drop has not read the strong count yet. -/
def Proc.counting : Proc R → Bool
  | .drop c => c.pc == .count
  | _ => false

def Proc.isShutdown : Proc R → Bool
  | .shutdown _ => true
  | _ => false

/-- Nobody calls `shutdown`. -/
def unshut (_ : Pool σ R) : PoolEvent R → Bool
  | .call (.shutdown ..) => false
  | _ => true

/-- Nobody calls `shutdown`, and a drop that takes another handle for the last one
is right: some handle is alive, or another drop has yet to read the count. -/
def orderly (s : Pool σ R) : PoolEvent R → Bool
  | .run _ pid =>
    !((s.procs[pid]?).any Proc.counting && decide (1 < s.shared.guards)) ||
      decide (0 < s.shared.handles) || (s.procs.eraseIdx pid).any Proc.counting
  | .call (.shutdown ..) => false
  | .call _ => true

/-- While a handle is alive, no drop has signalled anything. -/
structure LastOut (s : Pool σ R) : Prop where
  unshut : ∀ pid p, s.At pid p → p.isShutdown = false
  alone : (s.shared.token = true ∨ ∃ pid p, s.At pid p ∧ p.committed = true) →
    s.shared.handles = 0 ∧ s.shared.guards ≤ 1

section Runs

variable {s s' : Pool σ R} {ok : Pool σ R → PoolEvent R → Prop} {p p' : Proc R}

omit [Semaphore σ] in
theorem Proc.commits_of_kept (htoken : sh'.token = sh.token) (hcommitted : p'.committed = false)
    (hp' : sh'.token = true ∨ p'.committed = true) :
    sh.token = true ∨ p.committed = true ∨ (p.counting = true ∧ sh.guards ≤ 1) := by
  rcases hp' with hcancelled | hcommits
  · exact .inl (htoken ▸ hcancelled)
  · rw [hcommitted] at hcommits
    cases hcommits

omit [Semaphore σ] in
/-- How a process of a pool that nobody shuts down touches the token. -/
theorem Proc.CallStep.commits {b : Signal} (h : Proc.CallStep cfg b pid sh p sh' p' sp)
    (hp : p.isShutdown = false) (hp' : sh'.token = true ∨ p'.committed = true) :
    sh.token = true ∨ p.committed = true ∨ (p.counting = true ∧ sh.guards ≤ 1) := by
  cases h with
  | shutdown => cases hp
  | @drop c _ _ _ _ hpc hstep =>
    cases hstep <;> simp_all [Proc.committed, DropPc.committed, Proc.counting, Shared.closeQueue]
  | labelCancel hstep | addHandler hstep | notifier hstep =>
    exact commits_of_kept (by cases hstep <;> rfl) rfl hp'

theorem Proc.commits_of_run {b : Signal}
    (h : Proc.run cfg b pid sh p = some (sh', p', sp)) (hp : p.isShutdown = false)
    (hp' : sh'.token = true ∨ p'.committed = true) :
    sh.token = true ∨ p.committed = true ∨ (p.counting = true ∧ sh.guards ≤ 1) := by
  rcases Proc.split_of_run h with ⟨c, c', rfl, rfl, hstep⟩ | ⟨d, d', rfl, rfl, hstep⟩ |
    ⟨w, w', rfl, rfl, hstep, -⟩ | hstep
  · exact commits_of_kept (by cases hstep <;> rfl) rfl hp'
  · exact commits_of_kept (by cases hstep <;> rfl) rfl hp'
  · exact commits_of_kept (by cases hstep <;> rfl) rfl hp'
  · exact hstep.commits hp hp'

theorem Proc.isShutdown_of_run {b : Signal} (h : Proc.run cfg b pid sh p = some (sh', p', sp)) :
    p'.isShutdown = p.isShutdown ∧ ∀ q, sp = some q → q.isShutdown = false ∧ q.committed = false := by
  refine ⟨?_, ?_⟩
  · rcases Proc.split_of_run h with ⟨c, c', rfl, rfl, -⟩ | ⟨d, d', rfl, rfl, -⟩ |
      ⟨w, w', rfl, rfl, -⟩ | hstep
    · rfl
    · rfl
    · rfl
    · cases hstep <;> rfl
  · rintro q rfl
    rcases Proc.started_of_run h with ⟨w, rfl⟩ | rfl <;> exact ⟨rfl, rfl⟩

omit [Semaphore σ] in
/-- A call other than `shutdown` changes neither the token nor, once every handle
is gone, the references. -/
theorem Call.kept_of_enter {c : Call R} (h : c.enter sh = some (sh', sp))
    (hzero : sh.handles = 0) : sh'.token = sh.token ∧ sh'.handles = 0 ∧
      sh'.guards = sh.guards ∧ sp = none := by
  have hnone : ∀ i, sh.usable i = true → False := by
    intro i hi
    have hpos := Shared.handles_pos hi
    omega
  revert h
  fun_cases Call.enter sh c
  all_goals rintro ⟨⟩
  case case5 | case7 => exact ⟨rfl, hzero, rfl, rfl⟩
  case case13 h | case15 h => exact (hnone _ (Shared.usable_of_unborrowed h)).elim
  all_goals
    next h => exact (hnone _ h).elim

omit [Semaphore σ] in
theorem Call.token_of_enter {c : Call R} (h : c.enter sh = some (sh', sp)) :
    sh'.token = sh.token := by
  revert h
  fun_cases Call.enter sh c
  all_goals rintro ⟨⟩
  all_goals rfl

/-- A process other than a `shutdown` call takes no reference. -/
theorem Proc.guards_le_of_run {b : Signal} (h : Proc.run cfg b pid sh p = some (sh', p', sp))
    (hp : p.isShutdown = false) : p'.guards ≤ p.guards := by
  rcases Proc.split_of_run h with ⟨c, c', rfl, rfl, -⟩ | ⟨d, d', rfl, rfl, -⟩ |
    ⟨w, w', rfl, rfl, -⟩ | hstep
  · rfl
  · rfl
  · rfl
  · cases hstep with
    | shutdown => cases hp
    | drop hpc hstep => cases hstep <;> simp [guards, hpc]
    | _ => rfl

theorem lastOut (h : (poolMachine σ R cfg).Reachable (fun s a => unshut s a = true) s) :
    LastOut s := by
  refine Pool.invariant (I := LastOut) .refl ?_ ?_ h ?_
  · intro s b pid p sh p' sp hreach hs _ hp hrun
    have hrefs := references hreach
    obtain ⟨hkind, hnew⟩ := Proc.isShutdown_of_run hrun
    refine ⟨fun qid q hq => ?_, fun hcommits => ?_⟩
    · rcases Threads.update_getElem? hp hq with ⟨rfl, rfl⟩ | ⟨_, hold⟩ | ⟨_, rfl⟩
      · exact hkind.trans (hs.unshut _ _ hp)
      · exact hs.unshut qid q hold
      · exact (hnew q rfl).1
    · have hg := Threads.le_tally (g := Proc.guards) hp
      have hguards := hrefs.guards
      have hbalanced := hrefs.balanced hp hrun
      have hkeep : s.shared.handles = 0 ∧ s.shared.guards ≤ 1 := by
        have hself (h : sh.token = true ∨ p'.committed = true) :
            s.shared.handles = 0 ∧ s.shared.guards ≤ 1 := by
          rcases Proc.commits_of_run hrun (hs.unshut pid p hp) h with htoken | hcom | ⟨hcount, hle⟩
          · exact hs.alone (.inl htoken)
          · exact hs.alone (.inr ⟨pid, p, hp, hcom⟩)
          -- the drop that reads the count is the one reference that is left
          · have hone : p.guards = 1 := by
              cases p with
              | drop c => simp_all [Proc.counting, Proc.guards]
              | _ => cases hcount
            exact ⟨by omega, hle⟩
        rcases hcommits with htoken | ⟨qid, q, hqid, hcom⟩
        · exact hself (.inl htoken)
        · rcases Threads.update_getElem? hp hqid with ⟨rfl, rfl⟩ | ⟨_, hold⟩ | ⟨_, rfl⟩
          · exact hself (.inr hcom)
          · exact hs.alone (.inr ⟨qid, q, hold, hcom⟩)
          · rw [(hnew q rfl).2] at hcom
            cases hcom
      have hh := hbalanced.handles
      have hbg := hbalanced.guards
      have hle := Proc.guards_le_of_run hrun (hs.unshut pid p hp)
      rw [Threads.update_shared]
      omega
  · intro s c sh sp hreach hs hunshut hcall
    refine ⟨fun qid q hq => ?_, fun hcommits => ?_⟩
    · rcases Threads.spawn_getElem? hq with hold | ⟨_, rfl⟩
      · exact hs.unshut qid q hold
      · revert hcall
        fun_cases Call.enter s.shared c
        all_goals rintro ⟨⟩
        all_goals first | rfl | cases hunshut
    · have hzero : s.shared.handles = 0 ∧ s.shared.guards ≤ 1 := by
        rcases hcommits with htoken | ⟨qid, q, hqid, hcom⟩
        · exact hs.alone (.inl ((Call.token_of_enter hcall).symm.trans htoken))
        · rcases Threads.spawn_getElem? hqid with hold | ⟨_, rfl⟩
          · exact hs.alone (.inr ⟨qid, q, hold, hcom⟩)
          · revert hcall
            fun_cases Call.enter s.shared c
            all_goals rintro ⟨⟩
            all_goals cases hcom
      obtain ⟨-, hhandles, hguards, -⟩ := Call.kept_of_enter hcall hzero.1
      rw [Threads.spawn_shared, hguards]
      exact ⟨hhandles, hzero.2⟩
  · refine ⟨fun pid p hp => ?_, ?_⟩
    · obtain ⟨-, rfl⟩ := Pool.init_loop hp
      rfl
    · rintro (htoken | ⟨pid, p, hp, hcom⟩)
      · cases htoken
      · obtain ⟨-, rfl⟩ := Pool.init_loop hp
        cases hcom

/-! ## The law -/

/-- The drop has still to decide whether it is the last one, or to cancel the
token. -/
def Proc.deciding : Proc R → Bool
  | .drop c => c.pc == .count || c.pc == .token || c.pc == .cancel
  | _ => false

/-- Somebody is left to cancel the token. -/
def Attended (s : Pool σ R) : Prop :=
  s.shared.token = true ∨ 0 < s.shared.handles ∨ ∃ pid p, s.At pid p ∧ p.deciding = true

/-- Every handle is gone: none is alive, and every drop has ended. -/
def AllDropped (s : Pool σ R) : Prop :=
  (∀ c, s.shared.usable c = false) ∧ ∀ pid c, s.At pid (.drop c) → c.pc = .done

omit [Semaphore σ] in
/-- A deciding drop goes on to cancel the token, unless it takes another handle
for the last one. -/
theorem Proc.CallStep.decides {b : Signal} (h : Proc.CallStep cfg b pid sh p sh' p' sp)
    (hp : p.deciding = true) :
    sh'.token = true ∨ p'.deciding = true ∨ (p.counting = true ∧ 1 < sh.guards) := by
  cases h with
  | @drop c _ _ _ _ hpc hstep => cases hstep <;> simp_all [Proc.deciding, Proc.counting]
  | _ => cases hp

theorem attended (h : (poolMachine σ R cfg).Reachable (fun s a => orderly s a = true) s) :
    Attended s := by
  refine Pool.invariant (I := Attended) .refl ?_ ?_ h (.inr (.inl ?_))
  · intro s b pid p sh p' sp hreach hs horderly hp hrun
    have hhandles := ((references hreach).balanced hp hrun).handles
    have hother {qid : Nat} {q : Proc R} (hne : qid ≠ pid) (hq : s.At qid q)
        (hdeciding : q.deciding = true) : Attended (s.update pid sh p' sp) :=
      .inr (.inr ⟨qid, q, Threads.update_other hne hq, hdeciding⟩)
    rcases hs with htoken | hpositive | ⟨qid, q, hqid, hdeciding⟩
    · exact .inl ((Shared.Evolves.proc (Proc.step_of_run hrun)).token htoken)
    · exact .inr (.inl (by rw [Threads.update_shared, hhandles]; exact hpositive))
    · by_cases hne : qid = pid
      · subst hne
        obtain rfl := Option.some.inj (hp.symm.trans hqid)
        have hby : p.bystander := by
          cases p with
          | drop => exact True.intro
          | _ => cases hdeciding
        rcases (Proc.callStep_of_run hby hrun).decides hdeciding with htoken | hdec | ⟨hcount, hlt⟩
        · exact .inl htoken
        · exact .inr (.inr ⟨qid, p', Threads.update_self hp, hdec⟩)
        -- it reads more than its own reference: the condition names who is left
        · simp only [orderly, hp, Option.any_some, hcount, hlt, decide_true, Bool.and_self,
            Bool.not_true, Bool.false_or, Bool.or_eq_true, decide_eq_true_eq, List.any_eq_true]
            at horderly
          rcases horderly with hpositive | ⟨r, hr, hrcount⟩
          · exact .inr (.inl (by rw [Threads.update_shared, hhandles]; exact hpositive))
          · obtain ⟨rid, hrid, hrat⟩ := List.mem_eraseIdx_iff_getElem?.mp hr
            refine hother hrid hrat ?_
            cases r with
            | drop c => simp_all [Proc.counting, Proc.deciding]
            | _ => cases hrcount
      · exact hother hne hqid hdeciding
  · intro s c sh sp _ hs horderly hcall
    rcases hs with htoken | hpositive | ⟨qid, q, hqid, hdeciding⟩
    · exact .inl ((Call.token_of_enter hcall).trans htoken)
    · revert hcall
      fun_cases Call.enter s.shared c
      all_goals rintro ⟨⟩
      case case1 => exact .inr (.inl (by simp [Shared.handles]))
      case case3 | case9 | case11 =>
        exact .inr (.inl (by rw [Threads.spawn_shared, Shared.handles_borrow]; exact hpositive))
      case case5 | case7 => exact .inr (.inl hpositive)
      case case13 => cases horderly
      case case15 =>
        exact .inr (.inr ⟨s.procs.length, _, Threads.spawn_new _, rfl⟩)
    · exact .inr (.inr ⟨qid, q, Threads.spawn_other hqid, hdeciding⟩)
  · show 0 < (Shared.new cfg : Shared σ R).handles
    simp [Shared.handles, Shared.new]

omit [Semaphore σ] in
theorem Shared.handles_eq_zero (h : ∀ c, sh.usable c = false) : sh.handles = 0 := by
  refine List.sum_eq_zero fun n hn => ?_
  obtain ⟨handle, hmem, rfl⟩ := List.mem_map.mp hn
  obtain ⟨c, hc⟩ := List.getElem?_of_mem hmem
  have hgone := h c
  simp only [usable, hc, Option.any_some] at hgone
  simp [hgone]

/-- Nobody is left to cancel the token. -/
structure Unattended (s : Pool σ R) : Prop where
  token : s.shared.token = false
  handles : s.shared.handles = 0
  procs : ∀ pid p, s.At pid p →
    p.isShutdown = false ∧ p.deciding = false ∧ p.committed = false

theorem Unattended.steps (hreach : (poolMachine σ R cfg).Reachable Machine.anyStep s)
    (h : (poolMachine σ R cfg).Steps ok s s') (hs : Unattended s) : Unattended s' := by
  refine Pool.invariant (I := Unattended) hreach ?_ ?_ h hs
  · intro s b pid p sh p' sp hreach hs _ hp hrun
    obtain ⟨hshut, hdec, hcom⟩ := hs.procs pid p hp
    obtain ⟨hkind, hnew⟩ := Proc.isShutdown_of_run hrun
    have hhandles := ((references hreach).balanced hp hrun).handles
    have hcount : p.counting = false := by
      cases p with
      | drop c => simp_all [Proc.counting, Proc.deciding]
      | _ => rfl
    have hnone (h : sh.token = true ∨ p'.committed = true) : False := by
      rcases Proc.commits_of_run hrun hshut h with htoken | hcom' | ⟨hcount', -⟩
      · rw [hs.token] at htoken
        cases htoken
      · rw [hcom] at hcom'
        cases hcom'
      · rw [hcount] at hcount'
        cases hcount'
    refine ⟨?_, hhandles.trans hs.handles, fun qid q hqid => ?_⟩
    · rw [Threads.update_shared, ← Bool.not_eq_true]
      exact fun htoken => hnone (.inl htoken)
    · rcases Threads.update_getElem? hp hqid with ⟨rfl, rfl⟩ | ⟨_, hold⟩ | ⟨_, rfl⟩
      · have hcom' : q.committed = false := by
          rw [← Bool.not_eq_true]
          exact fun hcom' => hnone (.inr hcom')
        refine ⟨hkind.trans hshut, ?_, hcom'⟩
        cases q with
        | drop c =>
          cases p with
          | drop c₀ =>
            cases Proc.callStep_of_run (p := .drop c₀) True.intro hrun with
            | drop hpc hstep => cases hstep <;> simp_all [Proc.deciding, Proc.committed, DropPc.committed]
          | submit | loop | wrapper =>
            cases Proc.step_of_run hrun with
            | bystander hby => exact hby.elim
          | shutdown => cases hshut
          | labelCancel c₀ => cases Proc.callStep_of_run (p := .labelCancel c₀) True.intro hrun
          | addHandler c₀ => cases Proc.callStep_of_run (p := .addHandler c₀) True.intro hrun
          | notifier c₀ => cases Proc.callStep_of_run (p := .notifier c₀) True.intro hrun
        | _ => rfl
      · exact hs.procs qid q hold
      · rcases Proc.started_of_run hrun with ⟨w, rfl⟩ | rfl <;> exact ⟨rfl, rfl, rfl⟩
  · intro s c sh sp _ hs _ hcall
    obtain ⟨htoken, hhandles, -, rfl⟩ := Call.kept_of_enter hcall hs.handles
    refine ⟨htoken.trans hs.token, hhandles, fun qid q hqid => ?_⟩
    rcases Threads.spawn_getElem? hqid with hold | ⟨_, hnew⟩
    · exact hs.procs qid q hold
    · cases hnew

omit [Semaphore σ] in
theorem Proc.drop_of_counting (h : p.counting = true) :
    ∃ c, p = .drop c ∧ c.pc = .count := by
  cases p with
  | drop c => exact ⟨c, rfl, by simpa [counting] using h⟩
  | _ => cases h

/-- A step that is not orderly leaves nobody to cancel the token. -/
theorem unattended_of_not_orderly {b : Signal}
    (h : (poolMachine σ R cfg).Reachable (fun s a => unshut s a = true) s)
    (hbad : orderly s (.run b pid) = false)
    (hstep : (poolMachine σ R cfg).step s (.run b pid) = some s') : Unattended s' := by
  obtain ⟨p, sh, p', sp, hp, hrun, rfl⟩ := Program.step_run hstep
  simp only [orderly, hp, Option.any_some, Bool.or_eq_false_iff, Bool.not_eq_false',
    Bool.and_eq_true, decide_eq_true_eq, decide_eq_false_iff_not, Nat.not_lt,
    Nat.le_zero] at hbad
  obtain ⟨⟨⟨hcount, hlt⟩, hzero⟩, hothers⟩ := hbad
  have hlast := lastOut h
  have hclear : s.shared.token = false ∧ ∀ qid q, s.At qid q → q.committed = false := by
    refine ⟨?_, fun qid q hq => ?_⟩
    · rw [← Bool.not_eq_true]
      intro htoken
      have halone := (hlast.alone (.inl htoken)).2
      omega
    · rw [← Bool.not_eq_true]
      intro hcom
      have halone := (hlast.alone (.inr ⟨qid, q, hq, hcom⟩)).2
      omega
  obtain ⟨c, rfl, hpc⟩ := Proc.drop_of_counting hcount
  cases Proc.callStep_of_run (p := .drop c) True.intro hrun with
  | drop hpc' hdrop =>
    rw [hpc] at hpc'
    subst hpc'
    cases hdrop with
    | last hguards => omega
    | shared =>
      refine ⟨hclear.1, hzero, fun qid q hqid => ?_⟩
      rcases Threads.update_getElem? hp hqid with ⟨rfl, rfl⟩ | ⟨hne, hold⟩ | ⟨_, hnew⟩
      · exact ⟨rfl, rfl, rfl⟩
      · refine ⟨hlast.unshut qid q hold, ?_, hclear.2 qid q hold⟩
        have hcommitted := hclear.2 qid q hold
        have hnot : q.counting = false := by
          rw [← Bool.not_eq_true]
          intro hq
          have hmem : q ∈ s.procs.eraseIdx pid :=
            List.mem_eraseIdx_iff_getElem?.mpr ⟨qid, hne, hold⟩
          have hany : (s.procs.eraseIdx pid).any Proc.counting = true :=
            List.any_eq_true.mpr ⟨q, hmem, hq⟩
          rw [hothers] at hany
          cases hany
        cases q with
        | drop d =>
          simp only [Proc.committed, Proc.counting, Proc.deciding] at hcommitted hnot ⊢
          cases hd : d.pc <;> simp_all [DropPc.committed]
        | _ => rfl
      · cases hnew

end Runs

/-- The implicit shutdown. In a pool that nobody shuts down explicitly, the token
is not cancelled while a handle is alive; and in every run in which no drop takes
another handle for the last one when none is left to cancel the token, the token is
cancelled once all handles are gone. After a drop that does, it never is. -/
theorem implicit_shutdown_fires_at_last_handle (σ R : Type) [Semaphore σ] (cfg : PoolConfig) :
    (∀ s : Pool σ R, (poolMachine σ R cfg).Reachable (fun s a => unshut s a = true) s →
      ∀ c, s.shared.usable c = true → s.shared.token = false) ∧
    (∀ s : Pool σ R, (poolMachine σ R cfg).Reachable (fun s a => orderly s a = true) s →
      AllDropped s → s.shared.token = true) ∧
    ∀ (s s' s'' : Pool σ R) (b : Signal) (pid : Nat),
      (poolMachine σ R cfg).Reachable (fun s a => unshut s a = true) s →
      orderly s (.run b pid) = false →
      (poolMachine σ R cfg).step s (.run b pid) = some s' →
      (poolMachine σ R cfg).Steps Machine.anyStep s' s'' → s''.shared.token = false := by
  refine ⟨fun s h c hc => ?_, fun s h hdropped => ?_, fun s s' s'' b pid h hbad hstep hsteps => ?_⟩
  · rw [← Bool.not_eq_true]
    intro htoken
    have hzero := ((lastOut h).alone (.inl htoken)).1
    have hpos := Shared.handles_pos hc
    omega
  · rcases attended h with htoken | hpositive | ⟨pid, p, hp, hdeciding⟩
    · exact htoken
    · rw [Shared.handles_eq_zero hdropped.1] at hpositive
      cases hpositive
    · cases p with
      | drop c =>
        have hdone := hdropped.2 pid c hp
        simp [Proc.deciding, hdone] at hdeciding
      | _ => cases hdeciding
  · exact ((unattended_of_not_orderly h hbad hstep).steps (h.any.tail trivial hstep) hsteps).token

/-- Two handles go one after the other. -/
def droppedInTurn : Pool FairSemaphore Nat :=
  let M := poolMachine FairSemaphore Nat (.manager 1 1 "pool")
  M.after orderly
    (.call (.clone 0) :: .call (.dropManager 0) :: stepping [1, 1] ++
      .call (.dropManager 1) :: stepping [2, 2, 2, 2, 2, 2]) M.init

/-- Two handles go at the same time, and each drop reads the count before the other
gives up its reference. -/
def droppedTogether : Pool FairSemaphore Nat :=
  let M := poolMachine FairSemaphore Nat (.manager 1 1 "pool")
  M.after unshut
    (.call (.clone 0) :: .call (.dropManager 0) :: .call (.dropManager 1) ::
      stepping [1, 2, 1, 2]) M.init

theorem implicit_shutdown_fires_at_last_handle_in_turn :
    droppedInTurn.shared.guards = 0 ∧ droppedInTurn.shared.token = true := by
  refine ⟨by decide, (implicit_shutdown_fires_at_last_handle FairSemaphore Nat
    (.manager 1 1 "pool")).2.1 droppedInTurn (Machine.steps_after _ _ _ _) ⟨fun c => ?_, ?_⟩⟩
  · have hclones : droppedInTurn.shared.clones = [⟨false, 0⟩, ⟨false, 0⟩] := by decide
    unfold Shared.usable
    rw [hclones]
    rcases c with _ | _ | c <;> rfl
  · intro pid c hc
    have hprocs : ∀ p ∈ droppedInTurn.procs, p.guards = 0 := by decide
    have hzero := hprocs _ (List.mem_of_getElem? hc)
    by_contra hpc
    simp [Proc.guards, hpc] at hzero

/-- All handles are gone, and the pool was never told. -/
theorem concurrent_drops_signal_nothing :
    (poolMachine FairSemaphore Nat (.manager 1 1 "pool")).Reachable
        (fun s a => unshut s a = true) droppedTogether ∧
      droppedTogether.shared.clones = [⟨false, 0⟩, ⟨false, 0⟩] ∧
      droppedTogether.procs[1]? = some (.drop ⟨0, true, .done⟩) ∧
      droppedTogether.procs[2]? = some (.drop ⟨1, true, .done⟩) ∧
      droppedTogether.shared.token = false :=
  ⟨Machine.steps_after _ _ _ _, by decide, rfl, rfl, by decide⟩

end FuturesOrchestra
