import FuturesOrchestra.Proofs.WindingDown
import FuturesOrchestra.Proofs.WorkConserving

/-!
# The pool finishes its work

Left to itself a pool gets everything done, shut down or not: between two calls of the
outside only finitely many steps of dispatchers, submissions and wrappers are more than
a look at something that is not there yet, and when no such step is left, every accepted
task is settled. `Pool.toDo` is the rank.
-/

namespace FuturesOrchestra

open Interleaving Semaphore

variable {σ R : Type} {cfg : PoolConfig} {pid t : Nat} {sh sh' : Shared σ R}
  {sp : Option (Proc R)} {p p' : Proc R}

/-! ## What is left to do -/

/-- The steps of a loop until it waits on its lane again or has left, the tasks in its lane
apart. A loop about to spawn pays for the wrapper. -/
def LoopPc.toDo : LoopPc → Nat
  | .guard _ => 23
  | .precheck .. => 22
  | .acquire (some _) | .acquireToken (some _) => 21
  | .recheck (some _) => 20
  | .insertCount _ => 19
  | .insert _ => 18
  | .lookup .. => 17
  | .spawn .. => 16
  | .cancelSend .. => 12
  | .cancelLookup .. => 11
  | .cancelNotify .. => 10
  | .cancelDrop .. => 9
  | .top => 8
  | .acquire none | .acquireToken none => 7
  | .recheck none => 6
  | .recv _ | .recvToken _ => 5
  | .exit true _ => 4
  | .exit false (some _) => 3
  | .exit false none => 2
  | .drain => 1
  | .exited => 0

/-- The steps of a `submit` call, its waits apart. It pays for the dispatch of its task. -/
def SubmitPc.toDo (cfg : PoolConfig) : SubmitPc → Nat
  | .checkToken => cfg.lanes + 34
  | .checkClosed => cfg.lanes + 33
  | .create => cfg.lanes + 32
  | .scan _ lane _ => cfg.lanes - lane + 31
  | .tryAcquire _ => 30
  | .sendToken _ => 29
  | .sendClosed _ => 28
  | .selectToken _ | .selectAcquire _ => 27
  | .sendRoute _ => 26
  | .push .. => 25
  | .route _ => 12
  | .insertCount .. => 11
  | .insert .. => 10
  | .lookup .. => 9
  | .spawn .. => 8
  | .returned _ | .abandoned => 0

def Proc.toDo (cfg : PoolConfig) : Proc R → Nat
  | .submit c => c.pc.toDo cfg
  | .loop d => d.pc.toDo
  | .wrapper w => w.pc.toGo
  | _ => 0

/-- The steps that are left in a pool. A queued task is worth a turn of its dispatcher. -/
def Pool.toDo (cfg : PoolConfig) (s : Pool σ R) : Nat :=
  24 * s.shared.messages + s.tally (Proc.toDo cfg)

section Waiting

variable [Semaphore σ]

/-- Nobody has sent to the lane of the loop, and somebody may. -/
def DispatcherLoop.starved (sh : Shared σ R) (d : DispatcherLoop) : Bool :=
  sh.queueSenders != 0 && (sh.lanes[d.lane]?).any (·.items.isEmpty)

/-- The next step of process `pid` looks in vain for a permit, a slot, a task or the token,
or polls a future that is not ready. -/
def Proc.vain (pid : Nat) (sh : Shared σ R) : Proc R → Bool
  | .submit c =>
    match c.pc with
    | .selectToken _ => !sh.token
    | .selectAcquire _ => !(pollAcquire pid sh.queueGate).2
    | _ => false
  | .loop d =>
    match d.pc with
    | .acquireToken _ | .recvToken _ => !sh.token
    | .acquire _ => !(pollAcquire pid sh.concurrencyGate).2
    | .recv _ => d.starved sh
    | _ => false
  | p => p.idles sh

/-- Process `pid` waits for a permit, a slot or a task that is not there, and nobody has
cancelled the token. -/
def Proc.blocked (pid : Nat) (sh : Shared σ R) : Proc R → Bool
  | .submit c => c.pc.selecting && !sh.token && !(pollAcquire pid sh.queueGate).2
  | .loop d =>
    (d.pc.awaits && !(pollAcquire pid sh.concurrencyGate).2 || d.pc.parked && d.starved sh) &&
      !sh.token
  | _ => false

/-- A step of a submitter, a dispatcher or a wrapper is headway, unless it is in vain. -/
def Proc.headway (pid : Nat) (sh : Shared σ R) (p : Proc R) : Nat :=
  (p.working && !p.vain pid sh).toNat

def headway (s : Pool σ R) : PoolEvent R → Nat
  | .run _ pid => ((s.procs[pid]?).map (Proc.headway pid s.shared)).getD 0
  | .call _ => 0

/-- The steps that a new `submit` call brings. -/
def PoolEvent.brings (cfg : PoolConfig) (e : PoolEvent R) : Nat :=
  (cfg.lanes + 34) * e.submissions

/-- Every submission, dispatcher and wrapper has ended or is blocked. -/
def Pool.atRest (s : Pool σ R) : Bool :=
  (List.range s.procs.length).all fun pid =>
    (s.procs[pid]?).all fun p => !p.working || p.ended || p.blocked pid s.shared

theorem Proc.headway_le_one (pid : Nat) (sh : Shared σ R) (p : Proc R) : p.headway pid sh ≤ 1 :=
  Bool.toNat_le _

theorem Proc.toDo_bystander (hp : p.bystander) : p.toDo cfg = 0 := by
  cases p <;> first | rfl | exact hp.elim

theorem Proc.headway_bystander (hp : p.bystander) : p.headway pid sh = 0 := by
  cases p <;> first | rfl | exact hp.elim

/-! ## Every step that is not in vain is one less -/

theorem SubmitStep.toDo {c c' : SubmitCall R} (h : SubmitStep cfg.kind pid sh c sh' c' sp)
    (hlanes : sh.lanes.length = cfg.lanes) :
    24 * sh'.messages + c'.pc.toDo cfg + Threads.started (Proc.toDo cfg) sp <
        24 * sh.messages + c.pc.toDo cfg ∨
      24 * sh'.messages + c'.pc.toDo cfg + Threads.started (Proc.toDo cfg) sp =
          24 * sh.messages + c.pc.toDo cfg ∧ (Proc.submit c).vain pid sh = true := by
  cases h with
  | selectToken hpc htoken =>
    exact .inr ⟨by simp [SubmitPc.toDo, hpc], by simp [Proc.vain, hpc, htoken]⟩
  | selectPending hpc hgate =>
    exact .inr ⟨by simp [SubmitPc.toDo, Shared.messages, hpc], by simp [Proc.vain, hpc, hgate]⟩
  | scan hpc hlane =>
    have hlt := (List.getElem?_eq_some_iff.mp hlane).1
    refine .inl ?_
    simp only [SubmitCall.goto_pc, hpc, SubmitPc.toDo, Threads.started_none]
    omega
  | @push t lane l hpc hlane hrecv =>
    have hmessages := Shared.messages_setLane { l with items := l.items ++ [t] } hlane
    refine .inl ?_
    simp [SubmitPc.toDo, Shared.messages, hpc] at hmessages ⊢
    omega
  | spawn hkind hpc =>
    refine .inl ?_
    simp [SubmitPc.toDo, Shared.messages, Proc.toDo, WrapperPc.toGo, hpc]
  | refuse hpc | reject hpc | abandon hpc =>
    refine .inl ?_
    rcases hpc with hpc | hpc <;> simp [SubmitPc.toDo, Shared.messages, hpc]
  | _ => exact .inl (by simp [SubmitPc.toDo, Shared.messages, *])

/-- On the way out a loop with a permit has one more step to take. -/
theorem LoopPc.toDo_exit_le (permit : Bool) (hand : Option Nat) :
    (LoopPc.exit permit hand).toDo ≤ 4 := by
  cases permit with
  | true => exact le_rfl
  | false => cases hand <;> simp [LoopPc.toDo]

theorem LoopPc.toDo_acquire (hand : Option Nat) :
    (LoopPc.acquireToken hand).toDo = (LoopPc.acquire hand).toDo ∧
      (LoopPc.acquire hand).toDo = (LoopPc.recheck hand).toDo + 1 ∧
      6 ≤ (LoopPc.recheck hand).toDo := by
  cases hand <;> simp [LoopPc.toDo]

theorem LoopStep.toDo {d d' : DispatcherLoop} (h : LoopStep cfg pid sh d sh' d' sp) :
    24 * sh'.messages + d'.pc.toDo + Threads.started (Proc.toDo cfg) sp <
        24 * sh.messages + d.pc.toDo ∨
      24 * sh'.messages + d'.pc.toDo + Threads.started (Proc.toDo cfg) sp =
          24 * sh.messages + d.pc.toDo ∧ (Proc.loop d : Proc R).vain pid sh = true := by
  cases h with
  -- the four steps in vain: no permit, and again; no task, and again
  | @pending hand gate hpc hgate =>
    refine .inr ⟨?_, by simp [Proc.vain, hpc, hgate]⟩
    simp [Shared.messages, hpc, (LoopPc.toDo_acquire hand).1]
  | @acquireAgain hand hpc htoken =>
    refine .inr ⟨?_, by simp [Proc.vain, hpc, htoken]⟩
    simp [hpc, (LoopPc.toDo_acquire hand).1]
  | recvEmpty hpc hlane hsenders =>
    refine .inr ⟨by simp [LoopPc.toDo, hpc], ?_⟩
    simp [Proc.vain, DispatcherLoop.starved, hpc, hlane, hsenders]
  | recvAgain hpc htoken =>
    exact .inr ⟨by simp [LoopPc.toDo, hpc], by simp [Proc.vain, hpc, htoken]⟩
  | @recv t items receiver done _ hpc hlane | @recvRlxd t items receiver done _ hpc hlane
  | @recvDiscard t items receiver done _ hpc hlane | @drain t items receiver done hpc hlane =>
    have hmessages := Shared.messages_setLane ⟨items, receiver, done⟩ hlane
    refine .inl ?_
    simp [Shared.messages, LoopPc.toDo, hpc] at hmessages ⊢
    omega
  | @exitReceiver l hpc hlane | @exitLast l hpc hlane =>
    have hmessages := Shared.messages_setLane { l with receiver := false } hlane
    refine .inl ?_
    simp [Shared.messages, LoopPc.toDo, hpc] at hmessages ⊢
    omega
  | @drained receiver done hpc hlane =>
    have hmessages := Shared.messages_setLane ⟨[], receiver, true⟩ hlane
    refine .inl ?_
    simp [Shared.messages, LoopPc.toDo, hpc] at hmessages ⊢
    omega
  | spawn hpc => exact .inl (by simp [LoopPc.toDo, Proc.toDo, WrapperPc.toGo, Shared.messages, hpc])
  | @acquired hand gate hpc hgate =>
    have hacquire := (LoopPc.toDo_acquire hand).2.1
    exact .inl (by simp [Shared.messages, hpc, hacquire])
  | @acquireStop hand hpc =>
    have hexit := LoopPc.toDo_exit_le false hand
    obtain ⟨htoken, hacquire, hrecheck⟩ := LoopPc.toDo_acquire hand
    refine .inl ?_
    simp [Shared.messages, hpc]
    omega
  | @recheckStop hand hpc =>
    have hexit := LoopPc.toDo_exit_le true hand
    have hrecheck := (LoopPc.toDo_acquire hand).2.2
    refine .inl ?_
    simp [Shared.messages, hpc]
    omega
  | @exitPermit hand hpc =>
    refine .inl ?_
    cases hand <;> simp [LoopPc.toDo, Shared.messages, hpc]
  | @recvClosed permit _ _ hpc | @recvStop permit hpc | @cancelPanic permit _ hpc =>
    have hexit := LoopPc.toDo_exit_le permit none
    refine .inl ?_
    simp [LoopPc.toDo, Shared.messages, hpc] at hexit ⊢
    omega
  | _ => exact .inl (by simp [LoopPc.toDo, Shared.messages, *])

/-- Every step lowers what is left by the headway it makes. -/
theorem Proc.toDo_of_run {b : Signal} (hlanes : sh.lanes.length = cfg.lanes)
    (h : Proc.run cfg b pid sh p = some (sh', p', sp)) :
    24 * sh'.messages + p'.toDo cfg + Threads.started (Proc.toDo cfg) sp + p.headway pid sh ≤
      24 * sh.messages + p.toDo cfg := by
  have hone := p.headway_le_one pid sh
  cases Proc.step_of_run h with
  | @submit c _ c' _ hstep =>
    rcases hstep.toDo hlanes with hlt | ⟨heq, hvain⟩
    · simp only [Proc.toDo]
      omega
    · have hnone : (Proc.submit c).headway pid sh = 0 := by rw [headway, hvain]; rfl
      simp only [Proc.toDo]
      omega
  | @loop d _ d' _ hstep =>
    rcases hstep.toDo with hlt | ⟨heq, hvain⟩
    · simp only [Proc.toDo]
      omega
    · have hnone : (Proc.loop d : Proc R).headway pid sh = 0 := by rw [headway, hvain]; rfl
      simp only [Proc.toDo]
      omega
  | @wrapper w _ w' hstep =>
    have hle := hstep.toGo_le
    have hmessages : sh'.messages = sh.messages := by cases hstep <;> rfl
    have heffort : (Proc.wrapper w).headway pid sh = (Proc.wrapper w).effort sh := rfl
    simp only [Proc.toDo, Threads.started_none]
    omega
  | bystander hby hby' hstep =>
    have hmessages := Shared.messages_eq hstep.1.lanes
    have hidle : p.headway pid sh = 0 := Proc.headway_bystander hby
    have hbefore : p.toDo cfg = 0 := Proc.toDo_bystander hby
    have hafter : p'.toDo cfg = 0 := Proc.toDo_bystander hby'
    have hstarted : Threads.started (Proc.toDo cfg) sp = 0 := by
      cases hsp : sp with
      | none => rfl
      | some q => exact Proc.toDo_bystander (hstep.2 q hsp)
    omega

variable {s s' : Pool σ R} {ok : Pool σ R → PoolEvent R → Prop}

omit [Semaphore σ] in
theorem Call.toDo_of_enter (cfg : PoolConfig) {c : Call R} (h : c.enter sh = some (sh', sp)) :
    Threads.started (Proc.toDo cfg) sp ≤ PoolEvent.brings cfg (.call c) := by
  revert h
  fun_cases Call.enter sh c
  all_goals rintro ⟨⟩
  all_goals simp [PoolEvent.brings, PoolEvent.submissions, Proc.toDo, SubmitPc.toDo]

theorem Pool.toDo_step {e : PoolEvent R} (h : (poolMachine σ R cfg).Reachable Machine.anyStep s)
    (hstep : (poolMachine σ R cfg).step s e = some s') :
    s'.toDo cfg + headway s e ≤ s.toDo cfg + e.brings cfg := by
  cases e with
  | run b pid =>
    obtain ⟨p, sh, p', sp, hp, hrun, rfl⟩ := Program.step_run hstep
    have hfalls := Proc.toDo_of_run (dispatchers h).lanes hrun
    have htally := Threads.tally_update (Proc.toDo cfg) sh p' sp hp
    simp only [Pool.toDo, Threads.update_shared, headway, hp, Option.map_some, Option.getD_some]
    omega
  | call c =>
    obtain ⟨sh, sp, hcall, rfl⟩ := Program.step_call hstep
    have hmessages := Shared.messages_eq (Call.enter_quiet hcall).1.lanes
    have htally := Threads.tally_spawn (Proc.toDo cfg) s sh sp
    have hnew := Call.toDo_of_enter cfg hcall
    simp only [Pool.toDo, Threads.spawn_shared, headway]
    omega

/-! ## At rest -/

theorem Pool.atRest_at (hrest : s.atRest = true) (hp : s.At pid p) (hworks : p.working = true) :
    p.ended = true ∨ p.blocked pid s.shared = true := by
  have hlt : pid < s.procs.length := (List.getElem?_eq_some_iff.mp hp).1
  have hall := List.all_eq_true.mp hrest pid (List.mem_range.mpr hlt)
  simpa [hp, hworks] using hall

/-- A loop that is at rest has exited, waits for a permit, or waits on an empty lane. -/
theorem loop_of_rest (hrest : s.atRest = true) {d : DispatcherLoop} (hd : s.At pid (.loop d)) :
    d.pc = .exited ∨
      (d.pc.awaits = true ∧ (pollAcquire pid s.shared.concurrencyGate).2 = false) ∨
      (d.pc.parked = true ∧ d.starved s.shared = true) := by
  rcases Pool.atRest_at hrest hd rfl with hended | hblocked
  · exact .inl (by simpa [Proc.ended] using hended)
  · simp only [Proc.blocked, Bool.and_eq_true, Bool.or_eq_true, Bool.not_eq_true'] at hblocked
    exact .inr hblocked.1

theorem submit_of_rest (hrest : s.atRest = true) {c : SubmitCall R} (hc : s.At pid (.submit c)) :
    c.pc.over = true ∨
      (c.pc.selecting = true ∧ (pollAcquire pid s.shared.queueGate).2 = false) := by
  rcases Pool.atRest_at hrest hc rfl with hended | hblocked
  · exact .inl hended
  · simp only [Proc.blocked, Bool.and_eq_true, Bool.not_eq_true'] at hblocked
    exact .inr ⟨hblocked.1.1, hblocked.2⟩

theorem wrapper_of_rest (hrest : s.atRest = true) {w : Wrapper R} (hw : s.At pid (.wrapper w)) :
    w.pc.over = true := by
  rcases Pool.atRest_at hrest hw rfl with hended | hblocked
  · exact hended
  · cases hblocked

/-- While a loop waits for a permit at rest, nobody has one. -/
theorem permits_of_rest (hcfg : cfg.Built) (h : (poolMachine σ R cfg).Reachable ok s)
    (hrest : s.atRest = true) {d : DispatcherLoop} (hd : s.At pid (.loop d))
    (hawaits : d.pc.awaits = true) : s.tally Proc.permits = 0 := by
  refine Threads.tally_eq_zero fun qid q hq => ?_
  cases q with
  | submit c =>
    rcases submit_of_rest hrest hq with hover | ⟨hselecting, -⟩
    · exact Proc.permits_of_ended hover
    · show c.pc.permits = 0
      cases hpc : c.pc <;> first | rfl | simp [hpc, SubmitPc.selecting] at hselecting
  | wrapper w => exact Proc.permits_of_ended (wrapper_of_rest hrest hq)
  | loop d' =>
    show d'.pc.permits = 0
    rcases loop_of_rest hrest hq with hexited | ⟨hwaits, -⟩ | ⟨hparked, -⟩
    · rw [hexited]
      rfl
    · cases hpc : d'.pc <;> first | rfl | simp [hpc, LoopPc.awaits] at hwaits
    · cases hkind : cfg.kind with
      | rlxd => exact LoopPc.permits_of_parked (loop_relaxed hkind h hq) hparked
      | strict =>
        -- the one dispatcher of the strict pool would wait at two places
        have hone : cfg.lanes = 1 := by
          rcases hcfg with ⟨_, _, _, rfl⟩ | ⟨_, _, _, _, rfl⟩
          · rfl
          · cases hkind
        have hzero {i : Nat} {e : DispatcherLoop} (he : s.At i (.loop e)) : i = 0 := by
          obtain ⟨l, hl, -⟩ := (dispatchers h).agrees i e he
          have hlt := (List.getElem?_eq_some_iff.mp hl).1
          rw [(dispatchers h).lanes, hone] at hlt
          omega
        obtain rfl := hzero hd
        obtain rfl := hzero hq
        cases hd.symm.trans hq
        cases hpc : d.pc <;> simp [hpc, LoopPc.awaits, LoopPc.parked] at hawaits hparked
  | _ => rfl

/-- At rest nobody waits for a permit: the first in the row would get one. -/
theorem parked_of_rest (hcfg : cfg.Built) (h : (poolMachine σ R cfg).Reachable ok s)
    (hrest : s.atRest = true) {d : DispatcherLoop} (hd : s.At pid (.loop d)) :
    d.pc = .exited ∨ (d.pc.parked = true ∧ d.starved s.shared = true) := by
  rcases loop_of_rest hrest hd with hexited | ⟨hawaits, hpoll⟩ | hparked
  · exact .inl hexited
  · have hfree : 0 < permits s.shared.concurrencyGate := by
      have hnone := permits_of_rest hcfg h hrest hd hawaits
      have hconserved := permits_conserved h
      have hlimit : 0 < cfg.permits := by
        rcases hcfg with ⟨limit, _, _, rfl⟩ | ⟨limit, _, _, _, rfl⟩
        · exact Nat.lt_of_lt_of_le Nat.one_pos (Nat.le_max_right limit 1)
        · exact Nat.lt_of_lt_of_le Nat.one_pos (Nat.le_max_right limit 1)
      omega
    rcases Semaphore.exists_served _ hfree pid with hserved | ⟨w, hw, hserved⟩
    · rw [hpoll] at hserved
      cases hserved
    · obtain ⟨d', hd', hwaits⟩ := (gate_queue h).awaits w hw
      rcases loop_of_rest hrest hd' with hexited | ⟨-, hpoll'⟩ | ⟨hparked, -⟩
      · rw [hexited] at hwaits
        cases hwaits
      · rw [hpoll'] at hserved
        cases hserved
      · cases hpc : d'.pc <;> simp [hpc, LoopPc.awaits, LoopPc.parked] at hwaits hparked
  · exact .inr hparked

/-- At rest the lanes are empty. -/
theorem lanes_of_rest (hcfg : cfg.Built) (h : (poolMachine σ R cfg).Reachable ok s)
    (hrest : s.atRest = true) {i : Nat} {l : Lane} (hl : s.shared.lanes[i]? = some l) :
    l.items = [] := by
  have hdispatchers := dispatchers h
  have hlt : i < cfg.lanes := by
    rw [← hdispatchers.lanes]
    exact (List.getElem?_eq_some_iff.mp hl).1
  obtain ⟨d, hd⟩ := hdispatchers.present i hlt
  obtain ⟨l', hl', hagrees⟩ := hdispatchers.agrees i d hd
  obtain rfl := Option.some.inj (hl.symm.trans hl')
  rcases parked_of_rest hcfg h hrest hd with hexited | ⟨-, hstarved⟩
  · exact hagrees.empty hexited
  · simp only [DispatcherLoop.starved, hdispatchers.lane i d hd, hl, Bool.and_eq_true] at hstarved
    simpa using hstarved.2

theorem messages_of_rest (hcfg : cfg.Built) (h : (poolMachine σ R cfg).Reachable ok s)
    (hrest : s.atRest = true) : s.shared.messages = 0 := by
  refine List.sum_eq_zero fun n hn => ?_
  obtain ⟨l, hl, rfl⟩ := List.mem_map.mp hn
  obtain ⟨i, hi⟩ := List.getElem?_of_mem hl
  rw [lanes_of_rest hcfg h hrest hi]
  rfl

/-- At rest an accepted task is neither queued nor in anybody's hands. -/
theorem settled_of_rest (hcfg : cfg.Built) (h : (poolMachine σ R cfg).Reachable ok s)
    (hrest : s.atRest = true) (ht : (s.shared.tasks t).accepted = true) :
    (s.shared.tasks t).sender.settled = true := by
  have hplaced := accepted_placed h ht
  have hlanes : s.shared.queued t = 0 := by
    refine List.sum_eq_zero fun n hn => ?_
    obtain ⟨l, hl, rfl⟩ := List.mem_map.mp hn
    obtain ⟨i, hi⟩ := List.getElem?_of_mem hl
    simp [lanes_of_rest hcfg h hrest hi]
  have hhand : s.tally (Proc.inHand t) = 0 := by
    refine Threads.tally_eq_zero fun pid p hp => ?_
    cases p with
    | loop d =>
      rcases parked_of_rest hcfg h hrest hp with hexited | ⟨hparked, -⟩
      · simp [Proc.inHand, hexited, LoopPc.task]
      · cases hpc : d.pc <;> simp_all [Proc.inHand, LoopPc.task, LoopPc.parked]
    | _ => rfl
  have hexecuting : s.tally (Proc.executing t) = 0 := by
    refine Threads.tally_eq_zero fun pid p hp => ?_
    cases p with
    | wrapper w =>
      have hover := wrapper_of_rest hrest hp
      cases hpc : w.pc <;> simp_all [Proc.executing, WrapperPc.over, WrapperPc.unsettled]
    | _ => rfl
  have hsettled : s.shared.settled t = 1 := by omega
  exact Bool.toNat_eq_one.mp hsettled

/-- No slot is ever lost. -/
theorem queueSlots_le (h : (poolMachine σ R cfg).Reachable ok s) : cfg.queueSlots ≤ s.slots := by
  refine h.invariant (I := fun s => cfg.queueSlots ≤ s.slots) ?_ (Pool.slots_new (σ := σ)).ge
  intro s a s' hs _ hstep
  rw [Pool.slots_step hstep]
  exact Nat.le_add_right_of_le hs

/-- At rest no submission waits, if the queue has any slot. -/
theorem submitted_of_rest (hcfg : cfg.Built) (hslots : 0 < cfg.queueSlots)
    (h : (poolMachine σ R cfg).Reachable ok s) (hrest : s.atRest = true) {c : SubmitCall R}
    (hc : s.At pid (.submit c)) : c.pc.over = true := by
  rcases submit_of_rest hrest hc with hover | ⟨-, hpoll⟩
  · exact hover
  · have hheld : s.tally Proc.slots = 0 := by
      refine Threads.tally_eq_zero fun qid q hq => ?_
      cases q with
      | submit c' =>
        show c'.pc.slots = 0
        rcases submit_of_rest hrest hq with hover | ⟨hselecting, -⟩
        · cases hpc : c'.pc <;> first | rfl | simp [hpc, SubmitPc.over] at hover
        · cases hpc : c'.pc <;> first | rfl | simp [hpc, SubmitPc.selecting] at hselecting
      | _ => rfl
    have hfree : 0 < permits s.shared.queueGate := by
      have hmessages := messages_of_rest hcfg h hrest
      have hle := queueSlots_le h
      unfold Pool.slots at hle
      omega
    rcases Semaphore.exists_served _ hfree pid with hserved | ⟨w, hw, hserved⟩
    · rw [hpoll] at hserved
      cases hserved
    · obtain ⟨c', hc', hselecting⟩ := (slotWaiters h).selecting w hw
      rcases submit_of_rest hrest hc' with hover | ⟨-, hpoll'⟩
      · cases hpc : c'.pc <;> simp [hpc, SubmitPc.over, SubmitPc.selecting] at hover hselecting
      · rw [hpoll'] at hserved
        cases hserved

/-! ## Who can go on -/

theorem SubmitCall.awake_of_vain {c : SubmitCall R} {q : Proc R}
    (hvain : (Proc.submit c).vain pid sh = true)
    (hblocked : (Proc.submit c).blocked pid sh = false)
    (hrun : Proc.run cfg .step pid sh (.submit c) = some (sh', q, sp)) :
    ∃ c', q = .submit c' ∧ c'.pc.over = false ∧ (Proc.submit c').vain pid sh' = false := by
  obtain ⟨clone, labels, future, pc, unwound⟩ := c
  cases pc with
  | selectToken t =>
    have htoken : sh.token = false := by simpa [Proc.vain] using hvain
    have hpoll : (pollAcquire pid sh.queueGate).2 = true := by
      simpa [Proc.blocked, SubmitPc.selecting, htoken] using hblocked
    rw [SubmitCall.run_selectToken htoken] at hrun
    cases hrun
    exact ⟨_, rfl, rfl, by simp [Proc.vain, hpoll]⟩
  | selectAcquire t =>
    have hpoll : (pollAcquire pid sh.queueGate).2 = false := by simpa [Proc.vain] using hvain
    have htoken : sh.token = true := by
      simpa [Proc.blocked, SubmitPc.selecting, hpoll] using hblocked
    rw [SubmitCall.run_selectPending hpoll] at hrun
    cases hrun
    exact ⟨_, rfl, rfl, by simp [Proc.vain, htoken]⟩
  | _ => cases hvain

theorem LoopStep.awake_of_vain {d d' : DispatcherLoop} (h : LoopStep cfg pid sh d sh' d' sp)
    (hvain : (Proc.loop d : Proc R).vain pid sh = true)
    (hblocked : (Proc.loop d : Proc R).blocked pid sh = false) :
    d'.pc.leaving = false ∧ (Proc.loop d' : Proc R).vain pid sh' = false := by
  cases h with
  | pending hpc hgate | recvEmpty hpc hlane hsenders =>
    have htoken : sh.token = true := by
      simp_all [Proc.vain, Proc.blocked, LoopPc.awaits, LoopPc.parked]
    exact ⟨rfl, by simp [Proc.vain, htoken]⟩
  | acquireAgain hpc htoken | recvAgain hpc htoken =>
    refine ⟨rfl, ?_⟩
    simp_all [Proc.vain, Proc.blocked, LoopPc.awaits, LoopPc.parked, DispatcherLoop.starved]
  | _ => simp_all [Proc.vain, DispatcherLoop.starved]

/-- The process looked in vain, and the next look is not in vain any more. -/
theorem Proc.awake_of_vain (hworks : p.working = true) (hvain : p.vain pid sh = true)
    (hblocked : p.blocked pid sh = false) (hidles : p.idles sh = false)
    (hrun : Proc.run cfg .step pid sh p = some (sh', p', sp)) :
    p'.working = true ∧ p'.ended = false ∧ p'.aborts sh' = false ∧ p'.vain pid sh' = false := by
  cases p with
  | submit c =>
    obtain ⟨c', rfl, hgo, hawake⟩ := SubmitCall.awake_of_vain hvain hblocked hrun
    exact ⟨rfl, hgo, rfl, hawake⟩
  | loop d =>
    cases Proc.step_of_run hrun with
    | @loop _ _ d' _ hstep =>
      obtain ⟨hserving, hawake⟩ := hstep.awake_of_vain hvain hblocked
      refine ⟨rfl, ?_, ?_, hawake⟩
      · cases hpc : d'.pc <;> simp_all [Proc.ended, LoopPc.leaving]
      · cases hpc : d'.pc <;> simp_all [Proc.aborts, LoopPc.leaving]
    | bystander hby => exact hby.elim
  | wrapper w =>
    have hsame : (Proc.wrapper w).vain pid sh = (Proc.wrapper w).idles sh := rfl
    rw [hsame, hidles] at hvain
    cases hvain
  | _ => cases hworks

/-- The process of a reachable state takes its step when it has not ended, does not wait and
does not abort. -/
theorem Proc.step_of_free (hcfg : cfg.Built) (h : (poolMachine σ R cfg).Reachable ok s)
    (hp : s.At pid p) (hworks : p.working = true) (hended : p.ended = false)
    (haborts : p.aborts s.shared = false) :
    ∃ sh' p' sp, Proc.run cfg .step pid s.shared p = some (sh', p', sp) := by
  have hwaits : p.waits s.shared = false := by
    cases p <;> first | rfl | cases hworks
  have hsome := Proc.isSome_run hcfg h hp
  rw [hended, hwaits, haborts] at hsome
  obtain ⟨⟨sh', p', sp⟩, hrun⟩ := Option.isSome_iff_exists.mp hsome
  exact ⟨sh', p', sp, hrun⟩

/-- A process that neither rests nor polls a future that is not ready makes headway by its own
steps, or aborts. -/
theorem leads_to_headway (hcfg : cfg.Built)
    (h : (poolMachine σ R cfg).Reachable Machine.anyStep s) (hp : s.At pid p)
    (hworks : p.working = true) (hended : p.ended = false)
    (hblocked : p.blocked pid s.shared = false) :
    p.aborts s.shared = true ∨ p.idles s.shared = true ∨
      (poolMachine σ R cfg).LeadsTo (.run .step pid)
        (fun s₁ _ => headway s₁ (.run .step pid) = 1) s := by
  have hnow {u : Pool σ R} {q : Proc R} (hu : (poolMachine σ R cfg).Reachable Machine.anyStep u)
      (hq : u.At pid q) (hqworks : q.working = true) (hqended : q.ended = false)
      (hqaborts : q.aborts u.shared = false) (hawake : q.vain pid u.shared = false) :
      (poolMachine σ R cfg).LeadsTo (.run .step pid)
        (fun s₁ _ => headway s₁ (.run .step pid) = 1) u := by
    obtain ⟨sh', q', sp, hrun⟩ := Proc.step_of_free hcfg hu hq hqworks hqended hqaborts
    refine .now (Program.step_of_run hq hrun) ?_
    simp [headway, hq, Proc.headway, hqworks, hawake]
  cases haborts : p.aborts s.shared with
  | true => exact .inl rfl
  | false =>
    cases hidles : p.idles s.shared with
    | true => exact .inr (.inl rfl)
    | false =>
      refine .inr (.inr ?_)
      cases hvain : p.vain pid s.shared with
      | false => exact hnow h hp hworks hended haborts hvain
      | true =>
        obtain ⟨sh', p', sp, hrun⟩ := Proc.step_of_free hcfg h hp hworks hended haborts
        obtain ⟨hworks', hended', haborts', hawake⟩ :=
          Proc.awake_of_vain hworks hvain hblocked hidles hrun
        have hstep : (poolMachine σ R cfg).step s (.run .step pid) =
            some (s.update pid sh' p' sp) := Program.step_of_run hp hrun
        exact .later hstep (hnow (h.tail trivial hstep) (Threads.update_self hp) hworks' hended'
          haborts' hawake)

/-- Who is not at rest in a pool that is not. -/
theorem Pool.exists_unrested (hrest : s.atRest = false) : ∃ pid p, s.At pid p ∧
    p.working = true ∧ p.ended = false ∧ p.blocked pid s.shared = false := by
  obtain ⟨pid, hlt, hpid⟩ := List.all_eq_false.mp hrest
  have hp := List.getElem?_eq_getElem (List.mem_range.mp hlt)
  rw [hp] at hpid
  refine ⟨pid, _, hp, ?_⟩
  simpa [and_assoc] using hpid

end Waiting

/-- The pool finishes its work. From every reachable state of either pool, shut down or not,
every schedule makes no more headway than `toDo` counts at its start, and a fixed number for
each later call of `submit`. As long as a submission, a dispatcher or a wrapper has not ended
and waits for nothing that is missing, one of them makes headway by its own steps, aborts, or
polls a future that is not ready. And when they have all ended or are blocked, every accepted
task is settled, nothing is queued, and no submission waits if there is a queue slot at all. -/
theorem pool_finishes (σ R : Type) [Semaphore σ] (cfg : PoolConfig) (hcfg : cfg.Built)
    (s s' : Pool σ R) (as : List (PoolEvent R))
    (h : (poolMachine σ R cfg).Reachable Machine.anyStep s)
    (hrun : (poolMachine σ R cfg).exec (fun _ _ => true) as s = some s') :
    (poolMachine σ R cfg).spent headway as s + s'.toDo cfg ≤
        s.toDo cfg + (as.map (PoolEvent.brings cfg)).sum ∧
      (s'.atRest = false → ∃ pid p, s'.At pid p ∧ p.working = true ∧
        (p.aborts s'.shared = true ∨ p.idles s'.shared = true ∨
          (poolMachine σ R cfg).LeadsTo (.run .step pid)
            (fun s₁ _ => headway s₁ (.run .step pid) = 1) s')) ∧
      (s'.atRest = true → (∀ t, (s'.shared.tasks t).accepted = true →
          (s'.shared.tasks t).sender.settled = true) ∧ s'.shared.messages = 0 ∧
        (0 < cfg.queueSlots → ∀ pid c, s'.At pid (.submit c) → c.pc.over = true)) := by
  have hreach := h.trans (Machine.steps_of_exec hrun).any
  refine ⟨?_, fun hbusy => ?_, fun hrest => ?_⟩
  · refine Machine.spent_le (I := fun s => (poolMachine σ R cfg).Reachable Machine.anyStep s)
      ?_ h hrun
    intro s a s' hreach _ hstep
    exact ⟨hreach.tail trivial hstep, Pool.toDo_step hreach hstep⟩
  · obtain ⟨pid, p, hp, hworks, hended, hblocked⟩ := Pool.exists_unrested hbusy
    exact ⟨pid, p, hp, hworks, leads_to_headway hcfg hreach hp hworks hended hblocked⟩
  · exact ⟨fun t ht => settled_of_rest hcfg hreach hrest ht, messages_of_rest hcfg hreach hrest,
      fun hslots pid c hc => submitted_of_rest hcfg hslots hreach hrest hc⟩

/-- Two tasks are submitted to a pool that runs one at a time. -/
def bothSubmitted : Pool FairSemaphore Nat :=
  (poolMachine FairSemaphore Nat (.manager 1 2 "pool")).after (fun _ _ => true)
    (.call (.submit 0 ∅ (.ready 7)) :: stepping (List.replicate 8 1) ++
      .call (.submit 0 ∅ (.ready 8)) :: stepping (List.replicate 8 2))
    (Pool.new _ _ (.manager 1 2 "pool"))

/-- The dispatcher and the wrappers do their work. -/
def workedOff : List (PoolEvent Nat) :=
  stepping (List.replicate 9 0 ++ List.replicate 6 3 ++ List.replicate 9 0 ++
    List.replicate 6 4 ++ List.replicate 3 0)

def bothDone : Pool FairSemaphore Nat :=
  (poolMachine FairSemaphore Nat (.manager 1 2 "pool")).after (fun _ _ => true) workedOff
    bothSubmitted

theorem pool_finishes_both :
    bothSubmitted.atRest = false ∧ bothDone.atRest = true ∧
      (poolMachine FairSemaphore Nat (.manager 1 2 "pool")).spent headway workedOff
        bothSubmitted + 5 ≤ 56 ∧
      (bothDone.shared.tasks 0).sender.settled = true ∧
      (bothDone.shared.tasks 1).sender.settled = true ∧ bothDone.shared.messages = 0 := by
  obtain ⟨hspent, -, hlast⟩ := pool_finishes FairSemaphore Nat (.manager 1 2 "pool")
    (.inl ⟨1, 2, "pool", rfl⟩) bothSubmitted bothDone workedOff
    (Machine.steps_after _ _ _ _).any rfl
  obtain ⟨hsettled, hmessages, -⟩ := hlast (by decide)
  exact ⟨by decide, by decide, hspent, hsettled 0 rfl, hsettled 1 rfl, hmessages⟩

end FuturesOrchestra
