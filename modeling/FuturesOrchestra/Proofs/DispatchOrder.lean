import FuturesOrchestra.Proofs.Borrows

/-!
# Dispatch order is queue order

The log of a lane: which tasks were enqueued and what its dispatcher did with each one
it took out. `InOrder` says that what was enqueued is what the dispatcher has handled,
the task in its hand and what is still queued, in this order. A dispatcher that has
dropped a task is on its way out and drops all the others.
-/

namespace FuturesOrchestra

open Interleaving

variable {σ R : Type} {cfg : PoolConfig} {pid t i : Nat} {sh sh' : Shared σ R}
  {sp : Option (Proc R)} {p p' : Proc R}

/-! ## The log of a lane -/

/-- What a dispatcher does with a task it has taken out of its lane: it inserts it into
the registry, finds it cancelled, or drops it. -/
inductive Fate
  | inserted
  | cancelled
  | dropped
deriving DecidableEq, Repr

inductive LaneEvent
  | enqueued (t : Nat)
  | handled (t : Nat) (fate : Fate)
deriving DecidableEq, Repr

abbrev LaneLog := List LaneEvent

namespace LaneLog

/-- The tasks that were enqueued, in order. -/
def enqueued (log : LaneLog) : List Nat :=
  log.filterMap fun event => match event with
    | .enqueued t => some t
    | .handled .. => none

/-- The tasks that were handled, in order, and what became of them. -/
def fates (log : LaneLog) : List (Nat × Fate) :=
  log.filterMap fun event => match event with
    | .enqueued _ => none
    | .handled t fate => some (t, fate)

/-- The tasks that were handled in one way, in order. -/
def withFate (fate : Fate) (log : LaneLog) : List Nat :=
  ((fates log).filter (·.2 == fate)).map (·.1)

theorem enqueued_append (log log' : LaneLog) :
    enqueued (log ++ log') = enqueued log ++ enqueued log' := List.filterMap_append

theorem fates_append (log log' : LaneLog) : fates (log ++ log') = fates log ++ fates log' :=
  List.filterMap_append

theorem fates_enqueued (log : LaneLog) (t : Nat) : fates (log ++ [.enqueued t]) = fates log := by
  rw [fates_append]
  exact List.append_nil _

theorem enqueued_handled (log : LaneLog) (t : Nat) (fate : Fate) :
    enqueued (log ++ [.handled t fate]) = enqueued log := by
  rw [enqueued_append]
  exact List.append_nil _

theorem mem_withFate {fate : Fate} {log : LaneLog} :
    t ∈ withFate fate log ↔ (t, fate) ∈ fates log := by
  simp [withFate]

end LaneLog

/-- What the next step of the loop does with a task. -/
def DispatcherLoop.handles (sh : Shared σ R) (d : DispatcherLoop) : Option (Nat × Fate) :=
  match d.pc with
  | .insert t => some (t, .inserted)
  | .precheck _ t => if sh.isCancelled t then some (t, .cancelled) else none
  | .guard t => if sh.token then some (t, .dropped) else none
  | .recv false =>
    if sh.token then ((sh.lanes[d.lane]?).bind (·.items.head?)).map (·, .dropped) else none
  | .exit false (some t) => some (t, .dropped)
  | .drain => ((sh.lanes[d.lane]?).bind (·.items.head?)).map (·, .dropped)
  | _ => none

/-- The task that the next step of the call puts into lane `i`. -/
def SubmitCall.enqueues (i : Nat) (sh : Shared σ R) (c : SubmitCall R) : Option Nat :=
  match c.pc with
  | .push t lane => if lane = i ∧ (sh.lanes[lane]?).any (·.receiver) then some t else none
  | _ => none

/-- What happens to lane `i` in a step. -/
def observeLane (i : Nat) (s : Pool σ R) : PoolEvent R → LaneLog
  | .run _ pid => match s.procs[pid]? with
    | some (.submit c) => (c.enqueues i s.shared).toList.map .enqueued
    | some (.loop d) =>
      if d.lane = i then (d.handles s.shared).toList.map fun x => .handled x.1 x.2 else []
    | _ => []
  | .call _ => []

/-- The task in the hand of a loop that has done nothing with it yet. -/
def LoopPc.pending : LoopPc → Option Nat
  | .acquire hand | .acquireToken hand | .recheck hand | .exit _ hand => hand
  | .guard t | .precheck _ t | .insertCount t | .insert t => some t
  | _ => none

/-! ## What a step of a loop does to the order -/

/-- The tasks that a loop has taken out of its lane, or will take, in order. -/
def DispatcherLoop.ahead (d : DispatcherLoop) (l : Lane) : List Nat := d.pc.pending.toList ++ l.items

/-- What a step of a loop does with the tasks ahead of it: nothing, or it handles the
first of them. A loop drops a task only on its way out. -/
inductive Takes (sh sh' : Shared σ R) (d d' : DispatcherLoop) (l l' : Lane) : Prop
  | idle (hhandles : d.handles sh = none) (hahead : d'.ahead l' = d.ahead l)
  | inserted {t : Nat} (hhandles : d.handles sh = some (t, .inserted)) (hahead : d.ahead l = t :: d'.ahead l')
      (hserving : d.pc.leaving = false)
  | cancelled {t : Nat} {permit : Bool} (hhandles : d.handles sh = some (t, .cancelled))
      (hahead : d.ahead l = t :: d'.ahead l') (hserving : d.pc.leaving = false)
      (hpc : d'.pc = .cancelSend permit t)
  | dropped {t : Nat} (hhandles : d.handles sh = some (t, .dropped)) (hahead : d.ahead l = t :: d'.ahead l')
      (hwhy : sh.token = true ∨ d.pc.leaving = true) (hleaving : d'.pc.leaving = true)
      (hsender : sh'.tasks t = (sh.tasks t).dropSender)

variable [Semaphore σ]

/-- A step of a loop takes from its lane in order. -/
theorem LoopStep.takes {d d' : DispatcherLoop} {l : Lane} (h : LoopStep cfg pid sh d sh' d' sp)
    (hl : sh.lanes[d.lane]? = some l) :
    ∃ l', sh'.lanes[d.lane]? = some l' ∧ Takes sh sh' d d' l l' := by
  have hset (l' : Lane) : (sh.lanes.set d.lane l')[d.lane]? = some l' :=
    List.getElem?_set_self (List.getElem?_eq_some_iff.mp hl).1
  have hdrop {sh₁ : Shared σ R} (htasks : sh₁.tasks = sh.tasks) (t : Nat) :
      (sh₁.modifyTask t Task.dropSender).tasks t = (sh.tasks t).dropSender := by
    simp [htasks]
  obtain ⟨lane, pc, panicked⟩ := d
  cases h with
  | recv _ hpc hlane =>
    obtain rfl : pc = _ := hpc
    obtain rfl := Option.some.inj (hl.symm.trans hlane)
    exact ⟨_, hset _, .idle rfl rfl⟩
  | recvRlxd _ hpc hlane htoken =>
    obtain rfl : pc = _ := hpc
    obtain rfl := Option.some.inj (hl.symm.trans hlane)
    refine ⟨_, hset _, .idle ?_ rfl⟩
    simp only [DispatcherLoop.handles, htoken]
    rfl
  | recvDiscard _ hpc hlane htoken =>
    obtain rfl : pc = _ := hpc
    obtain rfl := Option.some.inj (hl.symm.trans hlane)
    refine ⟨_, hset _, .dropped ?_ rfl (.inl htoken) rfl (hdrop rfl _)⟩
    simp only [DispatcherLoop.handles, hlane, htoken]
    rfl
  | drain hpc hlane =>
    obtain rfl : pc = _ := hpc
    obtain rfl := Option.some.inj (hl.symm.trans hlane)
    refine ⟨_, hset _, .dropped ?_ rfl (.inr rfl) rfl (hdrop rfl _)⟩
    simp only [DispatcherLoop.handles, hlane]
    rfl
  | exitReceiver hpc hlane | exitLast hpc hlane =>
    obtain rfl : pc = _ := hpc
    obtain rfl := Option.some.inj (hl.symm.trans hlane)
    exact ⟨_, hset _, .idle rfl rfl⟩
  | drained hpc hlane =>
    obtain rfl : pc = _ := hpc
    obtain rfl := Option.some.inj (hl.symm.trans hlane)
    refine ⟨_, hset _, .idle ?_ rfl⟩
    simp only [DispatcherLoop.handles, hlane]
    rfl
  | @recvClosed permit _ _ hpc hlane | @recvEmpty permit _ _ hpc hlane =>
    obtain rfl : pc = _ := hpc
    obtain rfl := Option.some.inj (hl.symm.trans hlane)
    refine ⟨_, hl, .idle ?_ rfl⟩
    cases permit
    · simp only [DispatcherLoop.handles, hlane]
      split <;> rfl
    · rfl
  | guard _ hpc hflag | precheck _ hpc hflag | precheckRlxd _ hpc hflag =>
    obtain rfl : pc = _ := hpc
    refine ⟨l, hl, .idle ?_ rfl⟩
    simp only [DispatcherLoop.handles, hflag]
    rfl
  | guardStop _ hpc htoken =>
    obtain rfl : pc = _ := hpc
    refine ⟨l, hl, .dropped ?_ rfl (.inl htoken) rfl (hdrop rfl _)⟩
    simp only [DispatcherLoop.handles, htoken]
    rfl
  | exitHand hpc =>
    obtain rfl : pc = _ := hpc
    exact ⟨l, hl, .dropped rfl rfl (.inr rfl) rfl (hdrop rfl _)⟩
  | precheckCancelled hpc hcancelled =>
    obtain rfl : pc = _ := hpc
    refine ⟨l, hl, .cancelled ?_ rfl rfl rfl⟩
    simp only [DispatcherLoop.handles, hcancelled]
    rfl
  | insert _ hpc | insertRlxd _ hpc =>
    obtain rfl : pc = _ := hpc
    exact ⟨l, hl, .inserted rfl rfl rfl⟩
  | topStop hpc | acquired hpc | pending hpc | acquireAgain hpc | acquireStop hpc
  | recheckStop hpc | recvAgain hpc | recvStop hpc | cancelSend hpc | cancelLookup hpc
  | cancelUnheard hpc | cancelNotify hpc | cancelDrop hpc | cancelDropRlxd hpc | cancelPanic hpc
  | exitPermit hpc | lookup hpc | spawn hpc | top _ hpc | topRlxd _ hpc | recheck _ hpc
  | recheckRlxd _ hpc | insertCount _ hpc =>
    obtain rfl : pc = _ := hpc
    exact ⟨l, hl, .idle rfl rfl⟩

/-- Why a loop is on its way out: the token is cancelled, or its lane is empty and
nobody can send to it, or a destructor has panicked under it. -/
theorem LoopStep.quits {d d' : DispatcherLoop} {l' : Lane} (h : LoopStep cfg pid sh d sh' d' sp)
    (hl' : sh'.lanes[d.lane]? = some l')
    (hleaving : d'.pc.leaving = true) :
    d.pc.leaving = true ∨ sh.token = true ∨ d.struck sh = true ∨
      sh.queueSenders = 0 ∧ d'.ahead l' = [] := by
  cases h with
  | topStop _ htoken | acquireStop _ htoken | recheckStop _ htoken | recvDiscard _ _ _ htoken
  | recvStop _ htoken | guardStop _ _ htoken => exact .inr (.inl htoken)
  | recvClosed hpc hlane hsenders =>
    obtain rfl := Option.some.inj (hl'.symm.trans hlane)
    exact .inr (.inr (.inr ⟨hsenders, rfl⟩))
  | cancelPanic hpc hpanics =>
    refine .inr (.inr (.inl ?_))
    rw [DispatcherLoop.struck, hpc]
    exact hpanics
  | exitPermit hpc | exitHand hpc | exitReceiver hpc | exitLast hpc | drain hpc | drained hpc =>
    exact .inl (by rw [hpc]; rfl)
  | _ => cases hleaving

theorem LoopStep.leaving_kept {d d' : DispatcherLoop} (h : LoopStep cfg pid sh d sh' d' sp)
    (hleaving : d.pc.leaving = true) : d'.pc.leaving = true := by
  cases h with
  | exitPermit | exitHand | exitReceiver | exitLast | drain | drained => rfl
  | top _ hpc | topRlxd _ hpc | recheck _ hpc | recheckRlxd _ hpc | recv _ hpc | recvRlxd _ hpc
  | recvDiscard _ hpc | guard _ hpc | guardStop _ hpc | precheck _ hpc | precheckRlxd _ hpc
  | insert _ hpc | insertCount _ hpc | insertRlxd _ hpc =>
    rw [hpc] at hleaving
    cases hleaving
  | topStop hpc | acquired hpc | pending hpc | acquireAgain hpc | acquireStop hpc
  | recheckStop hpc | recvClosed hpc | recvEmpty hpc | recvAgain hpc | recvStop hpc
  | precheckCancelled hpc | lookup hpc | spawn hpc | cancelSend hpc | cancelLookup hpc
  | cancelUnheard hpc | cancelNotify hpc | cancelDrop hpc | cancelDropRlxd hpc | cancelPanic hpc =>
    rw [hpc] at hleaving
    cases hleaving

/-- The task that a loop has found cancelled is told so. -/
theorem LoopStep.tells {d d' : DispatcherLoop} {permit : Bool}
    (h : LoopStep cfg pid sh d sh' d' sp) (hpc : d.pc = .cancelSend permit t) :
    sh'.tasks t = (sh.tasks t).send (.error .taskCancelled) := by
  cases h
  case cancelSend hpc' =>
    rw [hpc] at hpc'
    cases hpc'
    simp
  all_goals simp_all

/-! ## The order of a lane -/

/-- The log of a lane, next to its loop and what is queued in it. -/
structure InOrder (sh : Shared σ R) (d : DispatcherLoop) (l : Lane) (log : LaneLog) : Prop where
  balance : log.enqueued = log.fates.map (·.1) ++ d.ahead l
  accepted : ∀ t ∈ log.enqueued, t < sh.nextTaskId ∧ (sh.tasks t).accepted = true
  nodup : log.enqueued.Nodup
  dropsLast : log.fates.Pairwise fun x y => x.2 = .dropped → y.2 = .dropped
  dropped : ∀ t, (t, .dropped) ∈ log.fates →
    d.pc.leaving = true ∧ sh.token = true ∧ (sh.tasks t).sender = .dropped
  cancelled : ∀ t, (t, .cancelled) ∈ log.fates →
    (sh.tasks t).sender = .used (.error .taskCancelled) ∨ ∃ permit, d.pc = .cancelSend permit t

namespace InOrder

variable {d d' : DispatcherLoop} {l l' : Lane} {log : LaneLog}

omit [Semaphore σ] in
theorem enqueued_of_fates (hs : InOrder sh d l log) {x : Nat × Fate} (hx : x ∈ log.fates) :
    x.1 ∈ log.enqueued := by
  rw [hs.balance]
  exact List.mem_append_left _ (List.mem_map_of_mem hx)

omit [Semaphore σ] in
/-- What happens elsewhere leaves the order alone. -/
theorem evolve (hs : InOrder sh d l log) (h : sh.Evolves sh') (hitems : l'.items = l.items) :
    InOrder sh' d l' log where
  balance := by
    rw [hs.balance, DispatcherLoop.ahead, DispatcherLoop.ahead, hitems]
  accepted t ht := by
    obtain ⟨hlt, haccepted⟩ := hs.accepted t ht
    exact ⟨hlt.trans_le h.nextTaskId, (h.tasks t hlt).accepted haccepted⟩
  nodup := hs.nodup
  dropsLast := hs.dropsLast
  dropped t ht := by
    obtain ⟨hleaving, htoken, hsender⟩ := hs.dropped t ht
    have hlt := (hs.accepted t (hs.enqueued_of_fates ht)).1
    refine ⟨hleaving, h.token htoken, ?_⟩
    rcases (h.tasks t hlt).sender with hlive | hkept
    · rw [hsender] at hlive
      cases hlive
    · rw [hkept, hsender]
  cancelled t ht := by
    have hlt := (hs.accepted t (hs.enqueued_of_fates ht)).1
    refine (hs.cancelled t ht).imp (fun hsender => ?_) id
    rcases (h.tasks t hlt).sender with hlive | hkept
    · rw [hsender] at hlive
      cases hlive
    · rw [hkept, hsender]

omit [Semaphore σ] in
/-- A task is put into the lane behind the others. -/
theorem push (hs : InOrder sh d l log) (ht : t < sh.nextTaskId ∧ (sh.tasks t).accepted = true)
    (hnew : t ∉ log.enqueued) (hitems : l'.items = l.items ++ [t]) :
    InOrder sh d l' (log ++ [.enqueued t]) := by
  have henqueued : LaneLog.enqueued (log ++ [.enqueued t]) = log.enqueued ++ [t] :=
    LaneLog.enqueued_append log _
  have hfates := LaneLog.fates_enqueued log t
  constructor
  · rw [henqueued, hfates, hs.balance, DispatcherLoop.ahead, DispatcherLoop.ahead, hitems,
      List.append_assoc, List.append_assoc]
  · intro u hu
    rw [henqueued, List.mem_append, List.mem_singleton] at hu
    rcases hu with hu | rfl
    · exact hs.accepted u hu
    · exact ht
  · rw [henqueued]
    exact List.nodup_append'.mpr ⟨hs.nodup, List.nodup_singleton t, by simpa using hnew⟩
  · rw [hfates]
    exact hs.dropsLast
  · rw [hfates]
    exact hs.dropped
  · rw [hfates]
    exact hs.cancelled

omit [Semaphore σ] in
/-- The loop goes on and does nothing with a task. -/
theorem idle (hs : InOrder sh d l log) (hahead : d'.ahead l' = d.ahead l)
    (hleaves : d.pc.leaving = true → d'.pc.leaving = true)
    (htells : ∀ t permit, d.pc = .cancelSend permit t →
      (sh.tasks t).sender = .used (.error .taskCancelled)) : InOrder sh d' l' log where
  balance := hahead ▸ hs.balance
  accepted := hs.accepted
  nodup := hs.nodup
  dropsLast := hs.dropsLast
  dropped t ht := (hs.dropped t ht).imp hleaves id
  cancelled t ht := by
    rcases hs.cancelled t ht with hsender | ⟨permit, hpc⟩
    · exact .inl hsender
    · exact .inl (htells t permit hpc)

omit [Semaphore σ] in
/-- The loop handles the first task ahead of it. -/
theorem handle {x : Nat × Fate} (hs : InOrder sh d l log) (hahead : d.ahead l = x.1 :: d'.ahead l')
    (hleaves : d.pc.leaving = true → x.2 = .dropped)
    (htells : ∀ t permit, d.pc = .cancelSend permit t →
      (sh.tasks t).sender = .used (.error .taskCancelled))
    (hdropped : x.2 = .dropped →
      d'.pc.leaving = true ∧ sh.token = true ∧ (sh.tasks x.1).sender = .dropped)
    (hcancelled : x.2 = .cancelled → ∃ permit, d'.pc = .cancelSend permit x.1) :
    InOrder sh d' l' (log ++ [.handled x.1 x.2]) := by
  have henqueued := LaneLog.enqueued_handled log x.1 x.2
  have hfates : LaneLog.fates (log ++ [.handled x.1 x.2]) = log.fates ++ [x] :=
    LaneLog.fates_append log _
  constructor
  · rw [henqueued, hfates, hs.balance, hahead, List.map_append, List.append_assoc]
    rfl
  · rw [henqueued]
    exact hs.accepted
  · rw [henqueued]
    exact hs.nodup
  · rw [hfates, List.pairwise_append]
    refine ⟨hs.dropsLast, List.pairwise_singleton _ _, ?_⟩
    rintro ⟨t, fate⟩ ht y hy rfl
    rw [List.mem_singleton] at hy
    rw [hy]
    exact hleaves (hs.dropped t ht).1
  · intro t ht
    rw [hfates, List.mem_append, List.mem_singleton] at ht
    rcases ht with ht | rfl
    · obtain ⟨hleaving, htoken, hsender⟩ := hs.dropped t ht
      exact ⟨(hdropped (hleaves hleaving)).1, htoken, hsender⟩
    · exact hdropped rfl
  · intro t ht
    rw [hfates, List.mem_append, List.mem_singleton] at ht
    rcases ht with ht | rfl
    · rcases hs.cancelled t ht with hsender | ⟨permit, hpc⟩
      · exact .inl hsender
      · exact .inl (htells t permit hpc)
    · exact .inr (hcancelled rfl)

end InOrder

/-! ## One lane in a run -/

/-- A call puts a task into lane `i`, or leaves it alone. -/
theorem SubmitStep.fills {kind : PoolKind} {c c' : SubmitCall R} {l : Lane}
    (h : SubmitStep kind pid sh c sh' c' sp) (hl : sh.lanes[i]? = some l) :
    ∃ l', sh'.lanes[i]? = some l' ∧
      ((c.enqueues i sh = none ∧ l'.items = l.items) ∨
        ∃ t, c.pc = .push t i ∧ c.enqueues i sh = some t ∧ l'.items = l.items ++ [t] ∧
          (sh'.tasks t).accepted = true) := by
  have hset (l' : Lane) : (sh.lanes.set i l')[i]? = some l' :=
    List.getElem?_set_self (List.getElem?_eq_some_iff.mp hl).1
  cases h with
  | @push t lane l₁ hpc hlane hrecv =>
    by_cases hi : lane = i
    · subst hi
      obtain rfl := Option.some.inj (hl.symm.trans hlane)
      refine ⟨{ l with items := l.items ++ [t] }, hset _, .inr ⟨t, hpc, ?_, rfl, ?_⟩⟩
      · simp [SubmitCall.enqueues, hpc, hlane, hrecv]
      · simp [Task.accept]
    · refine ⟨l, ?_, .inl ⟨?_, rfl⟩⟩
      · simpa [List.getElem?_set_ne hi] using hl
      · simp [SubmitCall.enqueues, hpc, hi]
  | @pushFails t lane l₁ hpc hlane hrecv =>
    refine ⟨l, hl, .inl ⟨?_, rfl⟩⟩
    simp [SubmitCall.enqueues, hpc, hlane, hrecv]
  | refuse hpc | reject hpc | abandon hpc =>
    refine ⟨l, hl, .inl ⟨?_, rfl⟩⟩
    rcases hpc with hpc | hpc <;> simp [SubmitCall.enqueues, hpc]
  | _ =>
    refine ⟨l, hl, .inl ⟨?_, rfl⟩⟩
    simp [SubmitCall.enqueues, *]

/-- What one step does to lane `i` and its loop. -/
inductive LaneMove (cfg : PoolConfig) (i : Nat) (s : Pool σ R) (e : PoolEvent R) (s' : Pool σ R)
    (d d' : DispatcherLoop) (l l' : Lane) : LaneLog → Prop
  | elsewhere (hd : d' = d) (hitems : l'.items = l.items) : LaneMove cfg i s e s' d d' l l' []
  | push {pid : Nat} {c : SubmitCall R} {t : Nat} (hp : s.At pid (.submit c))
      (hpc : c.pc = .push t i) (hd : d' = d) (hitems : l'.items = l.items ++ [t])
      (haccepted : (s'.shared.tasks t).accepted = true) :
      LaneMove cfg i s e s' d d' l l' [.enqueued t]
  | loop {b : Signal} {sp : Option (Proc R)} (he : e = .run b i)
      (hstep : LoopStep cfg i s.shared d s'.shared d' sp)
      (htakes : Takes s.shared s'.shared d d' l l') :
      LaneMove cfg i s e s' d d' l l'
        ((d.handles s.shared).toList.map fun x => .handled x.1 x.2)

section Runs

variable {ok : Pool σ R → PoolEvent R → Prop} {s s' : Pool σ R} {e : PoolEvent R}
  {d : DispatcherLoop} {l : Lane}

theorem lane_moves (hreach : (poolMachine σ R cfg).Reachable ok s) (hd : s.At i (.loop d))
    (hl : s.shared.lanes[i]? = some l) (hnext : (poolMachine σ R cfg).step s e = some s') :
    ∃ d' l' log, s'.At i (.loop d') ∧ s'.shared.lanes[i]? = some l' ∧ observeLane i s e = log ∧
      LaneMove cfg i s e s' d d' l l' log := by
  have hdispatchers := dispatchers hreach
  cases e with
  | call c =>
    obtain ⟨sh, sp, hcall, rfl⟩ := Program.step_call hnext
    refine ⟨d, l, _, Threads.spawn_other hd, ?_, rfl, .elsewhere rfl rfl⟩
    rw [Threads.spawn_shared, (Call.enter_quiet hcall).1.lanes]
    exact hl
  | run b pid =>
    obtain ⟨p, sh, p', sp, hp, hrun, rfl⟩ := Program.step_run hnext
    cases Proc.step_of_run hrun with
    | @submit c _ c' _ hstep =>
      have hne : i ≠ pid := by
        rintro rfl
        cases hd.symm.trans hp
      obtain ⟨l', hl', ⟨hnone, hitems⟩ | ⟨t, hpc, hsome, hitems, haccepted⟩⟩ := hstep.fills hl
      · refine ⟨d, l', [], Threads.update_other hne hd, hl', ?_, .elsewhere rfl hitems⟩
        simp only [observeLane, hp, hnone]
        rfl
      · refine ⟨d, l', [.enqueued t], Threads.update_other hne hd, hl', ?_,
          .push hp hpc rfl hitems haccepted⟩
        simp only [observeLane, hp, hsome]
        rfl
    | @loop d₀ _ d' _ hstep =>
      have hlane := hdispatchers.lane pid d₀ hp
      by_cases hi : i = pid
      · subst hi
        cases hd.symm.trans hp
        rw [← hlane] at hl
        obtain ⟨l', hl', htakes⟩ := hstep.takes hl
        rw [hlane] at hl'
        refine ⟨d', l', _, Threads.update_self hp, hl', ?_, .loop rfl hstep htakes⟩
        simp only [observeLane, hp, hlane, if_true]
      · refine ⟨d, l, [], Threads.update_other hi hd, ?_, ?_, .elsewhere rfl rfl⟩
        · rw [Threads.update_shared, hstep.lane_other (hlane.symm ▸ hi)]
          exact hl
        · simp only [observeLane, hp, hlane, if_neg (Ne.symm hi)]
    | wrapper hstep =>
      have hne : i ≠ pid := by
        rintro rfl
        cases hd.symm.trans hp
      refine ⟨d, l, [], Threads.update_other hne hd, ?_, ?_, .elsewhere rfl rfl⟩
      · have hlanes : sh.lanes = s.shared.lanes := by cases hstep <;> rfl
        rw [Threads.update_shared, hlanes]
        exact hl
      · simp only [observeLane, hp]
    | bystander hby _ hstep =>
      have hne : i ≠ pid := by
        rintro rfl
        cases hd.symm.trans hp
        exact hby
      refine ⟨d, l, [], Threads.update_other hne hd, ?_, ?_, .elsewhere rfl rfl⟩
      · rw [Threads.update_shared, hstep.1.lanes]
        exact hl
      · simp only [observeLane, hp]
        cases p <;> first | rfl | exact hby.elim

theorem LaneMove.nothing_ahead {d' : DispatcherLoop} {l' : Lane} {log : LaneLog}
    (h : LaneMove cfg i s e s' d d' l l' log) (hnone : d.ahead l = [])
    (hpush : ∀ pid c t, s.At pid (.submit c) → c.pc ≠ .push t i) : d'.ahead l' = [] := by
  cases h with
  | elsewhere hd hitems => rw [hd, DispatcherLoop.ahead, hitems, ← DispatcherLoop.ahead, hnone]
  | push hp hpc => exact absurd hpc (hpush _ _ _ hp)
  | loop _ _ htakes =>
    cases htakes with
    | idle _ hahead => rw [hahead, hnone]
    | inserted _ hahead | cancelled _ hahead | dropped _ hahead =>
      rw [hnone] at hahead
      cases hahead

/-- Once every queue handle is closed they stay closed. -/
theorem queueSenders_closed (hreach : (poolMachine σ R cfg).Reachable ok s)
    (hnext : (poolMachine σ R cfg).step s e = some s') (hzero : s.shared.queueSenders = 0) :
    s'.shared.queueSenders = 0 := by
  cases e with
  | call c =>
    obtain ⟨sh, sp, hcall, rfl⟩ := Program.step_call hnext
    exact queueSenders_of_enter hreach hcall hzero
  | run b pid =>
    obtain ⟨p, sh, p', sp, hp, hrun, rfl⟩ := Program.step_run hnext
    exact Nat.le_zero.mp (hzero ▸ Proc.queueSenders_le_of_run hrun)

theorem lane_present (h : (poolMachine σ R cfg).Reachable ok s) (hi : i < cfg.lanes) :
    ∃ d l, s.At i (.loop d) ∧ s.shared.lanes[i]? = some l := by
  have hdispatchers := dispatchers h
  obtain ⟨d, hd⟩ := hdispatchers.present i hi
  obtain ⟨l, hl, -⟩ := hdispatchers.agrees i d hd
  exact ⟨d, l, hd, hl⟩

/-- A task ahead of a loop is not settled. -/
theorem live_of_ahead (h : (poolMachine σ R cfg).Reachable ok s) (hd : s.At pid (.loop d))
    (hl : s.shared.lanes[i]? = some l) (ht : t ∈ d.ahead l) :
    (s.shared.tasks t).sender = .live := by
  rcases List.mem_append.mp ht with hhand | hqueued
  · have htask : d.pc.task = some t := by
      obtain ⟨lane, pc, panicked⟩ := d
      cases pc <;> first | exact Option.mem_toList.mp hhand | cases hhand
    exact live_of_owns h hd htask
  · exact (live_of_queued h (Shared.queued_pos.mpr ⟨i, l, hl, hqueued⟩)).2

/-- A task that a call still holds was not put into a lane. -/
theorem not_accepted_of_submitting (h : (poolMachine σ R cfg).Reachable ok s)
    {c : SubmitCall R} (hp : s.At pid (.submit c)) (ht : c.pc.task = some t) :
    (s.shared.tasks t).accepted = false := by
  rw [← Bool.not_eq_true]
  intro haccepted
  have hle := Threads.le_tally (g := Proc.submitting t) hp
  rw [(created_of_accepted h haccepted).2, Proc.submitting, ht, names_self] at hle
  cases hle

/-- A step of a loop that drops a task unsettled: the token is cancelled, or the loop is on its
way out with tasks in front of it. -/
theorem LoopStep.drops {l : Lane} (h : LoopStep cfg pid sh d sh' d' sp)
    (hl : sh.lanes[d.lane]? = some l) (hlive : (sh.tasks t).sender = .live)
    (hdropped : (sh'.tasks t).sender = .dropped) :
    sh.token = true ∨ d.pc.leaving = true ∧ d.ahead l ≠ [] := by
  obtain ⟨lane, pc, panicked⟩ := d
  cases h with
  | recvDiscard _ _ _ htoken => exact .inl htoken
  | guardStop _ _ htoken => exact .inl htoken
  | drain hpc hlane =>
    obtain rfl : pc = _ := hpc
    obtain rfl := Option.some.inj (hl.symm.trans hlane)
    exact .inr ⟨rfl, List.cons_ne_nil _ _⟩
  | exitHand hpc =>
    obtain rfl : pc = _ := hpc
    exact .inr ⟨rfl, List.cons_ne_nil _ _⟩
  | @cancelSend permit u =>
    rcases Shared.sender_send (t := t) sh u (.error .taskCancelled) with hkept | ⟨-, -, hused⟩
    · rw [hkept, hlive] at hdropped
      cases hdropped
    · rw [hused] at hdropped
      cases hdropped
  | _ =>
    have hkept : (sh.tasks t).sender = .dropped := hdropped
    rw [hlive] at hkept
    cases hkept

section Spared

variable (hspared : ∀ {s : Pool σ R} {b pid d}, ok s (.run b pid) → s.At pid (.loop d) →
  d.struck s.shared = true → s.shared.token = true)

include hspared

/-- A loop leaves when the token is cancelled, or when its lane is empty for good. -/
theorem leaving_shut (h : (poolMachine σ R cfg).Reachable ok s) (hd : s.At i (.loop d))
    (hl : s.shared.lanes[i]? = some l) (hleaving : d.pc.leaving = true) :
    s.shared.token = true ∨ s.shared.queueSenders = 0 ∧ d.ahead l = [] := by
  refine (h.invariant (I := fun s => (poolMachine σ R cfg).Reachable ok s ∧
    ∀ d l, s.At i (.loop d) → s.shared.lanes[i]? = some l → d.pc.leaving = true →
      s.shared.token = true ∨ s.shared.queueSenders = 0 ∧ d.ahead l = []) ?_ ?_).2 d l hd hl hleaving
  · rintro s e s' ⟨hreach, hs⟩ hgood hnext
    refine ⟨hreach.tail hgood hnext, fun d' l' hd' hl' hleaving => ?_⟩
    have hevolves : s.shared.Evolves s'.shared := .steps (.tail .refl hgood hnext)
    have hlanes := (dispatchers hreach).lanes
    have hlt : i < s'.shared.lanes.length := (List.getElem?_eq_some_iff.mp hl').1
    obtain ⟨d, l, hd, hl⟩ := lane_present hreach (i := i) (by rw [← hlanes, ← hevolves.lanes]; exact hlt)
    obtain ⟨d₁, l₁, log, hd₁, hl₁, -, hmove⟩ := lane_moves hreach hd hl hnext
    cases hd'.symm.trans hd₁
    cases hl'.symm.trans hl₁
    have hkept (hzero : s.shared.queueSenders = 0) (hnone : d.ahead l = []) :
        s'.shared.queueSenders = 0 ∧ d'.ahead l' = [] := by
      refine ⟨queueSenders_closed hreach hnext hzero, hmove.nothing_ahead hnone ?_⟩
      rintro pid c t hp hpc
      -- a call that is about to push keeps a queue handle open
      have hborrowed : (Proc.submit c).borrowed = some c.clone := by
        simp [Proc.borrowed, SubmitPc.over, hpc]
      exact absurd hzero (queueSenders_pos hreach hp hborrowed).ne'
    have hbefore (hleaving : d.pc.leaving = true) :
        s'.shared.token = true ∨ s'.shared.queueSenders = 0 ∧ d'.ahead l' = [] :=
      (hs d l hd hl hleaving).imp hevolves.token fun hshut => hkept hshut.1 hshut.2
    cases hmove with
    | elsewhere hsame => exact hbefore (hsame ▸ hleaving)
    | push _ _ hsame => exact hbefore (hsame ▸ hleaving)
    | loop he hstep =>
      subst he
      have hlane := (dispatchers hreach).lane i d hd
      rcases hstep.quits (hlane.symm ▸ hl') hleaving with hold | htoken | hstruck | ⟨hzero, hnone⟩
      · exact hbefore hold
      · exact .inl (hevolves.token htoken)
      · exact .inl (hevolves.token (hspared hgood hd hstruck))
      · exact .inr ⟨queueSenders_closed hreach hnext hzero, hnone⟩
  · refine ⟨.refl, fun d l hd _ hleaving => ?_⟩
    cases (Pool.init_loop hd).2
    cases hleaving

/-- A loop drops a task unsettled only after a shutdown. -/
theorem shut_of_drop (h : (poolMachine σ R cfg).Reachable ok s) (hd : s.At pid (.loop d))
    (hstep : LoopStep cfg pid s.shared d sh' d' sp) (hlive : (s.shared.tasks t).sender = .live)
    (hdropped : (sh'.tasks t).sender = .dropped) : s.shared.token = true := by
  obtain ⟨l, hl, -⟩ := (dispatchers h).agrees pid d hd
  have hlane := (dispatchers h).lane pid d hd
  rcases hstep.drops (hlane.symm ▸ hl) hlive hdropped with htoken | ⟨hleaving, hahead⟩
  · exact htoken
  · rcases leaving_shut hspared h hd hl hleaving with htoken | ⟨-, hnone⟩
    · exact htoken
    · exact absurd hnone hahead

/-- A step of the loop of a lane handles what is ahead in order. -/
theorem InOrder.takes {d d' : DispatcherLoop} {l l' : Lane} {log : LaneLog}
    (hreach : (poolMachine σ R cfg).Reachable ok s) (hevolves : s.shared.Evolves sh')
    (hd : s.At i (.loop d)) (hl : s.shared.lanes[i]? = some l) (hs : InOrder s.shared d l log)
    (hstep : LoopStep cfg i s.shared d sh' d' sp) (h : Takes s.shared sh' d d' l l') :
    InOrder sh' d' l' (log ++ (d.handles s.shared).toList.map fun x => .handled x.1 x.2) := by
  have hs' : InOrder sh' d l log := hs.evolve hevolves rfl
  have htells : ∀ t permit, d.pc = .cancelSend permit t →
      (sh'.tasks t).sender = .used (.error .taskCancelled) := by
    intro t permit hpc
    have hlive := live_of_owns hreach hd (t := t) (by rw [Proc.owns, hpc]; rfl)
    rw [hstep.tells hpc, Task.send, hlive]
  cases h with
  | idle hhandles hahead =>
    rw [hhandles, Option.toList_none, List.map_nil, List.append_nil]
    exact hs'.idle hahead hstep.leaving_kept htells
  | inserted hhandles hahead hserving =>
    rw [hhandles]
    refine hs'.handle hahead ?_ htells (by rintro ⟨⟩) (by rintro ⟨⟩)
    rw [hserving]
    rintro ⟨⟩
  | cancelled hhandles hahead hserving hpc' =>
    rw [hhandles]
    refine hs'.handle hahead ?_ htells (by rintro ⟨⟩) fun _ => ⟨_, hpc'⟩
    rw [hserving]
    rintro ⟨⟩
  | @dropped t hhandles hahead hwhy hleaving hsender =>
    rw [hhandles]
    refine hs'.handle hahead (fun _ => rfl) htells (fun _ => ⟨hleaving, ?_, ?_⟩) (by rintro ⟨⟩)
    · rcases hwhy with htoken | hbefore
      · exact hevolves.token htoken
      · rcases leaving_shut hspared hreach hd hl hbefore with htoken | ⟨-, hnone⟩
        · exact hevolves.token htoken
        · rw [hnone] at hahead
          cases hahead
    · have hlive := live_of_ahead hreach hd hl (hahead ▸ List.mem_cons_self)
      rw [hsender, Task.dropSender, hlive]

theorem in_order (hi : i < cfg.lanes) {log : LaneLog}
    (h : ((poolMachine σ R cfg).logged (observeLane i)).Reachable (fun x e => ok x.1 e) (s, log)) :
    ∃ d l, s.At i (.loop d) ∧ s.shared.lanes[i]? = some l ∧ InOrder s.shared d l log := by
  refine (h.invariant (I := fun x => (poolMachine σ R cfg).Reachable ok x.1 ∧
    ∃ d l, x.1.At i (.loop d) ∧ x.1.shared.lanes[i]? = some l ∧ InOrder x.1.shared d l x.2)
    ?_ ?_).2
  · rintro ⟨s, log⟩ e ⟨s', log'⟩ ⟨hreach, d, l, hd, hl, hs⟩ hgood hstep
    obtain ⟨hnext, hlog⟩ := Machine.logged_step hstep
    have hreach' := hreach.tail hgood hnext
    have hevolves : s.shared.Evolves s'.shared := .steps (.tail .refl hgood hnext)
    obtain ⟨d', l', new, hd', hl', hnew, hmove⟩ := lane_moves hreach hd hl hnext
    rw [hnew] at hlog
    refine ⟨hreach', d', l', hd', hl', ?_⟩
    subst hlog
    cases hmove with
    | elsewhere hsame hitems =>
      rw [hsame, List.append_nil]
      exact hs.evolve hevolves hitems
    | @push pid c t hp hpc hsame hitems haccepted =>
      have htask : c.pc.task = some t := by rw [hpc]; rfl
      have hlt := lt_of_carries hreach hp (t := t) htask
      rw [hsame]
      refine (hs.evolve hevolves rfl).push ⟨hlt.trans_le hevolves.nextTaskId, haccepted⟩ ?_ hitems
      intro hold
      have hbefore := (hs.accepted t hold).2
      rw [not_accepted_of_submitting hreach hp htask] at hbefore
      cases hbefore
    | loop he hstep htakes =>
      exact InOrder.takes hspared hreach hevolves hd hl hs hstep htakes
  · have hinit : (poolMachine σ R cfg).Reachable ok (Pool.new σ R cfg) := .refl
    obtain ⟨d, l, hd, hl⟩ := lane_present hinit hi
    refine ⟨.refl, d, l, hd, hl, ?_⟩
    have hahead : d.ahead l = [] := by
      have hlane : (List.replicate cfg.lanes (⟨[], true, false⟩ : Lane))[i]? = some l := hl
      rw [(List.getElem?_replicate_of_lt hi).symm.trans hlane |> Option.some.inj |>.symm]
      cases (Pool.init_loop hd).2
      rfl
    refine ⟨by rw [hahead]; rfl, ?_, List.nodup_nil, .nil, ?_, ?_⟩
    all_goals rintro t ⟨⟩

end Spared

/-- A strict pool accepts a task by putting it into its lane. -/
theorem SubmitStep.accepts_queued {c c' : SubmitCall R}
    (h : SubmitStep .strict pid sh c sh' c' sp) (haccepted : (sh'.tasks t).accepted = true) :
    (sh.tasks t).accepted = true ∨ ∃ i < sh.lanes.length, c.enqueues i sh = some t := by
  cases h with
  | create | createScan =>
    by_cases ht : t = sh.nextTaskId
    · simp [ht, Task.new] at haccepted
    · exact .inl (by simpa [ht] using haccepted)
  | reject | selectCancelled | abandon | pushFails =>
    refine .inl ?_
    rwa [Shared.withdraw_kept Task.accepted Task.dropSender_accepted fun _ => rfl] at haccepted
  | @push u lane l hpc hlane hrecv =>
    by_cases hu : t = u
    · subst hu
      refine .inr ⟨lane, (List.getElem?_eq_some_iff.mp hlane).1, ?_⟩
      simp [SubmitCall.enqueues, hpc, hlane, hrecv]
    · exact .inl (by simpa [hu] using haccepted)
  | spawn hkind => cases hkind
  | _ => exact .inl haccepted

/-- Every accepted task of a pool with one lane is in the log of the lane. -/
theorem accepted_enqueued (hkind : cfg.kind = .strict) (hone : cfg.lanes = 1) {log : LaneLog}
    (h : ((poolMachine σ R cfg).logged (observeLane 0)).Reachable (fun x e => ok x.1 e) (s, log))
    (haccepted : (s.shared.tasks t).accepted = true) : t ∈ log.enqueued := by
  refine (h.invariant (I := fun x => (poolMachine σ R cfg).Reachable ok x.1 ∧
    ∀ t, (x.1.shared.tasks t).accepted = true → t ∈ LaneLog.enqueued x.2) ?_ ?_).2 t haccepted
  · rintro ⟨s, log⟩ e ⟨s', log'⟩ ⟨hreach, hs⟩ hgood hlogged
    obtain ⟨hnext, hlog⟩ := Machine.logged_step hlogged
    refine ⟨hreach.tail hgood hnext, fun t haccepted => ?_⟩
    subst hlog
    rw [LaneLog.enqueued_append, List.mem_append]
    have hbefore (h : (s.shared.tasks t).accepted = true) :
        t ∈ LaneLog.enqueued log ∨ t ∈ LaneLog.enqueued (observeLane 0 s e) := .inl (hs t h)
    cases e with
    | call c =>
      obtain ⟨sh, sp, hcall, rfl⟩ := Program.step_call hnext
      exact hbefore (((Call.enter_quiet hcall).1.tasks t).accepted ▸ haccepted)
    | run b pid =>
      obtain ⟨p, sh, p', sp, hp, hrun, rfl⟩ := Program.step_run hnext
      cases Proc.step_of_run hrun with
      | submit hstep =>
        rw [hkind] at hstep
        rcases hstep.accepts_queued haccepted with hold | ⟨i, hi, henqueues⟩
        · exact hbefore hold
        · rw [(dispatchers hreach).lanes, hone, Nat.lt_one_iff] at hi
          subst hi
          refine .inr ?_
          simp only [observeLane, hp, henqueues]
          exact List.mem_singleton_self t
      | loop hstep => exact hbefore (hstep.accepted_kept ▸ haccepted)
      | wrapper hstep => exact hbefore (hstep.accepted_kept ▸ haccepted)
      | bystander _ _ hstep => exact hbefore ((hstep.1.tasks t).accepted ▸ haccepted)
  · exact ⟨.refl, nofun⟩

end Runs

/-! ## Dispatch order -/

/-- What the dispatcher of a lane has made of its queue: it has served the first of the
tasks that were enqueued, and inserted those of them that it did not find cancelled into
the registry, in this order; the ones after them it has dropped, and only after the token
was cancelled; the rest it has in its hand or in its lane. -/
structure Dispatched (sh : Shared σ R) (d : DispatcherLoop) (l : Lane) (log : LaneLog)
    (served dropped : List Nat) : Prop where
  order : log.enqueued = served ++ dropped ++ d.pc.pending.toList ++ l.items
  inserted : log.withFate .inserted = served.filter fun t => t ∉ log.withFate .cancelled
  cancelled : ∀ t ∈ log.withFate .cancelled, t ∈ served ∧
    ((sh.tasks t).sender = .used (.error .taskCancelled) ∨ ∃ permit, d.pc = .cancelSend permit t)
  dropped : ∀ t ∈ dropped, sh.token = true ∧ (sh.tasks t).sender = .dropped

/-- The event drops no pre-cancelled task with a destructor that panics in a dispatcher
loop, unless the token is cancelled. -/
def keepsDispatchers (s : Pool σ R) : PoolEvent R → Bool
  | .run _ pid => match s.procs[pid]? with
    | some (.loop d) => !d.struck s.shared || s.shared.token
    | _ => true
  | .call _ => true

omit [Semaphore σ] in
/-- Fates in which the drops come last. -/
theorem split_fates {fates : List (Nat × Fate)}
    (h : fates.Pairwise fun x y => x.2 = .dropped → y.2 = .dropped) :
    ∃ served dropped, fates = served ++ dropped ∧ (∀ x ∈ served, x.2 ≠ .dropped) ∧
      ∀ x ∈ dropped, x.2 = .dropped := by
  induction h with
  | nil => exact ⟨[], [], rfl, nofun, nofun⟩
  | @cons x rest hx _ ih =>
    by_cases hdropped : x.2 = .dropped
    · refine ⟨[], x :: rest, rfl, nofun, ?_⟩
      intro y hy
      rcases List.mem_cons.mp hy with rfl | hy
      · exact hdropped
      · exact hx y hy hdropped
    · obtain ⟨served, dropped, rfl, hserved, hrest⟩ := ih
      refine ⟨x :: served, dropped, rfl, ?_, hrest⟩
      intro y hy
      rcases List.mem_cons.mp hy with rfl | hy
      · exact hdropped
      · exact hserved y hy

omit [Semaphore σ] in
theorem InOrder.dispatched {d : DispatcherLoop} {l : Lane} {log : LaneLog}
    (hs : InOrder sh d l log) : ∃ served dropped, Dispatched sh d l log served dropped := by
  obtain ⟨S, D, hfates, hserved, hdropped⟩ := split_fates hs.dropsLast
  have hnodup : (log.fates.map (·.1)).Nodup := by
    have hall := hs.nodup
    rw [hs.balance] at hall
    exact hall.of_append_left
  have hsame : ∀ {x y : Nat × Fate}, x ∈ log.fates → y ∈ log.fates → x.1 = y.1 → x = y :=
    fun hx hy heq => List.inj_on_of_nodup_map hnodup hx hy heq
  refine ⟨S.map (·.1), D.map (·.1), ?_, ?_, ?_, ?_⟩
  · rw [hs.balance, hfates, List.map_append, DispatcherLoop.ahead, ← List.append_assoc]
  · have hnone : D.filter (·.2 == .inserted) = [] := by
      refine List.filter_eq_nil_iff.mpr fun x hx => ?_
      rw [hdropped x hx]
      decide
    rw [LaneLog.withFate, hfates, List.filter_append, hnone, List.append_nil, List.filter_map]
    congr 1
    refine List.filter_congr fun x hx => ?_
    have hx' : x ∈ log.fates := hfates ▸ List.mem_append_left D hx
    -- a task has one fate
    cases hfate : x.2 with
    | inserted =>
      have hnot : x.1 ∉ log.withFate .cancelled := by
        intro hcancelled
        have heq := hsame hx' (LaneLog.mem_withFate.mp hcancelled) rfl
        rw [heq] at hfate
        cases hfate
      simp [hnot]
    | cancelled =>
      have hmem : x.1 ∈ log.withFate .cancelled := LaneLog.mem_withFate.mpr (hfate ▸ hx')
      simp [hmem]
    | dropped => exact absurd hfate (hserved x hx)
  · intro t ht
    have hmem := LaneLog.mem_withFate.mp ht
    refine ⟨?_, hs.cancelled t hmem⟩
    rw [hfates, List.mem_append] at hmem
    rcases hmem with hmem | hmem
    · exact List.mem_map_of_mem hmem
    · cases hdropped _ hmem
  · intro t ht
    obtain ⟨x, hx, rfl⟩ := List.mem_map.mp ht
    have hmem : (x.1, Fate.dropped) ∈ log.fates := by
      rw [← hdropped x hx, hfates]
      exact List.mem_append_right _ hx
    exact (hs.dropped _ hmem).2

omit [Semaphore σ] in
theorem pair_sublist_left {a b : Nat} {xs ys : List Nat} (h : [a, b].Sublist (xs ++ ys))
    (hb : b ∉ ys) : [a, b].Sublist xs := by
  obtain ⟨l₁, l₂, heq, hl₁, hl₂⟩ := List.sublist_append_iff.mp h
  have hmem : b ∈ l₂ → b ∈ ys := fun hb => hl₂.subset hb
  rcases l₁ with - | ⟨a', - | ⟨b', rest⟩⟩
  · refine absurd (hmem ?_) hb
    rw [← List.nil_append l₂, ← heq]
    simp
  · rw [List.singleton_append, List.cons.injEq] at heq
    exact absurd (hmem (heq.2 ▸ List.mem_singleton_self b)) hb
  · simp only [List.cons_append, List.cons.injEq] at heq
    obtain ⟨rfl, rfl, hrest⟩ := heq
    rwa [(List.append_eq_nil_iff.mp hrest.symm).1] at hl₁

omit [Semaphore σ] in
/-- Two tasks that were enqueued in order are inserted in order, unless the first was
found cancelled. -/
theorem Dispatched.in_order {d : DispatcherLoop} {l : Lane} {log : LaneLog}
    {served dropped : List Nat} {t₁ t₂ : Nat} (h : Dispatched sh d l log served dropped)
    (hnodup : log.enqueued.Nodup) (henqueued : [t₁, t₂].Sublist log.enqueued)
    (hinserted : t₂ ∈ log.withFate .inserted) :
    t₁ ∈ log.withFate .cancelled ∨ [t₁, t₂].Sublist (log.withFate .inserted) := by
  rw [h.inserted, List.mem_filter] at hinserted
  by_cases hcancelled : t₁ ∈ log.withFate .cancelled
  · exact .inl hcancelled
  · refine .inr ?_
    have hserved : [t₁, t₂].Sublist served := by
      rw [h.order, List.append_assoc, List.append_assoc] at henqueued hnodup
      have hnot : t₂ ∉ dropped ++ (d.pc.pending.toList ++ l.items) := fun hrest =>
        List.disjoint_of_nodup_append hnodup hinserted.1 hrest
      exact pair_sublist_left henqueued hnot
    have hserves : t₂ ∉ log.withFate .cancelled := of_decide_eq_true hinserted.2
    have hfilter := hserved.filter fun t => decide (t ∉ log.withFate .cancelled)
    have hboth : ([t₁, t₂].filter fun t => decide (t ∉ log.withFate .cancelled)) = [t₁, t₂] := by
      simp [hcancelled, hserves]
    rwa [hboth, ← h.inserted] at hfilter

/-- Dispatch order is queue order. In every run of either pool in which no destructor
panics in a dispatcher loop before the token is cancelled, and for each lane: the tasks
its dispatcher has inserted into the registry are the tasks that were enqueued, in this
order, without those that it found cancelled, without a last part that it dropped after
the token was cancelled, and without those it has not got to. In the strict pool a task
that was accepted before another one was submitted is inserted before it, unless it was
found cancelled. -/
theorem dispatch_in_queue_order (σ R : Type) [Semaphore σ] (cfg : PoolConfig) (i : Nat)
    (hi : i < cfg.lanes) :
    let M := poolMachine σ R cfg
    let L := M.logged (observeLane i)
    let ok : Pool σ R → PoolEvent R → Prop := fun s e => keepsDispatchers s e = true
    (∀ s, M.Reachable ok s → ∃ log, L.Reachable (fun x e => ok x.1 e) (s, log)) ∧
    ∀ s log, L.Reachable (fun x e => ok x.1 e) (s, log) →
      (∃ d l served dropped, s.At i (.loop d) ∧ s.shared.lanes[i]? = some l ∧
        Dispatched s.shared d l log served dropped) ∧
      ∀ limit capacity name, cfg = .manager limit capacity name →
        ∀ s₀ log₀ t₁ t₂, L.Reachable (fun x e => ok x.1 e) (s₀, log₀) →
          L.Steps (fun x e => ok x.1 e) (s₀, log₀) (s, log) →
          (s₀.shared.tasks t₁).accepted = true → s₀.shared.nextTaskId ≤ t₂ →
          t₂ ∈ LaneLog.withFate .inserted log →
          t₁ ∈ LaneLog.withFate .cancelled log ∨
            [t₁, t₂].Sublist (LaneLog.withFate .inserted log) := by
  intro M L ok
  have hspared : ∀ {s : Pool σ R} {b pid d}, ok s (.run b pid) → s.At pid (.loop d) →
      d.struck s.shared = true → s.shared.token = true := by
    intro s b pid d hok hp hstruck
    simpa [ok, keepsDispatchers, hp, hstruck] using hok
  refine ⟨fun s h => h.exists_log [], fun s log h => ?_⟩
  obtain ⟨d, l, hd, hl, horder⟩ := in_order hspared hi h
  obtain ⟨served, dropped, hdispatched⟩ := horder.dispatched
  refine ⟨⟨d, l, served, dropped, hd, hl, hdispatched⟩, ?_⟩
  rintro limit capacity name rfl s₀ log₀ t₁ t₂ h₀ hsteps haccepted hnew hinserted
  obtain rfl : i = 0 := Nat.lt_one_iff.mp hi
  obtain ⟨d₀, l₀, -, -, horder₀⟩ := in_order hspared hi h₀
  obtain ⟨more, hmore⟩ := hsteps.log_grows
  have hfirst : t₁ ∈ LaneLog.enqueued log₀ := accepted_enqueued rfl rfl h₀ haccepted
  have hsecond : t₂ ∈ LaneLog.enqueued log :=
    horder.enqueued_of_fates (LaneLog.mem_withFate.mp hinserted)
  refine hdispatched.in_order horder.nodup ?_ hinserted
  subst hmore
  rw [LaneLog.enqueued_append] at hsecond ⊢
  have hlater : t₂ ∈ LaneLog.enqueued more := by
    refine (List.mem_append.mp hsecond).resolve_left fun hold => ?_
    exact absurd (horder₀.accepted t₂ hold).1 (Nat.not_lt.mpr hnew)
  exact (List.singleton_sublist.mpr hfirst).append (List.singleton_sublist.mpr hlater)

/-- Two tasks are submitted to a strict pool, one after the other, and the first is
cancelled. -/
def twoQueued : Pool FairSemaphore Nat × LaneLog :=
  let M := (poolMachine FairSemaphore Nat (.manager 2 4 "pool")).logged (observeLane 0)
  M.after (fun x e => keepsDispatchers x.1 e)
    (.call (.submit 0 ∅ (.ready 7)) :: stepping (List.replicate 8 1) ++
      .call (.submit 0 ∅ (.ready 7)) :: stepping (List.replicate 8 2) ++ [.call (.cancel 0)])
    M.init

/-- A third one follows, and the dispatcher serves them all. -/
def threeServed : Pool FairSemaphore Nat × LaneLog :=
  let M := (poolMachine FairSemaphore Nat (.manager 2 4 "pool")).logged (observeLane 0)
  M.after (fun x e => keepsDispatchers x.1 e)
    (.call (.submit 0 ∅ (.ready 7)) :: stepping (List.replicate 8 3 ++ List.replicate 27 0))
    twoQueued

theorem dispatch_in_queue_order_three :
    LaneLog.enqueued threeServed.2 = [0, 1, 2] ∧
      LaneLog.withFate .cancelled threeServed.2 = [0] ∧
      [1, 2].Sublist (LaneLog.withFate .inserted threeServed.2) := by
  let L := (poolMachine FairSemaphore Nat (.manager 2 4 "pool")).logged (observeLane 0)
  have hfirst : L.Reachable (fun x e => keepsDispatchers x.1 e = true) twoQueued :=
    Machine.steps_after _ _ _ _
  have hrest : L.Steps (fun x e => keepsDispatchers x.1 e = true) twoQueued threeServed :=
    Machine.steps_after _ _ _ _
  have hlaw := dispatch_in_queue_order FairSemaphore Nat (.manager 2 4 "pool") 0 (by decide)
  have horder := (hlaw.2 threeServed.1 threeServed.2 (hfirst.trans hrest)).2 2 4 "pool" rfl
    twoQueued.1 twoQueued.2 1 2 hfirst hrest rfl (by decide) (by decide)
  exact ⟨by decide, by decide, horder.resolve_left (by decide)⟩

/-- A task whose destructor panics is cancelled in the queue; another one is behind it. -/
def droppedBehind : Pool FairSemaphore Nat × LaneLog :=
  let M := (poolMachine FairSemaphore Nat (.manager 1 2 "pool")).logged (observeLane 0)
  M.after (fun _ _ => true)
    (.call (.submit 0 ∅ panicsWhenDropped) :: stepping (List.replicate 8 1) ++
      .call (.submit 0 ∅ (.ready 7)) :: stepping (List.replicate 8 2) ++
      .call (.cancel 0) :: stepping (List.replicate 13 0)) M.init

/-- The dispatcher unwinds and drops the other one, which nobody has cancelled, in a pool
that nobody shuts down. -/
theorem unwinding_dispatcher_drops_queue :
    ((poolMachine FairSemaphore Nat (.manager 1 2 "pool")).logged (observeLane 0)).Reachable
        Machine.anyStep droppedBehind ∧
      droppedBehind.1.shared.token = false ∧
      droppedBehind.1.shared.isCancelled 1 = false ∧
      LaneLog.enqueued droppedBehind.2 = [0, 1] ∧
      LaneLog.withFate .inserted droppedBehind.2 = [] ∧
      LaneLog.withFate .dropped droppedBehind.2 = [1] ∧
      (droppedBehind.1.shared.tasks 1).sender = .dropped :=
  ⟨(Machine.steps_after _ _ _ _).any, rfl, rfl, by decide, by decide, by decide, rfl⟩

end FuturesOrchestra
