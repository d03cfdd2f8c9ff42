import FuturesOrchestra.Proofs.DispatchOrder
import FuturesOrchestra.Proofs.Progress

/-!
# A direct dispatch overtakes nothing

A submit call of the relaxed pool starts its task from its own thread when it has found
every lane empty and a free permit. A task that was accepted before is then not queued. It
can be in the hand of a dispatcher, which keeps the call from a permit only while it waits
for one itself; apart from that the task was started or settled.
-/

namespace FuturesOrchestra

open Interleaving Semaphore

variable {σ R : Type} {cfg : PoolConfig} {pid t u n : Nat} {sh sh' : Shared σ R}
  {sp : Option (Proc R)} {d d' : DispatcherLoop} {c c' : SubmitCall R} {s s' : Pool σ R}
  {e : PoolEvent R}

/-! ## Tasks that are past their start -/

/-- Task `u` has a wrapper or is settled. -/
def Past (u : Nat) (s : Pool σ R) : Prop :=
  ¬Unstarted s u ∨ (s.shared.tasks u).sender ≠ .live

/-- Task `u` was started, was told that it is cancelled, or was dropped after a shutdown. -/
def Handled (u : Nat) (s : Pool σ R) : Prop :=
  (∃ q w, s.At q (.wrapper w) ∧ w.task = u) ∨
    (s.shared.tasks u).sender = .used (.error .taskCancelled) ∨
    (s.shared.tasks u).sender = .dropped ∧ s.shared.token = true

variable [Semaphore σ] {ok : Pool σ R → PoolEvent R → Prop}

theorem unstarted_of_next (hnext : (poolMachine σ R cfg).step s e = some s')
    (h : Unstarted s' u) : Unstarted s u := by
  cases e with
  | call c =>
    obtain ⟨sh, sp, -, rfl⟩ := Program.step_call hnext
    exact fun qid w hw => h qid w (Threads.spawn_other hw)
  | run b pid =>
    obtain ⟨p, sh, p', sp, hp, hrun, rfl⟩ := Program.step_run hnext
    exact Unstarted.of_update hp (Proc.step_of_run hrun) h

theorem Past.next (h : Past u s) (hlt : u < s.shared.nextTaskId)
    (hnext : (poolMachine σ R cfg).step s e = some s') : Past u s' := by
  rcases h with hstarted | hsettled
  · exact .inl fun hnone => hstarted (unstarted_of_next hnext hnone)
  · have hsteps : (poolMachine σ R cfg).Steps Machine.anyStep s s' := .tail .refl trivial hnext
    have hevolves := Shared.Evolves.steps hsteps
    rcases (hevolves.tasks u hlt).sender with hlive | hkept
    · exact absurd hlive hsettled
    · exact .inr (hkept ▸ hsettled)

/-- An accepted task that is neither queued nor held by a dispatcher is past its start. -/
theorem past_of_nowhere (h : (poolMachine σ R cfg).Reachable ok s)
    (haccepted : (s.shared.tasks u).accepted = true)
    (hlanes : ∀ (i : Nat) (l : Lane), s.shared.lanes[i]? = some l → u ∉ l.items)
    (hloops : ∀ i d, s.At i (.loop d) → d.pc.task ≠ some u) : Past u s := by
  by_contra hpast
  obtain ⟨hunstarted, hlive⟩ := not_or.mp hpast
  rw [not_not] at hunstarted hlive
  have hplaced := task_placed h u
  have hcreated : s.shared.created u = 1 := if_pos (created_of_accepted h haccepted).1
  have hsettled : s.shared.settled u = 0 := by rw [Shared.settled, hlive]; rfl
  have hqueued : s.shared.queued u = 0 := by
    refine Nat.eq_zero_of_not_pos fun hpos => ?_
    obtain ⟨i, l, hl, hu⟩ := Shared.queued_pos.mp hpos
    exact hlanes i l hl hu
  have hnobody : (s.tally fun p => names u p.owns) = 0 := by
    refine Threads.tally_eq_zero fun pid p hp => if_neg fun howns => ?_
    cases p with
    | submit c =>
      have hnot := not_accepted_of_submitting h hp (t := u) howns
      rw [haccepted] at hnot
      cases hnot
    | loop d => exact hloops pid d hp howns
    | wrapper w => exact hunstarted pid w hp (Option.some.inj (Proc.carries_of_owns howns))
    | _ => cases howns
  omega

section Spared

variable (hspared : ∀ {s : Pool σ R} {b pid d}, ok s (.run b pid) → s.At pid (.loop d) →
  d.struck s.shared = true → s.shared.token = true)

include hspared

/-- An accepted task that was dropped before its start was dropped after a shutdown. -/
theorem dropped_shut (h : (poolMachine σ R cfg).Reachable ok s)
    (haccepted : (s.shared.tasks u).accepted = true) (hunstarted : Unstarted s u)
    (hdropped : (s.shared.tasks u).sender = .dropped) : s.shared.token = true := by
  refine (h.invariant (I := fun s => (poolMachine σ R cfg).Reachable ok s ∧
    ((s.shared.tasks u).accepted = true → Unstarted s u → (s.shared.tasks u).sender = .dropped →
      s.shared.token = true)) ?_ ?_).2 haccepted hunstarted hdropped
  · rintro s e s' ⟨hreach, hs⟩ hgood hnext
    refine ⟨hreach.tail hgood hnext, fun haccepted' hunstarted' hdropped' => ?_⟩
    have hevolves : s.shared.Evolves s'.shared := .steps (.tail .refl hgood hnext)
    have hunstarted := unstarted_of_next hnext hunstarted'
    have hbefore (haccepted : (s.shared.tasks u).accepted = true)
        (hdropped : (s.shared.tasks u).sender = .dropped) : s'.shared.token = true :=
      hevolves.token (hs haccepted hunstarted hdropped)
    cases e with
    | call c =>
      obtain ⟨sh, sp, hcall, rfl⟩ := Program.step_call hnext
      have htouched := (Call.enter_quiet hcall).1.tasks u
      exact hbefore (htouched.accepted ▸ haccepted') (htouched.sender ▸ hdropped')
    | run b pid =>
      obtain ⟨p, sh, p', sp, hp, hrun, rfl⟩ := Program.step_run hnext
      cases Proc.step_of_run hrun with
      | @submit c _ c' _ hstep =>
        rcases hstep.accepts haccepted' with haccepted | ⟨htask, -, hkept⟩
        · have hlt := (created_of_accepted hreach haccepted).1
          refine hbefore haccepted ?_
          cases hstep.settles hlt with
          | kept hkept => exact hkept ▸ hdropped'
          | sent hp => cases hp
          | dropped hp =>
            cases hp with
            | held htask =>
              rw [not_accepted_of_submitting hreach hp htask] at haccepted
              cases haccepted
        · have hlive := live_of_owns hreach hp (t := u) htask
          rw [Threads.update_shared, hkept u, hlive] at hdropped'
          cases hdropped'
      | @loop d _ d' _ hstep =>
        have haccepted : (s.shared.tasks u).accepted = true := hstep.accepted_kept ▸ haccepted'
        have hlt := (created_of_accepted hreach haccepted).1
        rcases (hevolves.tasks u hlt).sender with hlive | hkept
        · exact hevolves.token (shut_of_drop hspared hreach hp hstep hlive hdropped')
        · exact hbefore haccepted (hkept ▸ hdropped')
      | @wrapper w _ w' hstep =>
        have haccepted : (s.shared.tasks u).accepted = true := hstep.accepted_kept ▸ haccepted'
        refine hbefore haccepted ?_
        cases hstep.settles (t := u) with
        | kept hkept => exact hkept ▸ hdropped'
        | sent hsends =>
          cases hsends with
          | wrapper htask => exact absurd htask (hunstarted pid w hp)
        | dropped hdrops =>
          cases hdrops with
          | held _ hno => exact absurd rfl (hno w)
          | unwind htask => exact absurd htask (hunstarted pid w hp)
      | bystander _ _ hstep =>
        have htouched := hstep.1.tasks u
        exact hbefore (htouched.accepted ▸ haccepted') (htouched.sender ▸ hdropped')
  · refine ⟨.refl, fun haccepted => ?_⟩
    cases haccepted

theorem handled_of_past (h : (poolMachine σ R cfg).Reachable ok s)
    (haccepted : (s.shared.tasks u).accepted = true) (hpast : Past u s) : Handled u s := by
  by_cases hunstarted : Unstarted s u
  · refine .inr ?_
    have hsettled := hpast.resolve_left (not_not.mpr hunstarted)
    have hlt := (created_of_accepted h haccepted).1
    have hpolls := (verdicts h).unpolled u hlt hunstarted
    cases hsender : (s.shared.tasks u).sender with
    | live => exact absurd hsender hsettled
    | dropped => exact .inr ⟨rfl, dropped_shut hspared h haccepted hunstarted hsender⟩
    | used r =>
      have hfits := (verdicts h).used u r hlt hsender
      cases r with
      | ok v => simp [Task.Fits, Task.returned, hpolls] at hfits
      | error e =>
        cases e with
        | taskCancelled => exact .inl rfl
        | taskPanicked => simp [Task.Fits, Task.hasPanicked, hpolls] at hfits
        | _ => exact hfits.elim
  · refine .inl ?_
    simp only [Unstarted, not_forall, not_not] at hunstarted
    obtain ⟨q, w, hw, htask⟩ := hunstarted
    exact ⟨q, w, hw, htask⟩

end Spared

/-! ## The scan and the permit -/

/-- What a call whose task is `n` or later has made sure of about task `u`: the lanes it has
found empty do not hold it, and once the call has its permit `u` is past its start. -/
def SubmitPc.Cleared (n u : Nat) (s : Pool σ R) : SubmitPc → Prop
  | .scan t k 0 => n ≤ t → ∀ (i : Nat) (l : Lane), i < k → s.shared.lanes[i]? = some l → u ∉ l.items
  | .tryAcquire t => n ≤ t → ∀ (i : Nat) (l : Lane), s.shared.lanes[i]? = some l → u ∉ l.items
  | .route t | .insertCount t _ | .insert t _ | .lookup t _ | .spawn t .. => n ≤ t → Past u s
  | _ => True

/-- The task that the call dispatches directly, once it has a permit for it. -/
def SubmitPc.direct : SubmitPc → Option Nat
  | .route t | .insertCount t _ | .insert t _ | .lookup t _ | .spawn t .. => some t
  | _ => none

/-- The process is a dispatcher that has task `u` in its hand and does not wait for a permit. -/
def Proc.withholds (u : Nat) (sh : Shared σ R) (pid : Nat) : Proc R → Bool
  | .loop d => d.pc.task == some u && !(waiters sh.concurrencyGate).contains pid
  | _ => false

/-- The event takes a permit for the direct dispatch of a task that is `n` or later, while
task `u` is in the hand of a dispatcher that does not wait for a permit. -/
def overtakes (n u : Nat) (s : Pool σ R) : PoolEvent R → Bool
  | .run _ pid => match s.procs[pid]? with
    | some (.submit c) => match c.pc with
      | .tryAcquire t => n ≤ t && (tryAcquire s.shared.concurrencyGate).isSome &&
        s.procs.zipIdx.any fun x => x.1.withholds u s.shared x.2
      | _ => false
    | _ => false
  | .call _ => false

/-- An accepted task is not put into a lane again. -/
theorem lane_new (h : (poolMachine σ R cfg).Reachable ok s)
    (haccepted : (s.shared.tasks u).accepted = true)
    (hnext : (poolMachine σ R cfg).step s e = some s') {i : Nat} {l' : Lane}
    (hl' : s'.shared.lanes[i]? = some l') (hu : u ∈ l'.items) :
    ∃ l, s.shared.lanes[i]? = some l ∧ u ∈ l.items := by
  cases e with
  | call c =>
    obtain ⟨sh, sp, hcall, rfl⟩ := Program.step_call hnext
    rw [Threads.spawn_shared, (Call.enter_quiet hcall).1.lanes] at hl'
    exact ⟨l', hl', hu⟩
  | run b pid =>
    obtain ⟨p, sh, p', sp, hp, hrun, rfl⟩ := Program.step_run hnext
    rw [Threads.update_shared] at hl'
    cases Proc.step_of_run hrun with
    | submit hstep =>
      refine (hstep.items_kept hl' hu).resolve_left fun htask => ?_
      rw [not_accepted_of_submitting h hp htask] at haccepted
      cases haccepted
    | loop hstep => exact hstep.items_kept hl' hu
    | wrapper hstep =>
      have hlanes : sh.lanes = s.shared.lanes := by cases hstep <;> rfl
      exact ⟨l', hlanes ▸ hl', hu⟩
    | bystander _ _ hstep => exact ⟨l', hstep.1.lanes ▸ hl', hu⟩

theorem SubmitPc.Cleared.next {pc : SubmitPc} (hc : pc.Cleared n u s)
    (h : (poolMachine σ R cfg).Reachable ok s) (haccepted : (s.shared.tasks u).accepted = true)
    (hnext : (poolMachine σ R cfg).step s e = some s') : pc.Cleared n u s' := by
  have hlanes {i : Nat} {l' : Lane} (hl' : s'.shared.lanes[i]? = some l')
      (hold : ∀ l, s.shared.lanes[i]? = some l → u ∉ l.items) : u ∉ l'.items := by
    intro hu
    obtain ⟨l, hl, hu⟩ := lane_new h haccepted hnext hl' hu
    exact hold l hl hu
  have hlt := (created_of_accepted h haccepted).1
  cases pc with
  | scan t k queued =>
    cases queued with
    | zero => exact fun ht i l' hi hl' => hlanes hl' fun l hl => hc ht i l hi hl
    | succ => exact True.intro
  | tryAcquire t => exact fun ht i l' hl' => hlanes hl' fun l hl => hc ht i l hl
  | route | insertCount | insert | lookup | spawn => exact fun ht => (hc ht).next hlt hnext
  | _ => exact True.intro

/-- A step of a call makes sure of what its next program point needs. -/
theorem SubmitStep.cleared {kind : PoolKind} (h : SubmitStep kind pid s.shared c sh' c' sp)
    (hc : c.pc.Cleared n u s)
    (htry : ∀ t, c.pc = .tryAcquire t → n ≤ t →
      (tryAcquire s.shared.concurrencyGate).isSome = true →
      (∀ (i : Nat) (l : Lane), s.shared.lanes[i]? = some l → u ∉ l.items) → Past u s) :
    c'.pc.Cleared n u s := by
  obtain ⟨clone, labels, future, pc, unwound⟩ := c
  cases h with
  | createScan => exact fun _ i l hi => absurd hi (Nat.not_lt_zero i)
  | @scan t k queued l hpc hl =>
    obtain rfl : pc = _ := hpc
    show SubmitPc.Cleared n u s (.scan t (k + 1) (queued + l.items.length))
    cases hsum : queued + l.items.length with
    | zero =>
      obtain ⟨rfl, hnone⟩ := Nat.add_eq_zero_iff.mp hsum
      intro ht i l' hi hl'
      rcases Nat.lt_succ_iff_lt_or_eq.mp hi with hi | rfl
      · exact hc ht i l' hi hl'
      · obtain rfl := Option.some.inj (hl.symm.trans hl')
        rw [List.length_eq_zero_iff.mp hnone]
        exact List.not_mem_nil
    | succ => exact True.intro
  | scanEmpty hpc hlane =>
    obtain rfl : pc = _ := hpc
    intro ht i l hl
    refine hc ht i l ?_ hl
    exact (List.getElem?_eq_some_iff.mp hl).1.trans_le (List.getElem?_eq_none_iff.mp hlane)
  | @acquired t gate _ hpc hgate =>
    obtain rfl : pc = _ := hpc
    exact fun ht => htry t rfl ht (by rw [hgate]; rfl) (hc ht)
  | route _ hpc | insertCount _ hpc | insert _ hpc | lookup _ hpc =>
    obtain rfl : pc = _ := hpc
    exact hc
  | _ => exact True.intro

/-- The steps of a run from `start` in which no direct dispatch overtakes task `u`. -/
abbrev Orderly (ok : Pool σ R → PoolEvent R → Prop) (u : Nat) (start : Pool σ R) :
    Pool σ R → PoolEvent R → Prop :=
  fun s e => ok s e ∧ overtakes start.shared.nextTaskId u s e = false

/-- Every call has made sure of what its program point needs. -/
theorem cleared {start : Pool σ R} (hstart : (poolMachine σ R cfg).Reachable ok start)
    (haccepted : (start.shared.tasks u).accepted = true)
    (h : (poolMachine σ R cfg).Steps (Orderly ok u start) start s) :
    (poolMachine σ R cfg).Reachable ok s ∧ (s.shared.tasks u).accepted = true ∧
      ∀ pid c, s.At pid (.submit c) → c.pc.Cleared start.shared.nextTaskId u s := by
  refine h.invariant (I := fun s => (poolMachine σ R cfg).Reachable ok s ∧
    (s.shared.tasks u).accepted = true ∧
      ∀ pid c, s.At pid (.submit c) → c.pc.Cleared start.shared.nextTaskId u s) ?_ ?_
  · rintro s e s' ⟨hreach, haccepted, hs⟩ ⟨hgood, hfair⟩ hnext
    have hevolves : s.shared.Evolves s'.shared := .steps (.tail .refl hgood hnext)
    have hlt := (created_of_accepted hreach haccepted).1
    refine ⟨hreach.tail hgood hnext, (hevolves.tasks u hlt).accepted haccepted, ?_⟩
    intro qid q hq
    have hstays {c : SubmitCall R} (hold : c.pc.Cleared start.shared.nextTaskId u s) :
        c.pc.Cleared start.shared.nextTaskId u s' := hold.next hreach haccepted hnext
    cases e with
    | call c =>
      obtain ⟨sh, sp, hcall, rfl⟩ := Program.step_call hnext
      rcases Threads.spawn_getElem? hq with hold | ⟨-, hnew⟩
      · exact hstays (hs qid q hold)
      · cases (Call.enter_quiet hcall).2 _ hnew with
        | bystander hby => exact hby.elim
        | submit => exact True.intro
    | run b pid =>
      obtain ⟨p, sh, p', sp, hp, hrun, rfl⟩ := Program.step_run hnext
      rcases Threads.update_getElem? hp hq with ⟨rfl, rfl⟩ | ⟨-, hold⟩ | ⟨-, hnew⟩
      · obtain ⟨c, rfl, hstep⟩ := Proc.submit_of_run hrun
        refine hstays (hstep.cleared (hs qid c hp) fun t hpc ht hsome hlanes => ?_)
        refine past_of_nowhere hreach haccepted hlanes fun i d hd htask => ?_
        obtain ⟨gate, hgate⟩ := Option.isSome_iff_exists.mp hsome
        obtain ⟨-, hnone, -⟩ := tryAcquire_taken _ _ hgate
        -- nobody waits at the gate, so the dispatcher that holds the task does not either
        have hovertakes : overtakes start.shared.nextTaskId u s (.run b qid) = true := by
          have hhand : s.procs.zipIdx.any (fun x => x.1.withholds u s.shared x.2) = true := by
            refine List.any_eq_true.mpr ⟨(.loop d, i), List.mk_mem_zipIdx_iff_getElem?.mpr hd, ?_⟩
            simp [Proc.withholds, htask, hnone]
          simp only [overtakes, hp, hpc, hsome, decide_eq_true ht, Bool.true_and]
          exact hhand
        rw [hovertakes] at hfair
        cases hfair
      · exact hstays (hs qid q hold)
      · rcases Proc.started_of_run (hnew ▸ hrun) with ⟨w, heq⟩ | heq <;> cases heq
  · refine ⟨hstart, haccepted, fun pid c hc => ?_⟩
    -- the calls that have begun hold tasks that were created before
    have hold (t : Nat) (htask : c.pc.task = some t) : ¬start.shared.nextTaskId ≤ t :=
      Nat.not_le.mpr (lt_of_carries hstart hc htask)
    obtain ⟨clone, labels, future, pc, unwound⟩ := c
    cases pc with
    | scan t k queued =>
      cases queued with
      | zero => exact fun ht => absurd ht (hold t rfl)
      | succ => exact True.intro
    | tryAcquire t | route t | insertCount t | insert t | lookup t | spawn t =>
      exact fun ht => absurd ht (hold t rfl)
    | _ => exact True.intro

/-! ## One lane -/

/-- The task that the process is about to spawn out of its lane, or has. -/
def Proc.begins : Proc R → Option Nat
  | .loop d => match d.pc with
    | .lookup t _ | .spawn t .. => some t
    | _ => none
  | .wrapper w => some w.task
  | _ => none

omit [Semaphore σ] in
theorem Proc.begins_of_bystander {p : Proc R} (hp : p.bystander) : p.begins = none := by
  cases p <;> first | rfl | exact hp.elim

omit [Semaphore σ] in
theorem pair_sublist_of_cons {a b x : Nat} {xs : List Nat} (h : [a, b].Sublist (x :: xs))
    (ha : a ≠ x) : [a, b].Sublist xs := by
  cases h with
  | cons _ h => exact h
  | cons_cons => exact absurd rfl ha

section Line

variable (hspared : ∀ {s : Pool σ R} {b pid d}, ok s (.run b pid) → s.At pid (.loop d) →
  d.struck s.shared = true → s.shared.token = true)

include hspared

/-- The tasks in front of a loop are different ones and exist. -/
theorem ahead_nodup (h : (poolMachine σ R cfg).Reachable ok s) {i : Nat} {l : Lane}
    (hd : s.At i (.loop d)) (hl : s.shared.lanes[i]? = some l) :
    (d.ahead l).Nodup ∧ ∀ t ∈ d.ahead l, t < s.shared.nextTaskId := by
  have hi : i < cfg.lanes := (dispatchers h).lanes ▸ (List.getElem?_eq_some_iff.mp hl).1
  obtain ⟨log, hlog⟩ : ∃ log, ((poolMachine σ R cfg).logged (observeLane i)).Reachable
      (fun x e => ok x.1 e) (s, log) := h.exists_log []
  obtain ⟨d', l', hd', hl', horder⟩ := in_order hspared hi hlog
  cases hd.symm.trans hd'
  cases hl.symm.trans hl'
  have hnodup := horder.nodup
  rw [horder.balance] at hnodup
  refine ⟨hnodup.of_append_right, fun t ht => (horder.accepted t ?_).1⟩
  rw [horder.balance]
  exact List.mem_append_right _ ht

/-- A step keeps two tasks in the order in which they are in front of a loop. -/
theorem line_kept (h : (poolMachine σ R cfg).Reachable ok s) {i v : Nat} {l l' : Lane}
    {log : LaneLog} (haccepted : (s.shared.tasks u).accepted = true) (hd : s.At i (.loop d))
    (hl : s.shared.lanes[i]? = some l) (hmove : LaneMove cfg i s e s' d d' l l' log)
    (hs : u ∈ d.ahead l → v ∈ d.ahead l → [u, v].Sublist (d.ahead l))
    (hu : u ∈ d'.ahead l') (hv : v ∈ d'.ahead l') : [u, v].Sublist (d'.ahead l') := by
  obtain ⟨hnodup, -⟩ := ahead_nodup hspared h hd hl
  have htaken {t : Nat} (hahead : d.ahead l = t :: d'.ahead l') :
      [u, v].Sublist (d'.ahead l') := by
    rw [hahead] at hs hnodup
    refine pair_sublist_of_cons (hs (List.mem_cons_of_mem t hu) (List.mem_cons_of_mem t hv)) ?_
    rintro rfl
    exact (List.nodup_cons.mp hnodup).1 hu
  cases hmove with
  | elsewhere hsame hitems =>
    have hahead : d'.ahead l' = d.ahead l := by
      rw [hsame, DispatcherLoop.ahead, hitems, ← DispatcherLoop.ahead]
    rw [hahead] at hu hv ⊢
    exact hs hu hv
  | @push pid c t hp hpc hsame hitems =>
    have hahead : d'.ahead l' = d.ahead l ++ [t] := by
      rw [hsame, DispatcherLoop.ahead, DispatcherLoop.ahead, hitems, List.append_assoc]
    have hne : u ≠ t := by
      rintro rfl
      rw [not_accepted_of_submitting h hp (t := u) (by rw [hpc]; rfl)] at haccepted
      cases haccepted
    rw [hahead, List.mem_append, List.mem_singleton] at hu hv
    rw [hahead]
    have hold := hu.resolve_right hne
    rcases hv with hv | rfl
    · exact (hs hold hv).trans (List.sublist_append_left _ _)
    · exact (List.singleton_sublist.mpr hold).append (List.Sublist.refl [v])
  | loop _ _ htakes =>
    cases htakes with
    | idle _ hahead =>
      rw [hahead] at hu hv ⊢
      exact hs hu hv
    | inserted _ hahead | cancelled _ hahead | dropped _ hahead => exact htaken hahead

/-- In a pool with one lane, when the dispatcher inserts a task, those that were accepted before
it was created are past their start. -/
theorem past_of_insert (hone : cfg.lanes = 1) (h : (poolMachine σ R cfg).Reachable ok s) {v : Nat}
    (haccepted : (s.shared.tasks u).accepted = true) (hne : u ≠ v) (hd : s.At pid (.loop d))
    (hpc : d.pc = .insert v)
    (hline : ∀ d l, s.At 0 (.loop d) → s.shared.lanes[0]? = some l → u ∈ d.ahead l →
      v ∈ d.ahead l → [u, v].Sublist (d.ahead l)) : Past u s := by
  have hfirst {i : Nat} {l : Lane} (hl : s.shared.lanes[i]? = some l) : i = 0 := by
    have hlt := (List.getElem?_eq_some_iff.mp hl).1
    rw [(dispatchers h).lanes, hone] at hlt
    exact Nat.lt_one_iff.mp hlt
  have hfirstLoop {i : Nat} {d : DispatcherLoop} (hd : s.At i (.loop d)) : i = 0 := by
    obtain ⟨l, hl, -⟩ := (dispatchers h).agrees i d hd
    exact hfirst hl
  obtain rfl := hfirstLoop hd
  refine past_of_nowhere h haccepted (fun i l hl hu => ?_) fun i d₁ hd₁ htask => ?_
  · obtain rfl := hfirst hl
    have hahead : d.ahead l = v :: l.items := by rw [DispatcherLoop.ahead, hpc]; rfl
    obtain ⟨hnodup, -⟩ := ahead_nodup hspared h hd hl
    have hsub := hline d l hd hl (hahead ▸ List.mem_cons_of_mem v hu) (hahead ▸ List.mem_cons_self)
    rw [hahead] at hsub hnodup
    have hv := (pair_sublist_of_cons hsub hne).subset (List.mem_cons_of_mem u List.mem_cons_self)
    exact (List.nodup_cons.mp hnodup).1 hv
  · obtain rfl := hfirstLoop hd₁
    cases hd.symm.trans hd₁
    rw [hpc] at htask
    exact hne (Option.some.inj htask).symm

end Line

theorem LoopStep.begins {v : Nat} (h : LoopStep cfg pid sh d sh' d' sp)
    (hbegins : (Proc.loop d' : Proc R).begins = some v) :
    (Proc.loop d : Proc R).begins = some v ∨ d.pc = .insert v := by
  obtain ⟨lane, pc, panicked⟩ := d
  cases h with
  | insert _ hpc | insertRlxd _ hpc =>
    obtain rfl : pc = _ := hpc
    cases hbegins
    exact .inr rfl
  | lookup hpc =>
    obtain rfl : pc = _ := hpc
    exact .inl hbegins
  | _ => cases hbegins

/-- A process that has begun with a task had begun before, inserts the task as a loop, or spawns
it as a call. -/
theorem begins_of_next {v qid : Nat} {q : Proc R}
    (hnext : (poolMachine σ R cfg).step s e = some s') (hq : s'.At qid q)
    (hbegins : q.begins = some v) :
    (∃ pid p, s.At pid p ∧ p.begins = some v) ∨
      (∃ pid d, s.At pid (.loop d) ∧ d.pc = .insert v) ∨
        ∃ pid c shard sender, s.At pid (.submit c) ∧ c.pc = .spawn v shard sender := by
  cases e with
  | call c =>
    obtain ⟨sh, sp, hcall, rfl⟩ := Program.step_call hnext
    rcases Threads.spawn_getElem? hq with hold | ⟨-, hnew⟩
    · exact .inl ⟨qid, q, hold, hbegins⟩
    · cases (Call.enter_quiet hcall).2 _ hnew with
      | bystander hby =>
        rw [Proc.begins_of_bystander hby] at hbegins
        cases hbegins
      | submit => cases hbegins
  | run b pid =>
    obtain ⟨p, sh, p', sp, hp, hrun, rfl⟩ := Program.step_run hnext
    rcases Threads.update_getElem? hp hq with ⟨rfl, rfl⟩ | ⟨-, hold⟩ | ⟨-, hnew⟩
    · cases Proc.step_of_run hrun with
      | submit => cases hbegins
      | @loop d _ d' _ hstep =>
        rcases hstep.begins (R := R) hbegins with hbefore | hpc
        · exact .inl ⟨qid, _, hp, hbefore⟩
        · exact .inr (.inl ⟨qid, d, hp, hpc⟩)
      | @wrapper w _ w' hstep =>
        refine .inl ⟨qid, .wrapper w, hp, ?_⟩
        rw [← hbegins, Proc.begins, Proc.begins, hstep.task_kept]
      | bystander _ hby =>
        rw [Proc.begins_of_bystander hby] at hbegins
        cases hbegins
    · exact .inl ⟨qid, q, hold, hbegins⟩
    · subst hnew
      cases Proc.step_of_run hrun with
      | @submit c _ c' _ hstep =>
        cases hstep with
        | @spawn t shard sender _ hpc =>
          obtain rfl : t = v := Option.some.inj hbegins
          exact .inr (.inr ⟨pid, c, shard, sender, hp, hpc⟩)
      | @loop d _ d' _ hstep =>
        cases hstep with
        | @spawn t slot sender hpc =>
          obtain rfl : t = v := Option.some.inj hbegins
          refine .inl ⟨pid, .loop d, hp, ?_⟩
          simp only [Proc.begins, hpc]
      | bystander _ _ hstep =>
        rw [Proc.begins_of_bystander (hstep.2 _ rfl)] at hbegins
        cases hbegins

section Line

variable (hspared : ∀ {s : Pool σ R} {b pid d}, ok s (.run b pid) → s.At pid (.loop d) →
  d.struck s.shared = true → s.shared.token = true)

include hspared

/-- In a pool with one lane tasks are started in the order in which they were accepted. -/
theorem past_of_begins (hone : cfg.lanes = 1) {start : Pool σ R} {v : Nat}
    (hstart : (poolMachine σ R cfg).Reachable ok start)
    (haccepted : (start.shared.tasks u).accepted = true) (hv : start.shared.nextTaskId ≤ v)
    (h : (poolMachine σ R cfg).Steps (Orderly ok u start) start s) {p : Proc R} (hp : s.At pid p)
    (hbegins : p.begins = some v) : Past u s := by
  have hne : u ≠ v := ((created_of_accepted hstart haccepted).1.trans_le hv).ne
  refine (h.invariant (I := fun s => (poolMachine σ R cfg).Steps (Orderly ok u start) start s ∧
    (∀ d l, s.At 0 (.loop d) → s.shared.lanes[0]? = some l → u ∈ d.ahead l → v ∈ d.ahead l →
      [u, v].Sublist (d.ahead l)) ∧
    ∀ pid p, s.At pid p → p.begins = some v → Past u s) ?_ ?_).2.2 pid p hp hbegins
  · rintro s e s' ⟨hsteps, hline, hs⟩ hok hnext
    obtain ⟨hreach, haccepted, hcleared⟩ := cleared hstart haccepted hsteps
    have hlt := (created_of_accepted hreach haccepted).1
    refine ⟨hsteps.tail hok hnext, fun d' l' hd' hl' hu hv => ?_, fun qid q hq hbegins => ?_⟩
    · obtain ⟨d, l, hd, hl⟩ := lane_present hreach (i := 0) (hone ▸ Nat.one_pos)
      obtain ⟨d₁, l₁, log, hd₁, hl₁, -, hmove⟩ := lane_moves hreach hd hl hnext
      cases hd'.symm.trans hd₁
      cases hl'.symm.trans hl₁
      exact line_kept hspared hreach haccepted hd hl hmove (hline d l hd hl) hu hv
    · suffices hbefore : Past u s from hbefore.next hlt hnext
      rcases begins_of_next hnext hq hbegins with ⟨pid, p, hp, hbefore⟩ | ⟨pid, d, hd, hpc⟩ |
        ⟨pid, c, shard, sender, hc, hpc⟩
      · exact hs pid p hp hbefore
      · exact past_of_insert hspared hone hreach haccepted hne hd hpc hline
      · have hpast := hcleared pid c hc
        rw [hpc] at hpast
        exact hpast hv
  · refine ⟨.refl, fun d l hd hl _ hmem => ?_, fun pid p hp hbegins => ?_⟩
    · exact absurd ((ahead_nodup hspared hstart hd hl).2 v hmem) (Nat.not_lt.mpr hv)
    · refine absurd (lt_of_carries hstart hp (t := v) ?_) (Nat.not_lt.mpr hv)
      cases p with
      | wrapper w => exact hbegins
      | loop d =>
        obtain ⟨lane, pc, panicked⟩ := d
        cases pc <;> first | exact hbegins | cases hbegins
      | _ => cases hbegins

end Line

/-- No accepted task is overtaken by a direct dispatch. In every run of the relaxed pool in
which no dispatcher is hit by a destructor that panics before the token is cancelled, take a
task `u` that was accepted in some state, and let no later submission take a permit for a
direct dispatch while `u` is in the hand of a dispatcher that does not wait for a permit.
Then, whenever the call of a later submission dispatches its task directly, `u` was started,
was told that it is cancelled, or was dropped by a shutdown. In a pool with one dispatcher
the same holds whenever a task that was created later has been started in any way. -/
theorem direct_dispatch_overtakes_nothing (σ R : Type) [Semaphore σ]
    (concurrencyLimit queueCapacity dispatchers : Nat) (poolName : String) :
    let cfg := PoolConfig.rlxd concurrencyLimit queueCapacity dispatchers poolName
    let spared : Pool σ R → PoolEvent R → Prop := fun s e => keepsDispatchers s e = true
    ∀ (start s : Pool σ R) (u : Nat), (poolMachine σ R cfg).Reachable spared start →
      (start.shared.tasks u).accepted = true →
      (poolMachine σ R cfg).Steps (Orderly spared u start) start s →
      (∀ pid c t, s.At pid (.submit c) → c.pc.direct = some t → start.shared.nextTaskId ≤ t →
        Handled u s) ∧
      (max dispatchers 1 = 1 → ∀ pid w, s.At pid (.wrapper w) →
        start.shared.nextTaskId ≤ w.task → Handled u s) := by
  intro cfg spared start s u hstart haccepted h
  have hspared : ∀ {s : Pool σ R} {b pid d}, spared s (.run b pid) → s.At pid (.loop d) →
      d.struck s.shared = true → s.shared.token = true := by
    intro s b pid d hok hp hstruck
    simpa [spared, keepsDispatchers, hp, hstruck] using hok
  obtain ⟨hreach, haccepted', hcleared⟩ := cleared hstart haccepted h
  refine ⟨fun pid c t hc hdirect ht => ?_, fun hone pid w hw ht => ?_⟩
  · refine handled_of_past hspared hreach haccepted' ?_
    have hpast := hcleared pid c hc
    obtain ⟨clone, labels, future, pc, unwound⟩ := c
    cases pc with
    | route | insertCount | insert | lookup | spawn =>
      cases hdirect
      exact hpast ht
    | _ => cases hdirect
  · exact handled_of_past hspared hreach haccepted'
      (past_of_begins hspared hone hstart haccepted ht h hw rfl)

/-- A task runs, another one is queued and accepted, and the first one ends. -/
def acceptedBehind : Pool FairSemaphore Nat :=
  let M := poolMachine FairSemaphore Nat (.rlxd 1 1 1 "pool")
  M.after keepsDispatchers
    (.call (.submit 0 ∅ (.ready 7)) :: stepping (List.replicate 11 1) ++
      .call (.submit 0 ∅ (.ready 7)) :: stepping (List.replicate 11 3 ++ List.replicate 7 2)) M.init

/-- A third task is submitted. Before its call looks at the lanes the dispatcher starts the queued
one, which ends; then the third is about to be spawned directly. -/
def nextDirect : Pool FairSemaphore Nat :=
  (poolMachine FairSemaphore Nat (.rlxd 1 1 1 "pool")).after
    (fun s e => keepsDispatchers s e && !overtakes acceptedBehind.shared.nextTaskId 1 s e)
    (.call (.submit 0 ∅ (.ready 7)) ::
      stepping (List.replicate 9 0 ++ List.replicate 7 5 ++ List.replicate 10 4)) acceptedBehind

/-- It is spawned. -/
def nextDispatched : Pool FairSemaphore Nat :=
  (poolMachine FairSemaphore Nat (.rlxd 1 1 1 "pool")).after
    (fun s e => keepsDispatchers s e && !overtakes acceptedBehind.shared.nextTaskId 1 s e)
    (stepping [4]) nextDirect

theorem direct_dispatch_overtakes_nothing_next :
    acceptedBehind.shared.lanes.map (·.items) = [[1]] ∧
      Handled 1 nextDirect ∧ Handled 1 nextDispatched := by
  have hreach : (poolMachine FairSemaphore Nat (.rlxd 1 1 1 "pool")).Reachable
      (fun s e => keepsDispatchers s e = true) acceptedBehind := Machine.steps_after _ _ _ _
  have horderly {s s' : Pool FairSemaphore Nat} (h : (poolMachine FairSemaphore Nat
      (.rlxd 1 1 1 "pool")).Steps (fun s e => (keepsDispatchers s e &&
        !overtakes acceptedBehind.shared.nextTaskId 1 s e) = true) s s') :
      (poolMachine FairSemaphore Nat (.rlxd 1 1 1 "pool")).Steps
        (Orderly (fun s e => keepsDispatchers s e = true) 1 acceptedBehind) s s' :=
    h.mono fun s e hok => by simpa using hok
  have hdirect := horderly (Machine.steps_after _ _ _ _ : (poolMachine FairSemaphore Nat
    (.rlxd 1 1 1 "pool")).Steps _ acceptedBehind nextDirect)
  have hspawn := horderly (Machine.steps_after _ _ _ _ : (poolMachine FairSemaphore Nat
    (.rlxd 1 1 1 "pool")).Steps _ nextDirect nextDispatched)
  have hlaw := direct_dispatch_overtakes_nothing FairSemaphore Nat 1 1 1 "pool" acceptedBehind
  refine ⟨by decide, (hlaw nextDirect 1 hreach (by decide) hdirect).1 4
    ⟨0, ∅, .ready 7, .spawn 2 0 false, false⟩ 2 rfl rfl (by decide), ?_⟩
  exact (hlaw nextDispatched 1 hreach (by decide) (hdirect.trans hspawn)).2 rfl 6
    ⟨2, 0, false, .poll⟩ rfl (by decide)

/-- The dispatcher takes the queued task out of its lane, and a third submission finds the
lane empty and the permit free. -/
def overtaking : Pool FairSemaphore Nat :=
  (poolMachine FairSemaphore Nat (.rlxd 1 1 1 "pool")).after keepsDispatchers
    (stepping [0, 0] ++ .call (.submit 0 ∅ (.ready 7)) :: stepping (List.replicate 10 4))
    acceptedBehind

/-- It spawns its task. -/
def overtaken : Pool FairSemaphore Nat :=
  (poolMachine FairSemaphore Nat (.rlxd 1 1 1 "pool")).after keepsDispatchers (stepping [4])
    overtaking

/-- In a pool with one dispatcher a task that was accepted before another one was submitted is
neither started nor settled when the other one is started. -/
theorem direct_dispatch_overtakes_hand :
    (poolMachine FairSemaphore Nat (.rlxd 1 1 1 "pool")).Reachable
        (fun s e => keepsDispatchers s e = true) acceptedBehind ∧
      (acceptedBehind.shared.tasks 1).accepted = true ∧ acceptedBehind.shared.nextTaskId = 2 ∧
      (poolMachine FairSemaphore Nat (.rlxd 1 1 1 "pool")).Steps
        (fun s e => keepsDispatchers s e = true) acceptedBehind overtaking ∧
      overtaking.At 4 (.submit ⟨0, ∅, .ready 7, .spawn 2 0 false, false⟩) ∧
      ¬Handled 1 overtaking ∧
      (poolMachine FairSemaphore Nat (.rlxd 1 1 1 "pool")).Steps
        (fun s e => keepsDispatchers s e = true) overtaking overtaken ∧
      overtaken.At 5 (.wrapper ⟨2, 0, false, .poll⟩) ∧ ¬Handled 1 overtaken := by
  have hunhandled {s : Pool FairSemaphore Nat} (hprocs : s.procs.all (·.begins != some 1) = true)
      (hlive : (s.shared.tasks 1).sender = .live) : ¬Handled 1 s := by
    rintro (⟨q, w, hw, htask⟩ | hused | ⟨hdropped, -⟩)
    · have hno := List.all_eq_true.mp hprocs _ (List.mem_of_getElem? hw)
      rw [Proc.begins, htask] at hno
      cases hno
    · rw [hlive] at hused
      cases hused
    · rw [hlive] at hdropped
      cases hdropped
  exact ⟨Machine.steps_after _ _ _ _, by decide, rfl, Machine.steps_after _ _ _ _, rfl,
    hunhandled (by decide) rfl, Machine.steps_after _ _ _ _, rfl, hunhandled (by decide) rfl⟩

end FuturesOrchestra
