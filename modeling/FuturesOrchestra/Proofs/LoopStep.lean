import FuturesOrchestra.Proofs.SubmitStep

/-!
# What a step of a dispatcher loop can be

`LoopStep` lists the steps of the two `run_worker_loop`s as rules. The rules
without a `hkind` premise are shared by the two pools, and `permit` is then the
one of the program point.
-/

namespace FuturesOrchestra

open Interleaving

variable {σ R : Type} {pid : Nat} {cfg : PoolConfig} {sh sh' : Shared σ R}
  {d d' : DispatcherLoop} {sp : Option (Proc R)}

namespace DispatcherLoop

@[simp] theorem goto_pc (d : DispatcherLoop) (pc : LoopPc) : (d.goto pc).pc = pc := rfl

@[simp] theorem goto_lane (d : DispatcherLoop) (pc : LoopPc) : (d.goto pc).lane = d.lane := rfl

@[simp] theorem goto_panicked (d : DispatcherLoop) (pc : LoopPc) :
    (d.goto pc).panicked = d.panicked := rfl

/-- The loop goes on at `pc` after a destructor that may have panicked. -/
def leaving (d : DispatcherLoop) (pc : LoopPc) (panics : Bool) : DispatcherLoop :=
  { d with pc := pc, panicked := d.panicked || panics }

@[simp] theorem leaving_pc (d : DispatcherLoop) (pc : LoopPc) (panics : Bool) :
    (d.leaving pc panics).pc = pc := rfl

@[simp] theorem leaving_lane (d : DispatcherLoop) (pc : LoopPc) (panics : Bool) :
    (d.leaving pc panics).lane = d.lane := rfl

/-- Dropping a task, whether or not that makes the loop unwind. -/
theorem dropTask_eq {t : Nat} {pc : LoopPc} (h : d.dropTask sh t pc = some (sh', d', sp)) :
    sh' = sh.modifyTask t Task.dropSender ∧
      d' = d.leaving pc (sh.tasks t).future.dropPanics ∧ sp = none := by
  revert h
  fun_cases DispatcherLoop.dropTask sh d t pc with
  | case1 => nofun
  | case2 hpanics _ => rintro ⟨⟩; simp [leaving, hpanics]
  | case3 hpanics => rintro ⟨⟩; simp [leaving, goto, hpanics]

end DispatcherLoop

variable [Semaphore σ]

/-- `LoopStep cfg pid sh d sh' d' sp`: a step of a dispatcher loop of process
`pid` from `d` to `d'` that changes the shared state from `sh` to `sh'` and
starts `sp`. -/
inductive LoopStep (cfg : PoolConfig) (pid : Nat) (sh : Shared σ R) (d : DispatcherLoop) :
    Shared σ R → DispatcherLoop → Option (Proc R) → Prop
  | topStop (hpc : d.pc = .top) (htoken : sh.token = true) :
      LoopStep cfg pid sh d sh (d.goto (.exit false none)) none
  | top (hkind : cfg.kind = .strict) (hpc : d.pc = .top) (htoken : sh.token = false) :
      LoopStep cfg pid sh d sh (d.goto (.acquire none)) none
  | topRlxd (hkind : cfg.kind = .rlxd) (hpc : d.pc = .top) (htoken : sh.token = false) :
      LoopStep cfg pid sh d sh (d.goto (.recv false)) none
  | acquired {hand gate} (hpc : d.pc = .acquire hand)
      (hgate : Semaphore.pollAcquire pid sh.concurrencyGate = (gate, true)) :
      LoopStep cfg pid sh d { sh with concurrencyGate := gate } (d.goto (.recheck hand)) none
  | pending {hand gate} (hpc : d.pc = .acquire hand)
      (hgate : Semaphore.pollAcquire pid sh.concurrencyGate = (gate, false)) :
      LoopStep cfg pid sh d { sh with concurrencyGate := gate } (d.goto (.acquireToken hand)) none
  | acquireAgain {hand} (hpc : d.pc = .acquireToken hand) (htoken : sh.token = false) :
      LoopStep cfg pid sh d sh (d.goto (.acquire hand)) none
  | acquireStop {hand} (hpc : d.pc = .acquireToken hand) (htoken : sh.token = true) :
      LoopStep cfg pid sh d
        { sh with concurrencyGate := Semaphore.dropAcquire pid sh.concurrencyGate }
        (d.goto (.exit false hand)) none
  | recheck (hkind : cfg.kind = .strict) (hpc : d.pc = .recheck none)
      (htoken : sh.token = false) :
      LoopStep cfg pid sh d sh (d.goto (.recv true)) none
  | recheckRlxd {t} (hkind : cfg.kind = .rlxd) (hpc : d.pc = .recheck (some t))
      (htoken : sh.token = false) :
      LoopStep cfg pid sh d sh (d.goto (.insertCount t)) none
  | recheckStop {hand} (hpc : d.pc = .recheck hand) (htoken : sh.token = true) :
      LoopStep cfg pid sh d sh (d.goto (.exit true hand)) none
  | recv {t items receiver done} (hkind : cfg.kind = .strict) (hpc : d.pc = .recv true)
      (hlane : sh.lanes[d.lane]? = some ⟨t :: items, receiver, done⟩) :
      LoopStep cfg pid sh d (sh.setLane d.lane ⟨items, receiver, done⟩).releaseSlot
        (d.goto (.guard t)) none
  | recvRlxd {t items receiver done} (hkind : cfg.kind = .rlxd) (hpc : d.pc = .recv false)
      (hlane : sh.lanes[d.lane]? = some ⟨t :: items, receiver, done⟩) (htoken : sh.token = false) :
      LoopStep cfg pid sh d (sh.setLane d.lane ⟨items, receiver, done⟩).releaseSlot
        (d.goto (.precheck false t)) none
  | recvDiscard {t items receiver done} (hkind : cfg.kind = .rlxd) (hpc : d.pc = .recv false)
      (hlane : sh.lanes[d.lane]? = some ⟨t :: items, receiver, done⟩) (htoken : sh.token = true) :
      LoopStep cfg pid sh d
        ((sh.setLane d.lane ⟨items, receiver, done⟩).releaseSlot.modifyTask t Task.dropSender)
        (d.leaving (.exit false none) (sh.tasks t).future.dropPanics) none
  | recvClosed {permit receiver done} (hpc : d.pc = .recv permit)
      (hlane : sh.lanes[d.lane]? = some ⟨[], receiver, done⟩) (hsenders : sh.queueSenders = 0) :
      LoopStep cfg pid sh d sh (d.goto (.exit permit none)) none
  | recvEmpty {permit receiver done} (hpc : d.pc = .recv permit)
      (hlane : sh.lanes[d.lane]? = some ⟨[], receiver, done⟩) (hsenders : sh.queueSenders ≠ 0) :
      LoopStep cfg pid sh d sh (d.goto (.recvToken permit)) none
  | recvAgain {permit} (hpc : d.pc = .recvToken permit) (htoken : sh.token = false) :
      LoopStep cfg pid sh d sh (d.goto (.recv permit)) none
  | recvStop {permit} (hpc : d.pc = .recvToken permit) (htoken : sh.token = true) :
      LoopStep cfg pid sh d sh (d.goto (.exit permit none)) none
  | guard {t} (hkind : cfg.kind = .strict) (hpc : d.pc = .guard t) (htoken : sh.token = false) :
      LoopStep cfg pid sh d sh (d.goto (.precheck true t)) none
  | guardStop {t} (hkind : cfg.kind = .strict) (hpc : d.pc = .guard t) (htoken : sh.token = true) :
      LoopStep cfg pid sh d (sh.modifyTask t Task.dropSender)
        (d.leaving (.exit true none) (sh.tasks t).future.dropPanics) none
  | precheckCancelled {permit t} (hpc : d.pc = .precheck permit t)
      (hcancelled : sh.isCancelled t = true) :
      LoopStep cfg pid sh d sh (d.goto (.cancelSend permit t)) none
  | precheck {t} (hkind : cfg.kind = .strict) (hpc : d.pc = .precheck true t)
      (hcancelled : sh.isCancelled t = false) :
      LoopStep cfg pid sh d sh (d.goto (.insert t)) none
  | precheckRlxd {t} (hkind : cfg.kind = .rlxd) (hpc : d.pc = .precheck false t)
      (hcancelled : sh.isCancelled t = false) :
      LoopStep cfg pid sh d sh (d.goto (.acquire (some t))) none
  | insert {t active slot} (hkind : cfg.kind = .strict) (hpc : d.pc = .insert t)
      (hinsert : sh.active.insert t = (active, slot)) :
      LoopStep cfg pid sh d { sh with active := active } (d.goto (.lookup t slot)) none
  | insertCount {t r} (hkind : cfg.kind = .rlxd) (hpc : d.pc = .insertCount t)
      (hshard : sh.shards[d.lane]? = some r) :
      LoopStep cfg pid sh d (sh.setShard d.lane r.count) (d.goto (.insert t)) none
  | insertRlxd {t r} (hkind : cfg.kind = .rlxd) (hpc : d.pc = .insert t)
      (hshard : sh.shards[d.lane]? = some r) :
      LoopStep cfg pid sh d (sh.setShard d.lane (r.store sh.isFinished t))
        (d.goto (.lookup t d.lane)) none
  | lookup {t slot} (hpc : d.pc = .lookup t slot) :
      LoopStep cfg pid sh d sh.lookedUp (d.goto (.spawn t slot sh.notifier.lookup.2)) none
  | spawn {t slot sender} (hpc : d.pc = .spawn t slot sender) :
      LoopStep cfg pid sh d sh (d.goto .top) (some (.wrapper ⟨t, slot, sender, .poll⟩))
  | cancelSend {permit t} (hpc : d.pc = .cancelSend permit t) :
      LoopStep cfg pid sh d (sh.modifyTask t (Task.send · (.error .taskCancelled)))
        (d.goto (.cancelLookup permit t)) none
  | cancelLookup {permit t} (hpc : d.pc = .cancelLookup permit t)
      (hfound : sh.notifier.lookup.2 = true) :
      LoopStep cfg pid sh d sh.lookedUp (d.goto (.cancelNotify permit t)) none
  | cancelUnheard {permit t} (hpc : d.pc = .cancelLookup permit t)
      (hfound : sh.notifier.lookup.2 = false) :
      LoopStep cfg pid sh d sh.lookedUp (d.goto (.cancelDrop permit t)) none
  | cancelNotify {permit t} (hpc : d.pc = .cancelNotify permit t) :
      LoopStep cfg pid sh d (sh.sendCompletion cfg t .cancelled)
        (d.goto (.cancelDrop permit t)) none
  | cancelDrop {t} (hpc : d.pc = .cancelDrop true t) :
      LoopStep cfg pid sh d sh.releasePermit (d.goto .top) none
  | cancelDropRlxd {t} (hpc : d.pc = .cancelDrop false t) :
      LoopStep cfg pid sh d sh (d.goto .top) none
  | cancelPanic {permit t} (hpc : d.pc = .cancelDrop permit t)
      (hpanics : (sh.tasks t).future.dropPanics = true) :
      LoopStep cfg pid sh d sh (d.leaving (.exit permit none) true) none
  | exitPermit {hand} (hpc : d.pc = .exit true hand) :
      LoopStep cfg pid sh d sh.releasePermit (d.goto (.exit false hand)) none
  | exitHand {t} (hpc : d.pc = .exit false (some t)) :
      LoopStep cfg pid sh d (sh.modifyTask t Task.dropSender)
        (d.leaving (.exit false none) (sh.tasks t).future.dropPanics) none
  | exitReceiver {l} (hpc : d.pc = .exit false none) (hlane : sh.lanes[d.lane]? = some l)
      (howned : ¬(sh.guards = 0 ∧ (sh.setLane d.lane { l with receiver := false }).queueClosed)) :
      LoopStep cfg pid sh d (sh.setLane d.lane { l with receiver := false }) (d.goto .drain) none
  | exitLast {l} (hpc : d.pc = .exit false none) (hlane : sh.lanes[d.lane]? = some l)
      (hguards : sh.guards = 0)
      (hclosed : (sh.setLane d.lane { l with receiver := false }).queueClosed = true) :
      LoopStep cfg pid sh d
        { sh.setLane d.lane { l with receiver := false } with notifier := sh.notifier.close }
        (d.goto .drain) none
  | drain {t items receiver done} (hpc : d.pc = .drain)
      (hlane : sh.lanes[d.lane]? = some ⟨t :: items, receiver, done⟩) :
      LoopStep cfg pid sh d
        ((sh.setLane d.lane ⟨items, receiver, done⟩).releaseSlot.modifyTask t Task.dropSender)
        (d.leaving .drain (sh.tasks t).future.dropPanics) none
  | drained {receiver done} (hpc : d.pc = .drain)
      (hlane : sh.lanes[d.lane]? = some ⟨[], receiver, done⟩) :
      LoopStep cfg pid sh d (sh.setLane d.lane ⟨[], receiver, true⟩) (d.goto .exited) none

namespace LoopStep

theorem of_launch (h : d.launch sh = some (sh', d', sp)) : LoopStep cfg pid sh d sh' d' sp := by
  revert h
  fun_cases DispatcherLoop.launch sh d with
  | case1 t slot hpc sh₁ found hlookup =>
    rintro ⟨⟩
    obtain ⟨rfl, rfl⟩ := Shared.lookupSender_eq hlookup
    exact .lookup hpc
  | case2 t slot sender hpc => rintro ⟨⟩; exact .spawn hpc
  | case3 => nofun

theorem of_preCancelled (h : d.preCancelled cfg sh = some (sh', d', sp)) :
    LoopStep cfg pid sh d sh' d' sp := by
  revert h
  fun_cases DispatcherLoop.preCancelled cfg sh d with
  | case1 permit t hpc => rintro ⟨⟩; exact .cancelSend hpc
  | case2 permit t hpc sh₁ found hlookup =>
    rintro ⟨⟩
    obtain ⟨rfl, rfl⟩ := Shared.lookupSender_eq hlookup
    split
    · next hfound => exact .cancelLookup hpc hfound
    · next hfound => exact .cancelUnheard hpc (by simpa using hfound)
  | case3 permit t hpc => rintro ⟨⟩; exact .cancelNotify hpc
  | case4 permit t hpc hpanics =>
    rintro ⟨⟩
    have hleaving : LoopStep cfg pid sh d _ _ none := .cancelPanic hpc hpanics
    simpa [DispatcherLoop.leaving] using hleaving
  | case5 permit t hpc _ =>
    rintro ⟨⟩
    cases permit
    · exact .cancelDropRlxd hpc
    · exact .cancelDrop hpc
  | case6 => nofun

theorem of_leave (h : d.leave sh = some (sh', d', sp)) : LoopStep cfg pid sh d sh' d' sp := by
  revert h
  fun_cases DispatcherLoop.leave sh d with
  | case1 hand hpc => rintro ⟨⟩; exact .exitPermit hpc
  | case2 t hpc =>
    intro h
    obtain ⟨rfl, rfl, rfl⟩ := DispatcherLoop.dropTask_eq h
    exact .exitHand hpc
  | case4 hpc l hlane =>
    rintro ⟨⟩
    by_cases hlast : sh.guards = 0 ∧ (sh.setLane d.lane { l with receiver := false }).queueClosed
    · rw [Shared.dropSink_of_last]
      · exact .exitLast hpc hlane hlast.1 hlast.2
      · exact hlast.1
      · exact hlast.2
    · rw [Shared.dropSink_of_owned]
      · exact .exitReceiver hpc hlane hlast
      · exact hlast
  | case6 hpc t items receiver done hlane =>
    intro h
    obtain ⟨rfl, rfl, rfl⟩ := DispatcherLoop.dropTask_eq h
    exact .drain hpc hlane
  | case7 hpc receiver done hlane => rintro ⟨⟩; exact .drained hpc hlane
  | _ => nofun

theorem of_runWorkerLoop (hkind : cfg.kind = .strict)
    (h : FuturePoolManager.runWorkerLoop cfg pid sh d = some (sh', d', sp)) :
    LoopStep cfg pid sh d sh' d' sp := by
  revert h
  fun_cases FuturePoolManager.runWorkerLoop cfg pid sh d with
  | case1 hpc =>
    rintro ⟨⟩
    split
    · next htoken => exact .topStop hpc htoken
    · next htoken => exact .top hkind hpc (by simpa using htoken)
  | case2 hpc gate ready hgate =>
    rintro ⟨⟩
    cases ready
    · exact .pending hpc hgate
    · exact .acquired hpc hgate
  | case3 hpc htoken => rintro ⟨⟩; exact .acquireStop hpc htoken
  | case4 hpc htoken => rintro ⟨⟩; exact .acquireAgain hpc (by simpa using htoken)
  | case5 hpc =>
    rintro ⟨⟩
    split
    · next htoken => exact .recheckStop hpc htoken
    · next htoken => exact .recheck hkind hpc (by simpa using htoken)
  | case6 => nofun
  | case7 hpc t items receiver done hlane => rintro ⟨⟩; exact .recv hkind hpc hlane
  | case8 hpc receiver done hlane =>
    rintro ⟨⟩
    split
    · next hsenders => exact .recvClosed hpc hlane hsenders
    · next hsenders => exact .recvEmpty hpc hlane hsenders
  | case9 hpc =>
    rintro ⟨⟩
    split
    · next htoken => exact .recvStop hpc htoken
    · next htoken => exact .recvAgain hpc (by simpa using htoken)
  | case10 t hpc htoken =>
    intro h
    obtain ⟨rfl, rfl, rfl⟩ := DispatcherLoop.dropTask_eq h
    exact .guardStop hkind hpc htoken
  | case11 t hpc htoken => rintro ⟨⟩; exact .guard hkind hpc (by simpa using htoken)
  | case12 t hpc =>
    rintro ⟨⟩
    split
    · next hcancelled => exact .precheckCancelled hpc hcancelled
    · next hcancelled => exact .precheck hkind hpc (by simpa using hcancelled)
  | case13 t hpc active slot hinsert => rintro ⟨⟩; exact .insert hkind hpc hinsert
  | case14 | case15 => exact of_launch
  | case16 | case17 | case18 | case19 => exact of_preCancelled
  | case20 | case21 => exact of_leave
  | case22 => nofun

theorem of_runWorkerLoopRlxd (hkind : cfg.kind = .rlxd)
    (h : FuturePoolManagerRlxd.runWorkerLoop cfg pid sh d = some (sh', d', sp)) :
    LoopStep cfg pid sh d sh' d' sp := by
  revert h
  fun_cases FuturePoolManagerRlxd.runWorkerLoop cfg pid sh d with
  | case1 hpc =>
    rintro ⟨⟩
    split
    · next htoken => exact .topStop hpc htoken
    · next htoken => exact .topRlxd hkind hpc (by simpa using htoken)
  | case2 => nofun
  | case3 hpc t items receiver done hlane sh₁ htoken =>
    intro h
    obtain ⟨rfl, rfl, rfl⟩ := DispatcherLoop.dropTask_eq h
    exact .recvDiscard hkind hpc hlane htoken
  | case4 hpc t items receiver done hlane sh₁ htoken =>
    simp only [Option.some.injEq, Prod.mk.injEq]
    rintro ⟨rfl, rfl, rfl⟩
    exact .recvRlxd hkind hpc hlane (by simpa using htoken)
  | case5 hpc receiver done hlane =>
    rintro ⟨⟩
    split
    · next hsenders => exact .recvClosed hpc hlane hsenders
    · next hsenders => exact .recvEmpty hpc hlane hsenders
  | case6 hpc =>
    rintro ⟨⟩
    split
    · next htoken => exact .recvStop hpc htoken
    · next htoken => exact .recvAgain hpc (by simpa using htoken)
  | case7 t hpc =>
    rintro ⟨⟩
    split
    · next hcancelled => exact .precheckCancelled hpc hcancelled
    · next hcancelled => exact .precheckRlxd hkind hpc (by simpa using hcancelled)
  | case8 t hpc gate ready hgate =>
    rintro ⟨⟩
    cases ready
    · exact .pending hpc hgate
    · exact .acquired hpc hgate
  | case9 t hpc htoken => rintro ⟨⟩; exact .acquireStop hpc htoken
  | case10 t hpc htoken => rintro ⟨⟩; exact .acquireAgain hpc (by simpa using htoken)
  | case11 t hpc =>
    rintro ⟨⟩
    split
    · next htoken => exact .recheckStop hpc htoken
    · next htoken => exact .recheckRlxd hkind hpc (by simpa using htoken)
  | case12 => nofun
  | case13 t hpc r hshard => rintro ⟨⟩; exact .insertCount hkind hpc hshard
  | case14 => nofun
  | case15 t hpc r hshard => rintro ⟨⟩; exact .insertRlxd hkind hpc hshard
  | case16 | case17 => exact of_launch
  | case18 | case19 | case20 | case21 => exact of_preCancelled
  | case22 | case23 => exact of_leave
  | case24 => nofun

end LoopStep

end FuturesOrchestra
