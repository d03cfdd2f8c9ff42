import FuturesOrchestra.Pool

/-!
# What a step of a wrapper can be

`WrapperStep` lists the steps of the two spawned wrappers as rules.
-/

namespace FuturesOrchestra

open Interleaving

variable {σ R : Type} {cfg : PoolConfig} {sh sh' : Shared σ R} {w w' : Wrapper R}
  {sp : Option (Proc R)}

namespace Wrapper

@[simp] theorem goto_pc (w : Wrapper R) (pc : WrapperPc R) : (w.goto pc).pc = pc := rfl

@[simp] theorem goto_task (w : Wrapper R) (pc : WrapperPc R) : (w.goto pc).task = w.task := rfl

@[simp] theorem goto_slot (w : Wrapper R) (pc : WrapperPc R) : (w.goto pc).slot = w.slot := rfl

@[simp] theorem goto_sender (w : Wrapper R) (pc : WrapperPc R) :
    (w.goto pc).sender = w.sender := rfl

/-- The wrapper goes on at `pc` without its completion sender. -/
@[simps] def unheard (w : Wrapper R) (pc : WrapperPc R) : Wrapper R :=
  { w with sender := false, pc := pc }

end Wrapper

variable [Semaphore σ]

/-- `WrapperStep cfg sh w sh' w'`: a step of a wrapper from `w` to `w'` that
changes the shared state from `sh` to `sh'`. -/
inductive WrapperStep (cfg : PoolConfig) (sh : Shared σ R) (w : Wrapper R) :
    Shared σ R → Wrapper R → Prop
  | pollPending (hpc : w.pc = .poll)
      (hpoll : (sh.tasks w.task).future.poll (sh.tasks w.task).polls = .pending) :
      WrapperStep cfg sh w (sh.modifyTask w.task Task.countPoll) (w.goto .selectCancelled)
  | pollReady {v} (hpc : w.pc = .poll)
      (hpoll : (sh.tasks w.task).future.poll (sh.tasks w.task).polls = .ready v) :
      WrapperStep cfg sh w (sh.modifyTask w.task Task.countPoll) (w.goto (.resolved (some v)))
  | pollPanicked (hpc : w.pc = .poll)
      (hpoll : (sh.tasks w.task).future.poll (sh.tasks w.task).polls = .panicked) :
      WrapperStep cfg sh w (sh.modifyTask w.task Task.countPoll) (w.goto (.resolved none))
  | wake (hpc : w.pc = .selectCancelled) (hcancelled : sh.isCancelled w.task = false) :
      WrapperStep cfg sh w sh (w.goto .poll)
  | cancelled (hpc : w.pc = .selectCancelled) (hcancelled : sh.isCancelled w.task = true) :
      WrapperStep cfg sh w sh (w.goto (.outcome (.error .taskCancelled)))
  | discard {value} (hpc : w.pc = .resolved value) (hcancelled : sh.isCancelled w.task = true)
      (hdrop : Wrapper.discardPanics (sh.tasks w.task).future value = false) :
      WrapperStep cfg sh w sh (w.goto (.outcome (.error .taskCancelled)))
  | pass {v} (hpc : w.pc = .resolved (some v)) (hcancelled : sh.isCancelled w.task = false) :
      WrapperStep cfg sh w sh (w.goto (.outcome (.ok v)))
  | passPanic (hpc : w.pc = .resolved none) (hcancelled : sh.isCancelled w.task = false)
      (hdrop : (sh.tasks w.task).future.payloadDropPanics = false) :
      WrapperStep cfg sh w sh (w.goto (.outcome (.error .taskPanicked)))
  | discardUnwind {value} (hpc : w.pc = .resolved value)
      (hcancelled : sh.isCancelled w.task = true ∨ value = none)
      (hdrop : Wrapper.discardPanics (sh.tasks w.task).future value = true) :
      WrapperStep cfg sh w sh (w.goto (.unwind true))
  | send {result} (hpc : w.pc = .outcome result)
      (hdrop : Wrapper.resultPanics (sh.tasks w.task) result = false) :
      WrapperStep cfg sh w (sh.modifyTask w.task (Task.send · result))
        (w.goto (.settled (.ofResult result)))
  | sendUnwind {result} (hpc : w.pc = .outcome result)
      (hdrop : Wrapper.resultPanics (sh.tasks w.task) result = true) :
      WrapperStep cfg sh w (sh.modifyTask w.task (Task.send · result)) (w.goto (.unwind false))
  | notify {status} (hpc : w.pc = .settled status) (hsender : w.sender = true) :
      WrapperStep cfg sh w (sh.sendCompletion cfg w.task status) (w.unheard .closing)
  | silent {status} (hpc : w.pc = .settled status) (hsender : w.sender = false) :
      WrapperStep cfg sh w sh (w.goto .closing)
  | close (hkind : cfg.kind = .strict) (hpc : w.pc = .closing) :
      WrapperStep cfg sh w sh.releasePermit (w.goto .remove)
  | closePanic (hkind : cfg.kind = .strict) (hpc : w.pc = .closing)
      (hdrop : (sh.tasks w.task).future.dropPanics = true) :
      WrapperStep cfg sh w sh.releasePermit (w.goto (.crashed true))
  | remove (hkind : cfg.kind = .strict) (hpc : w.pc = .remove) :
      WrapperStep cfg sh w { sh with active := sh.active.remove w.slot } (w.goto .ended)
  | finish (hkind : cfg.kind = .rlxd) (hpc : w.pc = .closing) :
      WrapperStep cfg sh w (sh.modifyTask w.task Task.markFinished) (w.goto .finish)
  | countOut {r} (hkind : cfg.kind = .rlxd) (hpc : w.pc = .finish)
      (hshard : sh.shards[w.slot]? = some r) :
      WrapperStep cfg sh w (sh.setShard w.slot r.finish) (w.goto .release)
  | release (hkind : cfg.kind = .rlxd) (hpc : w.pc = .release) :
      WrapperStep cfg sh w sh.releasePermit (w.goto .ended)
  | releasePanic (hkind : cfg.kind = .rlxd) (hpc : w.pc = .release)
      (hdrop : (sh.tasks w.task).future.dropPanics = true) :
      WrapperStep cfg sh w sh.releasePermit (w.goto (.crashed false))
  | unwind (hpc : w.pc = .unwind true) :
      WrapperStep cfg sh w
        ((sh.releasePermit.modifyTask w.task Task.dropSender).hangUp w.sender)
        (w.unheard (.crashed true))
  | unwindSent (hpc : w.pc = .unwind false) :
      WrapperStep cfg sh w (sh.releasePermit.hangUp w.sender) (w.unheard (.crashed true))

namespace WrapperStep

theorem task_kept (h : WrapperStep cfg sh w sh' w') : w'.task = w.task := by
  cases h <;> rfl

theorem slot_kept (h : WrapperStep cfg sh w sh' w') : w'.slot = w.slot := by
  cases h <;> rfl

theorem of_pollFuture (hpc : w.pc = .poll) (h : w.pollFuture sh = some (sh', w', sp)) :
    WrapperStep cfg sh w sh' w' ∧ sp = none := by
  cases hpoll : (sh.tasks w.task).future.poll (sh.tasks w.task).polls with
  | pending =>
    simp only [Wrapper.pollFuture, hpoll] at h
    cases h
    exact ⟨.pollPending hpc hpoll, rfl⟩
  | ready v =>
    simp only [Wrapper.pollFuture, hpoll] at h
    cases h
    exact ⟨.pollReady hpc hpoll, rfl⟩
  | panicked =>
    simp only [Wrapper.pollFuture, hpoll] at h
    cases h
    exact ⟨.pollPanicked hpc hpoll, rfl⟩

theorem of_checkFlag {value : Option R} (hpc : w.pc = .resolved value)
    (h : w.checkFlag sh value = some (sh', w', sp)) :
    WrapperStep cfg sh w sh' w' ∧ sp = none := by
  simp only [Wrapper.checkFlag] at h
  split at h
  · next hcancelled =>
    split at h
    · next hdrop => cases h; exact ⟨.discardUnwind hpc (.inl hcancelled) hdrop, rfl⟩
    · next hdrop => cases h; exact ⟨.discard hpc hcancelled (by simpa using hdrop), rfl⟩
  · next hcancelled =>
    have hclear : sh.isCancelled w.task = false := by simpa using hcancelled
    cases value with
    | some v => cases h; exact ⟨.pass hpc hclear, rfl⟩
    | none =>
      simp only at h
      split at h
      · next hdrop => cases h; exact ⟨.discardUnwind hpc (.inr rfl) hdrop, rfl⟩
      · next hdrop => cases h; exact ⟨.passPanic hpc hclear (by simpa using hdrop), rfl⟩

theorem of_body (h : w.body cfg sh = some (sh', w', sp)) :
    WrapperStep cfg sh w sh' w' ∧ sp = none := by
  revert h
  fun_cases Wrapper.body cfg sh w with
  | case1 hpc => exact of_pollFuture hpc
  | case2 hpc =>
    rintro ⟨⟩
    split
    · next hcancelled => exact ⟨.cancelled hpc hcancelled, rfl⟩
    · next hcancelled => exact ⟨.wake hpc (by simpa using hcancelled), rfl⟩
  | case3 value hpc => exact of_checkFlag hpc
  | case4 result hpc =>
    rintro ⟨⟩
    split
    · next hdrop => exact ⟨.sendUnwind hpc hdrop, rfl⟩
    · next hdrop => exact ⟨.send hpc (by simpa using hdrop), rfl⟩
  | case5 status hpc hsender => rintro ⟨⟩; exact ⟨.notify hpc hsender, rfl⟩
  | case6 status hpc hsender => rintro ⟨⟩; exact ⟨.silent hpc (by simpa using hsender), rfl⟩
  | case7 => nofun

theorem of_unwind {tx : Bool} (hpc : w.pc = .unwind tx)
    (h : w.unwind sh tx = some (sh', w', sp)) : WrapperStep cfg sh w sh' w' ∧ sp = none := by
  unfold Wrapper.unwind at h
  split at h
  · cases h
  · cases tx with
    | true => cases h; exact ⟨.unwind hpc, rfl⟩
    | false => cases h; exact ⟨.unwindSent hpc, rfl⟩

theorem of_wrapper (hkind : cfg.kind = .strict)
    (h : FuturePoolManager.wrapper cfg sh w = some (sh', w', sp)) :
    WrapperStep cfg sh w sh' w' ∧ sp = none := by
  revert h
  fun_cases FuturePoolManager.wrapper cfg sh w with
  | case1 hpc =>
    rintro ⟨⟩
    split
    · next hdrop => exact ⟨.closePanic hkind hpc hdrop, rfl⟩
    · exact ⟨.close hkind hpc, rfl⟩
  | case2 hpc => rintro ⟨⟩; exact ⟨.remove hkind hpc, rfl⟩
  | case3 tx hpc => exact of_unwind hpc
  | case4 => exact of_body

theorem of_wrapperRlxd (hkind : cfg.kind = .rlxd)
    (h : FuturePoolManagerRlxd.wrapper cfg sh w = some (sh', w', sp)) :
    WrapperStep cfg sh w sh' w' ∧ sp = none := by
  revert h
  fun_cases FuturePoolManagerRlxd.wrapper cfg sh w with
  | case1 hpc => rintro ⟨⟩; exact ⟨.finish hkind hpc, rfl⟩
  | case2 => nofun
  | case3 hpc r hshard => rintro ⟨⟩; exact ⟨.countOut hkind hpc hshard, rfl⟩
  | case4 hpc =>
    rintro ⟨⟩
    split
    · next hdrop => exact ⟨.releasePanic hkind hpc hdrop, rfl⟩
    · exact ⟨.release hkind hpc, rfl⟩
  | case5 tx hpc => exact of_unwind hpc
  | case6 => exact of_body

end WrapperStep

end FuturesOrchestra
