import FuturesOrchestra.Proofs.Isolation
import FuturesOrchestra.Proofs.Dispatchers
import FuturesOrchestra.Proofs.QueueSlots

/-!
# Borrowed handles

A call that borrows a manager handle keeps it alive: a handle is consumed only when
nobody borrows it. So a `submit` call in progress keeps a queue handle open, and as
long as the token is not cancelled and no destructor panics under a dispatcher, every
dispatcher serves its lane, every push finds its receiver, and the queue keeps its
slots. And when the last owner of the completion sink is gone, nobody is left to look
a sender up in it.
-/

namespace FuturesOrchestra

open Interleaving

variable {σ R : Type} {cfg : PoolConfig} {pid : Nat} {sh sh' : Shared σ R}
  {sp : Option (Proc R)} {p p' : Proc R}

/-! ## Who borrows a handle -/

/-- How many calls borrow handle `c`. -/
def Shared.borrows (sh : Shared σ R) (c : Nat) : Nat := ((sh.clones[c]?).map (·.borrows)).getD 0

def SubmitPc.over : SubmitPc → Bool
  | .returned _ | .abandoned => true
  | _ => false

/-- The handle that the process borrows. -/
def Proc.borrowed : Proc R → Option Nat
  | .submit c => if c.pc.over then none else some c.clone
  | .labelCancel c => if c.pc = .returned then none else some c.clone
  | .addHandler c => if c.pc = .returned then none else some c.clone
  | _ => none

/-- Whether the process borrows handle `c`, as a weight. -/
def Proc.borrowing (c : Nat) (p : Proc R) : Nat := names c p.borrowed

/-- A step of a process leaves the handles alone, or gives one back. -/
inductive BorrowStep (sh sh' : Shared σ R) (p p' : Proc R) : Prop
  | kept (hclones : sh'.clones = sh.clones) (hp : p'.borrowed = p.borrowed)
  | returned {c} (hclones : sh'.clones = (sh.unborrow c).clones) (hp : p.borrowed = some c)
      (hp' : p'.borrowed = none)

theorem Shared.borrows_unborrow (a c : Nat) :
    (sh.unborrow a).borrows c = if c = a then sh.borrows c - 1 else sh.borrows c := by
  simp only [borrows, Shared.unborrow_clones, List.getElem?_modify]
  by_cases hc : c = a
  · subst hc
    cases sh.clones[c]? <;> simp
  · rw [if_neg hc]
    cases sh.clones[c]? <;> simp [Ne.symm hc]

theorem Shared.usable_unborrow (a c : Nat) : (sh.unborrow a).usable c = sh.usable c := by
  simp only [usable, Shared.unborrow_clones, List.getElem?_modify]
  cases sh.clones[c]? with
  | none => rfl
  | some handle => by_cases hc : a = c <;> simp [hc]

theorem Shared.borrows_borrow {a : Nat} (c : Nat) (ha : sh.usable a = true) :
    (sh.borrow a).borrows c = sh.borrows c + names c (some a) := by
  simp only [borrows, borrow, List.getElem?_modify]
  by_cases hc : c = a
  · subst hc
    rw [names_self]
    unfold usable at ha
    cases h : sh.clones[c]? with
    | none => simp [h] at ha
    | some handle => simp
  · rw [names_other hc, Nat.add_zero]
    cases sh.clones[c]? <;> simp [Ne.symm hc]

theorem Shared.usable_borrow (a c : Nat) : (sh.borrow a).usable c = sh.usable c := by
  simp only [usable, borrow, List.getElem?_modify]
  cases sh.clones[c]? with
  | none => rfl
  | some handle => by_cases hc : a = c <;> simp [hc]

theorem Shared.borrows_consume (a c : Nat) : (sh.consume a).borrows c = sh.borrows c := by
  simp only [borrows, consume, List.getElem?_modify]
  cases sh.clones[c]? with
  | none => rfl
  | some handle => by_cases hc : a = c <;> simp [hc]

/-- A handle is consumed only when nobody borrows it. -/
theorem Shared.usable_consume {a c : Nat} (ha : sh.unborrowed a = true) (hc : 0 < sh.borrows c) :
    (sh.consume a).usable c = sh.usable c := by
  simp only [usable, consume, List.getElem?_modify]
  by_cases heq : a = c
  · subst heq
    unfold unborrowed at ha
    unfold borrows at hc
    cases h : sh.clones[a]? with
    | none => rfl
    | some handle =>
      simp only [h, Option.any_some, Bool.and_eq_true, beq_iff_eq] at ha
      simp [h, ha.2] at hc
  · cases sh.clones[c]? <;> simp [heq]

variable [Semaphore σ]

theorem SubmitStep.borrows {kind : PoolKind} {c c' : SubmitCall R}
    (h : SubmitStep kind pid sh c sh' c' sp) :
    BorrowStep sh sh' (.submit c) (.submit c') := by
  cases h with
  | refuse hpc | reject hpc | abandon hpc =>
    refine .returned rfl ?_ (by simp [Proc.borrowed, SubmitPc.over])
    rcases hpc with hpc | hpc <;> simp [Proc.borrowed, SubmitPc.over, hpc]
  | spawn _ hpc | selectCancelled hpc | push hpc | pushFails hpc =>
    exact .returned rfl (by simp [Proc.borrowed, SubmitPc.over, hpc])
      (by simp [Proc.borrowed, SubmitPc.over])
  | _ =>
    refine .kept rfl ?_
    simp [Proc.borrowed, SubmitPc.over, *]

theorem Proc.borrow_of_run {b : Signal} (hrun : Proc.run cfg b pid sh p = some (sh', p', sp)) :
    BorrowStep sh sh' p p' ∧ ∀ q, sp = some q → q.borrowed = none := by
  refine ⟨?_, fun q hq => ?_⟩
  · rcases Proc.split_of_run hrun with ⟨c, c', rfl, rfl, hstep⟩ | ⟨d, d', rfl, rfl, hstep⟩ |
      ⟨w, w', rfl, rfl, hstep, -⟩ | hstep
    · exact hstep.borrows
    · cases hstep <;> exact .kept rfl rfl
    · cases hstep <;> exact .kept rfl rfl
    · cases hstep with
      | shutdown hstep =>
        cases hstep with
        | dropSelf _ hdrop => cases hdrop <;> exact .kept rfl rfl
        | _ => exact .kept rfl rfl
      | drop _ hdrop => cases hdrop <;> exact .kept rfl rfl
      | labelCancel hstep =>
        cases hstep with
        | refuse hpc | cancelEnd hpc =>
          exact .returned rfl (by simp [Proc.borrowed, hpc])
            (by simp [Proc.borrowed, LabelCancelCall.goto])
        | _ => exact .kept rfl (by simp [Proc.borrowed, LabelCancelCall.goto, *])
      | addHandler hstep =>
        cases hstep with
        | push hpc => exact .returned rfl (by simp [Proc.borrowed, hpc]) (by simp [Proc.borrowed])
        | init hpc | initialized hpc => exact .kept rfl (by simp [Proc.borrowed, hpc])
      | notifier hstep => cases hstep <;> exact .kept rfl rfl
  · subst hq
    rcases Proc.started_of_run hrun with ⟨w, rfl⟩ | rfl <;> rfl

/-- Every borrow has an owner, and what is borrowed is alive. -/
structure Borrowed (s : Pool σ R) : Prop where
  counted : ∀ c, s.tally (Proc.borrowing c) = s.shared.borrows c
  alive : ∀ c, 0 < s.shared.borrows c → s.shared.usable c = true

omit [Semaphore σ] in
theorem BorrowStep.balance {s : Pool σ R} (h : BorrowStep s.shared sh' p p') (hp : s.At pid p)
    (hs : Borrowed s) (c : Nat) :
    sh'.borrows c + p.borrowing c = s.shared.borrows c + p'.borrowing c ∧
      sh'.usable c = s.shared.usable c := by
  cases h with
  | kept hclones hborrowed =>
    rw [Proc.borrowing, Proc.borrowing, hborrowed, Shared.borrows, Shared.borrows, Shared.usable,
      Shared.usable, hclones]
    exact ⟨rfl, rfl⟩
  | @returned a hclones hborrowed hborrowed' =>
    have hborrows : sh'.borrows c = (s.shared.unborrow a).borrows c := by
      rw [Shared.borrows, hclones, ← Shared.borrows]
    have husable : sh'.usable c = (s.shared.unborrow a).usable c := by
      rw [Shared.usable, hclones, ← Shared.usable]
    refine ⟨?_, husable.trans (Shared.usable_unborrow a c)⟩
    have hle := Threads.le_tally (g := Proc.borrowing c) hp
    rw [hs.counted] at hle
    rw [hborrows, Shared.borrows_unborrow, Proc.borrowing, Proc.borrowing, hborrowed, hborrowed',
      names_none]
    rw [Proc.borrowing, hborrowed] at hle
    by_cases hc : c = a
    · subst hc
      rw [names_self] at hle ⊢
      rw [if_pos rfl]
      omega
    · rw [if_neg hc, names_other hc]

section Runs

variable {ok : Pool σ R → PoolEvent R → Prop} {s : Pool σ R}

omit [Semaphore σ] in
theorem Borrowed.borrow {a : Nat} {q : Proc R} (hs : Borrowed s) (ha : s.shared.usable a = true)
    (hq : q.borrowed = some a) : Borrowed (s.spawn (s.shared.borrow a) (some q)) := by
  refine ⟨fun c => ?_, fun c hc => ?_⟩
  · rw [Threads.tally_spawn, hs.counted, Threads.spawn_shared, Shared.borrows_borrow c ha,
      Threads.started_some, Proc.borrowing, hq]
  · rw [Threads.spawn_shared, Shared.usable_borrow]
    rw [Threads.spawn_shared, Shared.borrows_borrow c ha] at hc
    by_cases heq : c = a
    · exact heq ▸ ha
    · rw [names_other heq, Nat.add_zero] at hc
      exact hs.alive c hc

omit [Semaphore σ] in
theorem Borrowed.consume {a : Nat} {q : Proc R} (hs : Borrowed s)
    (ha : s.shared.unborrowed a = true) (hq : q.borrowed = none) :
    Borrowed (s.spawn (s.shared.consume a) (some q)) := by
  refine ⟨fun c => ?_, fun c hc => ?_⟩
  · rw [Threads.tally_spawn, hs.counted, Threads.spawn_shared, Shared.borrows_consume,
      Threads.started_some, Proc.borrowing, hq, names_none, Nat.add_zero]
  · rw [Threads.spawn_shared, Shared.borrows_consume] at hc
    rw [Threads.spawn_shared, Shared.usable_consume ha hc]
    exact hs.alive c hc

omit [Semaphore σ] in
/-- A new handle is borrowed by nobody, and the others stay as they are. -/
theorem Borrowed.clone (hs : Borrowed s) (hclones : sh.clones = s.shared.clones ++ [⟨true, 0⟩]) :
    Borrowed (s.spawn sh none) := by
  have hnew (c : Nat) : sh.clones[c]? = s.shared.clones[c]? ∨
      s.shared.clones[c]? = none ∧ (sh.clones[c]? = none ∨ sh.clones[c]? = some ⟨true, 0⟩) := by
    rw [hclones, List.getElem?_append]
    split
    · exact .inl rfl
    · next hge =>
      refine .inr ⟨List.getElem?_eq_none_iff.mpr (not_lt.mp hge), ?_⟩
      rw [List.getElem?_singleton]
      split
      · exact .inr rfl
      · exact .inl rfl
  refine ⟨fun c => ?_, fun c hc => ?_⟩
  · rw [Threads.tally_spawn, hs.counted, Threads.spawn_shared, Threads.started_none, Nat.add_zero]
    simp only [Shared.borrows]
    rcases hnew c with h | ⟨h, h' | h'⟩
    · rw [h]
    · rw [h, h']
    · rw [h, h']
      rfl
  · rw [Threads.spawn_shared] at hc ⊢
    simp only [Shared.borrows] at hc
    simp only [Shared.usable]
    rcases hnew c with h | ⟨h, h' | h'⟩
    · rw [h] at hc ⊢
      exact hs.alive c hc
    · rw [h'] at hc
      cases hc
    · rw [h'] at hc
      cases hc

omit [Semaphore σ] in
/-- A call that begins borrows a usable handle, or none. -/
theorem Borrowed.spawn {call : Call R} (hs : Borrowed s)
    (hcall : call.enter s.shared = some (sh', sp)) : Borrowed (s.spawn sh' sp) := by
  revert hcall
  fun_cases Call.enter s.shared call
  all_goals rintro ⟨⟩
  case case1 => exact hs.clone rfl
  case case3 ha => exact hs.borrow ha rfl
  case case9 ha => exact hs.borrow ha rfl
  case case11 ha => exact hs.borrow ha rfl
  case case5 | case7 =>
    refine ⟨fun c => ?_, hs.alive⟩
    rw [Threads.tally_spawn, hs.counted]
    rfl
  case case13 ha => exact hs.consume ha rfl
  case case15 ha => exact hs.consume ha rfl

theorem borrowed (h : (poolMachine σ R cfg).Reachable ok s) : Borrowed s := by
  refine Pool.invariant (I := Borrowed) .refl ?_ ?_ h ?_
  · intro s b pid p sh p' sp _ hs _ hp hrun
    obtain ⟨hstep, hstarted⟩ := Proc.borrow_of_run hrun
    refine ⟨fun c => ?_, fun c hc => ?_⟩
    · have hbalance := (hstep.balance hp hs c).1
      have htally := Threads.tally_update (Proc.borrowing c) sh p' sp hp
      have hnew : Threads.started (Proc.borrowing c) sp = 0 := by
        cases sp with
        | none => rfl
        | some q => rw [Threads.started_some, Proc.borrowing, hstarted q rfl, names_none]
      have hcounted := hs.counted c
      rw [Threads.update_shared]
      omega
    · obtain ⟨hbalance, husable⟩ := hstep.balance hp hs c
      rw [Threads.update_shared] at hc ⊢
      rw [husable]
      refine hs.alive c (Nat.pos_of_ne_zero fun hzero => ?_)
      -- a step borrows nothing
      cases hstep with
      | kept hclones =>
        rw [Shared.borrows, hclones, ← Shared.borrows, hzero] at hc
        cases hc
      | @returned a hclones =>
        rw [Shared.borrows, hclones, ← Shared.borrows, Shared.borrows_unborrow, hzero] at hc
        split at hc <;> cases hc
  · intro s c sh sp _ hs _ hcall
    exact hs.spawn hcall
  · have hnone (c : Nat) : (Shared.new cfg : Shared σ R).borrows c = 0 := by
      simp only [Shared.borrows, Shared.new, List.getElem?_singleton]
      split <;> rfl
    refine ⟨fun c => ?_, fun c hc => ?_⟩
    · show (Pool.new σ R cfg).tally (Proc.borrowing c) = (Shared.new cfg : Shared σ R).borrows c
      rw [hnone, Pool.tally_new (g := Proc.borrowing c) fun _ => rfl]
    · have hzero : (Shared.new cfg : Shared σ R).borrows c = 0 := hnone c
      exact absurd hzero hc.ne'

/-- A call in progress keeps its handle alive. -/
theorem handles_pos_of_borrowed (h : (poolMachine σ R cfg).Reachable ok s) {c : Nat}
    (hp : s.At pid p) (hborrowed : p.borrowed = some c) : 0 < s.shared.handles := by
  have hle := Threads.le_tally (g := Proc.borrowing c) hp
  have hb := borrowed h
  rw [hb.counted, Proc.borrowing, hborrowed, names_self] at hle
  exact Shared.handles_pos (hb.alive c hle)

/-- A call in progress keeps a queue handle open. -/
theorem queueSenders_pos (h : (poolMachine σ R cfg).Reachable ok s) {c : Nat} (hp : s.At pid p)
    (hborrowed : p.borrowed = some c) : 0 < s.shared.queueSenders := by
  have hhandles := handles_pos_of_borrowed h hp hborrowed
  have hsenders := (references h).queueSenders
  omega

/-! ## A sink without owners -/

/-- Every handle and every dispatcher is gone, and the sink with them. -/
def Pool.Deserted (s : Pool σ R) : Prop :=
  s.shared.guards = 0 ∧ s.shared.queueClosed = true

theorem Pool.Deserted.update {b : Signal} (hs : s.Deserted)
    (hrun : Proc.run cfg b pid s.shared p = some (sh', p', sp)) :
    Pool.Deserted (s.update pid sh' p' sp) := by
  obtain ⟨hguards, hclosed⟩ := hs
  refine ⟨?_, ?_⟩
  · have hle := Proc.sharedGuards_le hrun
    rw [Threads.update_shared]
    omega
  · exact Proc.queueClosed_kept hrun hclosed

/-- Nobody calls a pool without a handle. -/
theorem Pool.Deserted.spawn {call : Call R} (hreach : (poolMachine σ R cfg).Reachable ok s)
    (hs : s.Deserted) (hcall : call.enter s.shared = some (sh', sp)) :
    Pool.Deserted (s.spawn sh' sp) := by
  obtain ⟨hguards, hclosed⟩ := hs
  have hzero : s.shared.handles = 0 := by
    have hreferences := (references hreach).guards
    omega
  have hnone (c : Nat) : s.shared.usable c = false := by
    rw [← Bool.not_eq_true]
    intro husable
    exact (Shared.handles_pos husable).ne' hzero
  have hnone' (c : Nat) : s.shared.unborrowed c = false := by
    rw [← Bool.not_eq_true]
    intro hunborrowed
    have husable := Shared.usable_of_unborrowed hunborrowed
    rw [hnone c] at husable
    cases husable
  revert hcall
  fun_cases Call.enter s.shared call
  all_goals rintro ⟨⟩
  all_goals first | exact ⟨hguards, hclosed⟩ | simp_all

/-- Then no sender is looked up any more. -/
theorem Pool.Deserted.looksUp_ne (hreach : (poolMachine σ R cfg).Reachable ok s)
    (hs : s.Deserted) (hp : s.At pid p) : p.looksUp ≠ some t := by
  intro hlooks
  cases p with
  | submit c =>
    have hborrowed : (Proc.submit c).borrowed = some c.clone := by
      cases hpc : c.pc <;> simp_all [Proc.looksUp, SubmitPc.looksUp, Proc.borrowed, SubmitPc.over]
    have hhandles := handles_pos_of_borrowed hreach hp hborrowed
    have hreferences := (references hreach).guards
    have hzero := hs.1
    omega
  | loop d =>
    obtain ⟨l, hl, hagrees⟩ := (dispatchers hreach).agrees pid d hp
    have hreceiver : l.receiver = false := by
      simpa using List.all_eq_true.mp hs.2 l (List.mem_of_getElem? hl)
    rw [hagrees.receiver] at hreceiver
    cases hpc : d.pc <;> simp_all [Proc.looksUp, LoopPc.looksUp, LoopPc.gone]
  | _ => cases hlooks

/-! ## A pool that is not shut down -/

section Spared

variable (hspared : ∀ {s : Pool σ R} {b pid d}, ok s (.run b pid) → s.At pid (.loop d) →
  d.struck s.shared = true → s.shared.ending = true)

include hspared

/-- While a call is in progress and the token is not cancelled no loop leaves. -/
theorem serving_of_borrowed (h : (poolMachine σ R cfg).Reachable ok s)
    (htoken : s.shared.token = false) {c : Nat} (hp : s.At pid p) (hborrowed : p.borrowed = some c)
    {i : Nat} {d : DispatcherLoop} (hd : s.At i (.loop d)) : d.pc.leaving = false := by
  rw [← Bool.not_eq_true]
  intro hleaving
  have hending := leaving_ending hspared h hd hleaving
  have hsenders := queueSenders_pos h hp hborrowed
  rw [Shared.ending, htoken, Bool.false_or, beq_iff_eq] at hending
  omega

theorem receiver_of_borrowed (h : (poolMachine σ R cfg).Reachable ok s)
    (htoken : s.shared.token = false) {c : Nat} (hp : s.At pid p) (hborrowed : p.borrowed = some c)
    {i : Nat} {l : Lane} (hl : s.shared.lanes[i]? = some l) : l.receiver = true := by
  have hs := dispatchers h
  have hlt : i < s.shared.lanes.length := (List.getElem?_eq_some_iff.mp hl).1
  obtain ⟨d, hd⟩ := hs.present i (hs.lanes ▸ hlt)
  have hserving := serving_of_borrowed hspared h htoken hp hborrowed hd
  obtain ⟨l', hl', hagrees⟩ := hs.agrees i d hd
  obtain rfl := Option.some.inj (hl.symm.trans hl')
  rw [hagrees.receiver]
  cases hpc : d.pc <;> rw [hpc] at hserving <;> first | rfl | cases hserving

/-- As long as the token is not cancelled the queue keeps its slots. -/
theorem slots_before_shutdown (h : (poolMachine σ R cfg).Reachable ok s)
    (htoken : s.shared.token = false) : s.slots = cfg.queueSlots := by
  refine (h.invariant (I := fun s => (poolMachine σ R cfg).Reachable ok s ∧
    (s.shared.token = false → s.slots = cfg.queueSlots)) ?_ ⟨.refl, fun _ => Pool.slots_new⟩).2 htoken
  rintro s a s' ⟨hreach, hs⟩ hgood hstep
  refine ⟨hreach.tail hgood hstep, fun htoken' => ?_⟩
  have hsteps : (poolMachine σ R cfg).Steps Machine.anyStep s s' := .tail .refl trivial hstep
  have hevolves := Shared.Evolves.steps hsteps
  have htoken : s.shared.token = false := by
    cases h : s.shared.token with
    | false => rfl
    | true =>
      rw [hevolves.token h] at htoken'
      cases htoken'
  have hopen : pushesOpen s a = true := by
    cases a with
    | call c => rfl
    | run b pid =>
      obtain ⟨p, sh, p', sp, hp, -, rfl⟩ := Program.step_run hstep
      simp only [pushesOpen, hp, Option.all_some, Bool.not_eq_true']
      cases p with
      | submit c =>
        cases hpc : c.pc with
        | push t lane =>
          have hborrowed : (Proc.submit c).borrowed = some c.clone := by
            simp [Proc.borrowed, SubmitPc.over, hpc]
          simp only [Proc.pushesClosed, SubmitCall.pushesClosed, hpc]
          cases hl : s.shared.lanes[lane]? with
          | none => rfl
          | some l =>
            rw [Option.any_some,
              receiver_of_borrowed hspared hreach htoken hp hborrowed hl]
            rfl
        | _ => simp [Proc.pushesClosed, SubmitCall.pushesClosed, hpc]
      | _ => rfl
  rw [Pool.slots_step hstep, hs htoken, hopen]
  rfl

end Spared

end Runs

end FuturesOrchestra
