import Mathlib.Algebra.Order.BigOperators.Group.List
import Mathlib.Algebra.Order.Ring.Nat
import FuturesOrchestra.Lib.Machine

/-!
# Threads over a shared state

Concurrent processes that interleave atomic steps: the global state is a shared
part and a table of processes, a step runs one process of the table on the
shared part, and a process may start another one. `Program.induct` is the
induction rule of such a system. `tally` sums a weight over the processes, and
its lemmas turn "every step moves weight without creating or losing it" into a
conservation law; `All` says something of each process.
-/

namespace Interleaving

variable {S P B C : Type}

/-- The shared state and the table of processes; a process is named by its index. -/
structure Threads (S P : Type) where
  shared : S
  procs : List P

/-- The code of the processes. `run b pid sh p` is the atomic step that process
`pid` in state `p` takes on signal `b`, with the process it starts, if any.
`call c sh` is a step of the environment. -/
structure Program (S P B C : Type) where
  run : B → Nat → S → P → Option (S × P × Option P)
  call : C → S → Option (S × Option P)

/-- What happens in one step of a program: a process runs, or the environment
acts. -/
inductive Event (B C : Type)
  | run (b : B) (pid : Nat)
  | call (c : C)

namespace Threads

variable {s : Threads S P} {pid : Nat} {sh : S} {p p' : P} {sp : Option P}

/-- Process `pid` of the table is in state `p`. -/
abbrev At (s : Threads S P) (pid : Nat) (p : P) : Prop := s.procs[pid]? = some p

/-- The state after process `pid` has become `p` and has started `sp`. -/
def update (s : Threads S P) (pid : Nat) (sh : S) (p : P) (sp : Option P) : Threads S P :=
  ⟨sh, s.procs.set pid p ++ sp.toList⟩

/-- The state after the environment has started `sp`. -/
def spawn (s : Threads S P) (sh : S) (sp : Option P) : Threads S P :=
  ⟨sh, s.procs ++ sp.toList⟩

@[simp] theorem update_shared : (s.update pid sh p sp).shared = sh := rfl

@[simp] theorem spawn_shared : (s.spawn sh sp).shared = sh := rfl

/-- A process of the table after a step: the one that ran, another one, or the
started one. -/
theorem update_getElem? {qid : Nat} {q : P} (hp : s.procs[pid]? = some p)
    (h : (s.update pid sh p' sp).procs[qid]? = some q) :
    (qid = pid ∧ q = p') ∨ (qid ≠ pid ∧ s.procs[qid]? = some q) ∨
      (qid = s.procs.length ∧ sp = some q) := by
  have hlt : pid < s.procs.length := (List.getElem?_eq_some_iff.mp hp).1
  simp only [update, List.getElem?_append, List.length_set] at h
  split at h
  · rw [List.getElem?_set] at h
    by_cases heq : pid = qid
    · subst heq
      simp [hlt] at h
      exact .inl ⟨rfl, h.symm⟩
    · simp [heq] at h
      exact .inr (.inl ⟨fun e => heq e.symm, h⟩)
  · next hge =>
    cases sp with
    | none => simp at h
    | some r =>
      simp only [Option.toList_some, List.getElem?_singleton] at h
      split at h
      · next hz =>
        refine .inr (.inr ⟨by omega, by simpa using h⟩)
      · cases h

theorem spawn_getElem? {qid : Nat} {q : P} (h : (s.spawn sh sp).procs[qid]? = some q) :
    s.procs[qid]? = some q ∨ (qid = s.procs.length ∧ sp = some q) := by
  simp only [spawn, List.getElem?_append] at h
  split at h
  · exact .inl h
  · cases sp with
    | none => simp at h
    | some r =>
      simp only [Option.toList_some, List.getElem?_singleton] at h
      split at h
      · refine .inr ⟨by omega, by simpa using h⟩
      · cases h

/-- The process that ran, in the table after its step. -/
theorem update_self (hp : s.procs[pid]? = some p) :
    (s.update pid sh p' sp).procs[pid]? = some p' := by
  have hlt : pid < s.procs.length := (List.getElem?_eq_some_iff.mp hp).1
  simp [update, List.getElem?_append, hlt]

/-- The process that a step has started, in the table after it. -/
theorem update_new (q : P) :
    (s.update pid sh p' (some q)).procs[s.procs.length]? = some q := by
  simp [update]

/-- A process that did not run is left alone. -/
theorem update_other {qid : Nat} {q : P} (hne : qid ≠ pid) (hq : s.procs[qid]? = some q) :
    (s.update pid sh p' sp).procs[qid]? = some q := by
  have hlt : qid < s.procs.length := (List.getElem?_eq_some_iff.mp hq).1
  rw [update, List.getElem?_append_left (by simpa using hlt), List.getElem?_set_ne (Ne.symm hne)]
  exact hq

theorem spawn_other {qid : Nat} {q : P} (hq : s.procs[qid]? = some q) :
    (s.spawn sh sp).procs[qid]? = some q := by
  have hlt : qid < s.procs.length := (List.getElem?_eq_some_iff.mp hq).1
  rw [spawn, List.getElem?_append_left hlt]
  exact hq

/-- The process that the environment has started, in the table after it. -/
theorem spawn_new (q : P) : (s.spawn sh (some q)).procs[s.procs.length]? = some q := by
  simp [spawn]

/-! ## Weights -/

/-- The weight `g` summed over the processes. -/
def tally (g : P → Nat) (s : Threads S P) : Nat := (s.procs.map g).sum

/-- The weight of a process that a step starts, if any. -/
def started (g : P → Nat) (sp : Option P) : Nat := (sp.map g).getD 0

@[simp] theorem started_none (g : P → Nat) : started g none = 0 := rfl

@[simp] theorem started_some (g : P → Nat) (p : P) : started g (some p) = g p := rfl

theorem sum_map_set {l : List P} (p' : P) (g : P → Nat) (h : l[pid]? = some p) :
    ((l.set pid p').map g).sum + g p = (l.map g).sum + g p' := by
  induction l generalizing pid with
  | nil => simp at h
  | cons q l ih =>
    cases pid with
    | zero =>
      obtain rfl : q = p := by simpa using h
      simp
      omega
    | succ pid =>
      have hrest : ((l.set pid p').map g).sum + g p = (l.map g).sum + g p' :=
        ih (by simpa using h)
      simp only [List.set_cons_succ, List.map_cons, List.sum_cons]
      omega

theorem sum_map_started (l : List P) (g : P → Nat) (sp : Option P) :
    ((l ++ sp.toList).map g).sum = (l.map g).sum + started g sp := by
  cases sp <;> simp

/-- A step changes the tally by what the process that ran and the started one
weigh. -/
theorem tally_update (g : P → Nat) (sh : S) (p' : P) (sp : Option P)
    (hp : s.procs[pid]? = some p) :
    (s.update pid sh p' sp).tally g + g p = s.tally g + g p' + started g sp := by
  have hset := sum_map_set p' g hp
  simp only [tally, update, sum_map_started]
  omega

/-- The same when the step also changes the weights, but for no other process. -/
theorem tally_update_of {g h : P → Nat} (sh : S) (p' : P) (sp : Option P)
    (hp : s.procs[pid]? = some p)
    (hother : ∀ (qid : Nat) q, qid ≠ pid → s.procs[qid]? = some q → h q = g q) :
    (s.update pid sh p' sp).tally h + g p = s.tally g + h p' + started h sp := by
  obtain ⟨sh₀, l⟩ := s
  simp only [tally, update, sum_map_started] at hp hother ⊢
  suffices hset : ((l.set pid p').map h).sum + g p = (l.map g).sum + h p' by omega
  induction l generalizing pid with
  | nil => simp at hp
  | cons q l ih =>
    cases pid with
    | zero =>
      obtain rfl : q = p := by simpa using hp
      have hrest : l.map h = l.map g := by
        refine List.map_congr_left fun r hr => ?_
        obtain ⟨i, hi⟩ := List.getElem?_of_mem hr
        exact hother (i + 1) r (Nat.succ_ne_zero i) (by simpa using hi)
      simp only [List.set_cons_zero, List.map_cons, List.sum_cons, hrest]
      omega
    | succ pid =>
      have hhead : h q = g q := hother 0 q (Nat.succ_ne_zero pid).symm (by simp)
      have hrest := ih (by simpa using hp) fun i r hi hr =>
        hother (i + 1) r (by simpa using hi) (by simpa using hr)
      simp only [List.set_cons_succ, List.map_cons, List.sum_cons, hhead]
      omega

theorem tally_spawn (g : P → Nat) (s : Threads S P) (sh : S) (sp : Option P) :
    (s.spawn sh sp).tally g = s.tally g + started g sp :=
  sum_map_started _ _ _

/-- A family of weights, summed over the family first or over the processes
first. -/
theorem sum_tally (g : Nat → P → Nat) (n : Nat) (s : Threads S P) :
    ((List.range n).map fun i => s.tally (g i)).sum =
      s.tally fun p => ((List.range n).map fun i => g i p).sum := by
  obtain ⟨sh, procs⟩ := s
  simp only [tally]
  induction procs with
  | nil => simp
  | cons p procs ih => simp [List.sum_map_add, ih]

theorem tally_mono {g h : P → Nat}
    (hle : ∀ (pid : Nat) p, s.procs[pid]? = some p → g p ≤ h p) : s.tally g ≤ s.tally h := by
  refine List.sum_le_sum fun p hp => ?_
  obtain ⟨pid, hpid⟩ := List.getElem?_of_mem hp
  exact hle pid p hpid

theorem le_tally {g : P → Nat} (hp : s.procs[pid]? = some p) : g p ≤ s.tally g :=
  List.le_sum_of_mem (List.mem_map_of_mem (List.mem_of_getElem? hp))

theorem add_le_tally {g : P → Nat} {qid : Nat} {q : P} (hne : pid ≠ qid)
    (hp : s.procs[pid]? = some p) (hq : s.procs[qid]? = some q) : g p + g q ≤ s.tally g := by
  obtain ⟨sh, l⟩ := s
  simp only [tally] at hp hq ⊢
  induction l generalizing pid qid with
  | nil => simp at hp
  | cons a l ih =>
    have hmem {i : Nat} {r : P} (hi : l[i]? = some r) : g r ≤ (l.map g).sum :=
      List.le_sum_of_mem (List.mem_map_of_mem (List.mem_of_getElem? hi))
    cases pid with
    | zero =>
      cases qid with
      | zero => exact absurd rfl hne
      | succ qid =>
        obtain rfl : a = p := by simpa using hp
        have hle := hmem (by simpa using hq : l[qid]? = some q)
        simp only [List.map_cons, List.sum_cons]
        omega
    | succ pid =>
      cases qid with
      | zero =>
        obtain rfl : a = q := by simpa using hq
        have hle := hmem (by simpa using hp : l[pid]? = some p)
        simp only [List.map_cons, List.sum_cons]
        omega
      | succ qid =>
        have hle := ih (by simpa using hne) (by simpa using hp) (by simpa using hq)
        simp only [List.map_cons, List.sum_cons]
        omega

theorem tally_eq_zero {g : P → Nat} (h : ∀ (pid : Nat) p, s.procs[pid]? = some p → g p = 0) :
    s.tally g = 0 := by
  refine List.sum_eq_zero fun n hn => ?_
  obtain ⟨p, hp, rfl⟩ := List.mem_map.mp hn
  obtain ⟨pid, hpid⟩ := List.getElem?_of_mem hp
  exact h pid p hpid

theorem tally_add (g h : P → Nat) (s : Threads S P) :
    (s.tally fun p => g p + h p) = s.tally g + s.tally h :=
  List.sum_map_add

/-! ## What one process has -/

section First

variable {X : Type} {g : P → Option X} {d : X}

/-- What the first process that has some `g` has, or `d` when there is none. -/
def first (g : P → Option X) (d : X) (s : Threads S P) : X := (s.procs.findSome? g).getD d

theorem first_eq (h : ∀ (pid : Nat) p, s.procs[pid]? = some p → ∀ x, g p = some x → x = d) :
    s.first g d = d := by
  rw [first]
  cases hfound : s.procs.findSome? g with
  | none => rfl
  | some x =>
    obtain ⟨p, hp, hx⟩ := List.exists_of_findSome?_eq_some hfound
    obtain ⟨pid, hpid⟩ := List.getElem?_of_mem hp
    exact h pid p hpid x hx

/-- When no other process has any, this is what the one has. -/
theorem first_of_sole {x : X} (hp : s.procs[pid]? = some p) (hx : g p = some x)
    (hother : ∀ (qid : Nat) q, qid ≠ pid → s.procs[qid]? = some q → g q = none) :
    s.first g d = x := by
  rw [first]
  cases hfound : s.procs.findSome? g with
  | none =>
    have hnone := List.findSome?_eq_none_iff.mp hfound p (List.mem_of_getElem? hp)
    rw [hx] at hnone
    cases hnone
  | some y =>
    obtain ⟨q, hq, hy⟩ := List.exists_of_findSome?_eq_some hfound
    obtain ⟨qid, hqid⟩ := List.getElem?_of_mem hq
    by_cases hne : qid = pid
    · subst hne
      obtain rfl := Option.some.inj (hp.symm.trans hqid)
      exact Option.some.inj (hy.symm.trans hx)
    · rw [hother qid q hne hqid] at hy
      cases hy

theorem findSome?_started (l : List P) (hnew : ∀ q, sp = some q → ∀ x, g q = some x → x = d) :
    ((l ++ sp.toList).findSome? g).getD d = (l.findSome? g).getD d := by
  rw [List.findSome?_append]
  cases l.findSome? g with
  | some x => rfl
  | none =>
    cases sp with
    | none => rfl
    | some q =>
      cases hq : g q with
      | none => simp [hq]
      | some x => simp [hq, hnew q rfl x hq]

/-- A step of a process that has the same before and after it, and starts at most one that
has `d`. -/
theorem first_update (hp : s.procs[pid]? = some p) (hself : g p' = g p)
    (hnew : ∀ q, sp = some q → ∀ x, g q = some x → x = d) :
    (s.update pid sh p' sp).first g d = s.first g d := by
  have hmap : (s.procs.set pid p').map g = s.procs.map g := by
    obtain ⟨hlt, rfl⟩ := List.getElem?_eq_some_iff.mp hp
    have hlt' : pid < (s.procs.map g).length := by rwa [List.length_map]
    have hsame : g p' = (s.procs.map g)[pid] := by rw [List.getElem_map, hself]
    rw [List.map_set, hsame, List.set_getElem_self]
  have hfound : (s.procs.set pid p').findSome? g = s.procs.findSome? g := by
    have hid (l : List P) : l.findSome? g = (l.map g).findSome? id := by
      rw [List.findSome?_map]
      rfl
    rw [hid, hid, hmap]
  show (((s.procs.set pid p') ++ sp.toList).findSome? g).getD d = _
  rw [findSome?_started _ hnew, hfound]
  rfl

theorem first_spawn (hnew : ∀ q, sp = some q → ∀ x, g q = some x → x = d) :
    (s.spawn sh sp).first g d = s.first g d :=
  findSome?_started _ hnew

end First

end Threads

/-! ## Runs of a program -/

namespace Program

variable {prog : Program S P B C}

/-- One step of the program. -/
def step (prog : Program S P B C) (s : Threads S P) : Event B C → Option (Threads S P)
  | .run b pid =>
    (s.procs[pid]?).bind fun p =>
      (prog.run b pid s.shared p).map fun r => s.update pid r.1 r.2.1 r.2.2
  | .call c => (prog.call c s.shared).map fun r => s.spawn r.1 r.2

theorem step_run {s s' : Threads S P} {b : B} {pid : Nat}
    (h : prog.step s (.run b pid) = some s') :
    ∃ p sh p' sp, s.procs[pid]? = some p ∧ prog.run b pid s.shared p = some (sh, p', sp) ∧
      s' = s.update pid sh p' sp := by
  simp only [step, Option.bind_eq_some_iff, Option.map_eq_some_iff] at h
  obtain ⟨p, hp, ⟨sh, p', sp⟩, hrun, rfl⟩ := h
  exact ⟨p, sh, p', sp, hp, hrun, rfl⟩

theorem step_of_run {s : Threads S P} {b : B} {pid : Nat} {p p' : P} {sh : S} {sp : Option P}
    (hp : s.procs[pid]? = some p) (h : prog.run b pid s.shared p = some (sh, p', sp)) :
    prog.step s (.run b pid) = some (s.update pid sh p' sp) := by
  simp only [step, hp, Option.bind_some, h, Option.map_some]

theorem step_call {s s' : Threads S P} {c : C} (h : prog.step s (.call c) = some s') :
    ∃ sh sp, prog.call c s.shared = some (sh, sp) ∧ s' = s.spawn sh sp := by
  simp only [step, Option.map_eq_some_iff] at h
  obtain ⟨⟨sh, sp⟩, hcall, rfl⟩ := h
  exact ⟨sh, sp, hcall, rfl⟩

/-- The transition system of a program. -/
def machine (prog : Program S P B C) (init : Threads S P) : Machine (Threads S P) (Event B C) :=
  ⟨init, prog.step⟩

/-- The induction rule of a program: an invariant is kept by every process step
and by every step of the environment. -/
theorem induct {init : Threads S P} {ok : Threads S P → Event B C → Prop}
    {I : Threads S P → Prop} {s t : Threads S P}
    (hrun : ∀ {s b pid p sh p' sp}, I s → ok s (.run b pid) → s.procs[pid]? = some p →
      prog.run b pid s.shared p = some (sh, p', sp) → I (s.update pid sh p' sp))
    (hcall : ∀ {s c sh sp}, I s → ok s (.call c) → prog.call c s.shared = some (sh, sp) →
      I (s.spawn sh sp))
    (h : (prog.machine init).Steps ok s t) (hs : I s) : I t := by
  refine h.invariant (fun {s a s'} hi hok hstep => ?_) hs
  cases a with
  | run b pid =>
    obtain ⟨p, sh, p', sp, hp, hr, rfl⟩ := step_run hstep
    exact hrun hi hok hp hr
  | call c =>
    obtain ⟨sh, sp, hc, rfl⟩ := step_call hstep
    exact hcall hi hok hc

/-- The conservation rule: when every step balances what it adds to `f` and to
the weight `g` of the processes against what it adds to `k`, the balance
`f + Σ g = k` is kept. The process that runs holds no more than there is. -/
theorem conserved {init : Threads S P} {ok : Threads S P → Event B C → Prop}
    {f k : S → Nat} {g : P → Nat} {s t : Threads S P}
    (hrun : ∀ {b pid sh p sh' p' sp}, f sh + g p ≤ k sh →
      prog.run b pid sh p = some (sh', p', sp) →
      f sh' + g p' + Threads.started g sp + k sh = f sh + g p + k sh')
    (hcall : ∀ {c sh sh' sp}, prog.call c sh = some (sh', sp) →
      f sh' + Threads.started g sp + k sh = f sh + k sh')
    (h : (prog.machine init).Steps ok s t) (hs : f s.shared + s.tally g = k s.shared) :
    f t.shared + t.tally g = k t.shared := by
  refine induct (I := fun s => f s.shared + s.tally g = k s.shared) ?_ ?_ h hs
  · intro s b pid p sh p' sp hi _ hp hr
    have hle := Threads.le_tally (g := g) hp
    have hbal := hrun (by omega) hr
    have htally := Threads.tally_update g sh p' sp hp
    simp only [Threads.update_shared]
    omega
  · intro s c sh sp hi _ hc
    have hbal := hcall hc
    have htally := Threads.tally_spawn g s sh sp
    simp only [Threads.spawn_shared]
    omega

/-- The bound rule: when no step adds more to `f` and to the weight `g` of the
processes than to `k`, the bound `f + Σ g ≤ k` is kept. -/
theorem bounded {init : Threads S P} {ok : Threads S P → Event B C → Prop}
    {f k : S → Nat} {g : P → Nat} {s t : Threads S P}
    (hrun : ∀ {b pid sh p sh' p' sp}, prog.run b pid sh p = some (sh', p', sp) →
      f sh' + g p' + Threads.started g sp + k sh ≤ f sh + g p + k sh')
    (hcall : ∀ {c sh sh' sp}, prog.call c sh = some (sh', sp) →
      f sh' + Threads.started g sp + k sh ≤ f sh + k sh')
    (h : (prog.machine init).Steps ok s t) (hs : f s.shared + s.tally g ≤ k s.shared) :
    f t.shared + t.tally g ≤ k t.shared := by
  refine induct (I := fun s => f s.shared + s.tally g ≤ k s.shared) ?_ ?_ h hs
  · intro s b pid p sh p' sp hi _ hp hr
    have hbal := hrun hr
    have htally := Threads.tally_update g sh p' sp hp
    simp only [Threads.update_shared]
    omega
  · intro s c sh sp hi _ hc
    have hbal := hcall hc
    have htally := Threads.tally_spawn g s sh sp
    simp only [Threads.spawn_shared]
    omega

end Program

end Interleaving
