import Mathlib.Logic.Relation
import FuturesOrchestra.Lib.Threads

/-!
# Locks and their guards

The locks of a system of threads, as the list of the guards that are held. A guard is taken in
one step and given back in another one. `Guarded` says that the guards are those that the
program points of the threads account for; `Waits` is the wait-for relation.
-/

namespace Interleaving

variable {L S P : Type} [DecidableEq L]

inductive GuardMode
  | read
  | write
deriving DecidableEq, Repr

/-- A guard of `lock` that `thread` holds. -/
structure Guard (L : Type) where
  thread : Nat
  lock : L
  mode : GuardMode
deriving DecidableEq, Repr

namespace Guard

/-- The guard does not keep another one of `lock` from being taken. -/
def compatible (g : Guard L) (lock : L) (mode : GuardMode) : Bool :=
  g.lock != lock || (g.mode == .read && mode == .read)

/-- A guard of `lock` can be taken. -/
def free (guards : List (Guard L)) (lock : L) (mode : GuardMode) : Bool :=
  guards.all fun g => g.compatible lock mode

/-- A guard is given back. -/
def release (pid : Nat) (lock : L) (mode : GuardMode) (guards : List (Guard L)) :
    List (Guard L) :=
  guards.filter fun g => g ≠ ⟨pid, lock, mode⟩

theorem mem_release {g : Guard L} {pid : Nat} {lock : L} {mode : GuardMode}
    {guards : List (Guard L)} :
    g ∈ release pid lock mode guards ↔ g ∈ guards ∧ g ≠ ⟨pid, lock, mode⟩ := by
  rw [release, List.mem_filter, decide_eq_true_iff]

theorem exists_of_not_free {guards : List (Guard L)} {lock : L} {mode : GuardMode}
    (h : free guards lock mode = false) : ∃ g ∈ guards, g.compatible lock mode = false := by
  simpa [free] using h

/-- Two guards of one lock can be held at once when both are read guards. -/
theorem compatible_self {g : Guard L} {mode : GuardMode} :
    g.compatible g.lock mode = true ↔ g.mode = .read ∧ mode = .read := by
  simp [compatible]

theorem compatible_comm {g k : Guard L} :
    g.compatible k.lock k.mode = k.compatible g.lock g.mode := by
  obtain ⟨i, l, m⟩ := g
  obtain ⟨j, l', m'⟩ := k
  show (l != l' || (m == .read && m' == .read)) = (l' != l || (m' == .read && m == .read))
  rw [bne_comm, Bool.and_comm]

end Guard

/-- What a step of thread `pid` can do to the guards: nothing, take one, or give one back.
`held` and `held'` are the guards that the thread holds before and after it. -/
inductive GuardStep (pid : Nat) (guards : List (Guard L)) (held : List (L × GuardMode)) :
    List (Guard L) → List (L × GuardMode) → Prop
  | keep {held'} (hheld : ∀ x, x ∈ held' ↔ x ∈ held) : GuardStep pid guards held guards held'
  | acquire {lock mode held'} (hfree : Guard.free guards lock mode = true)
      (hheld : ∀ x, x ∈ held' ↔ x = (lock, mode) ∨ x ∈ held) :
      GuardStep pid guards held (⟨pid, lock, mode⟩ :: guards) held'
  | release {lock mode held'} (hmem : (lock, mode) ∈ held)
      (hheld : ∀ x, x ∈ held' ↔ x ∈ held ∧ x ≠ (lock, mode)) :
      GuardStep pid guards held (Guard.release pid lock mode guards) held'

/-- A step that leaves a guard alone, next to that guard. -/
theorem GuardStep.frame {pid : Nat} {guards guards' : List (Guard L)}
    {held held' : List (L × GuardMode)} {y : L × GuardMode} (hy : y ∉ held)
    (h : GuardStep pid guards held guards' held') :
    GuardStep pid guards (y :: held) guards' (y :: held') := by
  cases h with
  | keep hheld =>
    refine .keep fun x => ?_
    rw [List.mem_cons, List.mem_cons, hheld]
  | acquire hfree hheld =>
    refine .acquire hfree fun x => ?_
    rw [List.mem_cons, List.mem_cons, hheld, or_left_comm]
  | @release lock mode _ hmem hheld =>
    refine .release (List.mem_cons_of_mem _ hmem) fun x => ?_
    rw [List.mem_cons, List.mem_cons, hheld]
    constructor
    · rintro (rfl | ⟨hx, hne⟩)
      · exact ⟨.inl rfl, fun heq => hy (heq ▸ hmem)⟩
      · exact ⟨.inr hx, hne⟩
    · rintro ⟨rfl | hx, hne⟩
      · exact .inl rfl
      · exact .inr ⟨hx, hne⟩

/-- The guards are those that the threads hold, and no two of them exclude each other. -/
structure Guarded (guards : S → List (Guard L)) (holds : P → List (L × GuardMode))
    (s : Threads S P) : Prop where
  held : ∀ g ∈ guards s.shared, ∃ p, s.At g.thread p ∧ (g.lock, g.mode) ∈ holds p
  holding : ∀ pid p x, s.At pid p → x ∈ holds p → ⟨pid, x.1, x.2⟩ ∈ guards s.shared
  exclusive : ∀ g ∈ guards s.shared, ∀ k ∈ guards s.shared, g ≠ k →
    k.compatible g.lock g.mode = true

namespace Guarded

variable {guards : S → List (Guard L)} {holds : P → List (L × GuardMode)} {s : Threads S P}
  {pid : Nat} {sh : S} {p p' : P} {sp : Option P}

theorem update (hs : Guarded guards holds s) (hp : s.At pid p)
    (hstep : GuardStep pid (guards s.shared) (holds p) (guards sh) (holds p'))
    (hnew : ∀ q, sp = some q → holds q = []) : Guarded guards holds (s.update pid sh p' sp) := by
  obtain ⟨after, hafter⟩ : ∃ after, guards sh = after := ⟨_, rfl⟩
  rw [hafter] at hstep
  -- the guards of the other threads, before and after the step
  have hother : ∀ g, g.thread ≠ pid → (g ∈ after ↔ g ∈ guards s.shared) := by
    intro g hne
    cases hstep with
    | keep => rfl
    | acquire =>
      rw [List.mem_cons, or_iff_right]
      rintro rfl
      exact hne rfl
    | release =>
      rw [Guard.mem_release, and_iff_left]
      rintro rfl
      exact hne rfl
  -- the guards of the thread itself
  have hself : ∀ g, g.thread = pid → (g ∈ after ↔ (g.lock, g.mode) ∈ holds p') := by
    rintro ⟨i, l, m⟩ rfl
    have hbefore : ⟨i, l, m⟩ ∈ guards s.shared ↔ (l, m) ∈ holds p := by
      refine ⟨fun hg => ?_, hs.holding i p (l, m) hp⟩
      obtain ⟨q, hq, hmem⟩ := hs.held _ hg
      obtain rfl := Option.some.inj (hp.symm.trans hq)
      exact hmem
    cases hstep with
    | keep hheld => rw [hheld, hbefore]
    | acquire _ hheld =>
      rw [List.mem_cons, hheld, hbefore]
      simp
    | release _ hheld =>
      rw [Guard.mem_release, hheld, hbefore]
      simp
  refine ⟨fun g hg => ?_, fun qid q x hq hx => ?_, ?_⟩
  · rw [Threads.update_shared, hafter] at hg
    by_cases hthread : g.thread = pid
    · refine ⟨p', ?_, (hself g hthread).mp hg⟩
      rw [hthread]
      exact Threads.update_self hp
    · obtain ⟨q, hq, hmem⟩ := hs.held g ((hother g hthread).mp hg)
      exact ⟨q, Threads.update_other hthread hq, hmem⟩
  · rw [Threads.update_shared, hafter]
    rcases Threads.update_getElem? hp hq with ⟨rfl, rfl⟩ | ⟨hne, hold⟩ | ⟨-, hstarted⟩
    · exact (hself ⟨qid, x.1, x.2⟩ rfl).mpr hx
    · exact (hother ⟨qid, x.1, x.2⟩ hne).mpr (hs.holding qid q x hold hx)
    · rw [hnew q hstarted] at hx
      cases hx
  · intro g hg k hk hne
    rw [Threads.update_shared, hafter] at hg hk
    cases hstep with
    | keep => exact hs.exclusive g hg k hk hne
    | acquire hfree =>
      have hall := List.all_eq_true.mp hfree
      rcases List.mem_cons.mp hg with rfl | hg
      · rcases List.mem_cons.mp hk with rfl | hk
        · exact absurd rfl hne
        · exact hall k hk
      · rcases List.mem_cons.mp hk with rfl | hk
        · exact Guard.compatible_comm.trans (hall g hg)
        · exact hs.exclusive g hg k hk hne
    | release =>
      exact hs.exclusive g (Guard.mem_release.mp hg).1 k (Guard.mem_release.mp hk).1 hne

theorem spawn (hs : Guarded guards holds s) (hguards : guards sh = guards s.shared)
    (hnew : ∀ q, sp = some q → holds q = []) : Guarded guards holds (s.spawn sh sp) := by
  refine ⟨fun g hg => ?_, fun qid q x hq hx => ?_, ?_⟩
  · obtain ⟨q, hq, hmem⟩ := hs.held g (hguards ▸ hg)
    exact ⟨q, Threads.spawn_other hq, hmem⟩
  · rw [Threads.spawn_shared, hguards]
    rcases Threads.spawn_getElem? hq with hold | ⟨-, hstarted⟩
    · exact hs.holding qid q x hold hx
    · rw [hnew q hstarted] at hx
      cases hx
  · rw [Threads.spawn_shared, hguards]
    exact hs.exclusive

end Guarded

/-- Thread `i` waits for thread `j`, which holds a guard that excludes the one `i` wants. -/
def Waits (guards : S → List (Guard L)) (wants : P → Option (L × GuardMode)) (s : Threads S P)
    (i j : Nat) : Prop :=
  ∃ p lock mode, s.At i p ∧ wants p = some (lock, mode) ∧
    ∃ g ∈ guards s.shared, g.thread = j ∧ g.compatible lock mode = false

/-- A thread that waits only for others which wait for nobody is in no cycle. -/
theorem not_waits_cycle {guards : S → List (Guard L)} {wants : P → Option (L × GuardMode)}
    {s : Threads S P} {i : Nat}
    (h : ∀ j, Waits guards wants s i j → ∀ k, ¬Waits guards wants s j k) :
    ¬Relation.TransGen (Waits guards wants s) i i := by
  intro hcycle
  obtain ⟨j, hfirst, hrest⟩ := Relation.TransGen.head'_iff.mp hcycle
  rcases hrest.cases_head with rfl | ⟨k, hnext, -⟩
  · exact h j hfirst j hfirst
  · exact h j hfirst k hnext

end Interleaving
