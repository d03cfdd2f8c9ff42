import FuturesOrchestra.Proofs.Custody

/-!
# Dispatcher loops and their lanes

The loop of lane `i` is process `i` for ever. It owns the receiver of its lane
until it drains it, and when it has exited the lane is empty and its join handle
resolves.
-/

namespace FuturesOrchestra

open Interleaving

variable {σ R : Type} {cfg : PoolConfig} {pid : Nat} {sh sh' : Shared σ R}
  {sp : Option (Proc R)}

/-- The loop has dropped the receiver of its lane. -/
def LoopPc.gone : LoopPc → Bool
  | .drain | .exited => true
  | _ => false

/-- A lane next to the program point of its loop. -/
structure Lane.Agrees (l : Lane) (pc : LoopPc) : Prop where
  receiver : l.receiver = !pc.gone
  empty : pc = .exited → l.items = []
  done : l.done = true ↔ pc = .exited

/-- What a `submit` call may do to a lane. -/
structure Lane.Extended (l l' : Lane) : Prop where
  receiver : l'.receiver = l.receiver
  done : l'.done = l.done
  items : l'.items = l.items ∨ (l.receiver = true ∧ ∃ t, l'.items = l.items ++ [t])

theorem Lane.Extended.refl (l : Lane) : l.Extended l := ⟨rfl, rfl, .inl rfl⟩

theorem Lane.Agrees.extended {l l' : Lane} {pc : LoopPc} (h : l.Agrees pc) (hl : l.Extended l') :
    l'.Agrees pc where
  receiver := by rw [hl.receiver, h.receiver]
  empty hpc := by
    rcases hl.items with hitems | ⟨hrecv, _⟩
    · rw [hitems, h.empty hpc]
    · rw [h.receiver, hpc] at hrecv
      cases hrecv
  done := by rw [hl.done, h.done]

/-- The dispatcher loops and the lanes of a pool. -/
structure Dispatchers (cfg : PoolConfig) (s : Pool σ R) : Prop where
  lane : ∀ pid d, s.At pid (.loop d) → d.lane = pid
  present : ∀ i, i < cfg.lanes → ∃ d, s.At i (.loop d)
  lanes : s.shared.lanes.length = cfg.lanes
  agrees : ∀ pid d, s.At pid (.loop d) →
    ∃ l, s.shared.lanes[pid]? = some l ∧ l.Agrees d.pc

/-- A loop that does not take the step keeps its place and its lane, when no lane
but an extension of it changes. -/
theorem Dispatchers.update {s : Pool σ R} {p p' : Proc R} (hs : Dispatchers cfg s)
    (hp : s.At pid p) (hlen : sh'.lanes.length = s.shared.lanes.length)
    (hkind : ∀ d, p = .loop d → ∃ d', p' = .loop d' ∧ d'.lane = d.lane)
    (hloop : ∀ d', p' = .loop d' → ∃ d, p = .loop d)
    (hown : ∀ d', p' = .loop d' → ∃ l, sh'.lanes[pid]? = some l ∧ l.Agrees d'.pc)
    (hnew : ∀ d, sp ≠ some (.loop d))
    (hother : ∀ i, i ≠ pid → ∀ l, s.shared.lanes[i]? = some l →
      ∃ l', sh'.lanes[i]? = some l' ∧ l.Extended l') :
    Dispatchers cfg (s.update pid sh' p' sp) := by
  have hback : ∀ qid d, (s.update pid sh' p' sp).At qid (.loop d) →
      (qid = pid ∧ p' = .loop d) ∨ (qid ≠ pid ∧ s.At qid (.loop d)) := by
    intro qid d hq
    rcases Threads.update_getElem? hp hq with ⟨rfl, hd⟩ | ⟨hne, hd⟩ | ⟨_, hd⟩
    · exact .inl ⟨rfl, hd.symm⟩
    · exact .inr ⟨hne, hd⟩
    · exact absurd hd (hnew d)
  refine ⟨fun qid d hq => ?_, fun i hi => ?_, ?_, fun qid d hq => ?_⟩
  · rcases hback qid d hq with ⟨rfl, rfl⟩ | ⟨_, hd⟩
    · obtain ⟨d₀, rfl⟩ := hloop d rfl
      obtain ⟨d₁, hd₁, hlane⟩ := hkind d₀ rfl
      cases hd₁
      rw [hlane, hs.lane _ d₀ hp]
    · exact hs.lane qid d hd
  · obtain ⟨d, hd⟩ := hs.present i hi
    by_cases hne : i = pid
    · subst hne
      obtain rfl := Option.some.inj (hp.symm.trans hd)
      obtain ⟨d', rfl, -⟩ := hkind d rfl
      exact ⟨d', Threads.update_self hp⟩
    · exact ⟨d, Threads.update_other hne hd⟩
  · exact hlen.trans hs.lanes
  · rcases hback qid d hq with ⟨rfl, rfl⟩ | ⟨hne, hd⟩
    · exact hown d rfl
    · obtain ⟨l, hl, hagrees⟩ := hs.agrees qid d hd
      obtain ⟨l', hl', hext⟩ := hother qid hne l hl
      exact ⟨l', hl', hagrees.extended hext⟩

variable [Semaphore σ]

theorem SubmitStep.lane_extended {kind : PoolKind} {c c' : SubmitCall R} {i : Nat} {l : Lane}
    (h : SubmitStep kind pid sh c sh' c' sp) (hl : sh.lanes[i]? = some l) :
    ∃ l', sh'.lanes[i]? = some l' ∧ l.Extended l' := by
  cases h with
  | @push t lane l₁ hpc hlane hrecv =>
    by_cases hi : lane = i
    · subst hi
      obtain rfl : l₁ = l := by simpa [hlane] using hl
      have hlt : lane < sh.lanes.length := (List.getElem?_eq_some_iff.mp hl).1
      exact ⟨{ l₁ with items := l₁.items ++ [t] }, by simp [hlt], rfl, rfl, .inr ⟨hrecv, t, rfl⟩⟩
    · exact ⟨l, by simpa [List.getElem?_set_ne hi] using hl, .refl l⟩
  | _ => exact ⟨l, hl, .refl l⟩

theorem LoopStep.lane_other {d d' : DispatcherLoop} {i : Nat} (h : LoopStep cfg pid sh d sh' d' sp)
    (hi : i ≠ d.lane) : sh'.lanes[i]? = sh.lanes[i]? := by
  cases h <;> simp [List.getElem?_set_ne hi.symm]

theorem LoopStep.lane_kept {d d' : DispatcherLoop} (h : LoopStep cfg pid sh d sh' d' sp) :
    d'.lane = d.lane := by
  cases h <;> rfl

theorem LoopStep.lane_agrees {d d' : DispatcherLoop} {l : Lane}
    (h : LoopStep cfg pid sh d sh' d' sp) (hl : sh.lanes[d.lane]? = some l)
    (hagrees : l.Agrees d.pc) : ∃ l', sh'.lanes[d.lane]? = some l' ∧ l'.Agrees d'.pc := by
  have hlt : d.lane < sh.lanes.length := (List.getElem?_eq_some_iff.mp hl).1
  obtain ⟨hreceiver, hempty, hdone⟩ := hagrees
  cases h with
  | recv hkind hpc hlane | recvRlxd hkind hpc hlane | recvDiscard hkind hpc hlane
  | drain hpc hlane =>
    obtain rfl := Option.some.inj (hl.symm.trans hlane)
    refine ⟨_, List.getElem?_set_self hlt, ?_⟩
    constructor <;> simp_all [LoopPc.gone]
  | exitReceiver hpc hlane | exitLast hpc hlane | drained hpc hlane =>
    obtain rfl := Option.some.inj (hl.symm.trans hlane)
    refine ⟨_, List.getElem?_set_self hlt, ?_⟩
    constructor <;> simp_all [LoopPc.gone]
  | _ =>
    refine ⟨l, by simpa using hl, ?_⟩
    constructor <;> simp_all [LoopPc.gone]

omit [Semaphore σ] in
theorem Shared.queueClosed_setLane {i : Nat} {l l' : Lane} (hl : sh.lanes[i]? = some l)
    (hreceiver : l.receiver = false → l'.receiver = false) (hclosed : sh.queueClosed = true) :
    (sh.setLane i l').queueClosed = true := by
  have hall := List.all_eq_true.mp hclosed
  refine List.all_eq_true.mpr fun l₁ hmem => ?_
  rcases List.mem_or_eq_of_mem_set hmem with hold | rfl
  · exact hall l₁ hold
  · simp [hreceiver (by simpa using hall l (List.mem_of_getElem? hl))]

/-- A closed queue stays closed. -/
theorem Proc.queueClosed_kept {b : Signal} {p p' : Proc R}
    (h : Proc.run cfg b pid sh p = some (sh', p', sp)) (hclosed : sh.queueClosed = true) :
    sh'.queueClosed = true := by
  cases Proc.step_of_run h with
  | submit hstep =>
    cases hstep with
    | push hpc hlane hrecv => exact Shared.queueClosed_setLane hlane id hclosed
    | _ => exact hclosed
  | loop hstep =>
    cases hstep with
    | recv _ _ hlane | recvRlxd _ _ hlane | recvDiscard _ _ hlane | drain _ hlane
    | drained _ hlane => exact Shared.queueClosed_setLane hlane id hclosed
    | exitReceiver _ hlane | exitLast _ hlane =>
      exact Shared.queueClosed_setLane hlane (fun _ => rfl) hclosed
    | _ => exact hclosed
  | wrapper hstep => cases hstep <;> exact hclosed
  | bystander _ _ hstep =>
    rw [Shared.queueClosed, hstep.1.lanes]
    exact hclosed

theorem Dispatchers.new : Dispatchers cfg (Pool.new σ R cfg) := by
  have hproc (pid : Nat) (d : DispatcherLoop)
      (h : (Pool.new σ R cfg).At pid (.loop d)) :
      pid < cfg.lanes ∧ d = ⟨pid, .top, false⟩ := by
    obtain ⟨hlt, hd⟩ := Pool.init_loop h
    cases hd
    exact ⟨hlt, rfl⟩
  refine ⟨fun pid d h => ?_, fun i hi => ?_, by simp [Pool.new, Shared.new], fun pid d h => ?_⟩
  · rw [(hproc pid d h).2]
  · exact ⟨⟨i, .top, false⟩, by simp [Threads.At, Pool.new, hi]⟩
  · obtain ⟨hlt, rfl⟩ := hproc pid d h
    refine ⟨⟨[], true, false⟩, by simp [Pool.new, Shared.new, hlt], rfl, fun _ => rfl, ?_⟩
    simp

theorem dispatchers {ok : Pool σ R → PoolEvent R → Prop} {s : Pool σ R}
    (h : (poolMachine σ R cfg).Reachable ok s) : Dispatchers cfg s := by
  refine Pool.induct .refl ?_ ?_ h Dispatchers.new
  · intro s b pid p sh p' sp _ hs _ hp hstep
    have hlen := (Shared.Evolves.proc hstep).lanes
    have hsame (heq : sh.lanes = s.shared.lanes) (i : Nat) (_ : i ≠ pid) (l : Lane)
        (hl : s.shared.lanes[i]? = some l) : ∃ l', sh.lanes[i]? = some l' ∧ l.Extended l' :=
      ⟨l, by rw [heq]; exact hl, .refl l⟩
    cases hstep with
    | submit hstep =>
      refine hs.update hp hlen nofun nofun nofun ?_ fun i _ l hl => hstep.lane_extended hl
      intro d
      cases hstep <;> nofun
    | @loop d _ d' _ hstep =>
      have hlane := hs.lane pid d hp
      refine hs.update hp hlen ?_ ?_ ?_ ?_ ?_
      · rintro _ ⟨⟩
        exact ⟨d', rfl, hstep.lane_kept⟩
      · rintro _ ⟨⟩
        exact ⟨d, rfl⟩
      · rintro _ ⟨⟩
        obtain ⟨l, hl, hagrees⟩ := hs.agrees pid d hp
        rw [← hlane] at hl ⊢
        exact hstep.lane_agrees hl hagrees
      · intro d₁
        cases hstep <;> nofun
      · intro i hi l hl
        exact ⟨l, by rw [hstep.lane_other (hlane.symm ▸ hi)]; exact hl, .refl l⟩
    | wrapper hstep =>
      refine hs.update hp hlen nofun nofun nofun nofun (hsame ?_)
      cases hstep <;> simp
    | bystander hby hby' hstep =>
      refine hs.update hp hlen ?_ ?_ ?_ ?_ (hsame hstep.1.lanes)
      · rintro d rfl
        exact hby.elim
      · rintro d rfl
        exact hby'.elim
      · rintro d rfl
        exact hby'.elim
      · rintro d rfl
        exact hstep.2 _ rfl
  · intro s c sh sp _ hs _ hquiet hfresh
    have hback : ∀ qid d, (s.spawn sh sp).At qid (.loop d) →
        s.At qid (.loop d) := by
      intro qid d hq
      rcases Threads.spawn_getElem? hq with hd | ⟨_, rfl⟩
      · exact hd
      · cases hfresh _ rfl with
        | bystander hby => exact hby.elim
    refine ⟨fun qid d hq => hs.lane qid d (hback qid d hq), fun i hi => ?_, ?_, fun qid d hq => ?_⟩
    · obtain ⟨d, hd⟩ := hs.present i hi
      exact ⟨d, Threads.spawn_other hd⟩
    · rw [Threads.spawn_shared, hquiet.lanes]
      exact hs.lanes
    · rw [Threads.spawn_shared, hquiet.lanes]
      exact hs.agrees qid d (hback qid d hq)

end FuturesOrchestra
