import FuturesOrchestra.Lib.Refinement

/-!
# Ordered broadcast

Messages go into one channel and are taken from it in order. Each handler that is
registered when a message is taken is called with it, one after the other, before the
next message is taken or another handler is registered, unless the broadcast fails in
between. `Agree` is what the handlers can rely on until then: nobody misses a message,
and nobody hears two of them the other way round.
-/

namespace Interleaving

/-- The handlers in the order of their registration, what was sent and how much of it
was taken, the calls to be made for the message in hand, and those made so far. A
broadcast that has failed makes no calls any more. -/
structure Broadcast (H I : Type) where
  handlers : List H
  sent : List I
  taken : Nat
  pending : List (H × I)
  calls : List (H × I)
  failed : Bool

/-- What can happen to a broadcast. It fails after `made` more of the calls owed. -/
inductive BroadcastTurn (H I : Type)
  | register (handler : H)
  | send (message : I)
  | take
  | call
  | fail (made : Nat)

namespace Broadcast

variable {H I : Type}

def new : Broadcast H I := ⟨[], [], 0, [], [], false⟩

def turn (s : Broadcast H I) : BroadcastTurn H I → Option (Broadcast H I)
  | .register h =>
    if s.pending.isEmpty then some { s with handlers := s.handlers ++ [h] } else none
  | .send m => some { s with sent := s.sent ++ [m] }
  | .take =>
    if s.pending.isEmpty && !s.failed then
      (s.sent[s.taken]?).map fun m =>
        { s with taken := s.taken + 1, pending := s.handlers.map fun h => (h, m) }
    else none
  | .call =>
    match s.pending with
    | [] => none
    | x :: rest => some { s with pending := rest, calls := s.calls ++ [x] }
  | .fail made =>
    some { s with pending := [], calls := s.calls ++ s.pending.take made, failed := true }

def machine : Machine (Broadcast H I) (BroadcastTurn H I) := ⟨new, turn⟩

/-- The rules of the turns. -/
inductive Turn (s : Broadcast H I) : Broadcast H I → Prop
  | register (h : H) (hpending : s.pending = []) : Turn s { s with handlers := s.handlers ++ [h] }
  | send (m : I) : Turn s { s with sent := s.sent ++ [m] }
  | take {m} (hpending : s.pending = []) (hfailed : s.failed = false)
      (hm : s.sent[s.taken]? = some m) :
      Turn s { s with taken := s.taken + 1, pending := s.handlers.map fun h => (h, m) }
  | call {x rest} (hpending : s.pending = x :: rest) :
      Turn s { s with pending := rest, calls := s.calls ++ [x] }
  | fail (made : Nat) :
      Turn s { s with pending := [], calls := s.calls ++ s.pending.take made, failed := true }

theorem Turn.of_step {s s' : Broadcast H I} {a : BroadcastTurn H I} (h : s.turn a = some s') :
    Turn s s' := by
  revert h
  fun_cases turn s a
  case case1 h hempty =>
    rintro ⟨⟩
    exact .register h (List.isEmpty_iff.mp hempty)
  case case3 m =>
    rintro ⟨⟩
    exact .send m
  case case4 hready =>
    intro h
    obtain ⟨hempty, hfailed⟩ := Bool.and_eq_true_iff.mp hready
    obtain ⟨m, hm, heq⟩ := Option.map_eq_some_iff.mp h
    cases heq
    exact .take (List.isEmpty_iff.mp hempty) (by simpa using hfailed) hm
  case case7 x rest hpending =>
    rintro ⟨⟩
    exact .call hpending
  case case8 made =>
    rintro ⟨⟩
    exact .fail made
  all_goals intro h
  all_goals cases h

theorem Turn.step {s s' : Broadcast H I} (h : Turn s s') : machine.StepOrStay s s' := by
  cases h with
  | register h hpending => exact .inr ⟨.register h, by simp [machine, turn, hpending]⟩
  | send m => exact .inr ⟨.send m, rfl⟩
  | take hpending hfailed hm =>
    exact .inr ⟨.take, by simp [machine, turn, hpending, hfailed, hm]⟩
  | call hpending => exact .inr ⟨.call, by simp [machine, turn, hpending]⟩
  | fail made => exact .inr ⟨.fail made, rfl⟩

section Turns

variable {s s' : Broadcast H I}

theorem Turn.handlers_prefix (hturn : Turn s s') : s.handlers <+: s'.handlers := by
  cases hturn with
  | register h => exact List.prefix_append _ _
  | _ => exact List.prefix_refl _

/-- A failure is for good. -/
theorem Turn.goes (hturn : Turn s s') (hgoes : s'.failed = false) : s.failed = false := by
  cases hturn with
  | fail made => cases hgoes
  | _ => exact hgoes

theorem Turn.taken_le (hturn : Turn s s') (hs : s.taken ≤ s.sent.length) :
    s'.taken ≤ s'.sent.length := by
  cases hturn with
  | send m =>
    rw [List.length_append]
    exact Nat.le_add_right_of_le hs
  | take _ _ hm => exact (List.getElem?_eq_some_iff.mp hm).1
  | _ => exact hs

end Turns

/-! ## What a handler hears -/

section Heard

variable [DecidableEq H] {s s' : Broadcast H I} {h : H}

/-- What handler `h` has been called with, and what it is to be called with for the message
in hand. -/
def heard (s : Broadcast H I) (h : H) : List I :=
  ((s.calls ++ s.pending).filter fun x => x.1 = h).map fun x => x.2

theorem told (m : I) (hs : List H) :
    ((hs.map fun k => (k, m)).filter fun x => x.1 = h).map (fun x => x.2) =
      List.replicate (hs.count h) m := by
  induction hs with
  | nil => rfl
  | cons k hs ih =>
    by_cases hk : k = h
    · subst hk
      simp [ih, List.replicate_succ]
    · simp [ih, hk]

/-- What the handlers can rely on: each has heard all that was taken from some message on,
those that came later a tail of what the earlier ones have heard, and nobody else anything. -/
structure Agree (s : Broadcast H I) : Prop where
  gapless : ∀ h ∈ s.handlers, s.heard h <:+ s.sent.take s.taken
  later : s.handlers.Pairwise fun h k => s.heard k <:+ s.heard h
  others : ∀ h, h ∉ s.handlers → s.heard h = []

/-- A message that is taken is heard by all who are registered. -/
theorem heard_take {m : I} (hnodup : s.handlers.Nodup) (hpending : s.pending = []) :
    heard { s with taken := s.taken + 1, pending := s.handlers.map fun h => (h, m) } h =
      s.heard h ++ if h ∈ s.handlers then [m] else [] := by
  rw [heard, heard, hpending, List.append_nil, List.filter_append, List.map_append, told,
    hnodup.count]
  split <;> rfl

theorem Turn.agree (hturn : Turn s s') (hle : s.taken ≤ s.sent.length)
    (hnodup : s'.handlers.Nodup) (hgoes : s'.failed = false) (hs : s.Agree) : s'.Agree := by
  obtain ⟨hgapless, hlater, hothers⟩ := hs
  cases hturn with
  | fail made => cases hgoes
  | register k hpending =>
    have hnew : k ∉ s.handlers := by
      have hdisjoint := (List.nodup_append.mp hnodup).2.2
      exact fun hk => hdisjoint k hk k (List.mem_singleton_self k) rfl
    have hsilent : s.heard k = [] := hothers k hnew
    refine ⟨fun h hh => ?_, ?_, fun h hh => hothers h fun hold => hh (List.mem_append_left _ hold)⟩
    · rcases List.mem_append.mp hh with hold | hk
      · exact hgapless h hold
      · obtain rfl := List.mem_singleton.mp hk
        show s.heard h <:+ _
        rw [hsilent]
        exact List.nil_suffix
    · refine List.pairwise_append.mpr ⟨hlater, List.pairwise_singleton _ _, fun h _ j hj => ?_⟩
      obtain rfl := List.mem_singleton.mp hj
      show s.heard j <:+ s.heard h
      rw [hsilent]
      exact List.nil_suffix
  | send m =>
    refine ⟨fun h hh => ?_, hlater, hothers⟩
    show s.heard h <:+ (s.sent ++ [m]).take s.taken
    rw [List.take_append_of_le_length hle]
    exact hgapless h hh
  | @take m hpending _ hm =>
    have htake (h : H) := heard_take (s := s) (h := h) (m := m) hnodup hpending
    refine ⟨fun h hh => ?_, ?_, fun h hh => ?_⟩
    · rw [htake, if_pos hh, List.take_add_one, hm]
      exact (List.suffix_append_self_iff).mpr (hgapless h hh)
    · refine hlater.imp_of_mem fun {h k} hh hk hsuffix => ?_
      rw [htake, htake, if_pos hh, if_pos hk]
      exact (List.suffix_append_self_iff).mpr hsuffix
    · rw [htake, if_neg hh, List.append_nil]
      exact hothers h hh
  | @call x rest hpending =>
    have hheard : ∀ h, heard { s with pending := rest, calls := s.calls ++ [x] } h = s.heard h := by
      intro h
      rw [heard, heard, hpending, List.append_assoc, List.singleton_append]
    refine ⟨fun h hh => ?_, hlater.imp fun {h k} hsuffix => ?_, fun h hh => ?_⟩
    · rw [hheard]
      exact hgapless h hh
    · rw [hheard, hheard]
      exact hsuffix
    · rw [hheard]
      exact hothers h hh

/-- What a handler has heard is part of what was taken, in one piece, and nobody else has
heard anything. This holds after a failure as well. -/
structure Orderly (s : Broadcast H I) : Prop where
  piece : ∀ h, s.heard h <:+: s.sent.take s.taken
  others : ∀ h, h ∉ s.handlers → s.heard h = []
  silent : s.failed = true → s.pending = []

theorem Agree.piece (hs : s.Agree) (h : H) : s.heard h <:+: s.sent.take s.taken := by
  by_cases hh : h ∈ s.handlers
  · exact (hs.gapless h hh).isInfix
  · rw [hs.others h hh]
    exact List.nil_infix

/-- A failure cuts off the end of what a handler was to hear. -/
theorem heard_fail (made : Nat) :
    heard { s with pending := [], calls := s.calls ++ s.pending.take made, failed := true } h <+:
      s.heard h := by
  rw [heard, heard, List.append_nil]
  refine (List.IsPrefix.filter _ ?_).map _
  exact (List.prefix_append_right_inj _).mpr (List.take_prefix _ _)

/-- What a broadcast keeps, as long as no handler is registered twice. -/
structure Sound (s : Broadcast H I) : Prop where
  taken_le : s.taken ≤ s.sent.length
  agree : s.handlers.Nodup → s.failed = false → s.Agree
  orderly : s.handlers.Nodup → s.Orderly

theorem Sound.new : Sound (Broadcast.new : Broadcast H I) := by
  have hagree : Agree (Broadcast.new : Broadcast H I) :=
    ⟨fun _ hh => absurd hh List.not_mem_nil, List.Pairwise.nil, fun _ _ => rfl⟩
  exact ⟨Nat.le_refl 0, fun _ _ => hagree, fun _ => ⟨hagree.piece, hagree.others, fun _ => rfl⟩⟩

theorem Turn.orderly (hturn : Turn s s') (hle : s.taken ≤ s.sent.length)
    (hfailed : s'.failed = true) (hs : s.Orderly) : s'.Orderly := by
  obtain ⟨hpiece, hothers, hsilent⟩ := hs
  cases hturn with
  | register k hpending =>
    exact ⟨hpiece, fun h hh => hothers h fun hold => hh (List.mem_append_left _ hold), hsilent⟩
  | send m =>
    refine ⟨fun h => ?_, hothers, hsilent⟩
    show s.heard h <:+: (s.sent ++ [m]).take s.taken
    rw [List.take_append_of_le_length hle]
    exact hpiece h
  | take _ hgoes =>
    rw [hgoes] at hfailed
    cases hfailed
  | call hpending =>
    rw [hsilent hfailed] at hpending
    cases hpending
  | fail made =>
    refine ⟨fun h => (heard_fail made).isInfix.trans (hpiece h), fun h hh => ?_, fun _ => rfl⟩
    have hprefix := heard_fail (s := s) (h := h) made
    rw [hothers h hh] at hprefix
    exact List.prefix_nil.mp hprefix

theorem Sound.turn {a : BroadcastTurn H I} (hs : s.Sound) (hstep : machine.step s a = some s') :
    s'.Sound := by
  have hturn := Turn.of_step hstep
  have hbefore (hnodup : s'.handlers.Nodup) : s.handlers.Nodup :=
    hnodup.sublist hturn.handlers_prefix.sublist
  have hagree (hnodup : s'.handlers.Nodup) (hgoes : s'.failed = false) : s'.Agree :=
    hturn.agree hs.taken_le hnodup hgoes (hs.agree (hbefore hnodup) (hturn.goes hgoes))
  refine ⟨hturn.taken_le hs.taken_le, hagree, fun hnodup => ?_⟩
  cases hfailed : s'.failed with
  | true => exact hturn.orderly hs.taken_le hfailed (hs.orderly (hbefore hnodup))
  | false =>
    have hall := hagree hnodup hfailed
    exact ⟨hall.piece, hall.others, fun h => absurd (hfailed.symm.trans h) Bool.false_ne_true⟩

end Heard

end Broadcast

end Interleaving
