import LambGateway.Framework.Transition

/-!
# Keepalive towards the carrier

A thread of sp sends a heartbeat in every interval and counts the heartbeats that have had no
response; at a limit it closes the link and connects again. The counter is stepped and compared
directly after a heartbeat has been sent.
-/

namespace LambGateway.Sp.Keepalive

open Framework

/-- A heartbeat: whether the interval after it has passed, and whether a response with its number
was processed before it was counted, or later in its interval. -/
structure Beat where
  sequenceId : UInt32
  rested : Bool
  early : Bool
  late : Bool
  deriving DecidableEq

/-- Where `lamb_cmpp_keepalive` stands. -/
inductive Phase where
  | ready
  | sent
  | counted
  | reconnecting
  | sleeping
  deriving DecidableEq

/-- `lamb_heartbeat_t` and the thread; the heartbeats, the last one first, and what they were
whenever the link was closed. -/
structure State where
  count : Nat
  sequenceId : UInt32
  phase : Phase
  beats : List Beat
  closes : List (List Beat)
  deriving DecidableEq

def State.init : State := ⟨0, 0, .ready, [], []⟩

inductive Action where
  /-- `cmpp_sequence` and `cmpp_active_test`. -/
  | send (sequenceId : UInt32)
  | increment
  | compare
  /-- `lamb_cmpp_reconnect` has succeeded. -/
  | reconnect
  /-- `lamb_sleep` returns. -/
  | wake
  /-- `lamb_deliver_loop` processes a `CMPP_ACTIVE_TEST_RESP`. -/
  | respond (sequenceId : UInt32)

/-- The last heartbeat is changed. -/
def markLast (f : Beat → Beat) : List Beat → List Beat
  | [] => []
  | b :: bs => f b :: bs

def Beat.answer (phase : Phase) (b : Beat) : Beat :=
  if phase = .sent then { b with early := true } else { b with late := true }

/-- The keepalive thread, and the responses that the deliver loop processes between its steps. -/
def step (retry : Nat) (s : State) : Action → Option State
  | .send sequenceId =>
    if s.phase = .ready then
      some
        { s with
          sequenceId := sequenceId
          phase := .sent
          beats := ⟨sequenceId, false, false, false⟩ :: s.beats }
    else none
  | .increment =>
    if s.phase = .sent then some { s with count := s.count + 1, phase := .counted } else none
  | .compare =>
    if s.phase = .counted then
      if s.count ≥ retry then
        some { s with phase := .reconnecting, closes := s.closes ++ [s.beats] }
      else some { s with phase := .sleeping }
    else none
  | .reconnect =>
    if s.phase = .reconnecting then some { s with count := 0, phase := .sleeping } else none
  | .wake =>
    if s.phase = .sleeping then
      some
        { s with
          phase := .ready
          beats := markLast (fun b => { b with rested := true }) s.beats }
    else none
  | .respond sequenceId =>
    if s.sequenceId = sequenceId then
      some { s with count := 0, beats := markLast (Beat.answer s.phase) s.beats }
    else some s

/-- The last `retry` heartbeats were each given their interval and had no response in it. -/
def Justified (retry : Nat) (beats : List Beat) : Prop :=
  retry ≤ beats.length ∧
    ∀ b ∈ beats.take retry, b.rested = true ∧ b.early = false ∧ b.late = false

def ClosesJustified (retry : Nat) (s : State) : Prop := ∀ beats ∈ s.closes, Justified retry beats

/-- The comparison finds the counter below the limit. -/
def BelowLimit (retry : Nat) (s : State) : Action → Prop
  | .compare => s.phase = .counted → s.count < retry
  | _ => True

instance (retry : Nat) (s : State) (a : Action) : Decidable (BelowLimit retry s a) :=
  match a with
  | .compare => inferInstanceAs (Decidable (s.phase = .counted → s.count < retry))
  | .send _ | .increment | .reconnect | .wake | .respond _ => isTrue trivial

/-! ## The last heartbeat -/

/-- From the sending of a heartbeat to the comparison no time has passed for it. -/
def JustSent (s : State) : Prop :=
  s.phase = .sent ∨ s.phase = .counted → ∃ b bs, s.beats = b :: bs ∧ b.rested = false

theorem justSent_step {retry : Nat} {s t : State} {a : Action} (hs : JustSent s)
    (h : step retry s a = some t) : JustSent t := by
  cases a with
  | send sequenceId =>
    simp only [step] at h
    split at h <;> cases h
    exact fun _ => ⟨_, _, rfl, rfl⟩
  | increment =>
    simp only [step] at h
    split at h <;> cases h
    next hsent => exact fun _ => hs (.inl hsent)
  | compare =>
    simp only [step] at h
    (repeat' split at h) <;> cases h
    · rintro (hphase | hphase) <;> exact nomatch hphase
    · rintro (hphase | hphase) <;> exact nomatch hphase
  | reconnect =>
    simp only [step] at h
    split at h <;> cases h
    rintro (hphase | hphase) <;> exact nomatch hphase
  | wake =>
    simp only [step] at h
    split at h <;> cases h
    rintro (hphase | hphase) <;> exact nomatch hphase
  | respond sequenceId =>
    simp only [step] at h
    split at h <;> cases h
    · intro hphase
      obtain ⟨b, bs, hbeats, hrested⟩ := hs hphase
      refine ⟨b.answer s.phase, bs, ?_, ?_⟩
      · change markLast _ s.beats = _
        rw [hbeats]
        rfl
      · rw [← hrested]
        unfold Beat.answer
        split <;> rfl
    · exact hs

theorem closes_step {retry : Nat} {s t : State} {a : Action} (h : step retry s a = some t) :
    t.closes = s.closes ∨
      a = .compare ∧ s.phase = .counted ∧ retry ≤ s.count ∧ t.closes = s.closes ++ [s.beats] := by
  cases a with
  | compare =>
    simp only [step] at h
    split at h
    · next hcounted =>
      split at h
      · next hdue =>
        cases h
        exact .inr ⟨rfl, hcounted, hdue, rfl⟩
      · cases h
        exact .inl rfl
    · cases h
  | send | increment | reconnect | wake | respond =>
    simp only [step] at h
    split at h <;> cases h <;> exact .inl rfl

theorem closesJustified_step_iff {retry : Nat} (hretry : 1 ≤ retry) {s : State} (hs : JustSent s)
    (hclosed : ClosesJustified retry s) (a : Action) :
    (∀ t, step retry s a = some t → ClosesJustified retry t) ↔ BelowLimit retry s a := by
  constructor
  · intro h
    cases a with
    | compare =>
      intro hcounted
      by_contra hdue
      have hclose : step retry s .compare =
          some { s with phase := .reconnecting, closes := s.closes ++ [s.beats] } := by
        rw [step, if_pos hcounted, if_pos (Nat.not_lt.mp hdue)]
      have hall := h _ hclose
      obtain ⟨-, hbeats⟩ := hall s.beats (List.mem_append_right _ (List.mem_singleton_self _))
      -- the last heartbeat is among them and has just been sent
      obtain ⟨b, bs, hb, hrested⟩ := hs (.inr hcounted)
      rw [hb] at hbeats
      have hmem : b ∈ (b :: bs).take retry := by
        obtain ⟨k, rfl⟩ := Nat.exists_eq_add_of_le' hretry
        exact List.mem_cons_self
      exact Bool.false_ne_true (hrested.symm.trans (hbeats b hmem).1)
    | send | increment | reconnect | wake | respond => trivial
  · intro hbelow t ht
    rcases closes_step ht with hsame | ⟨rfl, hcounted, hdue, -⟩
    · rw [ClosesJustified, hsame]
      exact hclosed
    · exact absurd (hbelow hcounted) (Nat.not_lt.mpr hdue)

/-- The link is closed only after `retry` heartbeats without a response, each with its full
interval, if and only if it is never closed: the comparison always finds the counter below the
limit. -/
theorem closes_justified_iff (retry : Nat) (hretry : 1 ≤ retry) (as : List Action) :
    (∀ bs, bs <+: as → ∀ t, exec (step retry) State.init bs = some t → ClosesJustified retry t) ↔
      Guarded (step retry) (BelowLimit retry) State.init as := by
  have hinv {s t : State} {a : Action} (hs : JustSent s) (h : step retry s a = some t)
      (_ : ClosesJustified retry t) : JustSent t :=
    justSent_step hs h
  apply forall_states_iff_guarded_of_invariant hinv
  · exact fun hs hclosed a => closesJustified_step_iff hretry hs hclosed a
  · rintro (hphase | hphase) <;> exact nomatch hphase
  · exact fun beats hbeats => nomatch hbeats

theorem closes_justified_answered :
    let as : List Action := [.send 7, .increment, .compare, .respond 7, .wake, .send 8, .increment,
      .compare]
    ∀ bs, bs <+: as → ∀ t, exec (step 3) State.init bs = some t → ClosesJustified 3 t := by
  intro as
  have hbelow : Guarded (step 3) (BelowLimit 3) State.init as := by decide
  exact (closes_justified_iff 3 (by decide) as).mpr hbelow

/-- With a limit of one heartbeat the link is closed as soon as the first is sent. -/
theorem closed_when_sent :
    ¬ ∀ retry : Nat, 1 ≤ retry → ∀ as bs : List Action, bs <+: as →
      ∀ t, exec (step retry) State.init bs = some t → ClosesJustified retry t := by
  intro h
  have hend := h 1 (by decide) [.send 7, .increment, .compare] _ (List.prefix_refl _) _ rfl
  have hclose := hend [⟨7, false, false, false⟩] (List.mem_singleton_self _)
  have hrested := (hclose.2 _ (List.mem_singleton_self _)).1
  exact Bool.false_ne_true hrested

/-! ## What a close does tell -/

/-- The heartbeats that have been counted. -/
def State.counted (s : State) : List Beat := if s.phase = .sent then s.beats.tail else s.beats

/-- The counter counts heartbeats that had no response since they were counted. Only the first of
them may have had one before. -/
structure Linked (s : State) : Prop where
  length : s.count ≤ s.counted.length
  late : ∀ b ∈ s.counted.take s.count, b.late = false
  early : ∀ b ∈ s.counted.take (s.count - 1), b.early = false
  rested : ∀ b ∈ s.beats.tail, b.rested = true
  awake : s.phase = .ready → ∀ b ∈ s.beats, b.rested = true
  fresh : s.phase = .sent → ∃ b bs, s.beats = b :: bs ∧ b.late = false ∧
    (b.early = true → s.count = 0)

/-- After a close: all of the last `retry` heartbeats but the last have had their interval, and
none has had a response in it, except for the first before it was counted. -/
structure ClosedAfter (retry : Nat) (beats : List Beat) : Prop where
  length : retry ≤ beats.length
  late : ∀ b ∈ beats.take retry, b.late = false
  early : ∀ b ∈ beats.take (retry - 1), b.early = false
  rested : ∀ b ∈ beats.tail, b.rested = true

theorem linked_init : Linked State.init where
  length := Nat.le_refl 0
  late _ hb := nomatch hb
  early _ hb := nomatch hb
  rested _ hb := nomatch hb
  awake _ _ hb := nomatch hb
  fresh h := nomatch h

theorem tail_markLast (f : Beat → Beat) (beats : List Beat) :
    (markLast f beats).tail = beats.tail := by
  cases beats <;> rfl

theorem length_markLast (f : Beat → Beat) (beats : List Beat) :
    (markLast f beats).length = beats.length := by
  cases beats <;> rfl

theorem Linked.send {s : State} (hs : Linked s) (hready : s.phase = .ready) (id : UInt32) :
    Linked { s with
      sequenceId := id
      phase := .sent
      beats := ⟨id, false, false, false⟩ :: s.beats } := by
  have hcounted : s.counted = s.beats := by
    rw [State.counted, hready]
    rfl
  constructor
  · exact hcounted ▸ hs.length
  · exact hcounted ▸ hs.late
  · exact hcounted ▸ hs.early
  · exact hs.awake hready
  · exact fun h => nomatch h
  · exact fun _ => ⟨_, _, rfl, rfl, fun h => nomatch h⟩

theorem Linked.increment {s : State} (hs : Linked s) (hsent : s.phase = .sent) :
    Linked { s with count := s.count + 1, phase := .counted } := by
  obtain ⟨b, bs, hbeats, hlate, hearly⟩ := hs.fresh hsent
  have hcounted : s.counted = bs := by
    rw [State.counted, hsent, hbeats]
    rfl
  have hlen := hs.length
  have hlateAll := hs.late
  have hearlyAll := hs.early
  rw [hcounted] at hlen hlateAll hearlyAll
  constructor
  · change s.count + 1 ≤ s.beats.length
    rw [hbeats]
    exact Nat.succ_le_succ hlen
  · change ∀ c ∈ s.beats.take (s.count + 1), c.late = false
    rw [hbeats, List.take_succ_cons, List.forall_mem_cons]
    exact ⟨hlate, hlateAll⟩
  · change ∀ c ∈ s.beats.take s.count, c.early = false
    rw [hbeats]
    cases hcount : s.count with
    | zero => exact fun c hc => nomatch hc
    | succ k =>
      rw [hcount] at hearly hearlyAll
      rw [List.take_succ_cons, List.forall_mem_cons]
      refine ⟨?_, hearlyAll⟩
      exact Bool.eq_false_iff.mpr fun h => nomatch hearly h
  · exact hs.rested
  · exact fun h => nomatch h
  · exact fun h => nomatch h

/-- After a response, or a new connection, nothing is counted. -/
theorem linked_of_zero {s : State} (hzero : s.count = 0)
    (hrested : ∀ b ∈ s.beats.tail, b.rested = true)
    (hawake : s.phase = .ready → ∀ b ∈ s.beats, b.rested = true)
    (hfresh : s.phase = .sent → ∃ b bs, s.beats = b :: bs ∧ b.late = false) : Linked s where
  length := hzero ▸ Nat.zero_le _
  late := by
    rw [hzero]
    exact fun b hb => nomatch hb
  early := by
    rw [hzero]
    exact fun b hb => nomatch hb
  rested := hrested
  awake := hawake
  fresh h := by
    obtain ⟨b, bs, hbeats, hlate⟩ := hfresh h
    exact ⟨b, bs, hbeats, hlate, fun _ => hzero⟩

theorem Linked.compared {s : State} (hs : Linked s) (hcounted : s.phase = .counted) {phase : Phase}
    (hready : phase ≠ .ready) (hsent : phase ≠ .sent) (closes : List (List Beat)) :
    Linked { s with phase := phase, closes := closes } := by
  have hbeats : s.counted = s.beats := by
    rw [State.counted, hcounted]
    rfl
  have hsame : State.counted { s with phase := phase, closes := closes } = s.counted := by
    rw [hbeats]
    exact if_neg hsent
  constructor
  · exact hsame ▸ hs.length
  · exact hsame ▸ hs.late
  · exact hsame ▸ hs.early
  · exact hs.rested
  · exact fun h => absurd h hready
  · exact fun h => absurd h hsent

theorem mem_take_markLast {f : Beat → Beat} {beats : List Beat} {k : Nat} {b : Beat}
    (h : b ∈ (markLast f beats).take k) : ∃ c ∈ beats.take k, b = c ∨ b = f c := by
  cases beats with
  | nil => exact ⟨b, h, .inl rfl⟩
  | cons c beats =>
    cases k with
    | zero => exact nomatch h
    | succ k =>
      rcases List.mem_cons.mp h with rfl | h
      · exact ⟨c, List.mem_cons_self, .inr rfl⟩
      · exact ⟨b, List.mem_cons_of_mem c h, .inl rfl⟩

theorem Linked.wake {s : State} (hs : Linked s) (hsleeping : s.phase = .sleeping) :
    Linked { s with
      phase := .ready
      beats := markLast (fun b => { b with rested := true }) s.beats } := by
  have hcounted : s.counted = s.beats := by
    rw [State.counted, hsleeping]
    rfl
  have hlen := hs.length
  have hlate := hs.late
  have hearly := hs.early
  rw [hcounted] at hlen hlate hearly
  constructor
  · change s.count ≤ (markLast _ s.beats).length
    rw [length_markLast]
    exact hlen
  · intro b hb
    obtain ⟨c, hc, rfl | rfl⟩ := mem_take_markLast hb
    · exact hlate b hc
    · exact hlate c hc
  · intro b hb
    obtain ⟨c, hc, rfl | rfl⟩ := mem_take_markLast hb
    · exact hearly b hc
    · exact hearly c hc
  · exact fun b hb => hs.rested b (tail_markLast _ s.beats ▸ hb)
  · intro _ b hb
    cases hbeats : s.beats with
    | nil =>
      rw [hbeats] at hb
      exact nomatch hb
    | cons c beats =>
      rw [hbeats] at hb
      rcases List.mem_cons.mp hb with rfl | hb
      · rfl
      · exact hs.rested b (hbeats ▸ hb)
  · exact fun h => nomatch h

theorem Linked.respond {s : State} (hs : Linked s) :
    Linked { s with count := 0, beats := markLast (Beat.answer s.phase) s.beats } := by
  apply linked_of_zero rfl
  · exact fun b hb => hs.rested b (tail_markLast _ s.beats ▸ hb)
  · intro hready b hb
    change b ∈ markLast (Beat.answer s.phase) s.beats at hb
    have hanswer (c : Beat) (hc : c.rested = true) : (c.answer s.phase).rested = true := by
      rw [← hc, Beat.answer]
      split <;> rfl
    cases hbeats : s.beats with
    | nil =>
      rw [hbeats] at hb
      exact nomatch hb
    | cons c beats =>
      rw [hbeats] at hb
      have hall := hs.awake hready
      rw [hbeats] at hall
      rcases List.mem_cons.mp hb with rfl | hb
      · exact hanswer c (hall c List.mem_cons_self)
      · exact hall b (List.mem_cons_of_mem c hb)
  · intro hsent
    obtain ⟨b, bs, hbeats, hlate, -⟩ := hs.fresh hsent
    refine ⟨b.answer s.phase, bs, ?_, ?_⟩
    · change markLast _ s.beats = _
      rw [hbeats]
      rfl
    · change s.phase = .sent at hsent
      rw [Beat.answer, if_pos hsent]
      exact hlate

theorem linked_step {retry : Nat} {s t : State} {a : Action} (hs : Linked s)
    (h : step retry s a = some t) : Linked t := by
  cases a with
  | send sequenceId =>
    simp only [step] at h
    split at h <;> cases h
    next hready => exact hs.send hready sequenceId
  | increment =>
    simp only [step] at h
    split at h <;> cases h
    next hsent => exact hs.increment hsent
  | compare =>
    simp only [step] at h
    split at h
    · next hcounted =>
      split at h <;> cases h
      · exact hs.compared hcounted Phase.noConfusion Phase.noConfusion _
      · exact hs.compared hcounted Phase.noConfusion Phase.noConfusion _
    · cases h
  | reconnect =>
    simp only [step] at h
    split at h <;> cases h
    exact linked_of_zero rfl hs.rested (fun h => nomatch h) (fun h => nomatch h)
  | wake =>
    simp only [step] at h
    split at h <;> cases h
    next hsleeping => exact hs.wake hsleeping
  | respond sequenceId =>
    simp only [step] at h
    split at h <;> cases h
    · exact hs.respond
    · exact hs

/-- Whatever the order of the responses, a close comes after `retry` heartbeats, each of which
but the last has had its interval, and none of which has had a response, if not before it was
counted. -/
theorem closes_after {retry : Nat} {s : State} {as : List Action}
    (h : exec (step retry) State.init as = some s) : ∀ beats ∈ s.closes, ClosedAfter retry beats := by
  let Inv (s : State) : Prop := Linked s ∧ ∀ beats ∈ s.closes, ClosedAfter retry beats
  have hstep (s : State) (a : Action) (t : State) (hs : Inv s) (ht : step retry s a = some t) :
      Inv t := by
    refine ⟨linked_step hs.1 ht, ?_⟩
    rcases closes_step ht with hsame | ⟨-, hcounted, hdue, hadded⟩
    · exact hsame ▸ hs.2
    · rw [hadded, List.forall_mem_append, List.forall_mem_singleton]
      refine ⟨hs.2, ?_⟩
      have hbeats : s.counted = s.beats := by
        rw [State.counted, hcounted]
        rfl
      have hlink := hs.1
      have hlate := hlink.late
      have hearly := hlink.early
      rw [hbeats] at hlate hearly
      have hmem {k n : Nat} (hle : k ≤ n) {b : Beat} (hb : b ∈ s.beats.take k) :
          b ∈ s.beats.take n :=
        (List.take_prefix_take_left hle).subset hb
      exact
        { length := Nat.le_trans hdue (hbeats ▸ hlink.length)
          late := fun b hb => hlate b (hmem hdue hb)
          early := fun b hb => hearly b (hmem (Nat.sub_le_sub_right hdue 1) hb)
          rested := hlink.rested }
  have hinit : Inv State.init := ⟨linked_init, fun _ hb => nomatch hb⟩
  exact (exec_invariant hstep hinit h).2

end LambGateway.Sp.Keepalive
