import LambGateway.Framework.CondWait
import LambGateway.Framework.Transition

/-!
# The client's acknowledgements

The deliver loop of ismg sends a frame to the client and waits for a signal, and sends the frame
again if the wait times out. The work loop signals when a `CMPP_DELIVER_RESP` names the frame's
numbers, without taking the mutex; the wait looks at nothing but the signal.
-/

namespace LambGateway.Ismg

open Framework

/-- `lamb_confirmed_t`: the numbers of a frame. -/
structure LambConfirmed where
  sequenceId : UInt32
  msgId : UInt64
  deriving DecidableEq

/-- Where the deliver loop stands with a frame, or with an answer of mo that is none. -/
inductive Phase where
  | idle
  /-- At the label `report` or `deliver`. -/
  | sending (f : LambConfirmed)
  | sent (f : Option LambConfirmed)
  | waiting (f : Option LambConfirmed)
  deriving DecidableEq

def Phase.frame : Phase → Option LambConfirmed
  | .idle => none
  | .sending f => some f
  | .sent f => f
  | .waiting f => f

/-- `acked` are the numbers in the acknowledgements processed with result 0, `timeo` is what has
been counted as a timeout. -/
structure State where
  confirmed : LambConfirmed
  phase : Phase
  wait : CondWait
  sent : List LambConfirmed
  acked : List LambConfirmed
  timeo : List (Option LambConfirmed)
  deriving DecidableEq

def State.init : State where
  confirmed := ⟨0, 0⟩
  phase := .idle
  wait := .outside
  sent := []
  acked := []
  timeo := []

inductive Action where
  /-- mo has answered with a report or a message, which gets its numbers, or with something
  else. -/
  | fetch (f : Option LambConfirmed)
  | send
  | enterWait
  /-- The work loop processes a `CMPP_DELIVER_RESP`. -/
  | deliverResp (sequenceId : UInt32) (msgId : UInt64) (result : UInt8)
  | expire
  /-- The wait ends without a signal. -/
  | wake
  | leaveWait
  deriving DecidableEq

def step (s : State) : Action → Option State
  | .fetch f =>
    match s.phase, f with
    | .idle, some f => some { s with confirmed := f, phase := .sending f }
    | .idle, none => some { s with phase := .sent none }
    | _, _ => none
  | .send =>
    match s.phase with
    | .sending f => some { s with phase := .sent (some f), sent := s.sent ++ [f] }
    | _ => none
  | .enterWait =>
    match s.phase with
    | .sent f => some { s with phase := .waiting f, wait := .blocked }
    | _ => none
  | .deliverResp sequenceId msgId result =>
    some
      { s with
        acked := if result = 0 then s.acked ++ [⟨sequenceId, msgId⟩] else s.acked
        wait :=
          if s.confirmed.sequenceId = sequenceId ∧ s.confirmed.msgId = msgId ∧ result = 0 then
            s.wait.signal
          else s.wait }
  | .expire => (s.wait.leave .expired).map fun w => { s with wait := w }
  | .wake => (s.wait.leave .signalled).map fun w => { s with wait := w }
  | .leaveWait =>
    match s.phase, s.wait with
    | .waiting _, .signalled => some { s with phase := .idle, wait := .outside }
    | .waiting f, .expired => some
      { s with
        phase := match f with
          | some f => .sending f
          | none => .idle
        wait := .outside
        timeo := s.timeo ++ [f] }
    | _, _ => none

example (s : State) (f : LambConfirmed) (h : s.phase = .sent (some f)) : step s .send = none := by
  simp only [step, h]

/-! ## After the acknowledgement -/

/-- A frame whose acknowledgement has been processed is neither sent again nor counted as a
timeout. -/
def QuietAfterAck (s : State) : Action → Prop
  | .send => ∀ f, s.phase = .sending f → f ∈ s.acked → f ∉ s.sent
  | .leaveWait => ∀ f, s.phase = .waiting (some f) → s.wait = .expired → f ∉ s.acked
  | _ => True

/-- The acknowledgement of the frame at hand comes in while the deliver loop is blocked in the
wait or has been signalled there, and a new frame's numbers have not been acknowledged yet. -/
def AckedInWait (s : State) : Action → Prop
  | .fetch f => ∀ g ∈ f, g ∉ s.acked
  | .deliverResp sequenceId msgId result =>
    result = 0 → s.phase.frame = some ⟨sequenceId, msgId⟩ →
      s.wait = .blocked ∨ s.wait = .signalled
  | _ => True

instance AckedInWait.decidable (s : State) : (a : Action) → Decidable (AckedInWait s a)
  | .fetch f => inferInstanceAs (Decidable (∀ g ∈ f, g ∉ s.acked))
  | .deliverResp sequenceId msgId result =>
    inferInstanceAs (Decidable (result = 0 → s.phase.frame = some ⟨sequenceId, msgId⟩ →
      s.wait = .blocked ∨ s.wait = .signalled))
  | .send | .enterWait | .expire | .wake | .leaveWait => isTrue trivial

/-- The frame at hand has either not been acknowledged, or its wait has been signalled. -/
structure Inv (s : State) : Prop where
  confirmed : ∀ f, s.phase.frame = some f → s.confirmed = f
  acked : ∀ f, s.phase.frame = some f → f ∈ s.acked → s.wait = .signalled
  outside : s.wait = .outside ↔ ∀ f, s.phase ≠ .waiting f

theorem inv_init : Inv State.init where
  confirmed := by simp [State.init, Phase.frame]
  acked := by simp [State.init, Phase.frame]
  outside := by simp [State.init]

variable {s t : State}

theorem Inv.not_acked (hi : Inv s) {f : LambConfirmed} (hframe : s.phase.frame = some f)
    (hwait : s.wait ≠ .signalled) : f ∉ s.acked :=
  fun hmem => hwait (hi.acked f hframe hmem)

theorem Inv.of_no_frame (hframe : t.phase.frame = none)
    (hout : t.wait = .outside ↔ ∀ f, t.phase ≠ .waiting f) : Inv t where
  confirmed f hf := by
    rw [hframe] at hf
    cases hf
  acked f hf := by
    rw [hframe] at hf
    cases hf
  outside := hout

/-- A step of the deliver loop with the same frame at hand, for which nobody is signalled. -/
theorem Inv.of_frame (hi : Inv s) (hframe : t.phase.frame = s.phase.frame)
    (hconfirmed : t.confirmed = s.confirmed) (hacked : t.acked = s.acked)
    (hwait : s.wait ≠ .signalled) (hout : t.wait = .outside ↔ ∀ f, t.phase ≠ .waiting f) :
    Inv t where
  confirmed f hf := hconfirmed.trans (hi.confirmed f (hframe.symm.trans hf))
  acked _ hf hmem := absurd (hacked ▸ hmem) (hi.not_acked (hframe.symm.trans hf) hwait)
  outside := hout

theorem inv_fetch {f : Option LambConfirmed} (hi : Inv s) (hg : AckedInWait s (.fetch f))
    (h : step s (.fetch f) = some t) : Inv t := by
  simp only [step] at h
  split at h <;> cases h
  · rename_i g hidle
    have hout : s.wait = .outside := hi.outside.mpr (by simp [hidle])
    have hnew : g ∉ s.acked := hg g rfl
    constructor
    · intro k hframe
      cases hframe
      rfl
    · intro k hframe hmem
      cases hframe
      exact absurd hmem hnew
    · simp [hout]
  · rename_i hidle
    have hout : s.wait = .outside := hi.outside.mpr (by simp [hidle])
    apply Inv.of_no_frame rfl
    simp [hout]

theorem inv_send (hi : Inv s) (h : step s .send = some t) : Inv t := by
  simp only [step] at h
  split at h <;> cases h
  rename_i f hsending
  have hout : s.wait = .outside := hi.outside.mpr (by simp [hsending])
  apply hi.of_frame
  · rw [hsending]
    rfl
  · rfl
  · rfl
  · simp [hout]
  · simp [hout]

theorem inv_enterWait (hi : Inv s) (h : step s .enterWait = some t) : Inv t := by
  simp only [step] at h
  split at h <;> cases h
  rename_i f hsent
  have hout : s.wait = .outside := hi.outside.mpr (by simp [hsent])
  apply hi.of_frame
  · rw [hsent]
    rfl
  · rfl
  · rfl
  · simp [hout]
  · simp

theorem inv_deliverResp {sequenceId : UInt32} {msgId : UInt64} {result : UInt8} (hi : Inv s)
    (hg : AckedInWait s (.deliverResp sequenceId msgId result))
    (h : step s (.deliverResp sequenceId msgId result) = some t) : Inv t := by
  cases h
  refine ⟨hi.confirmed, fun f hframe hmem => ?_, ?_⟩
  · obtain rfl := hi.confirmed f hframe
    by_cases hack : result = 0 ∧ s.confirmed = ⟨sequenceId, msgId⟩
    · obtain ⟨hresult, hnumbers⟩ := hack
      -- it is the one that the loop waits for, so the signal meets somebody
      have hwait := hg hresult (hframe.trans (congrArg some hnumbers))
      simp only [hnumbers, hresult, and_self, if_true]
      rcases hwait with hwait | hwait <;> rw [hwait] <;> rfl
    · have hold : s.confirmed ∈ s.acked := by
        by_contra hnew
        by_cases hresult : result = 0
        · simp only [hresult, if_true, List.mem_append, List.mem_singleton] at hmem
          exact hack ⟨hresult, hmem.resolve_left hnew⟩
        · exact hnew (by simpa only [if_neg hresult] using hmem)
      have hsignalled := hi.acked s.confirmed hframe hold
      simp only [hsignalled, CondWait.signal_signalled, ite_self]
  · apply Iff.trans _ hi.outside
    show ite _ _ _ = CondWait.outside ↔ _
    split
    · exact CondWait.signal_eq_outside
    · rfl

theorem inv_unblock {next w : CondWait} (hi : Inv s) (hw : s.wait.leave next = some w)
    (hne : next ≠ .outside) : Inv { s with wait := w } := by
  obtain ⟨hblocked, rfl⟩ := CondWait.leave_eq_some.mp hw
  have hwaiting : ¬ ∀ f, s.phase ≠ .waiting f := by
    intro hphase
    have hout := hi.outside.mpr hphase
    rw [hblocked] at hout
    cases hout
  apply hi.of_frame
  · rfl
  · rfl
  · rfl
  · simp [hblocked]
  · exact iff_of_false hne hwaiting

theorem inv_leaveWait (hi : Inv s) (h : step s .leaveWait = some t) : Inv t := by
  simp only [step] at h
  split at h <;> cases h
  · apply Inv.of_no_frame rfl
    simp
  · rename_i f hwaiting hexpired
    cases f with
    | none =>
      apply Inv.of_no_frame rfl
      simp
    | some f =>
      apply hi.of_frame
      · rw [hwaiting]
        rfl
      · rfl
      · rfl
      · simp [hexpired]
      · simp

theorem inv_step {a : Action} (hi : Inv s) (hg : AckedInWait s a) (h : step s a = some t) :
    Inv t := by
  cases a with
  | fetch f => exact inv_fetch hi hg h
  | send => exact inv_send hi h
  | enterWait => exact inv_enterWait hi h
  | deliverResp sequenceId msgId result => exact inv_deliverResp hi hg h
  | expire =>
    obtain ⟨w, hw, rfl⟩ := Option.map_eq_some_iff.mp h
    exact inv_unblock hi hw CondWait.noConfusion
  | wake =>
    obtain ⟨w, hw, rfl⟩ := Option.map_eq_some_iff.mp h
    exact inv_unblock hi hw CondWait.noConfusion
  | leaveWait => exact inv_leaveWait hi h

theorem quietAfterAck_of_inv (hi : Inv s) (a : Action) : QuietAfterAck s a := by
  cases a with
  | send =>
    intro f hsending hmem
    have hout : s.wait = .outside := hi.outside.mpr (by simp [hsending])
    exact absurd hmem (hi.not_acked (by rw [hsending]; rfl) (by simp [hout]))
  | leaveWait =>
    intro f hwaiting hexpired
    exact hi.not_acked (by rw [hwaiting]; rfl) (by simp [hexpired])
  | fetch | enterWait | deliverResp | expire | wake => trivial

/-! ## Runs -/

/-- Where every acknowledgement of the frame at hand comes in during the wait, no frame is sent
again or counted as a timeout after its acknowledgement. -/
theorem ackedInWait_quietAfterAck {as : List Action}
    (hg : Guarded step AckedInWait State.init as) : Guarded step QuietAfterAck State.init as :=
  guarded_of_invariant (fun _ _ _ => inv_step) (fun _ a hi _ => quietAfterAck_of_inv hi a)
    inv_init hg

/-- A timeout before the acknowledgement, then the acknowledgement in the second wait. -/
theorem ackedInWait_quietAfterAck_second_wait :
    let f : LambConfirmed := ⟨7, 42⟩
    let as : List Action := [.fetch (some f), .send, .enterWait, .expire, .leaveWait, .send,
      .enterWait, .deliverResp 7 42 0, .leaveWait]
    Guarded step QuietAfterAck State.init as ∧
      ∃ s, exec step State.init as = some s ∧ s.phase = .idle ∧ s.sent = [f, f] := by
  intro f as
  have hg : Guarded step AckedInWait State.init as := by decide
  exact ⟨ackedInWait_quietAfterAck hg, _, rfl, rfl, rfl⟩

/-- The client answers before the wait begins: the frame is counted as a timeout and sent
again. -/
theorem ack_before_wait_sent_again :
    let f : LambConfirmed := ⟨7, 42⟩
    let as : List Action := [.fetch (some f), .send, .deliverResp 7 42 0, .enterWait, .expire,
      .leaveWait, .send]
    ¬ Guarded step QuietAfterAck State.init as ∧
      ∃ s, exec step State.init as = some s ∧ s.acked = [f] ∧ s.timeo = [some f] ∧
        s.sent = [f, f] := by
  intro f as
  refine ⟨fun h => ?_, _, rfl, rfl, rfl, rfl⟩
  have hleave := ((((h.2 _ rfl).2 _ rfl).2 _ rfl).2 _ rfl).2 _ rfl
  exact hleave.1 f rfl rfl (by decide)

/-! ## Outside of the condition -/

theorem not_quiet_of_expired {f : LambConfirmed} (hphase : s.phase = .waiting (some f))
    (hwait : s.wait = .expired) (hmem : f ∈ s.acked) :
    ¬ Guarded step QuietAfterAck s [.leaveWait] :=
  fun h => h.1 f hphase hwait hmem

theorem not_quiet_of_sent {f : LambConfirmed} (hphase : s.phase = .sent (some f))
    (hmem : f ∈ s.acked) : ¬ Guarded step QuietAfterAck s [.enterWait, .expire, .leaveWait] := by
  intro h
  have henter :
      step s .enterWait = some { s with phase := .waiting (some f), wait := .blocked } := by
    simp only [step, hphase]
  have hexpire := (h.2 _ henter).2 { s with phase := .waiting (some f), wait := .expired } rfl
  exact absurd hexpire (not_quiet_of_expired rfl rfl hmem)

theorem not_quiet_of_sending {f : LambConfirmed} (hphase : s.phase = .sending f)
    (hmem : f ∈ s.acked) :
    ¬ Guarded step QuietAfterAck s [.send, .enterWait, .expire, .leaveWait] := by
  intro h
  have hsend : step s .send = some { s with phase := .sent (some f), sent := s.sent ++ [f] } := by
    simp only [step, hphase]
  exact absurd (h.2 _ hsend) (not_quiet_of_sent rfl hmem)

/-- With an acknowledged frame at hand that no signal will be received for, the loop can go on
to a timeout. -/
theorem not_quiet_of_acked {f : LambConfirmed} (hframe : s.phase.frame = some f)
    (hmem : f ∈ s.acked) (hblocked : s.wait ≠ .blocked) (hsignalled : s.wait ≠ .signalled)
    (hout : s.wait = .outside → ∀ f, s.phase ≠ .waiting f) :
    ∃ bs, ¬ Guarded step QuietAfterAck s bs := by
  cases hphase : s.phase with
  | idle => simp [hphase, Phase.frame] at hframe
  | sending g =>
    obtain rfl : g = f := by simpa [hphase, Phase.frame] using hframe
    exact ⟨_, not_quiet_of_sending hphase hmem⟩
  | sent g =>
    obtain rfl : g = some f := by simpa [hphase, Phase.frame] using hframe
    exact ⟨_, not_quiet_of_sent hphase hmem⟩
  | waiting g =>
    obtain rfl : g = some f := by simpa [hphase, Phase.frame] using hframe
    cases hwait : s.wait with
    | outside => exact absurd hphase (hout hwait (some f))
    | blocked => exact absurd hwait hblocked
    | signalled => exact absurd hwait hsignalled
    | expired => exact ⟨_, not_quiet_of_expired hphase hwait hmem⟩

/-- The condition excludes no step after which a frame could not be sent again or counted as a
timeout in spite of its acknowledgement. -/
theorem not_quiet_of_not_ackedInWait (hi : Inv s) {a : Action} (hg : ¬ AckedInWait s a)
    (h : step s a = some t) : ∃ bs, ¬ Guarded step QuietAfterAck t bs := by
  cases a with
  | send | enterWait | expire | wake | leaveWait => exact absurd trivial hg
  | fetch f =>
    cases f with
    | none => exact absurd (by simp [AckedInWait]) hg
    | some f =>
      have hmem : f ∈ s.acked := by simpa [AckedInWait] using hg
      cases hphase : s.phase <;> simp only [step, hphase, reduceCtorEq, Option.some.injEq] at h
      subst h
      exact ⟨_, not_quiet_of_sending rfl hmem⟩
  | deliverResp sequenceId msgId result =>
    simp only [AckedInWait, Classical.not_imp, not_or] at hg
    obtain ⟨rfl, hframe, hblocked, hsignalled⟩ := hg
    have hkept : s.wait.signal = s.wait := by
      cases hwait : s.wait with
      | outside | signalled | expired => rfl
      | blocked => exact absurd hwait hblocked
    cases h
    simp only [hkept, ite_self, if_true]
    refine not_quiet_of_acked hframe ?_ hblocked hsignalled hi.outside.mp
    exact List.mem_append_right _ (List.mem_singleton_self _)

end LambGateway.Ismg
