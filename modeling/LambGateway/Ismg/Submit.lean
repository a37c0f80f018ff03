import LambGateway.Ismg.MsgId
import LambGateway.QueueServer.Pull
import LambGateway.Relay.Uplink

/-!
# The client's submits

The work loop of ismg answers each `CMPP_SUBMIT`, and the answer tells the client whether its
message has been handed to mt. What was sent is compared with what was assembled by its length
alone, and a failed assembly has length 0.
-/

namespace LambGateway.Ismg

open Framework QueueServer

/-- A `CMPP_SUBMIT`: its one-byte `Msg_Length` announces the content. -/
structure SubmitPacket where
  sequenceId : UInt32
  destTerminalId : CString 20
  srcId : CString 20
  msgfmt : UInt8
  content : Bytes
  length_lt : content.length < 256

/-- A packet as it comes in, and which calls succeed for it. -/
structure SubmitEvent where
  pack : SubmitPacket
  now : Clock
  outcome : Outcome

structure SubmitResp where
  sequenceId : UInt32
  msgId : UInt64
  result : UInt8
  deriving DecidableEq

/-- A packet with the id generated for it, what was handed to mt, and the answers. -/
structure Exchange where
  pack : SubmitPacket
  msgId : UInt64
  handed : List Frame
  answers : List SubmitResp

/-- What the session is set up with. -/
structure SubmitEnv where
  get : CmppGetString
  cmppGenMsgid : Clock → Int32 → UInt16 → UInt64
  gid : Int32
  account : LambAccount
  packedSize : Submit → Nat

/-- The counter of `lamb_sequence`, the session's `status`, and what went out, packet by
packet. -/
structure SubmitState where
  seq : UInt16
  recv : UInt64
  store : UInt64
  fmt : UInt64
  len : UInt64
  err : UInt64
  exchanges : List Exchange

def SubmitState.init : SubmitState := ⟨1, 0, 0, 0, 0, 0, []⟩

def lambCheckFormat (coded : Int32) (list : List Int32) : Bool := list.any (· == coded)

def codeds : List Int32 := [0, 8, 11, 15]

/-- Where the resolution of a packet ends. -/
inductive Verdict where
  | format
  | length
  | body
  | unsent
  | stored
  deriving DecidableEq

def Verdict.result : Verdict → UInt8
  | format => 11
  | length => 4
  | body => 12
  | unsent => 13
  | stored => 0

def SubmitState.count (s : SubmitState) : Verdict → SubmitState
  | .format => { s with fmt := s.fmt + 1 }
  | .length => { s with len := s.len + 1 }
  | .body => s
  | .unsent => { s with err := s.err + 1 }
  | .stored => { s with store := s.store + 1 }

/-- `lamb_pack_assembly`: the buffer and its length, nothing and 0 if it cannot be allocated. -/
def lambPackAssembly (malloc : Bool) (frame : Frame) (size : Nat) : Frame × Int :=
  if malloc then (frame, 4 + size) else (.headless, 0)

theorem lambCheckFormat_iff (coded : Int32) (list : List Int32) :
    lambCheckFormat coded list = true ↔ coded ∈ list := by
  simp [lambCheckFormat]

/-- The packet has passed the checks of format and length. -/
def SubmitPacket.accepted (pack : SubmitPacket)
    (hformat : lambCheckFormat (Int32.ofNat pack.msgfmt.toNat) codeds = true)
    (hlen : ¬ (159 < pack.content.length ∨ pack.content.length < 1)) : Relay.CmppSubmit where
  msgfmt := Int32.ofNat pack.msgfmt.toNat
  content := pack.content
  format_known := (lambCheckFormat_iff _ _).mp hformat
  length_pos := Nat.le_of_not_lt (not_or.mp hlen).2
  length_le := Nat.le_of_not_lt (not_or.mp hlen).1
  destTerminalId := pack.destTerminalId
  srcId := pack.srcId

/-- From the `malloc` of the body to the `nn_send`, which returns the length of what it has sent,
also if that is 0: the verdict, and what mt has been given. -/
def handOver (message : Submit) (packedSize : Nat) (o : Outcome) : Verdict × List Frame :=
  if o.malloc then
    let assembled := lambPackAssembly o.assembly (.submit message) packedSize
    let rc := if o.send then assembled.2 else -1
    let handed := if o.send then [assembled.1] else []
    (if rc ≠ assembled.2 then .unsent else .stored, handed)
  else (.body, [])

/-- From the checks to the label `response`. -/
def resolve (env : SubmitEnv) (msgId : UInt64) (pack : SubmitPacket) (o : Outcome) :
    Verdict × List Frame :=
  if hformat : lambCheckFormat (Int32.ofNat pack.msgfmt.toNat) codeds = true then
    if hlen : 159 < pack.content.length ∨ pack.content.length < 1 then (.length, [])
    else
      let message := Relay.Ismg.lambWorkLoop env.get env.account msgId (pack.accepted hformat hlen)
      handOver message (env.packedSize message) o
  else (.format, [])

/-- `CMPP_SUBMIT` in `lamb_work_loop`. -/
def lambWorkLoop (env : SubmitEnv) (s : SubmitState) (e : SubmitEvent) : SubmitState :=
  let (sequenceId, seq) := lambSequence s.seq
  let msgId := lambGenMsgid env.cmppGenMsgid e.now env.gid sequenceId
  let (verdict, handed) := resolve env msgId e.pack e.outcome
  { s.count verdict with
    seq := seq
    recv := s.recv + 1
    exchanges := s.exchanges ++
      [⟨e.pack, msgId, handed, [⟨e.pack.sequenceId, msgId, verdict.result⟩]⟩] }

/-- The packets of a session. -/
def submitRun (env : SubmitEnv) (events : List SubmitEvent) : SubmitState :=
  events.foldl (lambWorkLoop env) .init

def SubmitState.answers (s : SubmitState) : List SubmitResp := s.exchanges.flatMap Exchange.answers

/-! ## One packet -/

/-- The packet has one answer with its numbers. The result is 0 if and only if mt has been given
the message, which is then one of a known format and length. -/
def Exchange.Kept (x : Exchange) : Prop :=
  ∃ result, x.answers = [⟨x.pack.sequenceId, x.msgId, result⟩] ∧
    (result = 0 ↔ ∃ m, .submit m ∈ x.handed ∧ m.id = x.msgId) ∧ x.handed.length ≤ 1 ∧
    (result = 0 → Int32.ofNat x.pack.msgfmt.toNat ∈ codeds ∧ 1 ≤ x.pack.content.length ∧
      x.pack.content.length ≤ 159)

/-- If the body of an accepted packet is there and `nn_send` succeeds, what it sends has been
assembled. -/
def SubmitEvent.Assembled (e : SubmitEvent) : Prop :=
  Int32.ofNat e.pack.msgfmt.toNat ∈ codeds → 1 ≤ e.pack.content.length →
    e.pack.content.length ≤ 159 → e.outcome.malloc = true → e.outcome.send = true →
      e.outcome.assembly = true

/-- The exchange for a packet. -/
def exchangeOf (env : SubmitEnv) (msgId : UInt64) (e : SubmitEvent) : Exchange :=
  ⟨e.pack, msgId, (resolve env msgId e.pack e.outcome).2,
    [⟨e.pack.sequenceId, msgId, (resolve env msgId e.pack e.outcome).1.result⟩]⟩

/-- A message that is sent counts as stored, also if nothing of it could be assembled. -/
theorem handOver_eq (message : Submit) (packedSize : Nat) (o : Outcome) :
    handOver message packedSize o =
      if o.malloc then
        if o.send then (.stored, [if o.assembly then .submit message else .headless])
        else (.unsent, [])
      else (.body, []) := by
  have hfailed (assembly : Bool) :
      (-1 : Int) ≠ (lambPackAssembly assembly (.submit message) packedSize).2 := by
    cases assembly with
    | false =>
      show (-1 : Int) ≠ 0
      decide
    | true =>
      show (-1 : Int) ≠ 4 + packedSize
      omega
  unfold handOver
  cases o.malloc with
  | false => rfl
  | true =>
    cases o.send with
    | false => simp [hfailed]
    | true => cases o.assembly <;> simp [lambPackAssembly]

/-- A result other than 0, with nothing handed over. -/
theorem Exchange.kept_of_refused {pack : SubmitPacket} {msgId : UInt64} {result : UInt8}
    (h : result ≠ 0) : Exchange.Kept ⟨pack, msgId, [], [⟨pack.sequenceId, msgId, result⟩]⟩ := by
  refine ⟨result, rfl, ?_, Nat.zero_le 1, fun h0 => absurd h0 h⟩
  apply iff_of_false h
  exact fun ⟨_, hm, _⟩ => List.not_mem_nil hm

/-- The result 0 for a packet that has passed the checks: it stands and falls with the frame. -/
theorem Exchange.kept_of_accepted {pack : SubmitPacket} {msgId : UInt64} {frame : Frame}
    (hformat : Int32.ofNat pack.msgfmt.toNat ∈ codeds)
    (hlen : 1 ≤ pack.content.length ∧ pack.content.length ≤ 159) :
    Exchange.Kept ⟨pack, msgId, [frame], [⟨pack.sequenceId, msgId, 0⟩]⟩ ↔
      ∃ m, frame = .submit m ∧ m.id = msgId := by
  constructor
  · rintro ⟨result, hanswers, hresult, -, -⟩
    have hzero : result = 0 := by
      simp only [List.cons.injEq, SubmitResp.mk.injEq, true_and, and_true] at hanswers
      exact hanswers.symm
    obtain ⟨m, hm, hid⟩ := hresult.mp hzero
    exact ⟨m, (List.mem_singleton.mp hm).symm, hid⟩
  · intro ⟨m, hframe, hid⟩
    refine ⟨0, rfl, ?_, Nat.le_refl 1, fun _ => ⟨hformat, hlen⟩⟩
    apply iff_of_true rfl
    exact ⟨m, List.mem_singleton.mpr hframe.symm, hid⟩

theorem kept_iff (env : SubmitEnv) (msgId : UInt64) (e : SubmitEvent) :
    (exchangeOf env msgId e).Kept ↔ e.Assembled := by
  unfold exchangeOf
  by_cases hformat : lambCheckFormat (Int32.ofNat e.pack.msgfmt.toNat) codeds = true
  · by_cases hlen : 159 < e.pack.content.length ∨ e.pack.content.length < 1
    · have hr : resolve env msgId e.pack e.outcome = (.length, []) := by
        rw [resolve, dif_pos hformat, dif_pos hlen]
      rw [hr]
      apply iff_of_true
      · exact Exchange.kept_of_refused (by decide)
      · intro _ hpos hle
        omega
    · have hmem := (lambCheckFormat_iff _ _).mp hformat
      have hbounds : 1 ≤ e.pack.content.length ∧ e.pack.content.length ≤ 159 := by omega
      have hasm : e.Assembled ↔ (e.outcome.malloc = true → e.outcome.send = true →
          e.outcome.assembly = true) :=
        ⟨fun h => h hmem hbounds.1 hbounds.2, fun h _ _ _ => h⟩
      rw [hasm, resolve, dif_pos hformat, dif_neg hlen]
      dsimp only
      rw [handOver_eq]
      cases e.outcome.malloc with
      | false =>
        have hbody : Verdict.body.result ≠ 0 := by decide
        apply iff_of_true
        · exact Exchange.kept_of_refused hbody
        · exact fun h => nomatch h
      | true =>
        cases e.outcome.send with
        | false =>
          have hunsent : Verdict.unsent.result ≠ 0 := by decide
          apply iff_of_true
          · exact Exchange.kept_of_refused hunsent
          · exact fun _ h => nomatch h
        | true =>
          cases e.outcome.assembly with
          | false =>
            apply iff_of_false
            · intro h
              obtain ⟨m, hm, -⟩ := (Exchange.kept_of_accepted hmem hbounds).mp h
              exact nomatch hm
            · exact fun h => nomatch h rfl rfl
          | true =>
            apply iff_of_true
            · exact (Exchange.kept_of_accepted hmem hbounds).mpr ⟨_, rfl, rfl⟩
            · exact fun _ _ => rfl
  · have hr : resolve env msgId e.pack e.outcome = (.format, []) := by
      rw [resolve, dif_neg hformat]
    rw [hr]
    apply iff_of_true
    · exact Exchange.kept_of_refused (by decide)
    · intro hmem
      exact absurd ((lambCheckFormat_iff _ _).mpr hmem) hformat

/-! ## A session -/

/-- Accepted means handed over: every packet is kept with its id, and the counters count the
answers. -/
structure AcceptedHandedOver (env : SubmitEnv) (events : List SubmitEvent) : Prop where
  packets : (submitRun env events).exchanges.map Exchange.pack = events.map SubmitEvent.pack
  ids : (submitRun env events).exchanges.map Exchange.msgId =
    submitIds env.cmppGenMsgid env.gid 1 (events.map SubmitEvent.now)
  kept : ∀ x ∈ (submitRun env events).exchanges, x.Kept
  recv : (submitRun env events).recv = UInt64.ofNat (submitRun env events).answers.length
  store : (submitRun env events).store =
    UInt64.ofNat ((submitRun env events).answers.countP fun r => r.result == 0)

/-- The counters of a state count its answers. -/
def SubmitState.Counted (s : SubmitState) : Prop :=
  s.recv = UInt64.ofNat s.answers.length ∧
    s.store = UInt64.ofNat (s.answers.countP fun r => r.result == 0)

theorem lambWorkLoop_exchanges (env : SubmitEnv) (s : SubmitState) (e : SubmitEvent) :
    (lambWorkLoop env s e).exchanges = s.exchanges ++
      [exchangeOf env (lambGenMsgid env.cmppGenMsgid e.now env.gid (lambSequence s.seq).1) e] :=
  rfl

theorem lambWorkLoop_counted (env : SubmitEnv) (e : SubmitEvent) {s : SubmitState}
    (h : s.Counted) : (lambWorkLoop env s e).Counted := by
  obtain ⟨hrecv, hstore⟩ := h
  let msgId := lambGenMsgid env.cmppGenMsgid e.now env.gid (lambSequence s.seq).1
  let verdict := (resolve env msgId e.pack e.outcome).1
  have hanswers : (lambWorkLoop env s e).answers =
      s.answers ++ [⟨e.pack.sequenceId, msgId, verdict.result⟩] := by
    rw [SubmitState.answers, lambWorkLoop_exchanges, List.flatMap_append]
    rfl
  constructor
  · show s.recv + 1 = _
    rw [hanswers, List.length_append, hrecv]
    exact (UInt64.ofNat_add _ 1).symm
  · have hcount : (lambWorkLoop env s e).store = (s.count verdict).store := rfl
    rw [hanswers, hcount, List.countP_append]
    cases verdict with
    | stored =>
      show s.store + 1 = _
      rw [hstore]
      exact (UInt64.ofNat_add _ 1).symm
    | format => exact hstore
    | length => exact hstore
    | body => exact hstore
    | unsent => exact hstore

theorem foldl_packets (env : SubmitEnv) (events : List SubmitEvent) (s : SubmitState) :
    (events.foldl (lambWorkLoop env) s).exchanges.map Exchange.pack =
      s.exchanges.map Exchange.pack ++ events.map SubmitEvent.pack := by
  induction events generalizing s with
  | nil => exact (List.append_nil _).symm
  | cons e events ih =>
    rw [List.foldl_cons, ih, lambWorkLoop_exchanges, List.map_append, List.append_assoc]
    rfl

theorem foldl_ids (env : SubmitEnv) (events : List SubmitEvent) (s : SubmitState) :
    (events.foldl (lambWorkLoop env) s).exchanges.map Exchange.msgId =
      s.exchanges.map Exchange.msgId ++
        submitIds env.cmppGenMsgid env.gid s.seq (events.map SubmitEvent.now) := by
  induction events generalizing s with
  | nil => exact (List.append_nil _).symm
  | cons e events ih =>
    rw [List.foldl_cons, ih, lambWorkLoop_exchanges, List.map_append, List.append_assoc]
    rfl

theorem foldl_kept_iff (env : SubmitEnv) (events : List SubmitEvent) (s : SubmitState) :
    (∀ x ∈ (events.foldl (lambWorkLoop env) s).exchanges, x.Kept) ↔
      (∀ x ∈ s.exchanges, x.Kept) ∧ ∀ e ∈ events, e.Assembled := by
  induction events generalizing s with
  | nil => simp
  | cons e events ih =>
    rw [List.foldl_cons, ih, lambWorkLoop_exchanges, List.forall_mem_append,
      List.forall_mem_singleton, kept_iff, List.forall_mem_cons, and_assoc]

theorem foldl_counted (env : SubmitEnv) (events : List SubmitEvent) {s : SubmitState}
    (h : s.Counted) : (events.foldl (lambWorkLoop env) s).Counted := by
  induction events generalizing s with
  | nil => exact h
  | cons e events ih => exact ih (lambWorkLoop_counted env e h)

/-- In a session, accepted means handed over if and only if no accepted packet loses its frame in
the assembly while `nn_send` succeeds. -/
theorem accepted_handed_over_iff (env : SubmitEnv) (events : List SubmitEvent) :
    AcceptedHandedOver env events ↔ ∀ e ∈ events, e.Assembled := by
  have hkept := foldl_kept_iff env events .init
  constructor
  · intro h
    exact (hkept.mp h.kept).2
  · intro h
    have hcounted := foldl_counted env events (s := .init) ⟨rfl, rfl⟩
    exact
      { packets := foldl_packets env events .init
        ids := foldl_ids env events .init
        kept := hkept.mpr ⟨fun _ hx => absurd hx List.not_mem_nil, h⟩
        recv := hcounted.1
        store := hcounted.2 }

/-- A message of one character: the frame is not assembled, the message without bytes is sent,
and the client gets the result 0. -/
theorem accepted_not_handed_over :
    ¬ ∀ (env : SubmitEnv) (events : List SubmitEvent), AcceptedHandedOver env events := by
  intro h
  let env : SubmitEnv := ⟨.cut, fun _ _ s => s.toUInt64, 1, ⟨1, ⟨[], by decide, by decide⟩,
    ⟨[], by decide, by decide⟩, 1⟩, fun m => m.content.length⟩
  let e : SubmitEvent := ⟨⟨7, ⟨ascii "13800000000", by decide, by decide⟩,
    ⟨[], by decide, by decide⟩, 0, ascii "a", by decide⟩, ⟨0, 1, 0, 0, 0⟩, ⟨true, false, true⟩⟩
  have hkept := (foldl_kept_iff env [e] .init).mp (h env [e]).kept
  have hassembled : e.Assembled := hkept.2 e (List.mem_singleton_self e)
  exact nomatch hassembled (by decide) (by decide) (by decide) rfl rfl

end LambGateway.Ismg
