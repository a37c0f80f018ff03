import LambGateway.Relay.Platform
import LambGateway.Relay.Report
import LambGateway.Sp.CorrelationMap

/-!
# The way back to the clients

What the carriers send, and what the servers have to say about messages that they turn away, goes
through sp, the delivery program, the servers, mo and ismg, at the same time as messages go the
other way. A client is told about its own messages only, and gets no other account's replies.
-/

namespace LambGateway.Relay.PlatformReturn

open Framework QueueServer Sp.Carrier
open Platform (Accepted Tag forall_mem_update forall_mem_concat)

/-- Beside the setup of the way to the carriers: the rules of the delivery program, and the account
that each server has loaded. -/
structure Setup where
  platform : Platform.Setup
  pcre : Bytes → Bytes → Bool
  delivery : List LambDelivery
  server : Int32 → LambAccount

/-- The call by which ismg passes something on to a client. -/
inductive Told where
  | report (r : CmppReport)
  | deliver (sequenceId : UInt32) (d : Deliver)

/-- `storage` is sp's list; `toDelivery`, `toMo` and `toIsmg` are in flight, and so is `sent` of
`delivery`. The last four fields only record what has happened. -/
structure State where
  up : Platform.State
  caches : Sp.LambCaches
  storage : Int32 → List Message
  toDelivery : Int32 → List Frame
  delivery : Int32 → PullState Message
  toMo : Int32 → List Frame
  mo : Int32 → List Message
  toIsmg : Nat → List Frame
  acked : List Sp.Correlation
  reports : List (Int32 × DeliverPacket)
  replies : List (Int32 × CmppDeliver)
  told : List (Nat × Told)

def State.init (n : Nat) : State where
  up := .init
  caches := (Sp.State.init n).caches
  storage _ := []
  toDelivery _ := []
  delivery _ := ⟨[], []⟩
  toMo _ := []
  mo _ := []
  toIsmg _ := []
  acked := []
  reports := []
  replies := []
  told := []

inductive Link where
  | delivery (g : Int32)
  | server (a : Int32)
  | mo (a : Int32)
  | ismg (c : Nat)

inductive Action where
  | up (a : Platform.Action)
  /-- The scheduling loop ends with an answer that is reported to the client. -/
  | refuse (a : Int32) (env : Server.Env) (alloc : Server.Allocation) (answer : Server.Answer)
  /-- An acknowledgement with the confirmed record's number is stored. -/
  | ack (msgId id : UInt64) (account company : Int32) (spcode : CString 20)
  /-- A `CMPP_DELIVER` of the carrier. -/
  | carrierReport (g : Int32) (pack : DeliverPacket) (alloc : Bool)
  | carrierReply (g : Int32) (pack : CmppDeliver) (alloc : Bool)
  /-- A round of the work loop of sp. -/
  | forward (g : Int32) (packed assembled : Bool)
  /-- The push loop of the delivery program. -/
  | deliver (g : Int32) (alloc : Bool)
  | deliveryPull (a : Int32) (o : Outcome)
  /-- A round of the deliver loop of the server. -/
  | relay (a : Int32) (packed : Bool)
  | moPush (a : Int32) (alloc : Bool)
  | moPull (c : Nat) (o : Outcome)
  /-- ismg passes a message on, and keeps it if it will not be acknowledged in time. -/
  | tell (c : Nat) (sequenceId : UInt32) (again : Bool)
  | lose (link : Link) (n : Nat)

/-- The `REPORT` of `lamb_direct_response`, if a check turns the message away. -/
def checkResponse (s : State) : Platform.Action → Option (Int32 × Report)
  | .check a env alloc =>
    match (s.up.mt a).sent with
    | .submit m :: _ =>
      match Server.passChecks env alloc m with
      | .error r =>
        if alloc.response then some (a, Server.lambDirectResponse env m r.cause) else none
      | .ok _ => none
    | _ => none
  | _ => none

/-- The same for an answer of the scheduler. -/
def refusal (env : Server.Env) (alloc : Server.Allocation) (m : Submit) :
    Server.Answer → Option Report
  | .noroute => if alloc.response then some (Server.lambDirectResponse env m 4) else none
  | .reject => if alloc.response then some (Server.lambDirectResponse env m 7) else none
  | _ => none

def respond (toMo : Int32 → List Frame) : Option (Int32 × Report) → Int32 → List Frame
  | none => toMo
  | some (a, r) => Function.update toMo a (toMo a ++ [.report r])

variable (setup : Setup)

def Setup.target (spcode : Bytes) : Int32 := Delivery.target setup.pcre setup.delivery spcode

def step (s : State) : Action → Option State
  | .up a =>
    (Platform.step setup.platform s.up a).map fun up =>
      { s with up := up, toMo := respond s.toMo (checkResponse s a) }
  | .refuse a env alloc answer =>
    (Platform.step setup.platform s.up (.settle a)).map fun up =>
      { s with
        up := up
        toMo := respond s.toMo
          ((s.up.work a).bind fun p => (refusal env alloc p.1 answer).map (a, ·)) }
  | .ack msgId id account company spcode =>
    some
      { s with
        caches := Sp.lambSetCache s.caches msgId id account company spcode
        acked := s.acked ++ [⟨id, account, company, spcode.text⟩] }
  | .carrierReport g pack alloc =>
    if pack.registeredDelivery = 1 then
      some
        { s with
          storage := if alloc then
            Function.update s.storage g
              (s.storage g ++ [.report (reportRecord setup.platform.get pack)])
            else s.storage
          reports := s.reports ++ [(g, pack)] }
    else none
  | .carrierReply g pack alloc =>
    some
      { s with
        storage := if alloc then
          Function.update s.storage g
            (s.storage g ++ [.deliver (Sp.lambDeliverLoop setup.platform.get pack)])
          else s.storage
        replies := s.replies ++ [(g, pack)] }
  | .forward g packed assembled =>
    match s.storage g with
    | [] => none
    | .report r :: storage =>
      let (caches, f) := Sp.workReport s.caches r packed assembled
      some
        { s with
          caches := caches
          storage := Function.update s.storage g storage
          toDelivery := Function.update s.toDelivery g
            (s.toDelivery g ++ f.toList.map .report) }
    | .deliver d :: storage =>
      some
        { s with
          storage := Function.update s.storage g storage
          toDelivery := if packed && assembled then
            Function.update s.toDelivery g
              (s.toDelivery g ++ [.deliver (Sp.lambWorkLoop (setup.platform.gateway g) d)])
            else s.toDelivery }
  | .deliver g alloc =>
    match s.toDelivery g with
    | [] => none
    | f :: frames =>
      let received := { s with toDelivery := Function.update s.toDelivery g frames }
      let push (a : Int32) (m : Message) : State :=
        { received with
          delivery := Function.update s.delivery a
            { s.delivery a with queue := (s.delivery a).queue ++ [m] } }
      match f with
      | .report r =>
        some (if alloc then push r.account (.report (Delivery.lambPushReport r)) else received)
      | .deliver d =>
        let queued := Delivery.lambPushLoop d
        let target := setup.target queued.spcode.text
        some (if alloc ∧ 0 < target then push target (.deliver queued) else received)
      | _ => some received
  | .deliveryPull a o =>
    some { s with
      delivery := Function.update s.delivery a (Delivery.lambPullLoop (s.delivery a) o) }
  | .relay a packed =>
    match (s.delivery a).sent with
    | [] => none
    | f :: frames =>
      let received :=
        { s with delivery := Function.update s.delivery a { s.delivery a with sent := frames } }
      let send (f : Frame) : State :=
        { received with toMo := Function.update s.toMo a (s.toMo a ++ [f]) }
      match f with
      | .report r => some (if packed then send (.report (Server.lambDeliverReport r)) else received)
      | .deliver d =>
        some (if packed then send (.deliver (Server.lambDeliverLoop (setup.server a) d))
          else received)
      | _ => some received
  | .moPush a alloc =>
    match s.toMo a with
    | [] => none
    | f :: frames =>
      let received := { s with toMo := Function.update s.toMo a frames }
      let push (m : Message) : State :=
        { received with mo := Function.update s.mo a (s.mo a ++ [m]) }
      match f with
      | .report r => some (if alloc then push (.report (Mo.lambPushReport r)) else received)
      | .deliver d => some (if alloc then push (.deliver (Mo.lambPushLoop d)) else received)
      | _ => some received
  | .moPull c o =>
    let a := (setup.platform.session c).id
    let r := Mo.lambPullLoop ⟨s.mo a, s.toIsmg c⟩ o
    some
      { s with
        mo := Function.update s.mo a r.queue
        toIsmg := Function.update s.toIsmg c r.sent }
  | .tell c sequenceId again =>
    match s.toIsmg c with
    | [] => none
    | f :: frames =>
      let left := if again then s.toIsmg c else frames
      let received := { s with toIsmg := Function.update s.toIsmg c left }
      match f with
      | .report r =>
        some { received with
          told := s.told ++ [(c, .report (Ismg.lambDeliverReport sequenceId r))] }
      | .deliver d => some { received with told := s.told ++ [(c, .deliver sequenceId d)] }
      | _ => some received
  | .lose (.delivery g) n =>
    some { s with toDelivery := Function.update s.toDelivery g ((s.toDelivery g).take n) }
  | .lose (.server a) n =>
    some
      { s with
        delivery := Function.update s.delivery a
          { s.delivery a with sent := (s.delivery a).sent.take n } }
  | .lose (.mo a) n => some { s with toMo := Function.update s.toMo a ((s.toMo a).take n) }
  | .lose (.ismg c) n => some { s with toIsmg := Function.update s.toIsmg c ((s.toIsmg c).take n) }

example (s : State) (c : Nat) (sequenceId : UInt32) (again : Bool) (h : s.toIsmg c = []) :
    step setup s (.tell c sequenceId again) = none := by
  simp only [step, h]

/-! ## Where everything comes from -/

/-- What has been accepted from clients, acknowledged by carriers and sent by them. -/
structure History where
  accepted : List Accepted
  acked : List Sp.Correlation
  reports : List (Int32 × DeliverPacket)
  replies : List (Int32 × CmppDeliver)

def State.history (s : State) : History := ⟨s.up.accepted, s.acked, s.reports, s.replies⟩

/-- Nothing is forgotten. -/
structure History.Grows (h h' : History) : Prop where
  accepted : h.accepted ⊆ h'.accepted
  acked : h.acked ⊆ h'.acked
  reports : h.reports ⊆ h'.reports
  replies : h.replies ⊆ h'.replies

/-- sp's record of something that the carrier of the gateway has sent. -/
def FromCarrier (h : History) (g : Int32) : Message → Prop
  | .report r => ∃ pack, (g, pack) ∈ h.reports ∧ r = reportRecord setup.platform.get pack
  | .deliver d => ∃ pack, (g, pack) ∈ h.replies ∧ d = Sp.lambDeliverLoop setup.platform.get pack

/-- The `REPORT` for a correlation, with what the carrier's packet says. -/
def spReport (get : CmppGetString) (e : Sp.Correlation) (pack : DeliverPacket) : Report :=
  let r := reportRecord get pack
  { id := e.id, account := e.account, company := e.company, spcode := e.spcode
    phone := r.phone.text, status := r.status, submittime := r.submittime.text
    donetime := r.donetime.text }

def FromSp (h : History) (g : Int32) : Frame → Prop
  | .report r =>
    ∃ e ∈ h.acked, ∃ pack, (g, pack) ∈ h.reports ∧ r = spReport setup.platform.get e pack
  | .deliver d => ∃ pack, (g, pack) ∈ h.replies ∧
    d = Sp.lambWorkLoop (setup.platform.gateway g) (Sp.lambDeliverLoop setup.platform.get pack)
  | _ => True

/-- In the queue of the account in the delivery program. -/
def Queued (h : History) (a : Int32) : Message → Prop
  | .report r => ∃ g f, FromSp setup h g (.report f) ∧ f.account = a ∧ r = Delivery.lambPushReport f
  | .deliver d => ∃ g f, FromSp setup h g (.deliver f) ∧ d = Delivery.lambPushLoop f ∧
    setup.target d.spcode.text = a ∧ 0 < a

/-- A `REPORT` about a message of the account that its server has turned away. -/
def Refused (h : History) (a : Int32) (r : Report) : Prop :=
  ∃ e ∈ h.accepted, setup.platform.account e = a ∧ r.id = e.msgId ∧
    r.spcode = e.pack.srcId.text ∧ r.phone = e.pack.destTerminalId.text.take 11 ∧
    (r.status = 4 ∨ r.status = 7)

/-- On the way from the account's server to mo. -/
def Relayed (h : History) (a : Int32) : Frame → Prop
  | .report r => (∃ q, Queued setup h a (.report q) ∧ r = Server.lambDeliverReport (packReport q)) ∨
    Refused setup h a r
  | .deliver d => ∃ q, Queued setup h a (.deliver q) ∧
    d = Server.lambDeliverLoop (setup.server a) (packDeliver q)
  | _ => True

/-- In the queue of the account in mo. -/
def ForClient (h : History) (a : Int32) : Message → Prop
  | .report r => ∃ f, Relayed setup h a (.report f) ∧ r = Mo.lambPushReport f
  | .deliver d => ∃ f, Relayed setup h a (.deliver f) ∧ d = Mo.lambPushLoop f

/-- A frame that a pull loop has made of a queued message, or one without a message. -/
def FrameOf (P : Message → Prop) (f : Frame) : Prop :=
  f.carries = true → ∃ m, f = messageFrame m ∧ P m

def ToldTo (h : History) (a : Int32) : Told → Prop
  | .report rep => ∃ sequenceId r, ForClient setup h a (.report r) ∧
    rep = Ismg.lambDeliverReport sequenceId (packReport r)
  | .deliver _ d => ∃ q, ForClient setup h a (.deliver q) ∧ d = packDeliver q

section Mono

variable {setup} {h h' : History} (hle : h.Grows h')

include hle

theorem FromCarrier.mono {g : Int32} {m : Message} (hm : FromCarrier setup h g m) :
    FromCarrier setup h' g m := by
  cases m with
  | report r => exact hm.imp fun _ hp => ⟨hle.reports hp.1, hp.2⟩
  | deliver d => exact hm.imp fun _ hp => ⟨hle.replies hp.1, hp.2⟩

theorem FromSp.mono {g : Int32} {f : Frame} (hf : FromSp setup h g f) : FromSp setup h' g f := by
  cases f with
  | report r =>
    obtain ⟨e, he, pack, hpack, rfl⟩ := hf
    exact ⟨e, hle.acked he, pack, hle.reports hpack, rfl⟩
  | deliver d => exact hf.imp fun _ hp => ⟨hle.replies hp.1, hp.2⟩
  | submit _ | empty | headless => trivial

theorem Queued.mono {a : Int32} {m : Message} (hm : Queued setup h a m) : Queued setup h' a m := by
  cases m with
  | report r =>
    obtain ⟨g, f, hf, haccount⟩ := hm
    exact ⟨g, f, hf.mono hle, haccount⟩
  | deliver d =>
    obtain ⟨g, f, hf, htarget⟩ := hm
    exact ⟨g, f, hf.mono hle, htarget⟩

theorem Relayed.mono {a : Int32} {f : Frame} (hf : Relayed setup h a f) :
    Relayed setup h' a f := by
  cases f with
  | report r =>
    refine hf.imp (fun ⟨q, hq, hr⟩ => ⟨q, hq.mono hle, hr⟩) fun ⟨e, he, hr⟩ => ?_
    exact ⟨e, hle.accepted he, hr⟩
  | deliver d => exact hf.imp fun _ hq => ⟨hq.1.mono hle, hq.2⟩
  | submit _ | empty | headless => trivial

theorem ForClient.mono {a : Int32} {m : Message} (hm : ForClient setup h a m) :
    ForClient setup h' a m := by
  cases m with
  | report r => exact hm.imp fun _ hf => ⟨hf.1.mono hle, hf.2⟩
  | deliver d => exact hm.imp fun _ hf => ⟨hf.1.mono hle, hf.2⟩

theorem ToldTo.mono {a : Int32} {m : Told} (hm : ToldTo setup h a m) : ToldTo setup h' a m := by
  cases m with
  | report rep =>
    obtain ⟨sequenceId, r, hr, hrep⟩ := hm
    exact ⟨sequenceId, r, hr.mono hle, hrep⟩
  | deliver sequenceId d => exact hm.imp fun _ hq => ⟨hq.1.mono hle, hq.2⟩

end Mono

/-- What the correlation store can return has been acknowledged. -/
def StoreKnown (acked : List Sp.Correlation) (caches : Sp.LambCaches) : Prop :=
  ∃ n ops, caches = Sp.runOps n ops ∧ ∀ op ∈ ops, ∀ e, op.value = some e → e ∈ acked

structure Places (h : History) (s : State) : Prop where
  storage : ∀ g, ∀ m ∈ s.storage g, FromCarrier setup h g m
  toDelivery : ∀ g, ∀ f ∈ s.toDelivery g, FromSp setup h g f
  queue : ∀ a, ∀ m ∈ (s.delivery a).queue, Queued setup h a m
  sent : ∀ a, ∀ f ∈ (s.delivery a).sent, FrameOf (Queued setup h a) f
  toMo : ∀ a, ∀ f ∈ s.toMo a, Relayed setup h a f
  mo : ∀ a, ∀ m ∈ s.mo a, ForClient setup h a m
  toIsmg : ∀ c, ∀ f ∈ s.toIsmg c, FrameOf (ForClient setup h (setup.platform.session c).id) f
  told : ∀ p ∈ s.told, ToldTo setup h (setup.platform.session p.1).id p.2

structure Inv (s : State) : Prop where
  up : Platform.Inv setup.platform s.up
  store : StoreKnown s.acked s.caches
  acked : ∀ e ∈ s.acked, ∃ c ∈ s.up.calls, c.cached = e
  places : Places setup s.history s

/-- An acknowledgement finds in the confirmed record the data of a message that was submitted. -/
def AcksSubmitted (s : State) : Action → Prop
  | .ack _ id account company spcode =>
    ∃ c ∈ s.up.calls, c.cached = ⟨id, account, company, spcode.text⟩
  | _ => True

instance (s : State) : (a : Action) → Decidable (AcksSubmitted s a)
  | .ack _ id account company spcode =>
    inferInstanceAs (Decidable (∃ c ∈ s.up.calls, c.cached = ⟨id, account, company, spcode.text⟩))
  | .up _ | .refuse .. | .carrierReport .. | .carrierReply .. | .forward .. | .deliver ..
  | .deliveryPull .. | .relay .. | .moPush .. | .moPull .. | .tell .. | .lose .. => isTrue trivial

theorem inv_init (n : Nat) : Inv setup (State.init n) where
  up := Platform.inv_init setup.platform
  store := ⟨n, [], rfl, by simp⟩
  acked := by simp [State.init]
  places := by constructor <;> simp [State.init]

variable {setup} {s t : State}

theorem FrameOf.imp {P Q : Message → Prop} {f : Frame} (hf : FrameOf P f) (h : ∀ m, P m → Q m) :
    FrameOf Q f := by
  intro hcarries
  obtain ⟨m, hm, hp⟩ := hf hcarries
  exact ⟨m, hm, h m hp⟩

theorem Places.mono {h h' : History} (hs : Places setup h s) (hle : h.Grows h') :
    Places setup h' s where
  storage g m hm := (hs.storage g m hm).mono hle
  toDelivery g f hf := (hs.toDelivery g f hf).mono hle
  queue a m hm := (hs.queue a m hm).mono hle
  sent a f hf := (hs.sent a f hf).imp fun _ hm => hm.mono hle
  toMo a f hf := (hs.toMo a f hf).mono hle
  mo a m hm := (hs.mo a m hm).mono hle
  toIsmg c f hf := (hs.toIsmg c f hf).imp fun _ hm => hm.mono hle
  told p hp := (hs.told p hp).mono hle

/-- Frames that a pull loop has sent. -/
theorem frameOf_pull {v : Handshake.Server} {P : Record v → Prop} {Q : Frame → Prop}
    {p : PullState (Record v)} {o : Outcome} (hqueue : ∀ m ∈ p.queue, P m)
    (hsent : ∀ f ∈ p.sent, Q f) (hframe : ∀ m, P m → Q (frameOf v m))
    (hother : ∀ f, f.carries = false → Q f) :
    (∀ m ∈ (lambPullLoop v p o).queue, P m) ∧ ∀ f ∈ (lambPullLoop v p o).sent, Q f := by
  cases hq : p.queue with
  | nil =>
    obtain ⟨hnil, hfilter⟩ := lambPullLoop_nil v hq o
    refine ⟨by simp [hnil], fun f hf => ?_⟩
    by_cases hcarries : f.carries = true
    · have hmem := List.mem_filter.mpr ⟨hf, hcarries⟩
      rw [hfilter] at hmem
      exact hsent f (List.mem_filter.mp hmem).1
    · exact hother f (by simpa using hcarries)
  | cons r queue =>
    obtain ⟨hr, hrest⟩ := List.forall_mem_cons.mp (hq ▸ hqueue)
    rw [lambPullLoop_cons v hq o]
    refine ⟨hrest, ?_⟩
    dsimp only
    split
    · exact forall_mem_concat hsent (hframe r hr)
    · exact hsent

/-! ## The way to the carriers -/

theorem up_grows {up up' : Platform.State} {a : Platform.Action} {p : Platform.Setup}
    (h : Platform.step p up a = some up') :
    up.accepted ⊆ up'.accepted ∧ up.calls ⊆ up'.calls := by
  rcases Platform.change_or_less h with hchange | hless
  · cases hchange with
    | accept _ _ _ => exact ⟨List.subset_append_left _ _, fun _ h => h⟩
    | submit _ _ _ _ => exact ⟨fun _ h => h, List.subset_append_left _ _⟩
    | _ => exact ⟨fun _ h => h, fun _ h => h⟩
  · exact ⟨fun _ h => hless.accepted ▸ h, fun _ h => hless.calls ▸ h⟩

/-- What the server has of a packet, as far as it reports on it. -/
theorem submitted_address (e : Accepted) :
    let m := packSubmit (Mt.lambPushLoop (setup.platform.submitted e))
    m.id = e.msgId ∧ m.spcode = e.pack.srcId.text ∧
      m.phone = e.pack.destTerminalId.text.take 11 := by
  have hlen := e.pack.srcId.length_le
  refine ⟨rfl, ?_, ?_⟩
  · change (cstr (Ismg.lambWorkLoop setup.platform.get _ e.msgId e.pack).spcode).take 20 = _
    rw [ismg_spcode, CString.cstr_text, List.take_of_length_le hlen]
  · change (cstr (Ismg.lambWorkLoop setup.platform.get _ e.msgId e.pack).phone).take 11 = _
    rw [ismg_phone, CString.cstr_text]

theorem refused_response {a : Int32} {e : Accepted} {m : Submit} {env : Server.Env} {cause : Int32}
    (he : e ∈ s.up.accepted) (haccount : setup.platform.account e = a)
    (hsame : Server.SameAddress (packSubmit (Mt.lambPushLoop (setup.platform.submitted e))) m)
    (hcause : cause = 4 ∨ cause = 7) :
    Refused setup s.history a (Server.lambDirectResponse env m cause) := by
  obtain ⟨hid, hspcode, hphone⟩ := @submitted_address setup e
  exact ⟨e, he, haccount, hsame.1.trans hid, hsame.2.2.trans hspcode, hsame.2.1.trans hphone,
    hcause⟩

theorem refused_check (hs : Inv setup s) {a : Platform.Action} {b : Int32} {r : Report}
    (h : checkResponse s a = some (b, r)) : Refused setup s.history b r := by
  unfold checkResponse at h
  split at h
  · split at h
    · next m _ hsent =>
      split at h
      · next rejection hchecks =>
        split at h <;> cases h
        have hold := hs.up.sent b m (by rw [hsent]; exact List.mem_cons_self)
        obtain ⟨e, he, haccount, rfl⟩ := hold
        exact refused_response he haccount ⟨rfl, rfl, rfl⟩ (Server.passChecks_error_cause hchecks)
      · cases h
    · cases h
  · cases h

theorem refused_answer (hs : Inv setup s) {a : Int32} {env : Server.Env} {alloc : Server.Allocation}
    {answer : Server.Answer} {b : Int32} {r : Report}
    (h : ((s.up.work a).bind fun p => (refusal env alloc p.1 answer).map (a, ·)) = some (b, r)) :
    Refused setup s.history b r := by
  obtain ⟨p, hwork, hp⟩ := Option.bind_eq_some_iff.mp h
  obtain ⟨r', hr, heq⟩ := Option.map_eq_some_iff.mp hp
  obtain ⟨rfl, rfl⟩ := Prod.mk.inj heq
  obtain ⟨e, he, haccount, env', alloc', hchecks⟩ := hs.up.work a p hwork
  have hsame := Server.passChecks_sameAddress hchecks
  cases answer with
  | noroute =>
    simp only [refusal] at hr
    split at hr <;> cases hr
    exact refused_response he haccount hsame (.inl rfl)
  | reject =>
    simp only [refusal] at hr
    split at hr <;> cases hr
    exact refused_response he haccount hsame (.inr rfl)
  | ok | busy | failed => cases hr

theorem Places.respond {h : History} (hs : Places setup h s) {up : Platform.State}
    {response : Option (Int32 × Report)}
    (hr : ∀ b r, response = some (b, r) → Refused setup h b r) :
    Places setup h { s with up := up, toMo := PlatformReturn.respond s.toMo response } := by
  cases response with
  | none => exact { hs with toMo := hs.toMo }
  | some p =>
    refine { hs with toMo := forall_mem_update id ?_ hs.toMo }
    exact forall_mem_concat (hs.toMo p.1) (.inr (hr p.1 p.2 rfl))

theorem Inv.up_step (hs : Inv setup s) {a : Platform.Action} {up : Platform.State}
    {response : Option (Int32 × Report)} (h : Platform.step setup.platform s.up a = some up)
    (hr : ∀ b r, response = some (b, r) → Refused setup s.history b r) :
    Inv setup { s with up := up, toMo := PlatformReturn.respond s.toMo response } := by
  obtain ⟨haccepted, hcalls⟩ := up_grows h
  refine ⟨hs.up.step h, hs.store, fun e he => ?_, ?_⟩
  · exact (hs.acked e he).imp fun _ hc => ⟨hcalls hc.1, hc.2⟩
  · exact (hs.places.respond hr).mono ⟨haccepted, fun _ h => h, fun _ h => h, fun _ h => h⟩

/-! ## sp -/

theorem StoreKnown.apply {acked acked' : List Sp.Correlation} {caches : Sp.LambCaches}
    (hs : StoreKnown acked caches) (hsub : acked ⊆ acked') (op : Sp.CacheOp)
    (hop : ∀ e, op.value = some e → e ∈ acked') : StoreKnown acked' (op.apply caches) := by
  obtain ⟨n, ops, rfl, hops⟩ := hs
  refine ⟨n, ops ++ [op], (List.foldl_concat ..).symm, ?_⟩
  exact forall_mem_concat (fun op' hmem e he => hsub (hops op' hmem e he)) hop

/-- What a report finds in the store has been acknowledged. -/
theorem StoreKnown.found {acked : List Sp.Correlation} {caches : Sp.LambCaches}
    (hs : StoreKnown acked caches) {g : UInt64} (h : (Sp.lambGetCache caches g 21).Found) :
    Sp.lambGetCache caches g 21 ∈ acked := by
  obtain ⟨n, ops, rfl, hops⟩ := hs
  rw [Sp.lambGetCache_runOps n ops g (Nat.le_refl 21)] at h ⊢
  cases hlast : Sp.lastValue ops g with
  | none =>
    rw [hlast] at h
    exact absurd h (by decide)
  | some e =>
    obtain ⟨op, hop, hvalue⟩ := Option.bind_eq_some_iff.mp hlast
    have hmem := List.mem_of_getLast? hop
    exact hops op (List.mem_filter.mp hmem).1 e hvalue

theorem Inv.ack (hs : Inv setup s) {msgId id : UInt64} {account company : Int32}
    {spcode : CString 20} (hg : AcksSubmitted s (.ack msgId id account company spcode)) :
    Inv setup
      { s with
        caches := Sp.lambSetCache s.caches msgId id account company spcode
        acked := s.acked ++ [⟨id, account, company, spcode.text⟩] } where
  up := hs.up
  store := by
    refine hs.store.apply (List.subset_append_left _ _) (.set msgId id account company spcode) ?_
    rintro e ⟨⟩
    exact List.mem_append_right _ List.mem_cons_self
  acked := forall_mem_concat hs.acked hg
  places := by
    have hle : s.history.Grows
        { s.history with acked := s.acked ++ [⟨id, account, company, spcode.text⟩] } :=
      ⟨fun _ h => h, List.subset_append_left _ _, fun _ h => h, fun _ h => h⟩
    exact { hs.places.mono hle with storage := (hs.places.mono hle).storage }

theorem Inv.carrierReport (hs : Inv setup s) (g : Int32) (pack : DeliverPacket) (alloc : Bool) :
    Inv setup
      { s with
        storage := if alloc then
          Function.update s.storage g
            (s.storage g ++ [.report (reportRecord setup.platform.get pack)])
          else s.storage
        reports := s.reports ++ [(g, pack)] } := by
  have hle : s.history.Grows { s.history with reports := s.reports ++ [(g, pack)] } :=
    ⟨fun _ h => h, fun _ h => h, List.subset_append_left _ _, fun _ h => h⟩
  have hplaces := hs.places.mono hle
  refine ⟨hs.up, hs.store, hs.acked, { hplaces with storage := ?_ }⟩
  cases alloc with
  | false => exact hplaces.storage
  | true =>
    refine forall_mem_update id ?_ hplaces.storage
    exact forall_mem_concat (hplaces.storage g) ⟨pack, by simp [State.history], rfl⟩

theorem Inv.carrierReply (hs : Inv setup s) (g : Int32) (pack : CmppDeliver) (alloc : Bool) :
    Inv setup
      { s with
        storage := if alloc then
          Function.update s.storage g
            (s.storage g ++ [.deliver (Sp.lambDeliverLoop setup.platform.get pack)])
          else s.storage
        replies := s.replies ++ [(g, pack)] } := by
  have hle : s.history.Grows { s.history with replies := s.replies ++ [(g, pack)] } :=
    ⟨fun _ h => h, fun _ h => h, fun _ h => h, List.subset_append_left _ _⟩
  have hplaces := hs.places.mono hle
  refine ⟨hs.up, hs.store, hs.acked, { hplaces with storage := ?_ }⟩
  cases alloc with
  | false => exact hplaces.storage
  | true =>
    refine forall_mem_update id ?_ hplaces.storage
    exact forall_mem_concat (hplaces.storage g) ⟨pack, by simp [State.history], rfl⟩

/-- Any state with the same history whose places are accounted for. -/
theorem Inv.of_places (hs : Inv setup s) (hup : t.up = s.up) (hcaches : t.caches = s.caches)
    (hhistory : t.history = s.history) (ht : Places setup s.history t) : Inv setup t := by
  have hacked : t.acked = s.acked := congrArg History.acked hhistory
  refine ⟨hup ▸ hs.up, ?_, ?_, hhistory ▸ ht⟩
  · rw [hacked, hcaches]
    exact hs.store
  · rw [hacked, hup]
    exact hs.acked

theorem workReport_store {caches : Sp.LambCaches} (hs : StoreKnown s.acked caches) (r : LambReport)
    (packed assembled : Bool) :
    StoreKnown s.acked (Sp.workReport caches r packed assembled).1 := by
  by_cases hfound : (Sp.lambGetCache caches r.id 21).Found
  · rw [Sp.workReport_of_found hfound]
    exact hs.apply (fun _ h => h) (.del _) (by rintro e ⟨⟩)
  · rw [Sp.workReport_of_not_found hfound]
    exact hs

theorem Inv.forward (hs : Inv setup s) {g : Int32} {packed assembled : Bool}
    (h : step setup s (.forward g packed assembled) = some t) : Inv setup t := by
  simp only [step] at h
  have hold := hs.places.storage g
  split at h
  · cases h
  · next r storage hstorage =>
    rw [hstorage] at hold
    obtain ⟨⟨pack, hpack, rfl⟩, hrest⟩ := List.forall_mem_cons.mp hold
    cases h
    refine ⟨hs.up, workReport_store hs.store _ packed assembled, hs.acked, ?_⟩
    refine { hs.places with
      storage := forall_mem_update id hrest hs.places.storage, toDelivery := ?_ }
    apply forall_mem_update id _ hs.places.toDelivery
    refine List.forall_mem_append.mpr ⟨hs.places.toDelivery g, fun f hf => ?_⟩
    obtain ⟨r, hr, rfl⟩ := List.mem_map.mp hf
    obtain ⟨hfound, rfl⟩ := workReport_eq_some (Option.mem_toList.mp hr)
    exact ⟨_, hs.store.found hfound, pack, hpack, rfl⟩
  · next d storage hstorage =>
    rw [hstorage] at hold
    obtain ⟨⟨pack, hpack, rfl⟩, hrest⟩ := List.forall_mem_cons.mp hold
    cases h
    refine hs.of_places rfl rfl rfl { hs.places with
      storage := forall_mem_update id hrest hs.places.storage, toDelivery := ?_ }
    dsimp only
    split
    · apply forall_mem_update id _ hs.places.toDelivery
      exact forall_mem_concat (hs.places.toDelivery g) ⟨pack, hpack, rfl⟩
    · exact hs.places.toDelivery

/-! ## delivery, server, mo and ismg -/

theorem Inv.deliver (hs : Inv setup s) {g : Int32} {alloc : Bool}
    (h : step setup s (.deliver g alloc) = some t) : Inv setup t := by
  simp only [step] at h
  have hold := hs.places.toDelivery g
  split at h
  · cases h
  · next f frames hframes =>
    rw [hframes] at hold
    obtain ⟨hf, hrest⟩ := List.forall_mem_cons.mp hold
    have hreceived : Places setup s.history
        { s with toDelivery := Function.update s.toDelivery g frames } :=
      { hs.places with toDelivery := forall_mem_update id hrest hs.places.toDelivery }
    have hpush (a : Int32) (m : Message) (hm : Queued setup s.history a m) : Places setup s.history
        { s with
          toDelivery := Function.update s.toDelivery g frames
          delivery := Function.update s.delivery a
            { s.delivery a with queue := (s.delivery a).queue ++ [m] } } := by
      refine { hreceived with queue := ?_, sent := ?_ }
      · apply forall_mem_update PullState.queue _ hs.places.queue
        exact forall_mem_concat (hs.places.queue a) hm
      · exact forall_mem_update PullState.sent (hs.places.sent a) hs.places.sent
    cases f with
    | report r =>
      dsimp only at h
      split at h <;> cases h
      · exact hs.of_places rfl rfl rfl (hpush _ _ ⟨g, r, hf, rfl, rfl⟩)
      · exact hs.of_places rfl rfl rfl hreceived
    | deliver d =>
      dsimp only at h
      split at h <;> cases h
      · next hcond => exact hs.of_places rfl rfl rfl (hpush _ _ ⟨g, d, hf, rfl, rfl, hcond.2⟩)
      · exact hs.of_places rfl rfl rfl hreceived
    | submit _ | empty | headless =>
      cases h
      exact hs.of_places rfl rfl rfl hreceived

theorem frameOf_message {P : Message → Prop} (m : Message) (hm : P m) :
    FrameOf P (messageFrame m) :=
  fun _ => ⟨m, rfl, hm⟩

theorem Inv.deliveryPull (hs : Inv setup s) (a : Int32) (o : Outcome) :
    Inv setup
      { s with
        delivery := Function.update s.delivery a (Delivery.lambPullLoop (s.delivery a) o) } := by
  obtain ⟨hqueue, hsent⟩ := frameOf_pull (v := .delivery) (o := o) (hs.places.queue a)
    (hs.places.sent a) (fun m hm => frameOf_message m hm)
    fun f hf hcarries => absurd (hf.symm.trans hcarries) (by decide)
  refine hs.of_places rfl rfl rfl { hs.places with queue := ?_, sent := ?_ }
  · exact forall_mem_update PullState.queue hqueue hs.places.queue
  · exact forall_mem_update PullState.sent hsent hs.places.sent

theorem Inv.relay (hs : Inv setup s) {a : Int32} {packed : Bool}
    (h : step setup s (.relay a packed) = some t) : Inv setup t := by
  simp only [step] at h
  have hold := hs.places.sent a
  split at h
  · cases h
  · next f frames hframes =>
    rw [hframes] at hold
    obtain ⟨hf, hrest⟩ := List.forall_mem_cons.mp hold
    have hreceived : Places setup s.history { s with
        delivery := Function.update s.delivery a { s.delivery a with sent := frames } } := by
      refine { hs.places with queue := ?_, sent := ?_ }
      · exact forall_mem_update PullState.queue (hs.places.queue a) hs.places.queue
      · exact forall_mem_update PullState.sent hrest hs.places.sent
    have hsend (f : Frame) (hf : Relayed setup s.history a f) : Places setup s.history { s with
        delivery := Function.update s.delivery a { s.delivery a with sent := frames }
        toMo := Function.update s.toMo a (s.toMo a ++ [f]) } := by
      refine { hreceived with toMo := forall_mem_update id ?_ hs.places.toMo }
      exact forall_mem_concat (hs.places.toMo a) hf
    cases f with
    | report r =>
      obtain ⟨q, hq, hqueued⟩ := hf rfl
      dsimp only at h
      split at h <;> cases h
      · cases q with
        | report q =>
          obtain rfl := Frame.report.inj hq
          exact hs.of_places rfl rfl rfl (hsend _ (.inl ⟨q, hqueued, rfl⟩))
        | deliver q => cases hq
      · exact hs.of_places rfl rfl rfl hreceived
    | deliver d =>
      obtain ⟨q, hq, hqueued⟩ := hf rfl
      dsimp only at h
      split at h <;> cases h
      · cases q with
        | report q => cases hq
        | deliver q =>
          obtain rfl := Frame.deliver.inj hq
          exact hs.of_places rfl rfl rfl (hsend _ ⟨q, hqueued, rfl⟩)
      · exact hs.of_places rfl rfl rfl hreceived
    | submit _ | empty | headless =>
      cases h
      exact hs.of_places rfl rfl rfl hreceived

theorem Inv.moPush (hs : Inv setup s) {a : Int32} {alloc : Bool}
    (h : step setup s (.moPush a alloc) = some t) : Inv setup t := by
  simp only [step] at h
  have hold := hs.places.toMo a
  split at h
  · cases h
  · next f frames hframes =>
    rw [hframes] at hold
    obtain ⟨hf, hrest⟩ := List.forall_mem_cons.mp hold
    have hreceived : Places setup s.history { s with toMo := Function.update s.toMo a frames } :=
      { hs.places with toMo := forall_mem_update id hrest hs.places.toMo }
    have hpush (m : Message) (hm : ForClient setup s.history a m) : Places setup s.history
        { s with
          toMo := Function.update s.toMo a frames
          mo := Function.update s.mo a (s.mo a ++ [m]) } := by
      refine { hreceived with mo := forall_mem_update id ?_ hs.places.mo }
      exact forall_mem_concat (hs.places.mo a) hm
    cases f with
    | report r =>
      dsimp only at h
      split at h <;> cases h
      · exact hs.of_places rfl rfl rfl (hpush _ ⟨r, hf, rfl⟩)
      · exact hs.of_places rfl rfl rfl hreceived
    | deliver d =>
      dsimp only at h
      split at h <;> cases h
      · exact hs.of_places rfl rfl rfl (hpush _ ⟨d, hf, rfl⟩)
      · exact hs.of_places rfl rfl rfl hreceived
    | submit _ | empty | headless =>
      cases h
      exact hs.of_places rfl rfl rfl hreceived

theorem Inv.moPull (hs : Inv setup s) (c : Nat) (o : Outcome) :
    Inv setup
      { s with
        mo := Function.update s.mo (setup.platform.session c).id
          (Mo.lambPullLoop ⟨s.mo (setup.platform.session c).id, s.toIsmg c⟩ o).queue
        toIsmg := Function.update s.toIsmg c
          (Mo.lambPullLoop ⟨s.mo (setup.platform.session c).id, s.toIsmg c⟩ o).sent } := by
  obtain ⟨hqueue, hsent⟩ := frameOf_pull (v := .mo) (o := o)
    (p := ⟨s.mo (setup.platform.session c).id, s.toIsmg c⟩) (hs.places.mo _) (hs.places.toIsmg c)
    (fun m hm => frameOf_message m hm)
    fun f hf hcarries => absurd (hf.symm.trans hcarries) (by decide)
  refine hs.of_places rfl rfl rfl { hs.places with mo := ?_, toIsmg := ?_ }
  · exact forall_mem_update id hqueue hs.places.mo
  · exact forall_mem_update id hsent hs.places.toIsmg

theorem Inv.tell (hs : Inv setup s) {c : Nat} {sequenceId : UInt32} {again : Bool}
    (h : step setup s (.tell c sequenceId again) = some t) : Inv setup t := by
  simp only [step] at h
  have hold := hs.places.toIsmg c
  split at h
  · cases h
  · next f frames hframes =>
    have hleft : ∀ f ∈ (if again = true then s.toIsmg c else frames),
        FrameOf (ForClient setup s.history (setup.platform.session c).id) f := by
      split
      · exact hold
      · exact fun f' hf' => hold f' (hframes ▸ List.mem_cons_of_mem f hf')
    have hf := hold f (hframes ▸ List.mem_cons_self)
    have hreceived : Places setup s.history { s with
        toIsmg := Function.update s.toIsmg c (if again = true then s.toIsmg c else frames) } :=
      { hs.places with toIsmg := forall_mem_update id hleft hs.places.toIsmg }
    cases f with
    | report r =>
      obtain ⟨q, hq, hfor⟩ := hf rfl
      cases h
      cases q with
      | report q =>
        obtain rfl := Frame.report.inj hq
        exact hs.of_places rfl rfl rfl { hreceived with
          told := forall_mem_concat hs.places.told ⟨sequenceId, q, hfor, rfl⟩ }
      | deliver q => cases hq
    | deliver d =>
      obtain ⟨q, hq, hfor⟩ := hf rfl
      cases h
      cases q with
      | report q => cases hq
      | deliver q =>
        obtain rfl := Frame.deliver.inj hq
        exact hs.of_places rfl rfl rfl { hreceived with
          told := forall_mem_concat hs.places.told ⟨q, hfor, rfl⟩ }
    | submit _ | empty | headless =>
      cases h
      exact hs.of_places rfl rfl rfl hreceived

theorem Inv.lose (hs : Inv setup s) {link : Link} {n : Nat}
    (h : step setup s (.lose link n) = some t) : Inv setup t := by
  cases link with
  | delivery g =>
    cases h
    refine hs.of_places rfl rfl rfl { hs.places with toDelivery := ?_ }
    apply forall_mem_update id _ hs.places.toDelivery
    exact fun f hf => hs.places.toDelivery g f (List.mem_of_mem_take hf)
  | server a =>
    cases h
    refine hs.of_places rfl rfl rfl { hs.places with queue := ?_, sent := ?_ }
    · exact forall_mem_update PullState.queue (hs.places.queue a) hs.places.queue
    · apply forall_mem_update PullState.sent _ hs.places.sent
      exact fun f hf => hs.places.sent a f (List.mem_of_mem_take hf)
  | mo a =>
    cases h
    refine hs.of_places rfl rfl rfl { hs.places with toMo := ?_ }
    apply forall_mem_update id _ hs.places.toMo
    exact fun f hf => hs.places.toMo a f (List.mem_of_mem_take hf)
  | ismg c =>
    cases h
    refine hs.of_places rfl rfl rfl { hs.places with toIsmg := ?_ }
    apply forall_mem_update id _ hs.places.toIsmg
    exact fun f hf => hs.places.toIsmg c f (List.mem_of_mem_take hf)

theorem Inv.step (hs : Inv setup s) {a : Action} (hg : AcksSubmitted s a)
    (h : step setup s a = some t) : Inv setup t := by
  cases a with
  | up a =>
    obtain ⟨up, hup, rfl⟩ := Option.map_eq_some_iff.mp h
    exact hs.up_step hup fun b r hr => refused_check hs hr
  | refuse a env alloc answer =>
    obtain ⟨up, hup, rfl⟩ := Option.map_eq_some_iff.mp h
    exact hs.up_step hup fun b r hr => refused_answer hs hr
  | ack msgId id account company spcode =>
    cases h
    exact hs.ack hg
  | carrierReport g pack alloc =>
    simp only [PlatformReturn.step] at h
    split at h <;> cases h
    exact hs.carrierReport g pack alloc
  | carrierReply g pack alloc =>
    cases h
    exact hs.carrierReply g pack alloc
  | forward g packed assembled => exact hs.forward h
  | deliver g alloc => exact hs.deliver h
  | deliveryPull a o =>
    cases h
    exact hs.deliveryPull a o
  | relay a packed => exact hs.relay h
  | moPush a alloc => exact hs.moPush h
  | moPull c o =>
    cases h
    exact hs.moPull c o
  | tell c sequenceId again => exact hs.tell h
  | lose link n => exact hs.lose h

/-! ## What the clients are told -/

/-- A report that a client of the account is sent: it names a message that was accepted for the
account, and its code, and says either that the server has turned the message away, or what a
carrier has reported, with the message submitted under the record that was acknowledged. -/
def OwnReport (setup : Setup) (s : State) (a : Int32) (rep : CmppReport) : Prop :=
  ∃ e ∈ s.up.accepted, setup.platform.account e = a ∧ rep.msgId = e.msgId ∧
    rep.spcode = e.pack.srcId.text ∧
    ((rep.stat = ascii "UNDELIV" ∨ rep.stat = ascii "REJECTD") ∧
        rep.phone = e.pack.destTerminalId.text.take 11 ∨
      ∃ c ∈ s.up.calls, setup.platform.Called e c ∧ ∃ p ∈ s.reports,
        rep.stat = Ismg.stat (statusOf p.2.report.stat.text) ∧
        rep.phone = p.2.srcTerminalId.text.take 11)

/-- The way back from a gateway. -/
def Setup.wayBack (setup : Setup) (g : Int32) : WayBack :=
  ⟨setup.platform.get, setup.platform.gateway g, setup.pcre, setup.delivery, setup.server⟩

/-- A reply that a client of the account is sent: it is what a carrier's packet leads to if it is
taken from program to program alone, and the account is the one that the rules find. -/
def OwnReply (setup : Setup) (s : State) (a : Int32) (d : Deliver) : Prop :=
  ∃ p ∈ s.replies, downlink (setup.wayBack p.1) p.2 = some (setup.server a, d) ∧
    setup.target (Delivery.lambPushLoop (Sp.lambWorkLoop (setup.platform.gateway p.1)
      (Sp.lambDeliverLoop setup.platform.get p.2))).spcode.text = a

def Own (setup : Setup) (s : State) (a : Int32) : Told → Prop
  | .report rep => OwnReport setup s a rep
  | .deliver _ d => OwnReply setup s a d

theorem cached_of_called {e : Accepted} {c : Platform.Call} (h : setup.platform.Called e c) :
    c.cached = ⟨e.msgId, setup.platform.account e, (setup.platform.session e.session).company,
      e.pack.srcId.text⟩ := by
  obtain ⟨way, ⟨-, haccount, -⟩, huplink, -⟩ := h.uplink
  rw [(uplink_eq_some huplink).2, haccount]
  rfl

theorem ownReport_of_fromSp (hs : Inv setup s) {a g : Int32} {r : Report}
    (hr : FromSp setup s.history g (.report r)) (ha : r.account = a) (sequenceId : UInt32) :
    OwnReport setup s a (forwardReport sequenceId r) := by
  obtain ⟨cor, hcor, pack, hpack, rfl⟩ := hr
  obtain ⟨c, hc, rfl⟩ := hs.acked cor hcor
  obtain ⟨e, he, hcalled⟩ := hs.up.calls c hc
  have hcached := cached_of_called hcalled
  have hlen := e.pack.srcId.length_le
  have hstat : CmppGetString.text setup.platform.get pack.report.stat.text 7 =
      pack.report.stat.text := by
    rw [CmppGetString.text_eq, List.take_of_length_le pack.report.stat.length_le]
  refine ⟨e, he, ?_, ?_, ?_, .inr ⟨c, hc, hcalled, (g, pack), hpack, ?_, ?_⟩⟩
  · rw [← ha]
    exact (congrArg Sp.Correlation.account hcached).symm
  · exact congrArg Sp.Correlation.id hcached
  · rw [forwardReport_eq]
    simp only [spReport, hcached, CString.cstr_text, List.take_of_length_le hlen]
  · rw [forwardReport_eq]
    simp only [spReport, reportRecord, hstat]
  · rw [forwardReport_eq]
    simp only [spReport, reportRecord, strncpy_get setup.platform.get _ _ (Nat.le_refl _),
      CString.cstr_text]

theorem ownReport_of_refused {a : Int32} {r : Report} (hr : Refused setup s.history a r)
    (sequenceId : UInt32) :
    OwnReport setup s a (Ismg.lambDeliverReport sequenceId (packReport (Mo.lambPushReport r))) := by
  obtain ⟨e, he, haccount, hid, hspcode, hphone, hstatus⟩ := hr
  refine ⟨e, he, haccount, hid, ?_, .inl ⟨?_, ?_⟩⟩
  · change (cstr r.spcode).take 20 = _
    rw [hspcode, CString.cstr_text, List.take_of_length_le e.pack.srcId.length_le]
  · change Ismg.stat r.status = _ ∨ Ismg.stat r.status = _
    rcases hstatus with hstatus | hstatus <;> rw [hstatus]
    · exact .inl rfl
    · exact .inr rfl
  · change (cstr r.phone).take 11 = _
    have hprefix := cstr_take_cstr e.pack.destTerminalId.text 11
    rw [CString.cstr_text] at hprefix
    rw [hphone, hprefix, List.take_take, Nat.min_self]

theorem own_of_toldTo (hs : Inv setup s) {a : Int32} {m : Told}
    (hm : ToldTo setup s.history a m) : Own setup s a m := by
  cases m with
  | report rep =>
    obtain ⟨sequenceId, r, ⟨f, hf, rfl⟩, rfl⟩ := hm
    rcases hf with ⟨q, ⟨g, r, hr, ha, rfl⟩, rfl⟩ | hrefused
    · exact ownReport_of_fromSp hs hr ha sequenceId
    · exact ownReport_of_refused hrefused sequenceId
  | deliver sequenceId d =>
    obtain ⟨q, ⟨f, ⟨q', ⟨g, f', ⟨pack, hpack, rfl⟩, rfl, rfl, hpos⟩, rfl⟩, rfl⟩, rfl⟩ := hm
    refine ⟨(g, pack), hpack, ?_, rfl⟩
    exact if_pos hpos

def openSetup : Setup where
  platform := Platform.openSetup
  pcre _ _ := true
  delivery := [⟨1, strncpy (ascii "^1069") 127, 1⟩]
  server i := ⟨i, strncpy (ascii "901234") 7, strncpy (ascii "10690001") 20, 1⟩

/-- A message is submitted, acknowledged and reported on, and a subscriber replies. -/
def openRun : List Action :=
  let ok : Outcome := ⟨true, true, true⟩
  Platform.openRun.map .up ++
    [.ack 9 7 1 1 (strncpy (ascii "10690001") 20),
      .carrierReport 5 (deliveredReport (ascii "DELIVRD")) true, .forward 5 true true,
      .carrierReply 5 (replyTo (ascii "1069")) true, .forward 5 true true, .deliver 5 true,
      .deliver 5 true, .deliveryPull 1 ok, .deliveryPull 1 ok, .relay 1 true, .relay 1 true,
      .moPush 1 true, .moPush 1 true, .moPull 0 ok, .moPull 0 ok, .tell 0 4 false, .tell 0 5 false]

end LambGateway.Relay.PlatformReturn
