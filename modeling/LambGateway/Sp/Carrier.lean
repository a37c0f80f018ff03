import LambGateway.QueueServer.Pull
import LambGateway.Relay.Downlink

/-!
# The carrier's deliveries

sp answers each `CMPP_DELIVER`, a status report or a reply of a subscriber, with an id that it
reads back from the record it has made for the packet.
-/

namespace LambGateway.Sp.Carrier

open Framework

/-- What stands in the content of a status report. -/
structure ReportContent where
  msgId : UInt64
  stat : CString 7
  submitTime : CString 10
  doneTime : CString 10

/-- A `CMPP_DELIVER`; `report` is its content read as that of a status report. -/
structure DeliverPacket where
  sequenceId : UInt32
  msgId : UInt64
  destId : CString 21
  serviceId : CString 10
  msgfmt : UInt8
  srcTerminalId : CString 20
  registeredDelivery : UInt8
  content : Bytes
  length_lt : content.length < 256
  report : ReportContent

/-- A record on the storage list, a message with its `length`. -/
inductive StoredRecord where
  | report (r : LambReport)
  | deliver (d : LambDeliver) (length : UInt8)

def StoredRecord.id : StoredRecord → UInt64
  | report r => r.id
  | deliver d _ => d.id

structure DeliverResp where
  sequenceId : UInt32
  msgId : UInt64
  result : UInt8

structure CarrierState where
  storage : List StoredRecord
  sent : List DeliverResp
  rep : UInt64
  delv : UInt64

/-- Which allocations succeed: of the record, and of the node for it. -/
structure CarrierAllocs where
  record : Bool
  node : Bool

def toLower (b : UInt8) : UInt8 := if 65 ≤ b ∧ b ≤ 90 then b + 32 else b

/-- `strncasecmp(s, t, n) == 0` -/
def strncasecmp (s t : Bytes) (n : Nat) : Bool :=
  ((cstr s).take n).map toLower == ((cstr t).take n).map toLower

def stats : List (Bytes × Int32) :=
  [(ascii "DELIVRD", 1), (ascii "EXPIRED", 2), (ascii "DELETED", 3), (ascii "UNDELIV", 4),
    (ascii "ACCEPTD", 5), (ascii "UNKNOWN", 6), (ascii "REJECTD", 7)]

def statusOf (stat : Bytes) : Int32 :=
  ((stats.find? fun p => strncasecmp stat p.1 7).map Prod.snd).getD 6

/-- The record of a status report: its id is the one in the content. -/
def reportRecord (get : CmppGetString) (pack : DeliverPacket) : LambReport where
  account := 0
  company := 0
  id := pack.report.msgId
  spcode := strncpy [] 20
  phone := strncpy (Relay.CmppGetString.text get pack.srcTerminalId.text 20) 20
  status := statusOf (Relay.CmppGetString.text get pack.report.stat.text 7)
  submittime := strncpy (Relay.CmppGetString.text get pack.report.submitTime.text 10) 10
  donetime := strncpy (Relay.CmppGetString.text get pack.report.doneTime.text 10) 10

def deliverRecord (get : CmppGetString) (pack : DeliverPacket) : LambDeliver where
  account := 0
  company := 0
  id := pack.msgId
  phone := strncpy (Relay.CmppGetString.text get pack.srcTerminalId.text 20) 20
  spcode := strncpy (Relay.CmppGetString.text get pack.destId.text 20) 20
  serviceid := strncpy (Relay.CmppGetString.text get pack.serviceId.text 10) 10
  msgfmt := Int32.ofNat pack.msgfmt.toNat
  content := Content.ofBytes (get.string pack.content 160)

def CarrierState.store (s : CarrierState) (r : StoredRecord) (node : Bool) : CarrierState :=
  if node then { s with storage := s.storage ++ [r] } else s

/-- `cmpp_deliver_resp` -/
def CarrierState.respond (s : CarrierState) (resp : DeliverResp) : CarrierState :=
  { s with sent := s.sent ++ [resp] }

/-- The record that a packet asks for. -/
def recordOf (get : CmppGetString) (pack : DeliverPacket) : StoredRecord :=
  if pack.registeredDelivery = 1 then .report (reportRecord get pack)
  else .deliver (deliverRecord get pack) (UInt8.ofNat pack.content.length)

/-- What both branches do with their record, or with a null pointer if it is not allocated. At the
label of the response the id is read from the record; there is no next state if that is a null
pointer. -/
def storeAndRespond (s : CarrierState) (sequenceId : UInt32) (record : Option StoredRecord)
    (node : Bool) : Option CarrierState :=
  let result : UInt8 := if record.isSome then 0 else 9
  let s := match record with
    | some r => s.store r node
    | none => s
  record.map fun r => s.respond ⟨sequenceId, r.id, result⟩

/-- `CMPP_DELIVER` in `lamb_deliver_loop`. -/
def lambDeliverLoop (get : CmppGetString) (s : CarrierState) (pack : DeliverPacket)
    (alloc : CarrierAllocs) : Option CarrierState :=
  if pack.registeredDelivery = 1 then
    storeAndRespond { s with rep := s.rep + 1 } pack.sequenceId
      (if alloc.record then some (.report (reportRecord get pack)) else none) alloc.node
  else
    storeAndRespond { s with delv := s.delv + 1 } pack.sequenceId
      (if alloc.record then
        some (.deliver (deliverRecord get pack) (UInt8.ofNat pack.content.length))
      else none) alloc.node

/-- One answer with the numbers of the packet, with result 0 if the record is put on the storage
list and 9 if not, and no null pointer. -/
def AnsweredCorrectly (get : CmppGetString) (s : CarrierState) (pack : DeliverPacket)
    (alloc : CarrierAllocs) : Prop :=
  ∃ s' result, lambDeliverLoop get s pack alloc = some s' ∧
    s'.sent = s.sent ++ [⟨pack.sequenceId, pack.msgId, result⟩] ∧
    (result = 0 ∧ s'.storage = s.storage ++ [recordOf get pack] ∨
      result = 9 ∧ s'.storage = s.storage)

/-- The reply of a subscriber is the record that the way back begins with. -/
theorem deliverRecord_eq (get : CmppGetString) (pack : DeliverPacket)
    (hlen : pack.content.length ≤ 159) :
    deliverRecord get pack = Relay.Sp.lambDeliverLoop get
      { msgId := pack.msgId, srcTerminalId := pack.srcTerminalId, destId := pack.destId
        serviceId := pack.serviceId, msgfmt := Int32.ofNat pack.msgfmt.toNat
        content := pack.content, length_le := hlen } :=
  rfl

theorem storage_respond_store (s : CarrierState) (r : StoredRecord) (node : Bool)
    (resp : DeliverResp) :
    ((s.store r node).respond resp).storage = if node then s.storage ++ [r] else s.storage := by
  cases node <;> rfl

theorem sent_respond_store (s : CarrierState) (r : StoredRecord) (node : Bool)
    (resp : DeliverResp) : ((s.store r node).respond resp).sent = s.sent ++ [resp] := by
  cases node <;> rfl

/-- Without a record there is no answer. -/
theorem lambDeliverLoop_failed (get : CmppGetString) (s : CarrierState) (pack : DeliverPacket)
    {alloc : CarrierAllocs} (h : alloc.record = false) :
    lambDeliverLoop get s pack alloc = none := by
  unfold lambDeliverLoop
  rw [h]
  split <;> rfl

/-- With a record there is one answer, with result 0 and the id of the record. -/
theorem lambDeliverLoop_allocated (get : CmppGetString) (s : CarrierState) (pack : DeliverPacket)
    {alloc : CarrierAllocs} (h : alloc.record = true) :
    ∃ s', lambDeliverLoop get s pack alloc = some s' ∧
      s'.sent = s.sent ++ [⟨pack.sequenceId, (recordOf get pack).id, 0⟩] ∧
      s'.storage = if alloc.node then s.storage ++ [recordOf get pack] else s.storage := by
  unfold lambDeliverLoop recordOf
  rw [h]
  split
  · exact ⟨_, rfl, sent_respond_store .., storage_respond_store ..⟩
  · exact ⟨_, rfl, sent_respond_store .., storage_respond_store ..⟩

theorem recordOf_id (get : CmppGetString) (pack : DeliverPacket) :
    (recordOf get pack).id =
      if pack.registeredDelivery = 1 then pack.report.msgId else pack.msgId := by
  unfold recordOf
  split <;> rfl

/-- A packet is answered correctly if and only if its record and the node for it are allocated
and, for a status report, the id in the content is the `Msg_Id` of the packet. -/
theorem answered_correctly_iff (get : CmppGetString) (s : CarrierState) (pack : DeliverPacket)
    (alloc : CarrierAllocs) :
    AnsweredCorrectly get s pack alloc ↔ alloc.record = true ∧ alloc.node = true ∧
      (pack.registeredDelivery = 1 → pack.report.msgId = pack.msgId) := by
  have hid : (recordOf get pack).id = pack.msgId ↔
      (pack.registeredDelivery = 1 → pack.report.msgId = pack.msgId) := by
    rw [recordOf_id]
    by_cases h : pack.registeredDelivery = 1
    · rw [if_pos h, forall_prop_of_true h]
    · rw [if_neg h]
      exact iff_of_true rfl fun h1 => absurd h1 h
  rw [← hid]
  cases hrecord : alloc.record with
  | false =>
    apply iff_of_false
    · intro ⟨s', result, hs', _⟩
      rw [lambDeliverLoop_failed get s pack hrecord] at hs'
      exact nomatch hs'
    · exact fun h => Bool.false_ne_true h.1
  | true =>
    obtain ⟨s', hs', hsent, hstorage⟩ := lambDeliverLoop_allocated get s pack hrecord
    constructor
    · intro ⟨t, result, ht, hanswer, hstored⟩
      obtain rfl : s' = t := Option.some.inj (hs'.symm.trans ht)
      have hresp := List.append_cancel_left (hsent.symm.trans hanswer)
      simp only [List.cons.injEq, DeliverResp.mk.injEq, true_and, and_true] at hresp
      obtain ⟨hmsgId, hresult⟩ := hresp
      rcases hstored with ⟨-, hstored⟩ | ⟨hnine, -⟩
      · refine ⟨rfl, ?_, hmsgId⟩
        by_contra hnode
        rw [hstored, if_neg hnode] at hstorage
        exact List.cons_ne_nil _ _ (List.append_right_eq_self.mp hstorage)
      · exact absurd (hresult.trans hnine) (by decide)
    · intro ⟨_, hnode, hmsgId⟩
      rw [hmsgId] at hsent
      rw [if_pos hnode] at hstorage
      exact ⟨s', 0, hs', hsent, .inl ⟨rfl, hstorage⟩⟩

/-- A status report whose content names another id than the packet is answered with that id. -/
theorem answered_with_other_id :
    ¬ ∀ get s pack alloc, AnsweredCorrectly get s pack alloc := by
  intro h
  let pack : DeliverPacket :=
    { sequenceId := 3, msgId := 5, destId := ⟨[], by decide, by decide⟩
      serviceId := ⟨[], by decide, by decide⟩, msgfmt := 0
      srcTerminalId := ⟨ascii "13800000000", by decide, by decide⟩, registeredDelivery := 1
      content := [], length_lt := by decide
      report := ⟨9, ⟨ascii "DELIVRD", by decide, by decide⟩, ⟨[], by decide, by decide⟩,
        ⟨[], by decide, by decide⟩⟩ }
  obtain ⟨s', result, hs', hsent, -⟩ := h .cut ⟨[], [], 0, 0⟩ pack ⟨true, true⟩
  obtain rfl := Option.some.inj hs'
  have hresp := List.cons.inj hsent
  have hid : (9 : UInt64) = 5 := congrArg DeliverResp.msgId hresp.1
  exact absurd hid (by decide)

end LambGateway.Sp.Carrier
