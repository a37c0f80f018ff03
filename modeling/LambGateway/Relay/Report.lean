import LambGateway.Sp.Carrier

/-!
# A status report on its way to the client

sp turns the carrier's text into a number and looks up whose message the report is about; the
delivery program, the server and mo hand the report on, and ismg turns the number into a text
again.
-/

namespace LambGateway.Relay

open Framework QueueServer Sp.Carrier

/-- The record that delivery and mo queue for a `REPORT`. -/
def pushReport (r : Report) : LambReport where
  account := r.account
  company := r.company
  id := r.id
  spcode := strncpy r.spcode 20
  phone := (strncpy r.phone 11).widen 20 phone_le
  status := r.status
  submittime := strncpy r.submittime 10
  donetime := strncpy r.donetime 10

def Delivery.lambPushReport : Report → LambReport := pushReport

def Mo.lambPushReport : Report → LambReport := pushReport

def packReport (r : LambReport) : Report where
  id := r.id
  account := r.account
  company := r.company
  spcode := r.spcode.text
  phone := r.phone.text
  status := r.status
  submittime := r.submittime.text
  donetime := r.donetime.text

theorem messageFrame_report (r : LambReport) :
    messageFrame (.report r) = .report (packReport r) :=
  rfl

/-- The `REPORT` branch of the server's `lamb_deliver_loop`: every field is copied. -/
def Server.lambDeliverReport (rpack : Report) : Report where
  id := rpack.id
  account := rpack.account
  company := rpack.company
  spcode := rpack.spcode
  phone := rpack.phone
  status := rpack.status
  submittime := rpack.submittime
  donetime := rpack.donetime

/-- The arguments of a `cmpp_report`. -/
structure CmppReport where
  sequenceId : UInt32
  msgId : UInt64
  spcode : Bytes
  stat : Bytes
  submitTime : Bytes
  doneTime : Bytes
  phone : Bytes
  deriving DecidableEq

/-- The switch over `report->status`. -/
def Ismg.stat (status : Int32) : Bytes :=
  if status = 1 then ascii "DELIVRD"
  else if status = 2 then ascii "EXPIRED"
  else if status = 3 then ascii "DELETED"
  else if status = 4 then ascii "UNDELIV"
  else if status = 5 then ascii "ACCEPTD"
  else if status = 6 then ascii "UNKNOWN"
  else if status = 7 then ascii "REJECTD"
  else ascii "UNKNOWN"

/-- `lamb_deliver_loop` of ismg for a `REPORT`. -/
def Ismg.lambDeliverReport (sequenceId : UInt32) (report : Report) : CmppReport where
  sequenceId := sequenceId
  msgId := report.id
  spcode := report.spcode
  stat := Ismg.stat report.status
  submitTime := report.submittime
  doneTime := report.donetime
  phone := report.phone

/-- From sp's `REPORT` to ismg: what the client is sent. -/
def forwardReport (sequenceId : UInt32) (r : Report) : CmppReport :=
  let queued := Delivery.lambPushReport r
  let relayed := Mo.lambPushReport (Server.lambDeliverReport (packReport queued))
  Ismg.lambDeliverReport sequenceId (packReport relayed)

/-- From the carrier's packet to the client, over the store of correlations; `none` if nothing is
stored for the carrier's id. -/
def reportBack (get : CmppGetString) (caches : Sp.LambCaches) (sequenceId : UInt32)
    (pack : DeliverPacket) : Option CmppReport :=
  (Sp.workReport caches (reportRecord get pack) true true).2.map (forwardReport sequenceId)

/-! ## The copies put together -/

theorem forwardReport_eq (sequenceId : UInt32) (r : Report) :
    forwardReport sequenceId r =
      { sequenceId := sequenceId, msgId := r.id, spcode := (cstr r.spcode).take 20
        stat := Ismg.stat r.status, submitTime := (cstr r.submittime).take 10
        doneTime := (cstr r.donetime).take 10, phone := (cstr r.phone).take 11 } := by
  have htwice (text : Bytes) (n : Nat) :
      (cstr ((cstr text).take n)).take n = (cstr text).take n := by
    rw [cstr_take_cstr, List.take_take, Nat.min_self]
  change CmppReport.mk sequenceId r.id _ _ _ _ _ = _
  congr 1
  · exact htwice r.spcode 20
  · exact htwice r.submittime 10
  · exact htwice r.donetime 10
  · exact htwice r.phone 11

theorem strncpy_get {m : Nat} (get : CmppGetString) (field : CString m) (n : Nat) (h : m ≤ n) :
    (strncpy (CmppGetString.text get field.text n) n).text = field.text := by
  have hlen := field.length_le
  rw [CmppGetString.text_eq, List.take_of_length_le (by omega), strncpy_cstring,
    List.take_of_length_le (by omega)]

/-! ## Two tables of states -/

def toUpper (b : UInt8) : UInt8 := if 97 ≤ b ∧ b ≤ 122 then b - 32 else b

theorem toUpper_toLower (b : UInt8) : toUpper (toLower b) = toUpper b := by
  by_cases hb : 65 ≤ b ∧ b ≤ 90
  · have hlower : 97 ≤ b + 32 ∧ b + 32 ≤ 122 := by
      simp only [UInt8.le_iff_toNat_le, UInt8.toNat_add, UInt8.toNat_ofNat] at hb ⊢
      omega
    have hupper : ¬(97 ≤ b ∧ b ≤ 122) := by
      simp only [UInt8.le_iff_toNat_le, UInt8.toNat_ofNat] at hb ⊢
      omega
    rw [toLower, if_pos hb, toUpper, if_pos hlower, toUpper, if_neg hupper, UInt8.add_sub_cancel]
  · rw [toLower, if_neg hb]

theorem strncasecmp_iff {stat : CString 7} {name : Bytes} (hname : cstr name = name)
    (hlen : name.length = 7) :
    strncasecmp stat.text name 7 = true ↔ stat.text.map toLower = name.map toLower := by
  have hstat : (cstr stat.text).take 7 = stat.text := by
    rw [CString.cstr_text, List.take_of_length_le stat.length_le]
  rw [strncasecmp, hstat, hname, List.take_of_length_le (Nat.le_of_eq hlen), beq_iff_eq]

theorem upper_of_strncasecmp {stat : CString 7} {p : Bytes × Int32} (hp : p ∈ stats)
    (h : strncasecmp stat.text p.1 7 = true) : stat.text.map toUpper = p.1 := by
  have htable : ∀ p ∈ stats, cstr p.1 = p.1 ∧ p.1.length = 7 ∧ p.1.map toUpper = p.1 := by
    decide
  obtain ⟨hcstr, hlen, hupper⟩ := htable p hp
  have hlower := (strncasecmp_iff hcstr hlen).mp h
  have hmap (text : Bytes) : (text.map toLower).map toUpper = text.map toUpper := by
    rw [List.map_map]
    exact List.map_congr_left fun b _ => toUpper_toLower b
  calc stat.text.map toUpper = (stat.text.map toLower).map toUpper := (hmap _).symm
    _ = (p.1.map toLower).map toUpper := by rw [hlower]
    _ = p.1.map toUpper := hmap _
    _ = p.1 := hupper

/-- One of the seven states, in whatever case. -/
def Known (stat : CString 7) : Prop := ∃ p ∈ stats, strncasecmp stat.text p.1 7 = true

instance (stat : CString 7) : Decidable (Known stat) :=
  inferInstanceAs (Decidable (∃ p ∈ stats, _))

/-- The two tables belong together: a known state comes out in capitals, any other as unknown. -/
theorem stat_statusOf (stat : CString 7) :
    Ismg.stat (statusOf stat.text) =
      if Known stat then stat.text.map toUpper else ascii "UNKNOWN" := by
  have htable : ∀ p ∈ stats, Ismg.stat p.2 = p.1 := by decide
  cases hfind : stats.find? fun p => strncasecmp stat.text p.1 7 with
  | none =>
    have hunknown : ¬ Known stat := by
      rintro ⟨p, hp, h⟩
      exact List.find?_eq_none.mp hfind p hp h
    rw [if_neg hunknown, statusOf, hfind]
    rfl
  | some p =>
    have hp := List.mem_of_find?_eq_some hfind
    have h := List.find?_some hfind
    rw [if_pos ⟨p, hp, h⟩, statusOf, hfind, upper_of_strncasecmp hp h]
    exact htable p hp

theorem stat_same_iff (stat : CString 7) :
    Ismg.stat (statusOf stat.text) = stat.text ↔ stat.text ∈ stats.map Prod.fst := by
  rw [stat_statusOf]
  constructor
  · intro h
    split at h
    · next hknown =>
      obtain ⟨p, hp, hcmp⟩ := hknown
      rw [← h, upper_of_strncasecmp hp hcmp]
      exact List.mem_map_of_mem hp
    · rw [← h]
      decide
  · intro h
    obtain ⟨p, hp, heq⟩ := List.mem_map.mp h
    have hself : ∀ p ∈ stats, strncasecmp p.1 p.1 7 = true := by decide
    have hcmp : strncasecmp stat.text p.1 7 = true := heq ▸ hself p hp
    rw [if_pos ⟨p, hp, hcmp⟩, upper_of_strncasecmp hp hcmp, heq]

/-! ## What the client is told -/

/-- The client is told what the carrier has said. -/
structure SaysTheSame (pack : DeliverPacket) (rep : CmppReport) : Prop where
  stat : rep.stat = pack.report.stat.text
  phone : rep.phone = pack.srcTerminalId.text
  submitTime : rep.submitTime = pack.report.submitTime.text
  doneTime : rep.doneTime = pack.report.doneTime.text

theorem workReport_eq_some {caches : Sp.LambCaches} {r : LambReport} {packed assembled : Bool}
    {f : Report} (h : (Sp.workReport caches r packed assembled).2 = some f) :
    (Sp.lambGetCache caches r.id 21).Found ∧
      f = { id := (Sp.lambGetCache caches r.id 21).id
            account := (Sp.lambGetCache caches r.id 21).account
            company := (Sp.lambGetCache caches r.id 21).company
            spcode := (Sp.lambGetCache caches r.id 21).spcode
            phone := r.phone.text, status := r.status, submittime := r.submittime.text
            donetime := r.donetime.text } := by
  by_cases hfound : (Sp.lambGetCache caches r.id 21).Found
  · simp only [Sp.workReport, if_pos hfound] at h
    split at h
    · exact ⟨hfound, (Option.some.inj h).symm⟩
    · cases h
  · rw [Sp.workReport_of_not_found hfound] at h
    cases h

/-- The report that reaches the client names the message that is stored for the carrier's id, and
says what the carrier's packet says, with a state in capitals and eleven characters of the
number. -/
theorem reportBack_eq_some {get : CmppGetString} {caches : Sp.LambCaches} {sequenceId : UInt32}
    {pack : DeliverPacket} {rep : CmppReport}
    (h : reportBack get caches sequenceId pack = some rep) :
    (Sp.lambGetCache caches pack.report.msgId 21).Found ∧
      rep =
        { sequenceId := sequenceId
          msgId := (Sp.lambGetCache caches pack.report.msgId 21).id
          spcode := (cstr (Sp.lambGetCache caches pack.report.msgId 21).spcode).take 20
          stat := if Known pack.report.stat then pack.report.stat.text.map toUpper
            else ascii "UNKNOWN"
          submitTime := pack.report.submitTime.text
          doneTime := pack.report.doneTime.text
          phone := pack.srcTerminalId.text.take 11 } := by
  obtain ⟨f, hf, rfl⟩ := Option.map_eq_some_iff.mp h
  obtain ⟨hfound, rfl⟩ := workReport_eq_some hf
  refine ⟨hfound, ?_⟩
  have hstat : CmppGetString.text get pack.report.stat.text 7 = pack.report.stat.text := by
    rw [CmppGetString.text_eq, List.take_of_length_le pack.report.stat.length_le]
  rw [forwardReport_eq]
  simp only [reportRecord, strncpy_get get _ _ (Nat.le_refl _), hstat, stat_statusOf,
    CString.cstr_text, List.take_of_length_le pack.report.submitTime.length_le,
    List.take_of_length_le pack.report.doneTime.length_le]

/-- A report that reaches the client names the message stored for the carrier's id, and says the
same as the carrier's exactly if its state is one of the seven, in capitals, and its number has at
most eleven characters. -/
theorem reportBack_same_iff {get : CmppGetString} {caches : Sp.LambCaches} {sequenceId : UInt32}
    {pack : DeliverPacket} {rep : CmppReport}
    (h : reportBack get caches sequenceId pack = some rep) :
    rep.msgId = (Sp.lambGetCache caches pack.report.msgId 21).id ∧
      rep.spcode = (cstr (Sp.lambGetCache caches pack.report.msgId 21).spcode).take 20 ∧
      (SaysTheSame pack rep ↔
        pack.report.stat.text ∈ stats.map Prod.fst ∧ pack.srcTerminalId.text.length ≤ 11) := by
  obtain ⟨-, rfl⟩ := reportBack_eq_some h
  refine ⟨rfl, rfl, ?_⟩
  rw [← stat_same_iff, stat_statusOf, ← List.take_eq_self_iff]
  constructor
  · exact fun hsame => ⟨hsame.stat, hsame.phone⟩
  · exact fun hsame => ⟨hsame.1, hsame.2, rfl, rfl⟩

def deliveredReport (stat : Bytes) : DeliverPacket where
  sequenceId := 3
  msgId := 9
  destId := strncpy (ascii "1069") 21
  serviceId := strncpy [] 10
  msgfmt := 0
  srcTerminalId := strncpy (ascii "13800138000") 20
  registeredDelivery := 1
  content := []
  length_lt := by decide
  report := ⟨9, strncpy stat 7, strncpy (ascii "2601011200") 10, strncpy (ascii "2601011201") 10⟩

/-- A carrier that writes its states in small letters. -/
theorem reportBack_same_iff_small_letters :
    ∃ rep, reportBack .cut (Sp.lambSetCache (Sp.State.init 0).caches 9 7 1 1
        (strncpy (ascii "10690001") 20)) 4 (deliveredReport (ascii "Delivrd")) = some rep ∧
      rep.stat = ascii "DELIVRD" ∧ rep.msgId = 7 ∧
      (SaysTheSame (deliveredReport (ascii "Delivrd")) rep ↔
        (deliveredReport (ascii "Delivrd")).report.stat.text ∈ stats.map Prod.fst ∧
          (deliveredReport (ascii "Delivrd")).srcTerminalId.text.length ≤ 11) := by
  have hrun : reportBack .cut (Sp.lambSetCache (Sp.State.init 0).caches 9 7 1 1
      (strncpy (ascii "10690001") 20)) 4 (deliveredReport (ascii "Delivrd")) =
        some ⟨4, 7, ascii "10690001", ascii "DELIVRD", ascii "2601011200", ascii "2601011201",
          ascii "13800138000"⟩ := by
    decide +kernel
  exact ⟨_, hrun, rfl, rfl, (reportBack_same_iff hrun).2.2⟩

end LambGateway.Relay
