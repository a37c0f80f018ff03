import LambGateway.Content.Copies
import LambGateway.QueueServer.Push
import LambGateway.Server.WorkLoop
import LambGateway.Sp.Sender
import Mathlib.Data.List.TakeDrop

/-!
# A client's message on its way to the carrier

ismg, mt, server, scheduler and sp each copy the message into a record or a packet of their own.
Here the copies are put together, from the client's packet to the call of `cmpp_submit` and the
record that sp keeps for the acknowledgement.
-/

namespace LambGateway.Relay

open Framework QueueServer Sp.Sender

/-- `cmpp_pack_get_string` on a text field, into a buffer with room for `len` bytes and a
terminator. -/
def CmppGetString.text (get : CmppGetString) (field : Bytes) (len : Nat) : Bytes :=
  get.string (field.take len) (len + 1)

theorem CmppGetString.text_eq (get : CmppGetString) (field : Bytes) (len : Nat) :
    CmppGetString.text get field len = field.take len := by
  apply get.of_length_lt
  have h := List.length_take_le len field
  omega

/-- A `CMPP_SUBMIT` that ismg accepts. -/
structure CmppSubmit extends AcceptedSubmit where
  destTerminalId : CString 20
  srcId : CString 20

/-- `lamb_work_loop` of ismg: the message for mt. -/
def Ismg.lambWorkLoop (get : CmppGetString) (account : LambAccount) (msgId : UInt64)
    (pack : CmppSubmit) : Submit where
  id := msgId
  account := account.id
  company := account.company
  spid := account.username.text
  spcode := CmppGetString.text get pack.srcId.text 20
  phone := CmppGetString.text get pack.destTerminalId.text 20
  msgfmt := pack.msgfmt
  length := Int32.ofNat pack.content.length
  content := get.string pack.content 160

/-- What the programs on the way are set up with, and what their calls return. `routed` says
whether the scheduler finds a gateway with room for a message. -/
structure Way where
  get : CmppGetString
  account : LambAccount
  env : Server.Env
  alloc : Server.Allocation
  routed : LambSubmit → Bool
  iconv : IconvLibrary
  gateway : Gateway
  behind : Bytes
  confirmed : Sp.Confirmation.LambConfirmed
  sequenceId : UInt32

/-- The call of `cmpp_submit` for a client's message, and what sp then keeps for the
acknowledgement; `none` if the message is stopped before. -/
def uplink (way : Way) (msgId : UInt64) (pack : CmppSubmit) :
    Option (SubmitCall × Sp.Correlation) :=
  let queued := Mt.lambPushLoop (Ismg.lambWorkLoop way.get way.account msgId pack)
  match Server.passChecks way.env way.alloc (packSubmit queued) with
  | .error _ => none
  | .ok message =>
    let scheduled := Scheduler.lambPushLoop message
    if way.routed scheduled then
      let message := packSubmit scheduled
      (submitCall way.iconv way.gateway way.behind way.sequenceId message).map
        (·, (confirm way.confirmed message).correlation)
    else none

/-- The destination is the client's, and the cached fields are those that ismg has set. -/
structure Faithful (account : LambAccount) (msgId : UInt64) (pack : CmppSubmit)
    (call : SubmitCall) (cached : Sp.Correlation) : Prop where
  destination : call.phone = pack.destTerminalId.text
  cached : cached = ⟨msgId, account.id, account.company, pack.srcId.text⟩

/-! ## The copies put together -/

theorem ismg_phone (get : CmppGetString) (account : LambAccount) (msgId : UInt64)
    (pack : CmppSubmit) :
    (Ismg.lambWorkLoop get account msgId pack).phone = pack.destTerminalId.text := by
  have hlen := pack.destTerminalId.length_le
  change CmppGetString.text get pack.destTerminalId.text 20 = pack.destTerminalId.text
  rw [CmppGetString.text_eq, List.take_of_length_le hlen]

theorem ismg_spcode (get : CmppGetString) (account : LambAccount) (msgId : UInt64)
    (pack : CmppSubmit) :
    (Ismg.lambWorkLoop get account msgId pack).spcode = pack.srcId.text := by
  have hlen := pack.srcId.length_le
  change CmppGetString.text get pack.srcId.text 20 = pack.srcId.text
  rw [CmppGetString.text_eq, List.take_of_length_le hlen]

/-- Two queues cut a number no shorter than one does. -/
theorem phone_through_queues (m : Submit) (msgfmt length : Int32) (content : Bytes) :
    (packSubmit (Scheduler.lambPushLoop
      { packSubmit (Mt.lambPushLoop m) with
        msgfmt := msgfmt, length := length, content := content })).phone =
      (cstr m.phone).take 11 := by
  change (cstr ((cstr m.phone).take 11)).take 11 = (cstr m.phone).take 11
  rw [cstr_take_cstr, List.take_take, Nat.min_self]

theorem spcode_through_queues (m : Submit) (msgfmt length : Int32) (content : Bytes) :
    (packSubmit (Scheduler.lambPushLoop
      { packSubmit (Mt.lambPushLoop m) with
        msgfmt := msgfmt, length := length, content := content })).spcode =
      (cstr m.spcode).take 20 := by
  change (cstr ((cstr m.spcode).take 20)).take 20 = (cstr m.spcode).take 20
  rw [cstr_take_cstr, List.take_take, Nat.min_self]

/-- Of the destination eleven characters arrive, and everything else arrives as it is. -/
theorem uplink_eq_some {way : Way} {msgId : UInt64} {pack : CmppSubmit} {call : SubmitCall}
    {cached : Sp.Correlation} (h : uplink way msgId pack = some (call, cached)) :
    call.phone = pack.destTerminalId.text.take 11 ∧
      cached = ⟨msgId, way.account.id, way.account.company, pack.srcId.text⟩ := by
  unfold uplink at h
  dsimp only at h
  split at h
  · cases h
  · next message hchecks =>
    obtain ⟨msgfmt, length, content, rfl⟩ :=
      Server.convert_eq_ok (Server.passChecks_eq_ok hchecks)
    split at h
    · obtain ⟨c, hcall, heq⟩ := Option.map_eq_some_iff.mp h
      obtain ⟨rfl, rfl⟩ := Prod.mk.inj heq
      constructor
      · rw [submitCall_phone hcall, phone_through_queues, ismg_phone,
          CString.cstr_text]
      · have hspcode := spcode_through_queues (Ismg.lambWorkLoop way.get way.account msgId pack)
          msgfmt length content
        rw [ismg_spcode, CString.cstr_text, List.take_of_length_le pack.srcId.length_le] at hspcode
        rw [correlation_confirm, hspcode, CString.cstr_text,
          List.take_of_length_le pack.srcId.length_le]
        rfl
    · cases h

/-- For a message that reaches the carrier, destination and cached fields are the client's exactly
if the destination has at most eleven characters. -/
theorem uplink_faithful_iff {way : Way} {msgId : UInt64} {pack : CmppSubmit} {call : SubmitCall}
    {cached : Sp.Correlation} (h : uplink way msgId pack = some (call, cached)) :
    Faithful way.account msgId pack call cached ↔ pack.destTerminalId.text.length ≤ 11 := by
  obtain ⟨hphone, hcached⟩ := uplink_eq_some h
  constructor
  · intro hfaithful
    have hwhole : pack.destTerminalId.text.take 11 = pack.destTerminalId.text :=
      hphone.symm.trans hfaithful.destination
    exact (List.take_eq_self_iff _).mp hwhole
  · intro hlen
    exact ⟨hphone.trans (List.take_of_length_le hlen), hcached⟩

theorem no_double_byte (_ _ : UInt8) (c : Nat) : (none : Option Nat) = some c → c < 0x10000 :=
  nofun

/-- The iconv of the examples: all codings, and no double byte. -/
def plainIconv : IconvLibrary :=
  ⟨⟨fun _ _ => none, fun _ => none, @no_double_byte⟩, fun _ => true⟩

/-- An account without options, and everything on the way succeeds. -/
def openWay : Way where
  get := ⟨fun text size => text.take size, fun _ _ => List.take_prefix _ _,
    fun _ _ => List.length_take_le _ _, fun _ _ h => List.take_of_length_le (Nat.le_of_lt h)⟩
  account := ⟨1, strncpy (ascii "901234") 7, strncpy (ascii "1069") 20, 1⟩
  env := ⟨1, 1, 0, fun _ => false, fun _ => false, fun _ => false, plainIconv, [], [],
    fun _ _ => false, []⟩
  alloc := ⟨true, true, true, true, true, true⟩
  routed _ := true
  iconv := plainIconv
  gateway := ⟨strncpy (ascii "901234") 7, strncpy (ascii "1069") 20, 11, false⟩
  behind := []
  confirmed := ⟨0, 0, strncpy [] 20, 0, 0⟩
  sequenceId := 1

def hiTo (dest : Bytes) : CmppSubmit where
  msgfmt := 11
  content := ascii "hi"
  format_known := by decide
  length_pos := by decide
  length_le := by decide
  destTerminalId := strncpy dest 20
  srcId := strncpy (ascii "10690001") 20

theorem uplink_faithful_iff_eleven_digits :
    Faithful openWay.account 7 (hiTo (ascii "13800138000"))
      ⟨1, ascii "901234", ascii "1069", ascii "13800138000", ascii "hi", 11⟩
      ⟨7, 1, 1, ascii "10690001"⟩ ↔
      (hiTo (ascii "13800138000")).destTerminalId.text.length ≤ 11 := by
  have hrun : uplink openWay 7 (hiTo (ascii "13800138000")) =
      some (⟨1, ascii "901234", ascii "1069", ascii "13800138000", ascii "hi", 11⟩,
        ⟨7, 1, 1, ascii "10690001"⟩) := by
    decide
  exact uplink_faithful_iff hrun

/-- A number with the country code loses its last two digits. -/
theorem country_code_cut :
    ∃ call cached, uplink openWay 7 (hiTo (ascii "8613800138000")) = some (call, cached) ∧
      call.phone = ascii "86138001380" ∧
      ¬Faithful openWay.account 7 (hiTo (ascii "8613800138000")) call cached := by
  refine ⟨⟨1, ascii "901234", ascii "1069", ascii "86138001380", ascii "hi", 11⟩,
    ⟨7, 1, 1, ascii "10690001"⟩, by decide, rfl, fun h => ?_⟩
  exact absurd h.destination (by decide)

end LambGateway.Relay
