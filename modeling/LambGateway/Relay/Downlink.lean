import LambGateway.Relay.Uplink

/-!
# A subscriber's reply on its way to the client

sp, delivery, server and mo each copy the reply. sp derives the extension behind the gateway's
own code, delivery finds the account, and the server puts the account's code in front of the
extension it is given. What ismg takes from mo is followed back to the carrier's packet.
-/

namespace LambGateway.Relay

open Framework QueueServer Sp.Sender

/-- A `CMPP_DELIVER` that is not a report. `Msg_Length` is the length of the content. -/
structure CmppDeliver where
  msgId : UInt64
  srcTerminalId : CString 20
  destId : CString 21
  serviceId : CString 10
  msgfmt : Int32
  content : Bytes
  length_le : content.length ≤ 159

/-- The record that `lamb_deliver_loop` of sp stores. -/
def Sp.lambDeliverLoop (get : CmppGetString) (pack : CmppDeliver) : LambDeliver where
  account := 0
  company := 0
  id := pack.msgId
  phone := strncpy (CmppGetString.text get pack.srcTerminalId.text 20) 20
  spcode := strncpy (CmppGetString.text get pack.destId.text 20) 20
  serviceid := strncpy (CmppGetString.text get pack.serviceId.text 10) 10
  msgfmt := pack.msgfmt
  content := Content.ofBytes (get.string pack.content 160)

/-- `lamb_work_loop` of sp: the extension is what follows as many characters as the gateway's
code has. -/
def Sp.lambWorkLoop (gateway : Gateway) (d : LambDeliver) : Deliver :=
  { packDeliver d with
    account := 0
    company := 0
    serviceid :=
      if gateway.spcode.text.length < d.spcode.text.length then
        d.spcode.text.drop gateway.spcode.text.length
      else [] }

def Delivery.lambCheckDelivery (pcre : Bytes → Bytes → Bool) (d : LambDelivery) (spcode : Bytes) :
    Bool :=
  pcre d.rexp.text spcode

/-- The account that the delivery program finds, 0 if there is none. -/
def Delivery.target (pcre : Bytes → Bytes → Bool) (delivery : List LambDelivery)
    (spcode : Bytes) : Int32 :=
  ((delivery.find? (Delivery.lambCheckDelivery pcre · spcode)).map LambDelivery.target).getD 0

/-- `lamb_deliver_loop` of the server: the packet for mo. `serviceid` is never set there. -/
def Server.lambDeliverLoop (account : LambAccount) (dpack : Deliver) : Deliver :=
  { dpack with
    account := account.id
    company := account.company
    spcode := snprintf 21 (account.spcode.text ++ cstr dpack.serviceid)
    serviceid := [] }

/-- What the programs on the way are set up with. The server of the account `i` has loaded
`accounts i`. -/
structure WayBack where
  get : CmppGetString
  gateway : Gateway
  pcre : Bytes → Bytes → Bool
  delivery : List LambDelivery
  accounts : Int32 → LambAccount

/-- The routed account and what ismg takes from mo for it; `none` if no account is found. -/
def downlink (way : WayBack) (pack : CmppDeliver) : Option (LambAccount × Deliver) :=
  let forwarded := Sp.lambWorkLoop way.gateway (Sp.lambDeliverLoop way.get pack)
  let queued := Delivery.lambPushLoop forwarded
  let target := Delivery.target way.pcre way.delivery queued.spcode.text
  if 0 < target then
    let account := way.accounts target
    let delivered := Server.lambDeliverLoop account (packDeliver queued)
    some (account, packDeliver (Mo.lambPushLoop delivered))
  else none

/-- What the subscriber has put behind the gateway's code. -/
def WayBack.extension (way : WayBack) (pack : CmppDeliver) : Bytes :=
  pack.destId.text.drop way.gateway.spcode.text.length

/-- No field is lost: the extension stands behind the account's code. -/
structure Complete (way : WayBack) (pack : CmppDeliver) (account : LambAccount) (d : Deliver) :
    Prop where
  id : d.id = pack.msgId
  phone : d.phone = pack.srcTerminalId.text
  msgfmt : d.msgfmt = pack.msgfmt
  content : d.content = pack.content
  spcode : d.spcode = (account.spcode.text ++ way.extension pack).take 20

/-! ## The copies put together -/

theorem sp_phone (get : CmppGetString) (pack : CmppDeliver) :
    (Sp.lambDeliverLoop get pack).phone.text = pack.srcTerminalId.text := by
  have hlen := pack.srcTerminalId.length_le
  change (strncpy (CmppGetString.text get pack.srcTerminalId.text 20) 20).text = _
  rw [CmppGetString.text_eq, List.take_of_length_le hlen, strncpy_cstring,
    List.take_of_length_le hlen]

theorem sp_content (get : CmppGetString) (pack : CmppDeliver) :
    (Sp.lambDeliverLoop get pack).content.bytes = pack.content := by
  have hlen := pack.length_le
  change (Content.ofBytes (get.string pack.content 160)).bytes = pack.content
  rw [get.of_length_lt pack.content 160 (by omega), Content.ofBytes_bytes (by omega)]

/-- What is left of a reply behind sp: delivery's and mo's bounds, and the account's code alone. -/
theorem deliver_through_queues (account : LambAccount) (m : Deliver) :
    packDeliver (Mo.lambPushLoop (Server.lambDeliverLoop account
        (packDeliver (Delivery.lambPushLoop m)))) =
      { m with
        account := account.id
        company := account.company
        phone := (cstr m.phone).take 11
        spcode := account.spcode.text
        serviceid := []
        length := Int32.ofNat (m.content.take 160).length
        content := m.content.take 160 } := by
  have hphone : (cstr ((cstr m.phone).take 11)).take 11 = (cstr m.phone).take 11 := by
    rw [cstr_take_cstr, List.take_take, Nat.min_self]
  have hcontent : (m.content.take 160).take 160 = m.content.take 160 := by
    rw [List.take_take, Nat.min_self]
  have hlen := account.spcode.length_le
  have hspcode : (cstr (snprintf 21 (account.spcode.text ++ cstr []))).take 20 =
      account.spcode.text := by
    rw [show cstr [] = [] from rfl, List.append_nil, snprintf_of_length_lt (by omega),
      CString.cstr_text, List.take_of_length_le hlen]
  rw [packDeliver_mo, packDeliver_delivery]
  simp only [Server.lambDeliverLoop, hphone, hcontent, hspcode]
  rfl

/-- Of the number eleven characters arrive, of the extension nothing. -/
theorem downlink_eq_some {way : WayBack} {pack : CmppDeliver} {account : LambAccount}
    {d : Deliver} (h : downlink way pack = some (account, d)) :
    d.id = pack.msgId ∧ d.phone = pack.srcTerminalId.text.take 11 ∧ d.msgfmt = pack.msgfmt ∧
      d.content = pack.content ∧ d.spcode = account.spcode.text := by
  unfold downlink at h
  dsimp only at h
  split at h
  · obtain ⟨rfl, rfl⟩ := Prod.mk.inj (Option.some.inj h)
    have hlen := pack.length_le
    rw [deliver_through_queues]
    refine ⟨rfl, ?_, rfl, ?_, rfl⟩
    · change (cstr (Sp.lambDeliverLoop way.get pack).phone.text).take 11 = _
      rw [CString.cstr_text, sp_phone]
    · change (Sp.lambDeliverLoop way.get pack).content.bytes.take 160 = pack.content
      rw [sp_content, List.take_of_length_le (by omega)]
  · cases h

theorem append_take_eq_left_iff {account ext : Bytes} (h : account.length ≤ 20) :
    account = (account ++ ext).take 20 ↔ ext = [] ∨ account.length = 20 := by
  rw [List.take_append, List.take_of_length_le h, List.self_eq_append_right,
    List.take_eq_nil_iff]
  constructor
  · rintro (hfull | hext)
    · exact .inr (by omega)
    · exact .inl hext
  · rintro (hext | hfull)
    · exact .inr hext
    · exact .inl (by omega)

/-- A reply to the gateway's code and an extension reaches the client complete exactly if its
source number has at most eleven characters and there is no extension, or no room for one behind
the account's code. -/
theorem downlink_complete_iff {way : WayBack} {pack : CmppDeliver} {ext : Bytes}
    (hdest : pack.destId.text = way.gateway.spcode.text ++ ext) {account : LambAccount}
    {d : Deliver} (h : downlink way pack = some (account, d)) :
    Complete way pack account d ↔
      pack.srcTerminalId.text.length ≤ 11 ∧ (ext = [] ∨ account.spcode.text.length = 20) := by
  have hext : way.extension pack = ext := by
    rw [WayBack.extension, hdest, List.drop_left]
  obtain ⟨hid, hphone, hmsgfmt, hcontent, hspcode⟩ := downlink_eq_some h
  rw [← append_take_eq_left_iff account.spcode.length_le, ← hext]
  constructor
  · intro hcomplete
    have hwhole := hphone.symm.trans hcomplete.phone
    exact ⟨(List.take_eq_self_iff _).mp hwhole, hspcode.symm.trans hcomplete.spcode⟩
  · rintro ⟨hlen, hcode⟩
    exact ⟨hid, hphone.trans (List.take_of_length_le hlen), hmsgfmt, hcontent,
      hspcode.trans hcode⟩

/-- A gateway with the code 1069 whose replies all go to account 1 with the code 10690001. -/
def openWayBack : WayBack where
  get := openWay.get
  gateway := openWay.gateway
  pcre _ _ := true
  delivery := [⟨1, strncpy (ascii "^1069") 127, 1⟩]
  accounts i := ⟨i, strncpy (ascii "901234") 7, strncpy (ascii "10690001") 20, 1⟩

def replyTo (dest : Bytes) : CmppDeliver where
  msgId := 7
  srcTerminalId := strncpy (ascii "13800138000") 20
  destId := strncpy dest 21
  serviceId := strncpy [] 10
  msgfmt := 0
  content := ascii "ok"
  length_le := by decide

theorem downlink_complete_iff_no_extension :
    Complete openWayBack (replyTo (ascii "1069")) (openWayBack.accounts 1)
        ⟨7, 1, 1, ascii "13800138000", ascii "10690001", [], 0, 2, ascii "ok"⟩ ↔
      (replyTo (ascii "1069")).srcTerminalId.text.length ≤ 11 ∧
        (([] : Bytes) = [] ∨ (openWayBack.accounts 1).spcode.text.length = 20) := by
  have hdest : (replyTo (ascii "1069")).destId.text =
      openWayBack.gateway.spcode.text ++ [] := by
    decide
  have hrun : downlink openWayBack (replyTo (ascii "1069")) = some (openWayBack.accounts 1,
      ⟨7, 1, 1, ascii "13800138000", ascii "10690001", [], 0, 2, ascii "ok"⟩) :=
    rfl
  exact downlink_complete_iff hdest hrun

/-- The extension 88 is gone when the reply reaches the client. -/
theorem extension_lost :
    ∃ d, downlink openWayBack (replyTo (ascii "106988")) = some (openWayBack.accounts 1, d) ∧
      openWayBack.extension (replyTo (ascii "106988")) = ascii "88" ∧
      d.spcode = ascii "10690001" ∧
      ¬Complete openWayBack (replyTo (ascii "106988")) (openWayBack.accounts 1) d := by
  refine ⟨⟨7, 1, 1, ascii "13800138000", ascii "10690001", [], 0, 2, ascii "ok"⟩, rfl, by decide,
    rfl, fun h => ?_⟩
  exact absurd h.spcode (by decide)

end LambGateway.Relay
