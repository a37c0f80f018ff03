import LambGateway.Message.Encoding

/-!
# The content array on its way

Every hop of a message copies its text into or out of the 160-byte content array of a queued
record. The copies of a client's message on its way up and of a subscriber's message on its way
down are listed with the bytes they move.
-/

namespace LambGateway

open Framework

structure Payload where
  length : Nat
  content : Bytes

/-- A queued record: the recorded length, and the bytes last copied into its content array. -/
structure Slot where
  length : Nat
  stored : Bytes

inductive ContentCopy where
  /-- So many bytes are moved into the array, next to the recorded length. -/
  | into (moved recorded : Nat)
  | outOf (moved : Nat)
  deriving DecidableEq

namespace ContentCopy

/-- The copy stays within the array, and the record does not promise more than it holds. -/
def Safe : ContentCopy → Prop
  | into moved recorded => moved ≤ 160 ∧ recorded ≤ moved
  | outOf moved => moved ≤ 160

instance (c : ContentCopy) : Decidable c.Safe :=
  match c with
  | into moved recorded => inferInstanceAs (Decidable (moved ≤ 160 ∧ recorded ≤ moved))
  | outOf moved => inferInstanceAs (Decidable (moved ≤ 160))

end ContentCopy

/-- A push loop: `length` is copied, `memcpy` moves `content.len` bytes. -/
def storeContent (p : Payload) : Slot := ⟨p.length, p.content⟩

def storeCopy (p : Payload) : ContentCopy := .into p.content.length p.length

/-- A pull loop: `content.len` is the recorded length. What it reads past the stored bytes is
left to `behind`. -/
def fetchContent (behind : Nat → UInt8) (s : Slot) : Payload :=
  ⟨s.length, s.stored.take s.length ++ (List.range (s.length - s.stored.length)).map behind⟩

def fetchCopy (s : Slot) : ContentCopy := .outOf s.length

theorem fetchContent_of_le {behind : Nat → UInt8} {s : Slot} (h : s.stored.length = s.length) :
    fetchContent behind s = ⟨s.length, s.stored⟩ := by
  have hrest : s.length - s.stored.length = 0 := by omega
  rw [fetchContent, hrest, List.take_of_length_le (Nat.le_of_eq h)]
  simp

/-! ## Up: client, mt, server, scheduler -/

namespace Server

/-- The conversion in `lamb_work_loop`; `none` where the message is turned away. -/
def convertContent (lib : IconvLibrary) (msgfmt : Int32) (p : Payload) : Option Payload :=
  match fromcodeOf msgfmt with
  | .unknown => none
  | .asIs => some p
  | .convert fromcode =>
    match lambEncodedConvert lib (p.content.take p.length) 512 fromcode .utf8 with
    | none => none
    | some out => if out.length < 1 then none else some ⟨out.length, out⟩

end Server

/-- A `CMPP_SUBMIT` that the client's session accepts. -/
structure AcceptedSubmit where
  msgfmt : Int32
  content : Bytes
  format_known : msgfmt ∈ ([0, 8, 11, 15] : List Int32)
  length_pos : 1 ≤ content.length
  length_le : content.length ≤ 159

/-- The copies of a message that no filter stops and that the scheduler takes: into the queue of
mt and out of it, into the gateway's queue, into the server's storage record, and out of the
gateway's queue. -/
def uplinkCopies (lib : IconvLibrary) (behind : Nat → UInt8) (m : AcceptedSubmit) :
    List ContentCopy :=
  let submitted : Payload := ⟨m.content.length, m.content⟩
  let queued := storeContent submitted
  let pulled := fetchContent behind queued
  storeCopy submitted :: fetchCopy queued ::
    match Server.convertContent lib m.msgfmt pulled with
    | none => []
    | some converted =>
      [storeCopy converted, storeCopy converted, fetchCopy (storeContent converted)]

/-! ## Down: carrier, sp, delivery, server, mo -/

/-- `cmpp_pack_get_string` on the content of a packet: an initial part of the field that fits
the buffer, and all of it if the buffer is longer. -/
structure CmppGetString where
  string : Bytes → Nat → Bytes
  initial : ∀ text size, string text size <+: text
  length_le : ∀ text size, (string text size).length ≤ size
  of_length_lt : ∀ text size, text.length < size → string text size = text

/-- An accessor that leaves room for a terminator. -/
def CmppGetString.cut : CmppGetString where
  string text size := text.take (size - 1)
  initial text size := List.take_prefix (size - 1) text
  length_le _ size := (List.length_take_le _ _).trans (Nat.sub_le size 1)
  of_length_lt _ _ h := List.take_of_length_le (Nat.le_sub_one_of_lt h)

/-- A `CMPP_DELIVER`: its one-byte `Msg_Length` announces the content. -/
structure CarrierDeliver where
  msgfmt : Int32
  content : Bytes
  length_lt : content.length < 256

/-- `lamb_deliver_loop` of sp stores what the accessor returns, and records `Msg_Length`. -/
def Sp.storeDeliver (get : CmppGetString) (m : CarrierDeliver) : Slot :=
  ⟨m.content.length, get.string m.content 160⟩

/-- `lamb_store_loop` of the server converts the content and writes it back. -/
def Server.storeLoopCopies (lib : IconvLibrary) (behind : Nat → UInt8) (msgfmt : Int32)
    (s : Slot) : List ContentCopy :=
  match fromcodeOf msgfmt with
  | .convert fromcode =>
    fetchCopy s ::
      match lambEncodedConvert lib (fetchContent behind s).content 512 fromcode .utf8 with
      | none => []
      | some out => if out.length < 1 then [] else [.into out.length out.length]
  | _ => []

/-- `lamb_write_deliver` of the delivery program converts out of the record. -/
def Delivery.writeDeliverCopies (msgfmt : Int32) (s : Slot) : List ContentCopy :=
  match fromcodeOf msgfmt with
  | .convert _ => [fetchCopy s]
  | _ => []

/-- The copies of a subscriber's message: in and out of sp, into delivery; if an account is
found, out of delivery, into the server's storage record and through mo, and the server's
conversion; otherwise the delivery program stores it itself. -/
def downlinkCopies (lib : IconvLibrary) (get : CmppGetString) (behind : Nat → UInt8)
    (routed : Bool) (m : CarrierDeliver) : List ContentCopy :=
  let received := Sp.storeDeliver get m
  let forwarded := fetchContent behind received
  let queued := storeContent forwarded
  let delivered := fetchContent behind queued
  .into received.stored.length received.length :: fetchCopy received :: storeCopy forwarded ::
    if routed then
      [fetchCopy queued, storeCopy delivered, storeCopy delivered,
        fetchCopy (storeContent delivered)] ++
      Server.storeLoopCopies lib behind m.msgfmt (storeContent delivered)
    else Delivery.writeDeliverCopies m.msgfmt queued

/-! ## When the copies are safe -/

/-- If the text is converted to UTF-8, what is converted takes at most 160 bytes there. -/
def Utf8Fits (lib : IconvLibrary) (msgfmt : Int32) (content : Bytes) : Prop :=
  ∀ fromcode, fromcodeOf msgfmt = .convert fromcode →
    (lib.knows .utf8 && lib.knows fromcode) = true →
      ((convertedChars lib fromcode content).map utf8Width).sum ≤ 160

theorem lambEncodedConvert_512 (lib : IconvLibrary) {msgfmt : Int32} {fromcode : Coding}
    (hfrom : fromcodeOf msgfmt = .convert fromcode) {src : Bytes} (hsrc : src.length < 256) :
    lambEncodedConvert lib src 512 fromcode .utf8 =
      if lib.knows .utf8 && lib.knows fromcode then
        some (encodeAll utf8Charset (convertedChars lib fromcode src))
      else none := by
  have hsize := convertedChars_size_le lib (ne_utf8_of_fromcodeOf hfrom) src
  exact lambEncodedConvert_utf8 lib (by omega)

theorem encodeAll_convertedChars_length (lib : IconvLibrary) (fromcode : Coding) (src : Bytes) :
    (encodeAll utf8Charset (convertedChars lib fromcode src)).length =
      ((convertedChars lib fromcode src).map utf8Width).sum :=
  encodeAll_utf8_length encode_of_mem_convertedChars

/-- The converted text fits the array exactly if its characters do. -/
theorem converted_le_iff (lib : IconvLibrary) {msgfmt : Int32} {fromcode : Coding}
    (hfrom : fromcodeOf msgfmt = .convert fromcode) {src : Bytes} (hsrc : src.length < 256) :
    (∀ out ∈ lambEncodedConvert lib src 512 fromcode .utf8, 0 < out.length → out.length ≤ 160) ↔
      Utf8Fits lib msgfmt src := by
  have hlen := encodeAll_convertedChars_length lib fromcode src
  rw [lambEncodedConvert_512 lib hfrom hsrc, Utf8Fits, hfrom]
  constructor
  · intro h f hf hknows
    cases hf
    rw [if_pos hknows] at h
    by_contra hsum
    have hout := h _ rfl (by omega)
    omega
  · intro h out hout hpos
    split at hout
    · next hknows =>
      cases hout
      have hsum := h fromcode rfl hknows
      omega
    · cases hout

theorem uplinkCopies_safe_iff (lib : IconvLibrary) (behind : Nat → UInt8) (m : AcceptedSubmit) :
    (∀ c ∈ uplinkCopies lib behind m, c.Safe) ↔ Utf8Fits lib m.msgfmt m.content := by
  have hlen := m.length_le
  have hfetch : fetchContent behind (storeContent ⟨m.content.length, m.content⟩) =
      ⟨m.content.length, m.content⟩ := fetchContent_of_le rfl
  have hstore : (storeCopy ⟨m.content.length, m.content⟩).Safe := by
    change m.content.length ≤ 160 ∧ m.content.length ≤ m.content.length
    omega
  have hqueued : (fetchCopy (storeContent ⟨m.content.length, m.content⟩)).Safe := by
    change m.content.length ≤ 160
    omega
  simp only [uplinkCopies, hfetch, List.forall_mem_cons, hstore, hqueued, true_and]
  cases hfrom : fromcodeOf m.msgfmt with
  | unknown => simp [Server.convertContent, hfrom, Utf8Fits]
  | asIs => simp [Server.convertContent, hfrom, Utf8Fits, hstore, hqueued]
  | convert fromcode =>
    rw [← converted_le_iff lib hfrom (by omega)]
    simp only [Server.convertContent, hfrom, List.take_length]
    cases lambEncodedConvert lib m.content 512 fromcode .utf8 with
    | none => simp
    | some out =>
      by_cases hout : out.length < 1
      · have hzero : ¬0 < out.length := by omega
        simp [hout, hzero]
      · have hpos : 0 < out.length := by omega
        simp [hout, hpos, storeCopy, fetchCopy, storeContent, ContentCopy.Safe]

/-- What the carrier's accessor leaves of the content is the content itself, or it is less than
the recorded length. -/
theorem storeDeliver_recorded_le_iff (get : CmppGetString) (m : CarrierDeliver) :
    m.content.length ≤ (get.string m.content 160).length ↔ get.string m.content 160 = m.content := by
  constructor
  · intro h
    exact (get.initial m.content 160).eq_of_length_le h
  · intro h
    rw [h]

theorem storeLoopCopies_safe_iff (lib : IconvLibrary) (behind : Nat → UInt8) (msgfmt : Int32)
    {content : Bytes} (hlen : content.length ≤ 160) :
    (∀ c ∈ Server.storeLoopCopies lib behind msgfmt ⟨content.length, content⟩, c.Safe) ↔
      Utf8Fits lib msgfmt content := by
  have hfetch : fetchContent behind ⟨content.length, content⟩ = ⟨content.length, content⟩ :=
    fetchContent_of_le rfl
  have hread : (fetchCopy ⟨content.length, content⟩).Safe := hlen
  rw [Server.storeLoopCopies]
  cases hfrom : fromcodeOf msgfmt with
  | unknown => simp [hfrom, Utf8Fits]
  | asIs => simp [hfrom, Utf8Fits]
  | convert fromcode =>
    rw [← converted_le_iff lib hfrom (by omega)]
    simp only [hfetch, List.forall_mem_cons, hread, true_and]
    cases lambEncodedConvert lib content 512 fromcode .utf8 with
    | none => simp
    | some out =>
      by_cases hout : out.length < 1
      · have hzero : ¬0 < out.length := by omega
        simp [hout, hzero]
      · have hpos : 0 < out.length := by omega
        simp [hout, hpos, ContentCopy.Safe]

theorem downlinkCopies_of_stored (lib : IconvLibrary) {get : CmppGetString}
    (behind : Nat → UInt8) (routed : Bool) {m : CarrierDeliver}
    (h : get.string m.content 160 = m.content) :
    let n := m.content.length
    downlinkCopies lib get behind routed m =
      [.into n n, .outOf n, .into n n] ++
        if routed then
          [.outOf n, .into n n, .into n n, .outOf n] ++
            Server.storeLoopCopies lib behind m.msgfmt ⟨n, m.content⟩
        else Delivery.writeDeliverCopies m.msgfmt ⟨n, m.content⟩ := by
  have hfetch : fetchContent behind ⟨m.content.length, m.content⟩ =
      ⟨m.content.length, m.content⟩ := fetchContent_of_le rfl
  simp only [downlinkCopies, Sp.storeDeliver, storeContent, storeCopy, fetchCopy, h, hfetch]
  rfl

theorem downlinkCopies_safe_iff (lib : IconvLibrary) (get : CmppGetString)
    (behind : Nat → UInt8) (routed : Bool) (m : CarrierDeliver) :
    (∀ c ∈ downlinkCopies lib get behind routed m, c.Safe) ↔
      get.string m.content 160 = m.content ∧
        (routed = true → Utf8Fits lib m.msgfmt m.content) := by
  by_cases hstored : get.string m.content 160 = m.content
  · have hlen : m.content.length ≤ 160 := hstored ▸ get.length_le m.content 160
    have hloop := storeLoopCopies_safe_iff lib behind m.msgfmt hlen
    rw [downlinkCopies_of_stored lib behind routed hstored]
    cases routed with
    | true =>
      simp only [List.forall_mem_append, if_true, hloop, hstored, true_and, forall_const]
      simp [ContentCopy.Safe, hlen]
    | false =>
      have hwrite : ∀ c ∈ Delivery.writeDeliverCopies m.msgfmt ⟨m.content.length, m.content⟩,
          c.Safe := by
        unfold Delivery.writeDeliverCopies
        split <;> simp [fetchCopy, ContentCopy.Safe, hlen]
      have hsp : ∀ c ∈ [ContentCopy.into m.content.length m.content.length,
          .outOf m.content.length, .into m.content.length m.content.length], c.Safe := by
        simp [ContentCopy.Safe, hlen]
      simp only [List.forall_mem_append, Bool.false_eq_true, if_false, hstored, false_implies,
        and_self, iff_true]
      exact ⟨hsp, hwrite⟩
  · constructor
    · intro h
      have hreceived := h _ List.mem_cons_self
      exact absurd ((storeDeliver_recorded_le_iff get m).mp hreceived.2) hstored
    · rintro ⟨h, -⟩
      exact absurd h hstored

/-- sp stores the content whole exactly if it is shorter than the array, or as long as the array
and the accessor fills it to the last byte. -/
theorem stored_whole_iff (get : CmppGetString) (m : CarrierDeliver) :
    get.string m.content 160 = m.content ↔
      m.content.length < 160 ∨
        m.content.length = 160 ∧ (get.string m.content 160).length = 160 := by
  constructor
  · intro h
    have hle := get.length_le m.content 160
    rw [h] at hle ⊢
    omega
  · rintro (h | ⟨h, hfull⟩)
    · exact get.of_length_lt m.content 160 h
    · exact (get.initial m.content 160).eq_of_length (by omega)

end LambGateway
