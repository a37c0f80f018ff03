import LambGateway.Sp.Confirmation

/-!
# The sender loop of sp

What `lamb_sender_loop` does with a message that it has unpacked: it fills the confirmed record,
converts the content and calls `cmpp_submit`. A message is accounted for if this call succeeds
or if the delivery server learns of the failure.
-/

namespace LambGateway.Sp.Sender

open Framework Confirmation

/-- `lamb_gateway_t`, as far as the programs use it here. -/
structure Gateway where
  spid : CString 7
  spcode : CString 20
  encoding : Int32
  extended : Bool

def Gateway.tocode (gateway : Gateway) : Coding :=
  if gateway.encoding = 0 then .ascii
  else if gateway.encoding = 8 then .ucs2be
  else if gateway.encoding = 11 then .utf8
  else .gbk

def Gateway.msgFmt (gateway : Gateway) : Int32 :=
  if gateway.encoding = 0 then 0
  else if gateway.encoding = 8 then 8
  else if gateway.encoding = 11 then 11
  else 15

/-- The source number that the carrier sees. -/
def Gateway.source (gateway : Gateway) (spcode : Bytes) : Bytes :=
  if gateway.extended then snprintf 21 (gateway.spcode.text ++ cstr spcode)
  else gateway.spcode.text

/-- The arguments of a `cmpp_submit`. -/
structure SubmitCall where
  sequenceId : UInt32
  spid : Bytes
  spcode : Bytes
  phone : Bytes
  content : Bytes
  msgFmt : Int32
  deriving DecidableEq

structure LambStatus where
  sub : UInt64
  timeo : UInt64
  err : UInt64
  deriving DecidableEq

/-- The loop's variables, the calls of `cmpp_submit`, each with whether it returned an error,
and the `REPORT`s sent to the delivery server. -/
structure State where
  confirmed : LambConfirmed
  status : LambStatus
  total : UInt64
  submit : UInt64
  calls : List (SubmitCall × Bool)
  delivery : List Report

/-- What `cmpp_sequence`, `cmpp_submit` and the wait for the acknowledgement return. -/
structure Outcome where
  sequenceId : UInt32
  submitErr : Bool
  timedOut : Bool

/-- The bytes that the conversion is given; `behind` is the memory behind the content. -/
def contentOf (behind : Bytes) (message : Submit) : Bytes :=
  (message.content ++ behind).take message.length.toNatClampNeg

def confirm (confirmed : LambConfirmed) (message : Submit) : LambConfirmed :=
  { confirmed with
    id := message.id
    spcode := strncpy message.spcode 20
    account := message.account
    company := message.company }

theorem correlation_confirm (confirmed : LambConfirmed) (message : Submit) :
    (confirm confirmed message).correlation =
      ⟨message.id, message.account, message.company, (cstr message.spcode).take 20⟩ :=
  rfl

/-- The conversion into the gateway's encoding, which must leave something. -/
def convertContent (lib : IconvLibrary) (gateway : Gateway) (text : Bytes) : Option Bytes :=
  match lambEncodedConvert lib text 256 .utf8 gateway.tocode with
  | none => none
  | some content => if content.length = 0 then none else some content

/-- The call of `cmpp_submit`; `none` where the loop goes on to the next message before it. -/
def submitCall (lib : IconvLibrary) (gateway : Gateway) (behind : Bytes) (sequenceId : UInt32)
    (message : Submit) : Option SubmitCall :=
  (convertContent lib gateway (contentOf behind message)).map fun content =>
    { sequenceId := sequenceId
      spid := gateway.spid.text
      spcode := gateway.source message.spcode
      phone := message.phone
      content := content
      msgFmt := gateway.msgFmt }

/-- One round of `lamb_sender_loop`, from the unpacked message on. -/
def lambSenderLoop (lib : IconvLibrary) (gateway : Gateway) (behind : Bytes) (s : State)
    (message : Submit) (o : Outcome) : State :=
  let confirmed := confirm s.confirmed message
  match submitCall lib gateway behind o.sequenceId message with
  | none => { s with confirmed := confirmed }
  | some call =>
    { s with
      confirmed := { confirmed with sequenceId := o.sequenceId }
      total := s.total + 1
      submit := s.submit + 1
      status :=
        { sub := s.status.sub + 1
          timeo := if !o.submitErr && o.timedOut then s.status.timeo + 1 else s.status.timeo
          err := if o.submitErr then s.status.err + 1 else s.status.err }
      calls := s.calls ++ [(call, o.submitErr)] }

/-! ## Accounted for -/

/-- `cmpp_submit` was called for the message and succeeded, or the delivery server is sent a
`REPORT` with another status than delivered. -/
def Accounted (message : Submit) (s t : State) : Prop :=
  (∃ call, t.calls = s.calls ++ [(call, false)] ∧ call.phone = message.phone) ∨
    ∃ r, t.delivery = s.delivery ++ [r] ∧ r.status ≠ 1 ∧ r.id = message.id ∧
      r.account = message.account ∧ r.company = message.company

/-- The codings are known, and the first character of the text has a counterpart in the
gateway's encoding. -/
def Convertible (lib : IconvLibrary) (gateway : Gateway) (text : Bytes) : Prop :=
  (lib.knows gateway.tocode && lib.knows .utf8) = true ∧
    firstConverts utf8Charset (lib.charset gateway.tocode) 256 text = true

instance (lib : IconvLibrary) (gateway : Gateway) (text : Bytes) :
    Decidable (Convertible lib gateway text) :=
  inferInstanceAs (Decidable (_ ∧ _))

theorem convertContent_eq_some_iff {lib : IconvLibrary} {gateway : Gateway} {text out : Bytes} :
    convertContent lib gateway text = some out ↔
      Convertible lib gateway text ∧
        out = (iconv utf8Charset (lib.charset gateway.tocode) text 256).output := by
  have hfirst := iconv_output_ne_nil_iff utf8Charset (charset_width lib gateway.tocode) 256 text
  rw [convertContent, lambEncodedConvert, IconvLibrary.iconvOpen, Convertible, ← hfirst]
  cases lib.knows gateway.tocode && lib.knows .utf8 with
  | false => simp
  | true =>
    change (if (iconv utf8Charset (lib.charset gateway.tocode) text 256).output.length = 0
      then none else some (iconv utf8Charset (lib.charset gateway.tocode) text 256).output) =
        some out ↔ _
    simp only [List.length_eq_zero_iff]
    split
    · next hnil => simp [hnil]
    · next hne => simp [hne, eq_comm]

theorem submitCall_isSome_iff (lib : IconvLibrary) (gateway : Gateway) (behind : Bytes)
    (sequenceId : UInt32) (message : Submit) :
    (submitCall lib gateway behind sequenceId message).isSome = true ↔
      Convertible lib gateway (contentOf behind message) := by
  rw [submitCall, Option.isSome_map, Option.isSome_iff_exists]
  constructor
  · rintro ⟨out, hout⟩
    exact (convertContent_eq_some_iff.mp hout).1
  · intro h
    exact ⟨_, convertContent_eq_some_iff.mpr ⟨h, rfl⟩⟩

theorem submitCall_phone {lib : IconvLibrary} {gateway : Gateway} {behind : Bytes}
    {sequenceId : UInt32} {message : Submit} {call : SubmitCall}
    (h : submitCall lib gateway behind sequenceId message = some call) :
    call.phone = message.phone := by
  obtain ⟨content, -, rfl⟩ := Option.map_eq_some_iff.mp h
  rfl

/-- The sender loop itself sends nothing to the delivery server. -/
theorem lambSenderLoop_delivery (lib : IconvLibrary) (gateway : Gateway) (behind : Bytes)
    (s : State) (message : Submit) (o : Outcome) :
    (lambSenderLoop lib gateway behind s message o).delivery = s.delivery := by
  unfold lambSenderLoop
  dsimp only
  split <;> rfl

theorem lambSenderLoop_calls (lib : IconvLibrary) (gateway : Gateway) (behind : Bytes)
    (s : State) (message : Submit) (o : Outcome) :
    (lambSenderLoop lib gateway behind s message o).calls =
      s.calls ++ ((submitCall lib gateway behind o.sequenceId message).map
        (·, o.submitErr)).toList := by
  unfold lambSenderLoop
  dsimp only
  cases submitCall lib gateway behind o.sequenceId message with
  | none => simp
  | some call => rfl

theorem accounted_iff_submitted (lib : IconvLibrary) (gateway : Gateway) (behind : Bytes)
    (s : State) (message : Submit) (o : Outcome) :
    Accounted message s (lambSenderLoop lib gateway behind s message o) ↔
      (submitCall lib gateway behind o.sequenceId message).isSome = true ∧
        o.submitErr = false := by
  have hcalls := lambSenderLoop_calls lib gateway behind s message o
  constructor
  · rintro (⟨call, hcall, -⟩ | ⟨r, hr, -⟩)
    · rw [hcalls, List.append_cancel_left_eq] at hcall
      cases h : submitCall lib gateway behind o.sequenceId message with
      | none => simp [h] at hcall
      | some c =>
        simp only [h, Option.map_some, Option.toList_some, List.cons.injEq, Prod.mk.injEq] at hcall
        exact ⟨rfl, hcall.1.2⟩
    · rw [lambSenderLoop_delivery] at hr
      simp at hr
  · rintro ⟨hsome, hok⟩
    obtain ⟨call, hcall⟩ := Option.isSome_iff_exists.mp hsome
    refine .inl ⟨call, ?_, submitCall_phone hcall⟩
    rw [hcalls, hcall, hok]
    rfl

/-- A message is accounted for exactly if its content begins with a character that the gateway's
encoding has, and `cmpp_submit` succeeds. -/
theorem accounted_iff (lib : IconvLibrary) (gateway : Gateway) (behind : Bytes) (s : State)
    (message : Submit) (o : Outcome) :
    Accounted message s (lambSenderLoop lib gateway behind s message o) ↔
      Convertible lib gateway (contentOf behind message) ∧ o.submitErr = false := by
  rw [accounted_iff_submitted, submitCall_isSome_iff]

/-- A Chinese text for a gateway that takes ASCII. -/
theorem chinese_not_accounted :
    let lib : IconvLibrary := ⟨⟨fun _ _ => none, fun _ => none, by simp⟩, fun _ => true⟩
    let gateway : Gateway := ⟨strncpy (ascii "901234") 7, strncpy (ascii "1069") 20, 0, false⟩
    let s : State := ⟨⟨0, 0, strncpy [] 20, 0, 0⟩, ⟨0, 0, 0⟩, 0, 0, [], []⟩
    let message : Submit := ⟨7, 1, 1, ascii "901234", ascii "1069", ascii "13800138000", 11, 3,
      [0xE4, 0xB8, 0xAD]⟩
    ¬Accounted message s (lambSenderLoop lib gateway [] s message ⟨1, false, false⟩) := by
  intro lib gateway s message
  rw [accounted_iff_submitted]
  decide

/-! ## Afterwards -/

/-- The store holds nothing of a message with this id. -/
def Unknown (id : UInt64) (caches : LambCaches) : Prop :=
  ∀ g, (lambGetCache caches g 21).Found → (lambGetCache caches g 21).id ≠ id

def AcksOther (id : UInt64) : Sp.Action → Prop
  | .ack _ stored _ _ _ => stored ≠ id
  | .report .. => True

theorem unknown_lambSetCache {id : UInt64} {caches : LambCaches} (h : Unknown id caches)
    (msgId : UInt64) {stored : UInt64} (hstored : stored ≠ id) (account company : Int32)
    (spcode : CString 20) : Unknown id (lambSetCache caches msgId stored account company spcode) := by
  intro g
  by_cases hg : g = msgId
  · rw [hg, lambGetCache_lambSetCache]
    exact fun _ => hstored
  · have hentry : (lambSetCache caches msgId stored account company spcode).entries g =
        caches.entries g := by
      rw [entries_lambSetCache, Function.update_of_ne hg]
    rw [lambGetCache_eq, hentry, ← lambGetCache_eq]
    exact h g

theorem unknown_lambDelCache {id : UInt64} {caches : LambCaches} (h : Unknown id caches)
    (msgId : UInt64) : Unknown id (lambDelCache caches msgId) := by
  intro g hfound
  have hentry : (lambDelCache caches msgId).entries g = if g = msgId then none
      else caches.entries g := by
    rw [entries_lambDelCache, Function.update_apply]
  by_cases hg : g = msgId
  · rw [if_pos hg] at hentry
    rw [lambGetCache_of_none hentry] at hfound
    exact absurd hfound (by decide)
  · rw [if_neg hg] at hentry
    rw [lambGetCache_eq, hentry, ← lambGetCache_eq] at hfound ⊢
    exact h g hfound

theorem workReport_unknown {id : UInt64} {caches : LambCaches} (h : Unknown id caches)
    (r : LambReport) (packed assembled : Bool) :
    Unknown id (workReport caches r packed assembled).1 ∧
      ∀ f ∈ (workReport caches r packed assembled).2, f.id ≠ id := by
  by_cases hfound : (lambGetCache caches r.id 21).Found
  · have hid := h r.id hfound
    rw [workReport_of_found hfound]
    refine ⟨unknown_lambDelCache h _, fun f hf => ?_⟩
    simp only [workReport, if_pos hfound] at hf
    split at hf
    · cases hf
      exact hid
    · cases hf
  · rw [workReport_of_not_found hfound]
    exact ⟨h, fun f hf => by cases hf⟩

theorem step_unknown {id : UInt64} {s u : Sp.State} {a : Sp.Action} (hs : Unknown id s.caches)
    (hack : AcksOther id a) (h : Sp.step s a = some u) :
    Unknown id u.caches ∧ ∀ f ∈ u.frames, f ∈ s.frames ∨ f.2.id ≠ id := by
  cases a with
  | ack msgId stored account company spcode =>
    obtain rfl := Option.some.inj h
    exact ⟨unknown_lambSetCache hs msgId hack account company spcode, fun f hf => .inl hf⟩
  | report r packed assembled =>
    obtain ⟨hunknown, hframe⟩ := workReport_unknown hs r packed assembled
    rw [Sp.step_report] at h
    obtain rfl := Option.some.inj h
    refine ⟨hunknown, fun f hf => ?_⟩
    rcases List.mem_append.mp hf with hf | hf
    · exact .inl hf
    · obtain ⟨r', hr', rfl⟩ : ∃ r', (workReport s.caches r packed assembled).2 = some r' ∧
          (s.origin r.id, r') = f := by
        simpa using hf
      exact .inr (hframe r' hr')

/-- The work loop does not make up for it: as long as no acknowledgement stores the message's
id, no `REPORT` with this id is sent. -/
theorem unacked_never_reported {id : UInt64} {s t : Sp.State} {as : List Sp.Action}
    (hs : Unknown id s.caches) (hacks : ∀ a ∈ as, AcksOther id a)
    (h : exec Sp.step s as = some t) : ∀ f ∈ t.frames, f ∈ s.frames ∨ f.2.id ≠ id := by
  induction as generalizing s with
  | nil =>
    cases h
    exact fun f hf => .inl hf
  | cons a as ih =>
    obtain ⟨u, hstep, hrest⟩ := exec_cons_eq_some.mp h
    obtain ⟨hack, hacks⟩ := List.forall_mem_cons.mp hacks
    obtain ⟨hunknown, hframes⟩ := step_unknown hs hack hstep
    intro f hf
    rcases ih hunknown hacks hrest f hf with hf | hf
    · exact hframes f hf
    · exact .inr hf

end LambGateway.Sp.Sender
