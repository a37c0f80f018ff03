import LambGateway.Message.Encoding
import LambGateway.Sp.Correlation

/-!
# The confirmed record of sp

The sender loop fills one record field by field, submits the message to the carrier and waits.
The deliver loop reads the record when an acknowledgement with the record's sequence number
comes in, and stores what it finds there under the carrier's id.
-/

namespace LambGateway.Sp.Confirmation

open Framework

structure LambConfirmed where
  account : Int32
  company : Int32
  spcode : CString 20
  sequenceId : UInt32
  id : UInt64

/-- Where the sender loop stands with the message it has pulled. -/
inductive Phase where
  | idle
  | pulled (m : LambSubmit)
  | idAssigned (m : LambSubmit)
  | spcodeAssigned (m : LambSubmit)
  | accountAssigned (m : LambSubmit)
  | companyAssigned (m : LambSubmit)
  /-- The content is converted; the sequence number comes next. -/
  | converted (m : LambSubmit)
  /-- The sequence number is renewed; `cmpp_submit` comes next. -/
  | numbered (m : LambSubmit)
  | waiting

/-- The loops' state, with the messages passed to `cmpp_submit` and the calls of
`lamb_set_cache`, each with its sequence number. `stale` holds from the first assignment of a
message's field to the renewal of the sequence number. -/
structure State where
  confirmed : LambConfirmed
  phase : Phase
  used : List UInt32
  stale : Bool
  submitted : List (UInt32 × LambSubmit)
  cached : List (UInt32 × Correlation)

inductive Action where
  | pull (m : LambSubmit)
  | assignId
  | assignSpcode
  | assignAccount
  | assignCompany
  | convert
  /-- `confirmed.sequenceId = cmpp_sequence()`. -/
  | renew (sequenceId : UInt32)
  | submit (err : Bool)
  | resume
  /-- The deliver loop processes a `CMPP_SUBMIT_RESP`. -/
  | submitResp (sequenceId : UInt32) (result : UInt32)

/-- The content handed to `cmpp_submit`, if the conversion leaves any. -/
def convertedContent (lib : IconvLibrary) (tocode : Coding) (m : LambSubmit) : Option Bytes :=
  match lambEncodedConvert lib m.content.bytes 256 .utf8 tocode with
  | none => none
  | some out => if out.length = 0 then none else some out

def LambConfirmed.correlation (c : LambConfirmed) : Correlation :=
  ⟨c.id, c.account, c.company, c.spcode.text⟩

def correlationOf (m : LambSubmit) : Correlation := ⟨m.id, m.account, m.company, m.spcode.text⟩

def State.init : State where
  confirmed := ⟨0, 0, strncpy [] 20, 0, 0⟩
  phase := .idle
  used := []
  stale := false
  submitted := []
  cached := []

/-- The steps of `lamb_sender_loop`, in the order in which it takes them, and the processing of
an acknowledgement by `lamb_deliver_loop`. `cmpp_sequence` returns a number it has not returned
before; the carrier acknowledges what was submitted, when and as often as it likes. -/
def step (lib : IconvLibrary) (tocode : Coding) (s : State) : Action → Option State
  | .pull m =>
    match s.phase with
    | .idle => some { s with phase := .pulled m }
    | _ => none
  | .assignId =>
    match s.phase with
    | .pulled m => some
      { s with confirmed.id := m.id, stale := true, phase := .idAssigned m }
    | _ => none
  | .assignSpcode =>
    match s.phase with
    | .idAssigned m => some
      { s with
        confirmed.spcode := strncpy m.spcode.text 20, stale := true, phase := .spcodeAssigned m }
    | _ => none
  | .assignAccount =>
    match s.phase with
    | .spcodeAssigned m => some
      { s with confirmed.account := m.account, stale := true, phase := .accountAssigned m }
    | _ => none
  | .assignCompany =>
    match s.phase with
    | .accountAssigned m => some
      { s with confirmed.company := m.company, stale := true, phase := .companyAssigned m }
    | _ => none
  | .convert =>
    match s.phase with
    | .companyAssigned m => some
      { s with phase := if (convertedContent lib tocode m).isSome then .converted m else .idle }
    | _ => none
  | .renew sequenceId =>
    match s.phase with
    | .converted m =>
      if sequenceId ∈ s.used then none
      else some
        { s with
          confirmed.sequenceId := sequenceId
          used := sequenceId :: s.used
          stale := false
          phase := .numbered m }
    | _ => none
  | .submit err =>
    match s.phase with
    | .numbered m => some
      { s with
        submitted := s.submitted ++ [(s.confirmed.sequenceId, m)]
        phase := if err then .idle else .waiting }
    | _ => none
  | .resume =>
    match s.phase with
    | .waiting => some { s with phase := .idle }
    | _ => none
  | .submitResp sequenceId result =>
    if sequenceId ∈ s.submitted.map Prod.fst then
      if s.confirmed.sequenceId ≠ sequenceId then some s
      else if result ≠ 0 then some s
      else some { s with cached := s.cached ++ [(sequenceId, s.confirmed.correlation)] }
    else none

/-! ## What the store receives -/

/-- An acknowledgement that is accepted comes while no field of a later message is assigned. -/
def AckedInTime (s : State) : Action → Prop
  | .submitResp sequenceId result =>
    s.confirmed.sequenceId = sequenceId → result = 0 → s.stale = false
  | _ => True

instance AckedInTime.decidable (s : State) : (a : Action) → Decidable (AckedInTime s a)
  | .submitResp sequenceId result =>
    inferInstanceAs (Decidable (s.confirmed.sequenceId = sequenceId → result = 0 →
      s.stale = false))
  | .pull _ | .assignId | .assignSpcode | .assignAccount | .assignCompany | .convert | .renew _
  | .submit _ | .resume => isTrue trivial

/-- No two messages are submitted under one number, and what is stored for a number are the data
of the message submitted under it. -/
def StoresSubmitted (s : State) : Prop :=
  (s.submitted.map Prod.fst).Nodup ∧
    ∀ p ∈ s.cached, ∃ m, (p.1, m) ∈ s.submitted ∧ p.2 = correlationOf m

/-- The fields assigned so far are those of the message at hand. -/
def Phase.Filled : Phase → LambConfirmed → Prop
  | idAssigned m, c => c.id = m.id
  | spcodeAssigned m, c => c.id = m.id ∧ c.spcode.text = m.spcode.text
  | accountAssigned m, c =>
    c.id = m.id ∧ c.spcode.text = m.spcode.text ∧ c.account = m.account
  | companyAssigned m, c | converted m, c | numbered m, c => c.correlation = correlationOf m
  | _, _ => True

structure Inv (s : State) : Prop where
  filled : s.phase.Filled s.confirmed
  used : ∀ p ∈ s.submitted, p.1 ∈ s.used
  numbered : ∀ m, s.phase = .numbered m →
    s.confirmed.sequenceId ∈ s.used ∧ ∀ p ∈ s.submitted, p.1 ≠ s.confirmed.sequenceId
  current : s.stale = false → ∀ p ∈ s.submitted, p.1 = s.confirmed.sequenceId →
    s.confirmed.correlation = correlationOf p.2
  stores : StoresSubmitted s

theorem inv_init : Inv State.init where
  filled := trivial
  used _ h := by cases h
  numbered _ h := by cases h
  current _ _ h := by cases h
  stores := ⟨List.nodup_nil, fun _ h => by cases h⟩

private theorem inv_assign {s : State} (hs : Inv s) {c : LambConfirmed} {phase : Phase}
    (hfilled : phase.Filled c) (hphase : ∀ m, phase ≠ .numbered m) :
    Inv { s with confirmed := c, stale := true, phase := phase } where
  filled := hfilled
  used := hs.used
  numbered m h := absurd h (hphase m)
  current h := by cases h
  stores := hs.stores

private theorem inv_advance {s : State} (hs : Inv s) {phase : Phase}
    (hfilled : phase.Filled s.confirmed) (hphase : ∀ m, phase ≠ .numbered m) :
    Inv { s with phase := phase } where
  filled := hfilled
  used := hs.used
  numbered m h := absurd h (hphase m)
  current := hs.current
  stores := hs.stores

private theorem inv_renew {s : State} (hs : Inv s) {m : LambSubmit} (hm : s.phase = .converted m)
    {sequenceId : UInt32} (hfresh : sequenceId ∉ s.used) :
    Inv { s with
      confirmed.sequenceId := sequenceId
      used := sequenceId :: s.used
      stale := false
      phase := .numbered m } where
  filled := by
    have h := hs.filled
    rw [hm] at h
    exact h
  used p hp := List.mem_cons_of_mem _ (hs.used p hp)
  numbered _ _ := by
    refine ⟨List.mem_cons_self, fun p hp h => ?_⟩
    have h : p.1 = sequenceId := h
    exact hfresh (h ▸ hs.used p hp)
  current _ p hp h := by
    have h : p.1 = sequenceId := h
    exact absurd (h ▸ hs.used p hp) hfresh
  stores := hs.stores

private theorem inv_submit {s : State} (hs : Inv s) {m : LambSubmit} (hm : s.phase = .numbered m)
    {phase : Phase} (hphase : ∀ c, phase.Filled c) (hnot : ∀ m, phase ≠ .numbered m) :
    Inv { s with
      submitted := s.submitted ++ [(s.confirmed.sequenceId, m)]
      phase := phase } where
  filled := hphase s.confirmed
  used p hp := by
    rcases List.mem_append.mp hp with hp | hp
    · exact hs.used p hp
    · rw [List.mem_singleton.mp hp]
      exact (hs.numbered m hm).1
  numbered m h := absurd h (hnot m)
  current hstale p hp h := by
    rcases List.mem_append.mp hp with hp | hp
    · exact hs.current hstale p hp h
    · have hfilled := hs.filled
      rw [hm] at hfilled
      rw [List.mem_singleton.mp hp]
      exact hfilled
  stores := by
    obtain ⟨hnodup, hcached⟩ := hs.stores
    constructor
    · rw [List.map_append, List.nodup_append]
      refine ⟨hnodup, by simp, ?_⟩
      intro a ha b hb
      obtain ⟨p, hp, rfl⟩ := List.mem_map.mp ha
      rw [List.mem_singleton.mp hb]
      exact (hs.numbered m hm).2 p hp
    · intro p hp
      obtain ⟨n, hn, heq⟩ := hcached p hp
      exact ⟨n, List.mem_append_left _ hn, heq⟩

private theorem inv_submitResp {s : State} (hs : Inv s) {sequenceId : UInt32}
    (hmem : sequenceId ∈ s.submitted.map Prod.fst) (heq : s.confirmed.sequenceId = sequenceId)
    (hstale : s.stale = false) :
    Inv { s with cached := s.cached ++ [(sequenceId, s.confirmed.correlation)] } where
  filled := hs.filled
  used := hs.used
  numbered := hs.numbered
  current := hs.current
  stores := by
    refine ⟨hs.stores.1, fun p hp => ?_⟩
    rcases List.mem_append.mp hp with hp | hp
    · exact hs.stores.2 p hp
    · obtain ⟨q, hq, rfl⟩ := List.mem_map.mp hmem
      rw [List.mem_singleton.mp hp]
      exact ⟨q.2, hq, hs.current hstale q hq heq.symm⟩

theorem inv_step (lib : IconvLibrary) (tocode : Coding) (s : State) (a : Action) (s' : State)
    (hs : Inv s) (hacked : AckedInTime s a) (h : step lib tocode s a = some s') : Inv s' := by
  have hfilled := hs.filled
  cases a with
  | pull m =>
    simp only [step] at h
    split at h <;> cases h
    exact inv_advance hs trivial (by simp)
  | assignId =>
    simp only [step] at h
    split at h <;> cases h
    exact inv_assign hs rfl (by simp)
  | assignSpcode =>
    simp only [step] at h
    split at h <;> cases h
    next m hm =>
    rw [hm] at hfilled
    exact inv_assign hs ⟨hfilled, strncpy_text m.spcode.length_le m.spcode.no_nul⟩ (by simp)
  | assignAccount =>
    simp only [step] at h
    split at h <;> cases h
    next m hm =>
    rw [hm] at hfilled
    exact inv_assign hs ⟨hfilled.1, hfilled.2, rfl⟩ (by simp)
  | assignCompany =>
    simp only [step] at h
    split at h <;> cases h
    next m hm =>
    rw [hm] at hfilled
    obtain ⟨hid, hspcode, haccount⟩ := hfilled
    refine inv_assign hs ?_ (by simp)
    simp only [Phase.Filled, LambConfirmed.correlation, correlationOf, hid, hspcode, haccount]
  | convert =>
    simp only [step] at h
    split at h <;> cases h
    next m hm =>
    rw [hm] at hfilled
    split
    · exact inv_advance hs hfilled (by simp)
    · exact inv_advance hs trivial (by simp)
  | renew sequenceId =>
    simp only [step] at h
    split at h
    · next m hm =>
      split at h
      · cases h
      · next hfresh =>
        cases h
        exact inv_renew hs hm hfresh
    · cases h
  | submit err =>
    simp only [step] at h
    split at h <;> cases h
    next m hm =>
    cases err with
    | true => exact inv_submit hs hm (fun _ => trivial) (by simp)
    | false => exact inv_submit hs hm (fun _ => trivial) (by simp)
  | resume =>
    simp only [step] at h
    split at h <;> cases h
    exact inv_advance hs trivial (by simp)
  | submitResp sequenceId result =>
    simp only [step] at h
    split at h
    · next hmem =>
      split at h
      · cases h
        exact hs
      · next heq =>
        split at h
        · cases h
          exact hs
        · next hresult =>
          cases h
          have heq := not_not.mp heq
          exact inv_submitResp hs hmem heq (hacked heq (not_not.mp hresult))
    · cases h

/-- If every accepted acknowledgement comes before the sender loop has turned to another
message, each call of `lamb_set_cache` stores the data of the message that was submitted under
the acknowledged number. -/
theorem ackedInTime_storesSubmitted (lib : IconvLibrary) (tocode : Coding) {as : List Action}
    {s : State} (hacked : Guarded (step lib tocode) AckedInTime State.init as)
    (h : exec (step lib tocode) State.init as = some s) : StoresSubmitted s :=
  (exec_invariant_of_guarded (inv_step lib tocode) inv_init hacked h).stores

/-- An `iconv` that knows every coding but has an empty double-byte table. -/
private def plainLibrary : IconvLibrary :=
  ⟨⟨fun _ _ => none, fun _ => none, by simp⟩, fun _ => true⟩

private def message (id : UInt64) (account : Int32) : LambSubmit where
  id := id
  account := account
  company := 1
  spid := strncpy (ascii "901234") 7
  spcode := strncpy (ascii "1069") 20
  phone := strncpy (ascii "13800138000") 20
  msgfmt := 11
  content := ⟨ascii "hello", by decide⟩

private def send (m : LambSubmit) (sequenceId : UInt32) : List Action :=
  [.pull m, .assignId, .assignSpcode, .assignAccount, .assignCompany, .convert,
    .renew sequenceId, .submit false]

private def twoMessages : List Action :=
  send (message 1 1) 1 ++ [.submitResp 1 0, .resume] ++ send (message 2 2) 2 ++ [.submitResp 2 0]

theorem ackedInTime_storesSubmitted_two_messages : ∃ s,
    exec (step plainLibrary .ascii) State.init twoMessages = some s ∧ s.cached.length = 2 ∧
      StoresSubmitted s :=
  ⟨_, rfl, rfl, ackedInTime_storesSubmitted plainLibrary .ascii
    (show Guarded _ AckedInTime State.init twoMessages by decide) rfl⟩

/-- The acknowledgement of the first message comes after its wait has expired and the second
message's fields have been assigned. -/
theorem late_ack_not_storesSubmitted : ¬∀ (as : List Action) (s : State),
    exec (step plainLibrary .ascii) State.init as = some s → StoresSubmitted s := by
  intro h
  have hstores := h (send (message 1 1) 1 ++ [.resume, .pull (message 2 2), .assignId,
    .assignSpcode, .assignAccount, .assignCompany, .submitResp 1 0]) _ rfl
  obtain ⟨m, hm, heq⟩ := hstores.2 _ List.mem_cons_self
  rw [show m = message 1 1 from (Prod.mk.inj (List.mem_singleton.mp hm)).2] at heq
  revert heq
  decide

end LambGateway.Sp.Confirmation
