import LambGateway.Framework.Transition
import LambGateway.Message.Records
import Mathlib.Logic.Function.Basic

/-!
# The storage queue of the server

The work loop queues a message once the scheduler has taken it, the deliver loop queues a report
as soon as it comes in, and the store loop writes both to the database in the order of the
queue. What the database will hold is what is there, followed by what is queued.
-/

namespace LambGateway.Server.Storage

open Framework

/-- A row of the table `message`, as far as a report changes it. -/
structure Row where
  id : UInt64
  status : Int32
  deriving DecidableEq

inductive Record where
  | submit (m : LambSubmit)
  | report (r : LambReport)
  | deliver (d : LambDeliver)

/-- `INSERT INTO message`. -/
def lambWriteMessage (rows : List Row) (m : LambSubmit) : List Row := rows ++ [⟨m.id, 0⟩]

/-- `UPDATE message SET status = %d WHERE id = %lld`. -/
def lambWriteReport (rows : List Row) (r : LambReport) : List Row :=
  rows.map fun row => if row.id = r.id then { row with status := r.status } else row

/-- One record in `lamb_store_loop`. A subscriber's message goes to another table. -/
def write (rows : List Row) : Record → List Row
  | .submit m => lambWriteMessage rows m
  | .report r => lambWriteReport rows r
  | .deliver _ => rows

/-- The queue and the table; the message that the scheduler has taken and the work loop has not
yet queued; the messages that the work loop is done with; and the status of the last report
received for an id, 0 if there is none. -/
structure State where
  storage : List Record
  rows : List Row
  pending : Option LambSubmit
  acked : List UInt64
  last : UInt64 → Int32

def State.init : State where
  storage := []
  rows := []
  pending := none
  acked := []
  last _ := 0

inductive Action where
  /-- The scheduler answers `LAMB_OK`. -/
  | ack (m : LambSubmit)
  /-- The work loop queues the message, if it can allocate the record. -/
  | save (alloc : Bool)
  | report (r : LambReport) (alloc : Bool)
  | deliver (d : LambDeliver) (alloc : Bool)
  /-- The store loop takes the first record of the queue. -/
  | store

def push (storage : List Record) (r : Record) (alloc : Bool) : List Record :=
  if alloc then storage ++ [r] else storage

def step (s : State) : Action → Option State
  | .ack m =>
    match s.pending with
    | none => some { s with pending := some m }
    | some _ => none
  | .save alloc =>
    match s.pending with
    | none => none
    | some m => some
      { s with
        storage := push s.storage (.submit m) alloc
        pending := none
        acked := s.acked ++ [m.id] }
  | .report r alloc => some
    { s with
      storage := push s.storage (.report r) alloc
      last := Function.update s.last r.id r.status }
  | .deliver d alloc => some { s with storage := push s.storage (.deliver d) alloc }
  | .store =>
    match s.storage with
    | [] => none
    | r :: storage => some { s with storage := storage, rows := write s.rows r }

/-! ## The drained table -/

/-- The table once the store loop has written the whole queue. -/
def State.drained (s : State) : List Row := s.storage.foldl write s.rows

/-- There is a row with the id, and every such row has the status. -/
def StatusIs (rows : List Row) (id : UInt64) (status : Int32) : Prop :=
  (∃ row ∈ rows, row.id = id) ∧ ∀ row ∈ rows, row.id = id → row.status = status

/-- Every message that the scheduler has taken ends up with the status of its last report. -/
def LastStatus (s : State) : Prop := ∀ id ∈ s.acked, StatusIs s.drained id (s.last id)

/-- A message is queued before a report for it comes in whose status is not 0; if a record
cannot be allocated, the table already holds what it would bring. -/
def SavedInTime (s : State) : Action → Prop
  | .save alloc =>
    ∀ m, s.pending = some m → if alloc then s.last m.id = 0 else m.id ∈ s.acked
  | .report r alloc => alloc = true ∨ (r.id ∈ s.acked → r.status = s.last r.id)
  | _ => True

structure Inv (s : State) : Prop where
  acked : ∀ row ∈ s.drained, row.id ∈ s.acked
  status : LastStatus s

theorem inv_init : Inv State.init where
  acked _ h := by cases h
  status _ h := by cases h

theorem drained_push {storage : List Record} {rows : List Row} (r : Record) :
    (push storage r true).foldl write rows = write (storage.foldl write rows) r := by
  rw [push, if_pos rfl, List.foldl_append, List.foldl_cons, List.foldl_nil]

theorem drained_store {s t : State} (h : step s .store = some t) :
    t.drained = s.drained ∧ t.acked = s.acked ∧ t.last = s.last := by
  simp only [step] at h
  split at h
  · cases h
  · next r storage hstorage =>
    cases h
    refine ⟨?_, rfl, rfl⟩
    rw [State.drained, State.drained, hstorage, List.foldl_cons]

/-! ## What one record changes -/

theorem statusIs_writeMessage {rows : List Row} {m : LambSubmit} {id : UInt64} {status : Int32}
    (h : StatusIs rows id status) (hm : m.id = id → status = 0) :
    StatusIs (lambWriteMessage rows m) id status := by
  obtain ⟨⟨row, hrow, hid⟩, hall⟩ := h
  refine ⟨⟨row, List.mem_append_left _ hrow, hid⟩, fun row' hrow' hid' => ?_⟩
  rcases List.mem_append.mp hrow' with hrow' | hrow'
  · exact hall row' hrow' hid'
  · obtain rfl := List.mem_singleton.mp hrow'
    exact (hm hid').symm

theorem statusIs_new {rows : List Row} {m : LambSubmit}
    (h : ∀ row ∈ rows, row.id = m.id → row.status = 0) :
    StatusIs (lambWriteMessage rows m) m.id 0 := by
  refine ⟨⟨⟨m.id, 0⟩, List.mem_append_right _ (List.mem_singleton_self _), rfl⟩, ?_⟩
  intro row hrow hid
  rcases List.mem_append.mp hrow with hrow | hrow
  · exact h row hrow hid
  · obtain rfl := List.mem_singleton.mp hrow
    rfl

theorem mem_writeReport {rows : List Row} {r : LambReport} {row : Row}
    (h : row ∈ lambWriteReport rows r) :
    ∃ old ∈ rows, old.id = row.id ∧
      row.status = if old.id = r.id then r.status else old.status := by
  obtain ⟨old, hold, rfl⟩ := List.mem_map.mp h
  refine ⟨old, hold, ?_⟩
  split <;> exact ⟨rfl, rfl⟩

theorem statusIs_writeReport {rows : List Row} {r : LambReport} {id : UInt64} {status : Int32}
    (h : StatusIs rows id status) :
    StatusIs (lambWriteReport rows r) id (if id = r.id then r.status else status) := by
  obtain ⟨⟨row, hrow, hid⟩, hall⟩ := h
  constructor
  · refine ⟨_, List.mem_map.mpr ⟨row, hrow, rfl⟩, ?_⟩
    split <;> exact hid
  · intro row' hrow' hid'
    obtain ⟨old, hold, heq, hstatus⟩ := mem_writeReport hrow'
    rw [hid'] at heq
    rw [hstatus, heq, hall old hold heq]

theorem statusIs_unique {rows : List Row} {id : UInt64} {status status' : Int32}
    (h : StatusIs rows id status) (h' : StatusIs rows id status') : status = status' := by
  obtain ⟨⟨row, hrow, hid⟩, hall⟩ := h
  exact (hall row hrow hid).symm.trans (h'.2 row hrow hid)

/-! ## One step -/

/-- The state after the work loop is done with a message. -/
def State.saved (s : State) (m : LambSubmit) (alloc : Bool) : State :=
  { s with
    storage := push s.storage (.submit m) alloc, pending := none, acked := s.acked ++ [m.id] }

def State.reported (s : State) (r : LambReport) (alloc : Bool) : State :=
  { s with
    storage := push s.storage (.report r) alloc
    last := Function.update s.last r.id r.status }

theorem saved_drained (s : State) (m : LambSubmit) :
    (s.saved m true).drained = lambWriteMessage s.drained m :=
  drained_push (.submit m)

theorem reported_drained (s : State) (r : LambReport) :
    (s.reported r true).drained = lambWriteReport s.drained r :=
  drained_push (.report r)

/-- A step is one of these, or it leaves what the table will hold, and what it should, as it is. -/
theorem step_cases {s t : State} {a : Action} (h : step s a = some t) :
    (∃ m alloc, a = .save alloc ∧ s.pending = some m ∧ t = s.saved m alloc) ∨
      (∃ r alloc, a = .report r alloc ∧ t = s.reported r alloc) ∨
      SavedInTime s a ∧ t.drained = s.drained ∧ t.acked = s.acked ∧ t.last = s.last := by
  cases a with
  | ack m =>
    simp only [step] at h
    split at h <;> cases h
    exact .inr (.inr ⟨trivial, rfl, rfl, rfl⟩)
  | save alloc =>
    simp only [step] at h
    split at h
    · cases h
    · next m hm =>
      cases h
      exact .inl ⟨m, alloc, rfl, hm, rfl⟩
  | report r alloc =>
    cases h
    exact .inr (.inl ⟨r, alloc, rfl, rfl⟩)
  | deliver d alloc =>
    obtain rfl := Option.some.inj h
    refine .inr (.inr ⟨trivial, ?_, rfl, rfl⟩)
    cases alloc with
    | true => exact drained_push (.deliver d)
    | false => rfl
  | store => exact .inr (.inr ⟨trivial, drained_store h⟩)

theorem saved_lastStatus_iff {s : State} (hs : Inv s) (m : LambSubmit) (alloc : Bool) :
    LastStatus (s.saved m alloc) ↔ if alloc then s.last m.id = 0 else m.id ∈ s.acked := by
  have hmem : m.id ∈ (s.saved m alloc).acked :=
    List.mem_append_right _ (List.mem_singleton_self _)
  cases alloc with
  | true =>
    rw [if_pos rfl]
    constructor
    · intro h
      have hrow : (⟨m.id, 0⟩ : Row) ∈ (s.saved m true).drained := by
        rw [saved_drained]
        exact List.mem_append_right _ (List.mem_singleton_self _)
      exact ((h m.id hmem).2 _ hrow rfl).symm
    · intro hzero id hid
      rw [saved_drained]
      rcases List.mem_append.mp hid with hid | hid
      · exact statusIs_writeMessage (hs.status id hid) fun heq => heq ▸ hzero
      · obtain rfl := List.mem_singleton.mp hid
        change StatusIs _ m.id (s.last m.id)
        rw [hzero]
        apply statusIs_new
        intro row hrow heq
        have hstatus := hs.status row.id (hs.acked row hrow)
        rw [hstatus.2 row hrow rfl, heq, hzero]
  | false =>
    rw [if_neg Bool.false_ne_true]
    constructor
    · intro h
      obtain ⟨⟨row, hrow, heq⟩, -⟩ := h m.id hmem
      exact heq ▸ hs.acked row hrow
    · intro hold id hid
      rcases List.mem_append.mp hid with hid | hid
      · exact hs.status id hid
      · obtain rfl := List.mem_singleton.mp hid
        exact hs.status m.id hold

theorem reported_lastStatus_iff {s : State} (hs : Inv s) (r : LambReport) (alloc : Bool) :
    LastStatus (s.reported r alloc) ↔
      (alloc = true ∨ (r.id ∈ s.acked → r.status = s.last r.id)) := by
  have hlast (id : UInt64) : (s.reported r alloc).last id =
      if id = r.id then r.status else s.last id :=
    Function.update_apply ..
  cases alloc with
  | true =>
    refine iff_of_true ?_ (.inl rfl)
    intro id hid
    rw [reported_drained, hlast]
    exact statusIs_writeReport (hs.status id hid)
  | false =>
    constructor
    · intro h
      refine .inr fun hid => ?_
      have hnew := h r.id hid
      rw [hlast, if_pos rfl] at hnew
      exact statusIs_unique hnew (hs.status r.id hid)
    · rintro (htrue | hsame) id hid
      · cases htrue
      · have hold := hs.status id hid
        rw [hlast]
        split
        · next heq =>
          subst heq
          rw [hsame hid]
          exact hold
        · exact hold

theorem lastStatus_step_iff {s : State} (hs : Inv s) (a : Action) :
    (∀ t, step s a = some t → LastStatus t) ↔ SavedInTime s a := by
  constructor
  · intro h
    cases a with
    | save alloc =>
      intro m hm
      apply (saved_lastStatus_iff hs m alloc).mp
      apply h
      rw [step, hm]
      rfl
    | report r alloc => exact (reported_lastStatus_iff hs r alloc).mp (h _ rfl)
    | ack | deliver | store => trivial
  · intro hsaved t ht
    rcases step_cases ht with ⟨m, alloc, rfl, hm, rfl⟩ | ⟨r, alloc, rfl, rfl⟩ | ⟨-, hd, ha, hl⟩
    · exact (saved_lastStatus_iff hs m alloc).mpr (hsaved m hm)
    · exact (reported_lastStatus_iff hs r alloc).mpr hsaved
    · intro id hid
      rw [hd, hl]
      exact hs.status id (ha ▸ hid)

theorem inv_step {s t : State} {a : Action} (hs : Inv s) (ht : step s a = some t)
    (hstatus : LastStatus t) : Inv t := by
  refine ⟨fun row hrow => ?_, hstatus⟩
  rcases step_cases ht with ⟨m, alloc, rfl, -, rfl⟩ | ⟨r, alloc, rfl, rfl⟩ | ⟨-, hd, ha, -⟩
  · cases alloc with
    | true =>
      rw [saved_drained] at hrow
      rcases List.mem_append.mp hrow with hrow | hrow
      · exact List.mem_append_left _ (hs.acked row hrow)
      · obtain rfl := List.mem_singleton.mp hrow
        exact List.mem_append_right _ (List.mem_singleton_self _)
    | false => exact List.mem_append_left _ (hs.acked row hrow)
  · cases alloc with
    | true =>
      rw [reported_drained] at hrow
      obtain ⟨old, hold, heq, -⟩ := mem_writeReport hrow
      exact heq ▸ hs.acked old hold
    | false => exact hs.acked row hrow
  · rw [ha]
    exact hs.acked row (hd ▸ hrow)

/-! ## Runs -/

/-- In all states of a run the drained table has, for every message that the scheduler has taken,
a row with the status of the last report, if and only if every message is queued before a report
for it comes in whose status is not 0, and no record is lost that would change something. -/
theorem last_status_iff (as : List Action) :
    (∀ bs, bs <+: as → ∀ t, exec step State.init bs = some t → LastStatus t) ↔
      Guarded step SavedInTime State.init as := by
  apply forall_states_iff_guarded_of_invariant inv_step
  · exact fun hs _ a => lastStatus_step_iff hs a
  · exact inv_init
  · exact inv_init.status

/-- The receipt comes in between the scheduler's answer and the queueing of the message: it is
written first and changes nothing, and the message stays at status 0. -/
theorem receipt_overtakes :
    let m : LambSubmit :=
      { id := 7, account := 1, company := 1, spid := strncpy [] 7, spcode := strncpy [] 20,
        phone := strncpy [] 20, msgfmt := 11, content := Content.ofBytes [] }
    let r : LambReport :=
      { account := 1, company := 1, id := 7, spcode := strncpy [] 20, phone := strncpy [] 20,
        status := 1, submittime := strncpy [] 10, donetime := strncpy [] 10 }
    ∃ t, exec step State.init [.ack m, .report r true, .save true, .store, .store] = some t ∧
      t.storage = [] ∧ t.acked = [7] ∧ t.last 7 = 1 ∧ t.rows = [⟨7, 0⟩] ∧ ¬LastStatus t := by
  intro m r
  refine ⟨_, rfl, rfl, rfl, rfl, rfl, fun h => ?_⟩
  have hstatus := (h 7 (List.mem_singleton_self _)).2 ⟨7, 0⟩ (List.mem_singleton_self _) rfl
  exact absurd hstatus (by decide)

end LambGateway.Server.Storage
