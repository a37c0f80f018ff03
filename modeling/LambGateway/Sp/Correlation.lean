import LambGateway.Framework.Decimal
import LambGateway.Framework.ShardedStore
import LambGateway.Framework.Transition
import LambGateway.Message.Records

/-!
# The correlation store of sp

An acknowledgement stores the message's own data under the id that the carrier gave it; a status
report looks the data up by that id, and sends them on in a `REPORT` frame.
-/

namespace LambGateway.Sp

open Framework

structure LambCaches where
  len : Nat
  len_pos : 0 < len
  nodes : Shards RedisHash

/-- What `lamb_set_cache` stores of a message and `lamb_get_cache` returns. -/
structure Correlation where
  id : UInt64
  account : Int32
  company : Int32
  spcode : Bytes
  deriving DecidableEq

/-- `lamb_set_cache`: `HMSET %llu id %llu account %d company %d spcode %s`. -/
def lambSetCache (caches : LambCaches) (msgId id : UInt64) (account company : Int32)
    (spcode : CString 20) : LambCaches :=
  let i := msgId.toNat % caches.len
  let key := decimal msgId.toNat
  { caches with
    nodes := caches.nodes.put i key (some (hmset (caches.nodes i key)
      [(ascii "id", decimal id.toNat), (ascii "account", decimalInt account.toInt),
        (ascii "company", decimalInt company.toInt), (ascii "spcode", spcode.text)])) }

/-- The outputs of `lamb_get_cache` for a reply, all of them zero before. A nil element has
length zero. -/
def readReply (reply : List (Option Bytes)) (size : Nat) : Correlation :=
  match reply.map (·.getD []) with
  | [id, account, company, spcode] =>
    { id := if 0 < id.length then strtoull id else 0
      account := if 0 < account.length then atoi account else 0
      company := if 0 < company.length then atoi company else 0
      spcode := if size ≤ spcode.length then spcode.take (size - 1) else spcode }
  | _ => ⟨0, 0, 0, []⟩

/-- `lamb_get_cache`: `HMGET %llu id account company spcode`. -/
def lambGetCache (caches : LambCaches) (id : UInt64) (size : Nat) : Correlation :=
  let i := id.toNat % caches.len
  let reply := hmget (caches.nodes i (decimal id.toNat))
    [ascii "id", ascii "account", ascii "company", ascii "spcode"]
  readReply reply size

/-- `lamb_del_cache`: `DEL %llu`. -/
def lambDelCache (caches : LambCaches) (msgId : UInt64) : LambCaches :=
  let i := msgId.toNat % caches.len
  { caches with nodes := caches.nodes.put i (decimal msgId.toNat) none }

/-! ## One map -/

def LambCaches.entries (caches : LambCaches) : UInt64 → Option RedisHash :=
  Shards.view (fun g => g.toNat % caches.len) (fun g => decimal g.toNat) caches.nodes

private theorem key_injective : Function.Injective fun g : UInt64 => decimal g.toNat :=
  fun _ _ h => UInt64.toNat_inj.mp (decimal_injective h)

@[simp] theorem entries_lambDelCache (caches : LambCaches) (g : UInt64) :
    (lambDelCache caches g).entries = Function.update caches.entries g none :=
  Shards.view_put key_injective caches.nodes g none

@[simp] theorem entries_lambSetCache (caches : LambCaches) (g id : UInt64)
    (account company : Int32) (spcode : CString 20) :
    (lambSetCache caches g id account company spcode).entries =
      Function.update caches.entries g (some (hmset (caches.entries g)
        [(ascii "id", decimal id.toNat), (ascii "account", decimalInt account.toInt),
          (ascii "company", decimalInt company.toInt), (ascii "spcode", spcode.text)])) :=
  Shards.view_put key_injective caches.nodes g _

theorem lambGetCache_eq (caches : LambCaches) (g : UInt64) (size : Nat) :
    lambGetCache caches g size = readReply (hmget (caches.entries g)
      [ascii "id", ascii "account", ascii "company", ascii "spcode"]) size :=
  rfl

theorem lambGetCache_of_none {caches : LambCaches} {g : UInt64} (h : caches.entries g = none)
    (size : Nat) : lambGetCache caches g size = ⟨0, 0, 0, []⟩ := by
  rw [lambGetCache_eq, h]
  simp [hmget, readReply]

private theorem hmget_hmset_fields (h : Option RedisHash) (id account company spcode : Bytes) :
    hmget (some (hmset h [(ascii "id", id), (ascii "account", account),
        (ascii "company", company), (ascii "spcode", spcode)]))
      [ascii "id", ascii "account", ascii "company", ascii "spcode"] =
      [some id, some account, some company, some spcode] := by
  have hnames : [ascii "id", ascii "account", ascii "company", ascii "spcode"].Nodup := by decide
  exact hmget_hmset h hnames

/-- What was stored is returned, whatever the hash held before, into a buffer that the code fits. -/
theorem lambGetCache_lambSetCache_of_le (caches : LambCaches) (g id : UInt64)
    (account company : Int32) (spcode : CString 20) {size : Nat} (hsize : 21 ≤ size) :
    lambGetCache (lambSetCache caches g id account company spcode) g size =
      ⟨id, account, company, spcode.text⟩ := by
  have hid : 0 < (decimal id.toNat).length := List.length_pos_iff.mpr (decimal_ne_nil _)
  have hspcode : ¬size ≤ spcode.text.length := by
    have h := spcode.length_le
    omega
  rw [lambGetCache_eq, entries_lambSetCache, Function.update_self, hmget_hmset_fields]
  simp only [readReply, List.map_cons, List.map_nil, Option.getD_some, hid, hspcode,
    decimalInt_length_pos, if_true, if_false, strtoull_decimal, atoi_decimalInt]

theorem lambGetCache_lambSetCache (caches : LambCaches) (g id : UInt64) (account company : Int32)
    (spcode : CString 20) :
    lambGetCache (lambSetCache caches g id account company spcode) g 21 =
      ⟨id, account, company, spcode.text⟩ :=
  lambGetCache_lambSetCache_of_le caches g id account company spcode le_rfl

/-! ## Runs -/

/-- The work loop goes on only with an entry of positive numbers. -/
def Correlation.Found (e : Correlation) : Prop := 0 < e.id ∧ 0 < e.account ∧ 0 < e.company

instance (e : Correlation) : Decidable e.Found :=
  inferInstanceAs (Decidable (0 < e.id ∧ 0 < e.account ∧ 0 < e.company))

/-- The report branch of `lamb_work_loop`: the store afterwards, and the message of the `REPORT`
frame, which is sent if the packet and the frame could be allocated. -/
def workReport (caches : LambCaches) (r : LambReport) (packed assembled : Bool) :
    LambCaches × Option Report :=
  let e := lambGetCache caches r.id 21
  if e.Found then
    (lambDelCache caches e.id,
      if packed && assembled then
        some { id := e.id, account := e.account, company := e.company, spcode := e.spcode,
               phone := r.phone.text, status := r.status, submittime := r.submittime.text,
               donetime := r.donetime.text }
      else none)
  else (caches, none)

inductive Action where
  /-- An accepted `CMPP_SUBMIT_RESP`: the carrier calls the confirmed message `msgId`. -/
  | ack (msgId id : UInt64) (account company : Int32) (spcode : CString 20)
  | report (r : LambReport) (packed assembled : Bool)

/-- The store, the number of the acknowledgement that made each entry, and the frames sent, each
with the number of the entry it came from. -/
structure State where
  caches : LambCaches
  stored : Nat
  origin : UInt64 → Option Nat
  frames : List (Option Nat × Report)

def State.init (n : Nat) : State where
  caches := ⟨n + 1, Nat.succ_pos n, fun _ _ => none⟩
  stored := 0
  origin _ := none
  frames := []

def step (s : State) : Action → Option State
  | .ack msgId id account company spcode => some
    { s with
      caches := lambSetCache s.caches msgId id account company spcode
      stored := s.stored + 1
      origin := Function.update s.origin msgId (some s.stored) }
  | .report r packed assembled =>
    let e := lambGetCache s.caches r.id 21
    let (caches, frame) := workReport s.caches r packed assembled
    some
      { s with
        caches := caches
        origin := if e.Found then Function.update s.origin e.id none else s.origin
        frames := s.frames ++ (frame.map fun f => (s.origin r.id, f)).toList }

theorem workReport_of_found {caches : LambCaches} {r : LambReport}
    (h : (lambGetCache caches r.id 21).Found) (packed assembled : Bool) :
    (workReport caches r packed assembled).1 =
      lambDelCache caches (lambGetCache caches r.id 21).id := by
  simp only [workReport, if_pos h]

theorem workReport_of_not_found {caches : LambCaches} {r : LambReport}
    (h : ¬(lambGetCache caches r.id 21).Found) (packed assembled : Bool) :
    workReport caches r packed assembled = (caches, none) := by
  simp only [workReport, if_neg h]

theorem step_report (s : State) (r : LambReport) (packed assembled : Bool) :
    step s (.report r packed assembled) = some
      { s with
        caches := (workReport s.caches r packed assembled).1
        origin := if (lambGetCache s.caches r.id 21).Found then
            Function.update s.origin (lambGetCache s.caches r.id 21).id none
          else s.origin
        frames := s.frames ++ ((workReport s.caches r packed assembled).2.map fun f =>
          (s.origin r.id, f)).toList } :=
  rfl

/-- A report that finds its entry removes exactly this entry. -/
def RemovesOwn (s : State) : Action → Prop
  | .ack .. => True
  | .report r packed assembled =>
    (lambGetCache s.caches r.id 21).Found →
      (workReport s.caches r packed assembled).1.entries =
        Function.update s.caches.entries r.id none

/-- The entry that a report finds is the one of a message whose own id is the carrier's. -/
def StoredUnderOwnId (s : State) : Action → Prop
  | .ack .. => True
  | .report r _ _ =>
    (lambGetCache s.caches r.id 21).Found → (lambGetCache s.caches r.id 21).id = r.id

theorem removesOwn_iff (s : State) (a : Action) : RemovesOwn s a ↔ StoredUnderOwnId s a := by
  cases a with
  | ack => exact Iff.rfl
  | report r packed assembled =>
    apply forall_congr'
    intro hfound
    rw [workReport_of_found hfound, entries_lambDelCache]
    constructor
    · intro h
      by_contra hne
      have hentry := congrFun h r.id
      rw [Function.update_self, Function.update_of_ne (Ne.symm hne)] at hentry
      rw [lambGetCache_of_none hentry] at hfound
      exact absurd hfound (by decide)
    · intro h
      rw [h]

/-- The numbers of the acknowledgements name the entries in the store, and no entry that a frame
came from is left there. -/
structure Inv (s : State) : Prop where
  origin_lt : ∀ {g t}, s.origin g = some t → t < s.stored
  origin_inj : ∀ {g h t}, s.origin g = some t → s.origin h = some t → g = h
  entry_origin : ∀ {g}, s.caches.entries g ≠ none → ∃ t, s.origin g = some t
  frame_origin : ∀ f ∈ s.frames, ∃ t, f.1 = some t ∧ t < s.stored ∧ ∀ g, s.origin g ≠ some t
  nodup : (s.frames.map Prod.fst).Nodup

theorem inv_init (n : Nat) : Inv (State.init n) where
  origin_lt h := by cases h
  origin_inj h := by cases h
  entry_origin h := absurd rfl h
  frame_origin _ h := by cases h
  nodup := List.nodup_nil

private theorem inv_ack {s : State} (hs : Inv s) (msgId id : UInt64) (account company : Int32)
    (spcode : CString 20) :
    Inv { s with
      caches := lambSetCache s.caches msgId id account company spcode
      stored := s.stored + 1
      origin := Function.update s.origin msgId (some s.stored) } where
  origin_lt := by
    intro g t h
    simp only [Function.update_apply] at h
    split at h
    · cases h
      exact Nat.lt_succ_self _
    · exact Nat.lt_succ_of_lt (hs.origin_lt h)
  origin_inj := by
    intro g h t hg hh
    simp only [Function.update_apply] at hg hh
    split at hg <;> split at hh
    · next hg' hh' => rw [hg', hh']
    · cases hg
      exact absurd (hs.origin_lt hh) (Nat.lt_irrefl _)
    · cases hh
      exact absurd (hs.origin_lt hg) (Nat.lt_irrefl _)
    · exact hs.origin_inj hg hh
  entry_origin := by
    intro g h
    simp only [Function.update_apply, entries_lambSetCache] at h ⊢
    split
    · exact ⟨s.stored, rfl⟩
    · next hg =>
      rw [if_neg hg] at h
      exact hs.entry_origin h
  frame_origin := by
    intro f hf
    obtain ⟨t, ht, hlt, hgone⟩ := hs.frame_origin f hf
    refine ⟨t, ht, Nat.lt_succ_of_lt hlt, fun g => ?_⟩
    simp only [Function.update_apply]
    split
    · intro h
      cases h
      exact absurd hlt (Nat.lt_irrefl _)
    · exact hgone g
  nodup := hs.nodup

/-- A report that finds the entry of its own id takes it out of the store, with its number. -/
private theorem inv_report {s : State} (hs : Inv s) {g : UInt64} {t : Nat}
    (hg : s.origin g = some t) (frame : Option Report) :
    Inv { s with
      caches := lambDelCache s.caches g
      origin := Function.update s.origin g none
      frames := s.frames ++ (frame.map fun f => (s.origin g, f)).toList } where
  origin_lt := by
    intro h u hu
    simp only [Function.update_apply] at hu
    split at hu
    · cases hu
    · exact hs.origin_lt hu
  origin_inj := by
    intro h k u hu hk
    simp only [Function.update_apply] at hu hk
    split at hu <;> split at hk
    · cases hu
    · cases hu
    · cases hk
    · exact hs.origin_inj hu hk
  entry_origin := by
    intro h hh
    simp only [Function.update_apply, entries_lambDelCache] at hh ⊢
    split
    · next heq => exact absurd (if_pos heq) hh
    · next hne =>
      rw [if_neg hne] at hh
      exact hs.entry_origin hh
  frame_origin := by
    intro f hf
    rcases List.mem_append.mp hf with hf | hf
    · obtain ⟨u, hu, hlt, hgone⟩ := hs.frame_origin f hf
      refine ⟨u, hu, hlt, fun h => ?_⟩
      simp only [Function.update_apply]
      split
      · simp
      · exact hgone h
    · obtain ⟨r, -, rfl⟩ : ∃ r, frame = some r ∧ (s.origin g, r) = f := by
        cases frame with
        | none => cases hf
        | some r => exact ⟨r, rfl, (List.mem_singleton.mp hf).symm⟩
      refine ⟨t, hg, hs.origin_lt hg, fun h => ?_⟩
      simp only [Function.update_apply]
      split
      · simp
      · next hne => exact fun hh => hne (hs.origin_inj hh hg)
  nodup := by
    cases frame with
    | none => simpa using hs.nodup
    | some r =>
      simp only [Option.map_some, Option.toList_some, List.map_append, List.map_cons, List.map_nil]
      rw [List.nodup_append]
      refine ⟨hs.nodup, by simp, ?_⟩
      intro a ha b hb hab
      obtain ⟨f, hf, rfl⟩ := List.mem_map.mp ha
      rw [List.mem_singleton.mp hb, hg] at hab
      obtain ⟨u, hu, -, hgone⟩ := hs.frame_origin f hf
      exact hgone g (by rw [hg, ← hab, hu])

theorem inv_step (s : State) (a : Action) (s' : State) (hs : Inv s) (hown : StoredUnderOwnId s a)
    (h : step s a = some s') : Inv s' := by
  cases a with
  | ack msgId id account company spcode =>
    cases h
    exact inv_ack hs msgId id account company spcode
  | report r packed assembled =>
    rw [step_report] at h
    obtain rfl := Option.some.inj h
    by_cases hfound : (lambGetCache s.caches r.id 21).Found
    · have hid := hown hfound
      have hentry : s.caches.entries r.id ≠ none := by
        intro hnone
        rw [lambGetCache_of_none hnone] at hfound
        exact absurd hfound (by decide)
      obtain ⟨t, ht⟩ := hs.entry_origin hentry
      rw [if_pos hfound, workReport_of_found hfound, hid]
      exact inv_report hs ht _
    · rw [if_neg hfound, workReport_of_not_found hfound]
      simpa using hs

/-- In every run of acknowledgements and reports from an empty store, each report that finds its
entry removes exactly this entry, and no two frames come from one entry. -/
def ReportsOnce (n : Nat) (as : List Action) : Prop :=
  Guarded step RemovesOwn (State.init n) as ∧
    ∀ s, exec step (State.init n) as = some s → (s.frames.map Prod.fst).Nodup

/-- The store is cleaned correctly in exactly the runs in which the carrier's id of every message
reported on is the message's own. -/
theorem reportsOnce_iff (n : Nat) (as : List Action) :
    ReportsOnce n as ↔ Guarded step StoredUnderOwnId (State.init n) as := by
  have hremove : Guarded step RemovesOwn (State.init n) as ↔ _ :=
    guarded_congr removesOwn_iff (State.init n) as
  rw [ReportsOnce, hremove]
  apply and_iff_left_of_imp
  intro hown s hs
  exact (exec_invariant_of_guarded inv_step (inv_init n) hown hs).nodup

/-- The carrier calls message 42 its message 7 and reports on it twice: two frames. -/
theorem repeated_report_not_reportsOnce : ¬ReportsOnce 6
    [.ack 7 42 1 1 ⟨ascii "1069", by decide, by decide⟩,
      .report ⟨0, 0, 7, ⟨ascii "1069", by decide, by decide⟩, ⟨[], by decide, by decide⟩, 1,
        ⟨[], by decide, by decide⟩, ⟨[], by decide, by decide⟩⟩ true true,
      .report ⟨0, 0, 7, ⟨ascii "1069", by decide, by decide⟩, ⟨[], by decide, by decide⟩, 1,
        ⟨[], by decide, by decide⟩, ⟨[], by decide, by decide⟩⟩ true true] := by
  intro h
  have hnodup := h.2 _ rfl
  revert hnodup
  decide

end LambGateway.Sp
