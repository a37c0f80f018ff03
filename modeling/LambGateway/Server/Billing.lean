import LambGateway.Framework.Transition
import LambGateway.Message.Records
import Mathlib.Algebra.Ring.Int.Defs

/-!
# Billing in the server

The work loop queues a charge when the scheduler takes a message, the deliver loop queues a
refund for every report that is not a delivery, and the billing loop adds the queued entries to
the company's balance.
-/

namespace LambGateway.Server.Billing

open Framework

/-- `lamb_bill_t`: a company and the change of its balance. -/
structure LambBill where
  id : Int32
  money : Int
  deriving DecidableEq

/-- The billing queue and the company's balance; every entry ever queued, with the message it is
on account of; the messages acknowledged, and the last report received for each. -/
structure State where
  billing : List LambBill
  balance : Int
  ledger : List (UInt64 × Int)
  acked : List UInt64
  last : UInt64 → Option Int32

def State.init (balance : Int) : State := ⟨[], balance, [], [], fun _ => none⟩

inductive Action where
  /-- The scheduler answers `LAMB_OK` for the message. -/
  | ok (id : UInt64) (allocated : Bool)
  /-- The delivery server hands over a report. -/
  | report (r : Report) (allocated : Bool)
  /-- The billing loop takes an entry off the queue; a failed command is only logged. -/
  | bill (executed : Bool)

def push (s : State) (company : Int32) (id : UInt64) (money : Int) (allocated : Bool) : State :=
  if allocated then
    { s with billing := s.billing ++ [⟨company, money⟩], ledger := s.ledger ++ [(id, money)] }
  else s

/-- The scheduler acknowledges each message at most once. -/
def step (company : Int32) (s : State) : Action → Option State
  | .ok id allocated =>
    if id ∈ s.acked then none
    else some { push s company id (-1) allocated with acked := id :: s.acked }
  | .report r allocated =>
    let t := if r.status ≠ 1 then push s company r.id 1 allocated else s
    some { t with last := Function.update t.last r.id (some r.status) }
  | .bill executed =>
    match s.billing with
    | [] => none
    | b :: billing =>
      some { s with billing := billing, balance := if executed then s.balance + b.money else s.balance }

/-- The sum of the entries queued on account of a message. -/
def charge (ledger : List (UInt64 × Int)) (id : UInt64) : Int :=
  ((ledger.filter fun e => e.1 = id).map Prod.snd).sum

/-- Every message costs its price or nothing, and its price if the last report says delivered. -/
def Sound (s : State) : Prop :=
  ∀ id, (charge s.ledger id = -1 ∨ charge s.ledger id = 0) ∧
    (s.last id = some 1 → charge s.ledger id = -1)

/-- A report that counts (a delivery, or a refund that is queued) finds its message charged and
not yet refunded. -/
def FindsCharge (s : State) : Action → Prop
  | .report r allocated => r.status = 1 ∨ allocated = true →
      (r.id, -1) ∈ s.ledger ∧ (r.id, 1) ∉ s.ledger
  | _ => True

theorem charge_append (ledger : List (UInt64 × Int)) (i id : UInt64) (money : Int) :
    charge (ledger ++ [(i, money)]) id = charge ledger id + if i = id then money else 0 := by
  by_cases h : i = id
  · simp [charge, h]
  · simp [charge, h]

inductive Standing (s : State) (id : UInt64) : Prop where
  | uncharged (h₁ : (id, -1) ∉ s.ledger) (h₂ : (id, 1) ∉ s.ledger) (hcharge : charge s.ledger id = 0)
    (hlast : s.last id ≠ some 1)
  | charged (h₁ : (id, -1) ∈ s.ledger) (h₂ : (id, 1) ∉ s.ledger) (hcharge : charge s.ledger id = -1)
  | refunded (h₁ : (id, -1) ∈ s.ledger) (h₂ : (id, 1) ∈ s.ledger) (hcharge : charge s.ledger id = 0)
    (hlast : s.last id ≠ some 1)

structure Inv (s : State) : Prop where
  acked : ∀ id, (id, -1) ∈ s.ledger → id ∈ s.acked
  standing : ∀ id, Standing s id

theorem Inv.sound {s : State} (hs : Inv s) : Sound s := by
  intro id
  cases hs.standing id with
  | uncharged _ _ hcharge hlast => exact ⟨.inr hcharge, fun h => absurd h hlast⟩
  | charged _ _ hcharge => exact ⟨.inl hcharge, fun _ => hcharge⟩
  | refunded _ _ hcharge hlast => exact ⟨.inr hcharge, fun h => absurd h hlast⟩

private theorem Standing.congr {s t : State} {id : UInt64} (hledger : t.ledger = s.ledger)
    (hlast : t.last id = s.last id) (h : Standing s id) : Standing t id := by
  cases h with
  | uncharged h₁ h₂ hc hl =>
    exact .uncharged (hledger ▸ h₁) (hledger ▸ h₂) (hledger ▸ hc) (hlast ▸ hl)
  | charged h₁ h₂ hc => exact .charged (hledger ▸ h₁) (hledger ▸ h₂) (hledger ▸ hc)
  | refunded h₁ h₂ hc hl =>
    exact .refunded (hledger ▸ h₁) (hledger ▸ h₂) (hledger ▸ hc) (hlast ▸ hl)

private theorem Standing.frame {s t : State} {id i : UInt64} (money : Int) (hne : i ≠ id)
    (hledger : t.ledger = s.ledger ∨ t.ledger = s.ledger ++ [(i, money)])
    (hlast : t.last id = s.last id) (h : Standing s id) : Standing t id := by
  have hmem (m : Int) : (id, m) ∈ t.ledger ↔ (id, m) ∈ s.ledger := by
    rcases hledger with hl | hl <;> rw [hl]
    simp [Ne.symm hne]
  have hcharge : charge t.ledger id = charge s.ledger id := by
    rcases hledger with hl | hl <;> rw [hl]
    rw [charge_append, if_neg hne, Int.add_zero]
  cases h with
  | uncharged h₁ h₂ hc hl =>
    exact .uncharged ((hmem _).not.mpr h₁) ((hmem _).not.mpr h₂) (hcharge.trans hc) (hlast ▸ hl)
  | charged h₁ h₂ hc =>
    exact .charged ((hmem _).mpr h₁) ((hmem _).not.mpr h₂) (hcharge.trans hc)
  | refunded h₁ h₂ hc hl =>
    exact .refunded ((hmem _).mpr h₁) ((hmem _).mpr h₂) (hcharge.trans hc) (hlast ▸ hl)

theorem inv_init (balance : Int) : Inv (State.init balance) where
  acked _ h := by cases h
  standing _ := .uncharged (by simp [State.init]) (by simp [State.init]) rfl (by simp [State.init])

/-- A step that queues at most one entry, on account of `i`, and receives at most a report for
`i`: only the standing of `i` has to be looked at. -/
private theorem inv_of_standing {s t : State} (hs : Inv s) (i : UInt64) (money : Int)
    (hledger : t.ledger = s.ledger ∨ t.ledger = s.ledger ++ [(i, money)])
    (hlast : ∀ id, id ≠ i → t.last id = s.last id)
    (hacked : ∀ id, (id, -1) ∈ t.ledger → id ∈ t.acked) (hi : Standing t i) : Inv t where
  acked := hacked
  standing id := by
    by_cases hid : id = i
    · exact hid ▸ hi
    · exact (hs.standing id).frame money (Ne.symm hid) hledger (hlast id hid)

private theorem inv_ok {s : State} (hs : Inv s) (company : Int32) {id : UInt64}
    (hnew : id ∉ s.acked) (allocated : Bool) :
    Inv { push s company id (-1) allocated with acked := id :: s.acked } := by
  -- the message was not acknowledged before, so nothing is queued on account of it
  have hstanding := hs.standing id
  have hnone := mt (hs.acked id) hnew
  cases hstanding with
  | charged h₁ => exact absurd h₁ hnone
  | refunded h₁ => exact absurd h₁ hnone
  | uncharged h₁ h₂ hc hl =>
    cases allocated with
    | false =>
      refine inv_of_standing hs id (-1) (.inl rfl) (fun _ _ => rfl) ?_ (.uncharged h₁ h₂ hc hl)
      exact fun i hi => List.mem_cons_of_mem _ (hs.acked i hi)
    | true =>
      refine inv_of_standing hs id (-1) (.inr rfl) (fun _ _ => rfl) ?_ (.charged ?_ ?_ ?_)
      · intro i hi
        rcases List.mem_append.mp hi with hi | hi
        · exact List.mem_cons_of_mem _ (hs.acked i hi)
        · rw [(Prod.mk.inj (List.mem_singleton.mp hi)).1]
          exact List.mem_cons_self
      · simp [push]
      · simp [push, h₂]
      · simp [push, charge_append, hc]

private theorem inv_received {s : State} (hs : Inv s) {id : UInt64} {status : Int32}
    (hstatus : status = 1 → (id, -1) ∈ s.ledger ∧ (id, 1) ∉ s.ledger) :
    Inv { s with last := Function.update s.last id (some status) } := by
  refine inv_of_standing hs id 1 (.inl rfl) (fun _ h => Function.update_of_ne h _ _) hs.acked ?_
  have hlast (hne : status ≠ 1) : Function.update s.last id (some status) id ≠ some 1 := by
    rw [Function.update_self]
    exact fun h => hne (Option.some.inj h)
  cases hs.standing id with
  | charged h₁ h₂ hc => exact .charged h₁ h₂ hc
  | uncharged h₁ h₂ hc => exact .uncharged h₁ h₂ hc (hlast fun h => h₁ (hstatus h).1)
  | refunded h₁ h₂ hc => exact .refunded h₁ h₂ hc (hlast fun h => (hstatus h).2 h₂)

private theorem inv_refund {s : State} (hs : Inv s) (company : Int32) {id : UInt64}
    {status : Int32} (hstatus : status ≠ 1) (hcharged : (id, -1) ∈ s.ledger)
    (hnot : (id, 1) ∉ s.ledger) :
    Inv { push s company id 1 true with last := Function.update s.last id (some status) } := by
  refine inv_of_standing hs id 1 (.inr rfl) (fun _ h => Function.update_of_ne h _ _) ?_ ?_
  · intro i hi
    rcases List.mem_append.mp hi with hi | hi
    · exact hs.acked i hi
    · exact absurd (Prod.mk.inj (List.mem_singleton.mp hi)).2 (by decide)
  · cases hs.standing id with
    | uncharged h₁ => exact absurd hcharged h₁
    | refunded _ h₂ => exact absurd h₂ hnot
    | charged h₁ h₂ hc =>
      refine .refunded ?_ ?_ ?_ ?_
      · simp [push, h₁]
      · simp [push]
      · simp [push, charge_append, hc]
      · simp only [Function.update_self]
        exact fun h => hstatus (Option.some.inj h)

theorem inv_step (company : Int32) (s : State) (a : Action) (t : State) (hs : Inv s)
    (hguard : FindsCharge s a) (h : step company s a = some t) : Inv t := by
  cases a with
  | ok id allocated =>
    simp only [step] at h
    split at h
    · cases h
    · next hnew =>
      cases h
      exact inv_ok hs company hnew allocated
  | report r allocated =>
    by_cases hstatus : r.status = 1
    · simp only [step, hstatus, ne_eq, not_true_eq_false, if_false] at h
      cases h
      exact inv_received hs fun _ => hguard (.inl hstatus)
    · simp only [step, ne_eq, hstatus, not_false_eq_true, if_true] at h
      cases allocated with
      | false =>
        cases h
        exact inv_received hs fun h => absurd h hstatus
      | true =>
        cases h
        obtain ⟨hcharged, hnot⟩ := hguard (.inr rfl)
        exact inv_refund hs company hstatus hcharged hnot
  | bill executed =>
    simp only [step] at h
    split at h
    · cases h
    · cases h
      exact ⟨hs.acked, fun id => Standing.congr (s := s) rfl rfl (hs.standing id)⟩

/-- A report that counts makes a message that costs nothing come out wrong. -/
private theorem not_sound_of_charge_eq_zero (company : Int32) {s : State} {r : Report}
    {allocated : Bool} (hcounts : r.status = 1 ∨ allocated = true)
    (hcharge : charge s.ledger r.id = 0) :
    ¬∀ t, step company s (.report r allocated) = some t → Sound t := by
  intro h
  obtain ⟨hsum, hdelivered⟩ := h _ rfl r.id
  by_cases hstatus : r.status = 1
  · simp only [hstatus, ne_eq, not_true_eq_false, if_false, Function.update_self,
      forall_const] at hdelivered
    omega
  · obtain rfl := hcounts.resolve_left hstatus
    simp only [ne_eq, hstatus, not_false_eq_true, if_true, push, charge_append, hcharge] at hsum
    omega

/-- Where the condition fails, a message comes out wrong in the next state. -/
theorem findsCharge_of_sound (company : Int32) {s : State} {a : Action} (hs : Inv s)
    (h : ∀ t, step company s a = some t → Sound t) : FindsCharge s a := by
  cases a with
  | ok => trivial
  | bill => trivial
  | report r allocated =>
    intro hcounts
    cases hs.standing r.id with
    | charged h₁ h₂ => exact ⟨h₁, h₂⟩
    | uncharged _ _ hc => exact absurd h (not_sound_of_charge_eq_zero company hcounts hc)
    | refunded _ _ hc => exact absurd h (not_sound_of_charge_eq_zero company hcounts hc)

/-- In every state of the run every message costs its price or nothing, and its price if its
last report says delivered; this is so in exactly the runs in which each report that counts
finds its message charged and not yet refunded. -/
theorem sound_iff_findsCharge (company : Int32) (balance : Int) (as : List Action) :
    (∀ bs, bs <+: as → ∀ s, exec (step company) (State.init balance) bs = some s → Sound s) ↔
      Guarded (step company) FindsCharge (State.init balance) as := by
  rw [forall_states_iff_guarded (inv_init balance).sound]
  symm
  apply guarded_iff_of_invariant (inv_step company) ?_ (inv_init balance)
  intro s a hs
  exact ⟨fun hguard t ht => (inv_step company s a t hs hguard ht).sound,
    findsCharge_of_sound company hs⟩

/-- The scheduler takes message 7, which is accepted on the way (status 5) and then delivered. -/
theorem accepted_then_delivered_not_sound : ¬∀ s,
    exec (step 1) (State.init 100)
      [.ok 7 true, .report ⟨7, 1, 1, [], [], 5, [], []⟩ true,
        .report ⟨7, 1, 1, [], [], 1, [], []⟩ true] = some s → Sound s := by
  intro h
  have hdelivered := (h _ rfl 7).2
  revert hdelivered
  decide

/-! ## The balance -/

/-- What has been queued is what has been added to the balance and what is still on the queue. -/
def Conserved (balance : Int) (s : State) : Prop :=
  s.balance + (s.billing.map LambBill.money).sum = balance + (s.ledger.map Prod.snd).sum

private theorem conserved_push {balance : Int} {s : State} (hs : Conserved balance s)
    (company : Int32) (id : UInt64) (money : Int) (allocated : Bool) :
    Conserved balance (push s company id money allocated) := by
  cases allocated with
  | false => exact hs
  | true =>
    unfold Conserved at *
    simp only [push, if_true, List.map_append, List.sum_append, List.map_cons, List.map_nil,
      List.sum_cons, List.sum_nil]
    omega

theorem conserved_step (company : Int32) (balance : Int) (s : State) (a : Action) (t : State)
    (hs : Conserved balance s) (hexecuted : a ≠ .bill false) (h : step company s a = some t) :
    Conserved balance t := by
  cases a with
  | ok id allocated =>
    simp only [step] at h
    split at h
    · cases h
    · cases h
      exact conserved_push hs company id (-1) allocated
  | report r allocated =>
    simp only [step] at h
    split at h <;> cases h
    · exact conserved_push hs company r.id 1 allocated
    · exact hs
  | bill executed =>
    obtain rfl : executed = true := by
      cases executed
      · exact absurd rfl hexecuted
      · rfl
    simp only [step] at h
    split at h
    · cases h
    · next b billing hb =>
      cases h
      unfold Conserved at *
      simp only [hb, List.map_cons, List.sum_cons] at hs
      simp only [if_true]
      omega

/-- If every command is executed, the queue loses nothing on the way to the balance. -/
theorem conserved_of_executed (company : Int32) (balance : Int) {as : List Action} {s : State}
    (hexecuted : Guarded (step company) (fun _ a => a ≠ .bill false) (State.init balance) as)
    (h : exec (step company) (State.init balance) as = some s) : Conserved balance s :=
  exec_invariant_of_guarded (conserved_step company balance) (by simp [Conserved, State.init])
    hexecuted h

end LambGateway.Server.Billing
