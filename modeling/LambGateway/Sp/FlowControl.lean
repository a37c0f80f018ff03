import LambGateway.Framework.Decimal
import LambGateway.Framework.Pacing

/-!
# Flow control towards the carrier

After each submit the sender loop of sp pauses for a time that it takes from the gateway's rate.
The pause is computed in milliseconds and waited for in microseconds.
-/

namespace LambGateway.Sp.FlowControl

open Framework

/-- `gateway->concurrent` as `lamb_get_gateway` takes it from the column. -/
def lambGetGateway (concurrent : Int32) : Int32 := atoi (decimalInt concurrent.toInt)

/-- `delayed` in `lamb_sender_loop`; `none` is a division by zero. -/
def delayed (concurrent : Int32) : Option Int64 :=
  if 1000 < concurrent then some 1000
  else if concurrent = 0 then none
  else some (1000 / concurrent).toInt64

/-- The microseconds for which `lamb_msleep` waits in `select`. -/
def lambMsleep (microsecond : UInt64) : Nat :=
  (microsecond / 1000000).toNat * 1000000 + (microsecond % 1000000).toNat

/-- The pause after a submit, in microseconds. -/
def pause (concurrent : Int32) : Option Nat :=
  (delayed concurrent).map fun delayed => lambMsleep delayed.toUInt64

/-- One round of the loop that calls `cmpp_submit`: the time before the call, whether it fails,
and the time until its acknowledgement or the timeout. -/
structure Round where
  before : Nat
  err : Bool
  ack : Nat
  timedOut : Bool

/-- When the messages are submitted, from a time on. An error or a timeout costs `interval`. -/
def submitTimes (pause interval : Nat) : Nat → List Round → List Nat
  | _, [] => []
  | now, round :: rounds =>
    let t := now + round.before
    if round.err then submitTimes pause interval (t + interval) rounds
    else
      t :: submitTimes pause interval
        (t + round.ack + (if round.timedOut then interval else 0) + pause) rounds

example (pause interval now : Nat) (round : Round) (h : round.err = true) :
    submitTimes pause interval now [round] = [] := by
  simp only [submitTimes, h, if_true]

/-! ## The pause -/

theorem lambGetGateway_eq (concurrent : Int32) : lambGetGateway concurrent = concurrent :=
  atoi_decimalInt concurrent

theorem lambMsleep_eq (microsecond : UInt64) : lambMsleep microsecond = microsecond.toNat := by
  have hdiv : (microsecond / 1000000).toNat = microsecond.toNat / 1000000 := UInt64.toNat_div ..
  have hmod : (microsecond % 1000000).toNat = microsecond.toNat % 1000000 := UInt64.toNat_mod ..
  rw [lambMsleep, hdiv, hmod]
  omega

theorem pause_of_gt {c : Int32} (h : 1000 < c) : pause c = some 1000 := by
  rw [pause, delayed, if_pos h]
  rfl

/-- Up to a rate of 1000 the pause is what a pause in milliseconds would be. -/
theorem pause_of_le {c : Int32} (hpos : 1 ≤ c) (hle : c ≤ 1000) :
    pause c = some (1000 / c.toInt.toNat) := by
  have hlo : 1 ≤ c.toInt := Int32.le_iff_toInt_le.mp hpos
  have hhi : c.toInt ≤ 1000 := Int32.le_iff_toInt_le.mp hle
  have hzero : c ≠ 0 := by
    intro h
    subst h
    exact absurd hlo (by decide)
  have hdiv : (1000 / c).toInt64.toInt = 1000 / c.toInt := by
    rw [Int32.toInt_toInt64, Int32.toInt_div_of_ne_left _ _ (by decide)]
    exact Int.tdiv_eq_ediv_of_nonneg (by decide)
  have hnonneg : (0 : Int64) ≤ (1000 / c).toInt64 := by
    rw [Int64.le_iff_toInt_le, hdiv]
    exact Int.ediv_nonneg (by decide) (by omega)
  rw [pause, delayed, if_neg (Int32.not_lt.mpr hle), if_neg hzero, Option.map_some, lambMsleep_eq,
    Int64.toNat_toUInt64_of_le hnonneg]
  congr 1
  change (1000 / c).toInt64.toInt.toNat = _
  rw [hdiv]
  obtain ⟨n, hn⟩ := Int.eq_ofNat_of_zero_le (a := c.toInt) (by omega)
  rw [hn]
  rfl

theorem pause_defined_iff (c : Int32) : (∃ p, pause c = some p) ↔ c ≠ 0 := by
  constructor
  · rintro ⟨p, hp⟩ rfl
    exact nomatch hp
  · intro hzero
    rw [pause, delayed, if_neg hzero]
    split <;> exact ⟨_, rfl⟩

/-- Above 1000 the pause is longer than for any rate from 2 to 1000. -/
theorem pause_grows {c d : Int32} (hc : 1 < c) (hle : c ≤ 1000) (hd : 1000 < d) :
    ∃ p q, pause c = some p ∧ pause d = some q ∧ p < q := by
  have hpos : 1 ≤ c := Int32.le_of_lt hc
  refine ⟨_, _, pause_of_le hpos hle, pause_of_gt hd, ?_⟩
  have hint : 1 < c.toInt := Int32.lt_iff_toInt_lt.mp hc
  exact Nat.div_lt_self (by decide) (by omega)

/-! ## The rate -/

theorem le_of_mem_submitTimes {pause interval now : Nat} {rounds : List Round} :
    ∀ t ∈ submitTimes pause interval now rounds, now ≤ t := by
  induction rounds generalizing now with
  | nil => exact fun t ht => absurd ht List.not_mem_nil
  | cons round rounds ih =>
    intro t ht
    rw [submitTimes] at ht
    split at ht
    · have hlate := ih t ht
      omega
    · rcases List.mem_cons.mp ht with rfl | ht
      · exact Nat.le_add_right _ _
      · have hlate := ih t ht
        omega

/-- Between two messages lies the pause. -/
theorem spaced_submitTimes (pause interval now : Nat) (rounds : List Round) :
    Spaced pause (submitTimes pause interval now rounds) := by
  induction rounds generalizing now with
  | nil => exact List.Pairwise.nil
  | cons round rounds ih =>
    rw [submitTimes]
    split
    · exact ih _
    · apply spaced_cons _ (ih _)
      intro u hu
      have hlate := le_of_mem_submitTimes u hu
      omega

theorem submitTimes_replicate (pause interval now n : Nat) :
    submitTimes pause interval now (List.replicate n ⟨0, false, 0, false⟩) =
      (List.range n).map fun i => now + i * pause := by
  induction n generalizing now with
  | zero => rfl
  | succ n ih =>
    rw [List.replicate_succ, submitTimes, List.range_succ_eq_map, List.map_cons, List.map_map]
    simp only [Bool.false_eq_true, if_false, Nat.add_zero, Nat.zero_mul, ih]
    congr 1
    apply List.map_congr_left
    intro i _
    rw [Function.comp_apply, Nat.succ_mul]
    omega

/-- The carrier gets at most `c` messages in any second. -/
def RateKept (c p : Nat) : Prop :=
  ∀ (interval now lo : Nat) (rounds : List Round),
    (during lo 1000000 (submitTimes p interval now rounds)).length ≤ c

/-- With acknowledgements that come at once the pause alone keeps the rate. -/
theorem rateKept_iff {c p : Nat} : RateKept c p ↔ 1000000 ≤ c * p := by
  constructor
  · intro h
    by_contra hlt
    have hall := h 0 0 0 (List.replicate (c + 1) ⟨0, false, 0, false⟩)
    rw [submitTimes_replicate, during, List.filter_eq_self.mpr] at hall
    · rw [List.length_map, List.length_range] at hall
      omega
    · intro t ht
      obtain ⟨i, hi, rfl⟩ := List.mem_map.mp ht
      have hle : i * p ≤ c * p := Nat.mul_le_mul_right p (Nat.lt_succ_iff.mp (List.mem_range.mp hi))
      simp only [Bool.and_eq_true, decide_eq_true_eq]
      omega
  · intro h interval now lo rounds
    exact (spaced_submitTimes p interval now rounds).during_length_le h lo

/-- What the gateway's rate asks of the pause. -/
structure FlowControlled (c : Int32) : Prop where
  defined : ∃ p, pause c = some p
  long : 1 ≤ c → ∀ p, pause c = some p → 1000000 ≤ c.toInt.toNat * p
  rate : 1 ≤ c → ∀ p, pause c = some p → RateKept c.toInt.toNat p
  antitone : 1 ≤ c → ∀ d, c ≤ d → ∀ p q, pause c = some p → pause d = some q → q ≤ p

theorem flowControlled_of_gt {c : Int32} (hgt : 1000 < c) : FlowControlled c := by
  have hpause (d : Int32) (hd : c ≤ d) (p : Nat) (hp : pause d = some p) : p = 1000 := by
    rw [pause_of_gt (Int32.lt_of_lt_of_le hgt hd)] at hp
    exact (Option.some.inj hp).symm
  have hlong : 1000000 ≤ c.toInt.toNat * 1000 := by
    have hint : 1000 < c.toInt := Int32.lt_iff_toInt_lt.mp hgt
    omega
  refine ⟨⟨1000, pause_of_gt hgt⟩, ?_, ?_, ?_⟩
  · intro _ p hp
    rw [hpause _ (Int32.le_refl _) p hp]
    exact hlong
  · intro _ p hp
    rw [hpause _ (Int32.le_refl _) p hp]
    exact rateKept_iff.mpr hlong
  · intro _ d hd p q hp hq
    rw [hpause _ (Int32.le_refl _) p hp, hpause d hd q hq]

/-- A negative rate asks for a pause that can be computed, and for no more. -/
theorem flowControlled_of_neg {c : Int32} (hneg : c < 0) : FlowControlled c := by
  have hnot : ¬ 1 ≤ c := by
    rw [Int32.not_le]
    exact Int32.lt_trans hneg (by decide)
  have hzero : c ≠ 0 := Int32.ne_of_lt hneg
  exact ⟨(pause_defined_iff c).mpr hzero, fun hpos => absurd hpos hnot,
    fun hpos => absurd hpos hnot, fun hpos => absurd hpos hnot⟩

/-- Up to 1000 the pause is too short by the factor between its two units. -/
theorem not_flowControlled_of_le {c : Int32} (hpos : 1 ≤ c) (hle : c ≤ 1000) :
    ¬ FlowControlled c := by
  intro h
  have hlong := h.long hpos _ (pause_of_le hpos hle)
  have hsmall : c.toInt.toNat * (1000 / c.toInt.toNat) ≤ 1000 := Nat.mul_div_le 1000 _
  omega

/-- A rate is kept by its pause if and only if it is above 1000, or is none. -/
theorem flow_controlled_iff (concurrent : Int32) :
    FlowControlled (lambGetGateway concurrent) ↔ 1000 < concurrent ∨ concurrent < 0 := by
  rw [lambGetGateway_eq]
  constructor
  · intro h
    by_contra hnot
    obtain ⟨hle, hnonneg⟩ := not_or.mp hnot
    have hzero : concurrent ≠ 0 := (pause_defined_iff concurrent).mp h.defined
    have hpos : 1 ≤ concurrent := by
      have hint : concurrent.toInt ≠ 0 := fun h0 => hzero (Int32.toInt_inj.mp h0)
      rw [Int32.lt_iff_toInt_lt] at hnonneg
      rw [Int32.le_iff_toInt_le]
      change ¬ concurrent.toInt < 0 at hnonneg
      change 1 ≤ concurrent.toInt
      omega
    exact not_flowControlled_of_le hpos (Int32.not_lt.mp hle) h
  · rintro (hgt | hneg)
    · exact flowControlled_of_gt hgt
    · exact flowControlled_of_neg hneg

/-- One message a second: the pause is a millisecond. -/
theorem pause_too_short :
    ¬ ∀ concurrent : Int32, FlowControlled (lambGetGateway concurrent) := by
  intro h
  have hone := (h 1).long
  rw [lambGetGateway_eq] at hone
  have hlong := hone (by decide) 1000 rfl
  exact absurd hlong (by decide)

end LambGateway.Sp.FlowControl
