import Mathlib.Data.List.Nodup
import Mathlib.Data.UInt

/-!
# The message ids of a session

Every `CMPP_SUBMIT` gets an id from the clock, the process and a 16-bit counter. The counter
restarts at its last value by assigning and returning 1, so that the next call returns 1 again.
-/

namespace LambGateway.Ismg

/-- The fields of the local time that go into an id. -/
structure Clock where
  mon : Fin 12
  mday : Fin 32
  hour : Fin 24
  min : Fin 60
  sec : Fin 61
  deriving DecidableEq

/-- `lamb_sequence`: what it returns, and its counter afterwards. -/
def lambSequence (seq : UInt16) : UInt16 × UInt16 :=
  if seq < 0xffff then (seq, seq + 1) else (1, 1)

/-- The counter after `n` calls. -/
def counter : Nat → UInt16
  | 0 => 1
  | n + 1 => (lambSequence (counter n)).2

/-- What call `n` returns, counted from 0. -/
def result (n : Nat) : UInt16 := (lambSequence (counter n)).1

def lambGenMsgid (cmppGenMsgid : Clock → Int32 → UInt16 → UInt64) (now : Clock) (gid : Int32)
    (sequenceId : UInt16) : UInt64 :=
  cmppGenMsgid now gid sequenceId

/-- The ids that `lamb_work_loop` gives to the `CMPP_SUBMIT`s of a session, each received at a
reading of the clock. -/
def submitIds (cmppGenMsgid : Clock → Int32 → UInt16 → UInt64) (gid : Int32) :
    UInt16 → List Clock → List UInt64
  | _, [] => []
  | seq, now :: times =>
    let (sequenceId, seq) := lambSequence seq
    lambGenMsgid cmppGenMsgid now gid sequenceId :: submitIds cmppGenMsgid gid seq times

/-! ## The cycle of the counter -/

theorem counter_toNat (n : Nat) : (counter n).toNat = n % 65535 + 1 := by
  induction n with
  | zero => rfl
  | succ n ih =>
    rw [counter, lambSequence]
    split
    · rename_i hlt
      have hbound : (counter n).toNat < 65535 := UInt16.lt_iff_toNat_lt.mp hlt
      have hadd : (counter n + 1).toNat = (counter n).toNat + 1 := by
        rw [UInt16.toNat_add, UInt16.toNat_one]
        omega
      rw [hadd]
      omega
    · rename_i hle
      have hbound : ¬ (counter n).toNat < 65535 := fun h => hle (UInt16.lt_iff_toNat_lt.mpr h)
      rw [UInt16.toNat_one]
      omega

/-- Call 65534 and the one after it return 1, in every cycle of 65535 calls. -/
theorem result_toNat (n : Nat) :
    (result n).toNat = if n % 65535 = 65534 then 1 else n % 65535 + 1 := by
  have hcounter := counter_toNat n
  rw [result, lambSequence]
  split
  · rename_i hlt
    have hbound : (counter n).toNat < 65535 := UInt16.lt_iff_toNat_lt.mp hlt
    rw [hcounter, if_neg (by omega)]
  · rename_i hle
    have hbound : ¬ (counter n).toNat < 65535 := fun h => hle (UInt16.lt_iff_toNat_lt.mpr h)
    rw [UInt16.toNat_one, if_pos (by omega)]

/-- The two calls are a whole number of cycles apart, or one of them ends a cycle and the other
begins one. -/
def SameNumber (i j : Nat) : Prop :=
  i % 65535 = j % 65535 ∨ i % 65535 = 65534 ∧ j % 65535 = 0 ∨ i % 65535 = 0 ∧ j % 65535 = 65534

theorem result_eq_iff (i j : Nat) : result i = result j ↔ SameNumber i j := by
  rw [← UInt16.toNat_inj, result_toNat, result_toNat, SameNumber]
  split <;> split <;> omega

/-- A window of 65534 calls has no repetition exactly if it begins at the first or the second
call of a cycle. -/
theorem window_nodup_iff (k : Nat) :
    ((List.range 65534).map fun i => result (k + i)).Nodup ↔ k % 65535 ≤ 1 := by
  rw [List.nodup_map_iff_inj_on List.nodup_range]
  constructor
  · intro hinj
    by_contra hk
    -- the call that ends the cycle lies in the window, and so does the next one
    have hlast : 65534 - k % 65535 ∈ List.range 65534 := List.mem_range.mpr (by omega)
    have hfirst : 65535 - k % 65535 ∈ List.range 65534 := List.mem_range.mpr (by omega)
    have hsame : SameNumber (k + (65534 - k % 65535)) (k + (65535 - k % 65535)) := by
      unfold SameNumber
      omega
    have heq := hinj _ hlast _ hfirst ((result_eq_iff _ _).mpr hsame)
    omega
  · intro hk i hi j hj heq
    have hsame := (result_eq_iff _ _).mp heq
    rw [List.mem_range] at hi hj
    unfold SameNumber at hsame
    omega

/-! ## The ids of a session -/

section

variable {cmppGenMsgid : Clock → Int32 → UInt16 → UInt64}

theorem submitIds_length (gid : Int32) (seq : UInt16) (times : List Clock) :
    (submitIds cmppGenMsgid gid seq times).length = times.length := by
  induction times generalizing seq with
  | nil => rfl
  | cons now times ih => exact congrArg Nat.succ (ih _)

theorem submitIds_getElem? (gid : Int32) (k : Nat) (times : List Clock) (i : Nat) :
    (submitIds cmppGenMsgid gid (counter k) times)[i]? =
      times[i]?.map fun now => lambGenMsgid cmppGenMsgid now gid (result (k + i)) := by
  induction times generalizing k i with
  | nil => rfl
  | cons now times ih =>
    cases i with
    | zero => rfl
    | succ i =>
      have hk : k + (i + 1) = k + 1 + i := by omega
      rw [List.getElem?_cons_succ, hk]
      exact ih (k + 1) i

/-- No two submits with the same reading of the clock get the same number. -/
def Apart (times : List Clock) : Prop :=
  ∀ i j, i < j → j < times.length → times[i]? = times[j]? → ¬ SameNumber i j

theorem submitIds_distinct_iff
    (hgen : ∀ gid now now' s s', cmppGenMsgid now gid s = cmppGenMsgid now' gid s' →
      now = now' ∧ s = s') (gid : Int32) (times : List Clock) :
    (submitIds cmppGenMsgid gid 1 times).Nodup ↔ Apart times := by
  rw [List.nodup_iff_getElem?_ne_getElem?, submitIds_length]
  apply forall₄_congr
  intro i j hij hj
  rw [show (1 : UInt16) = counter 0 from rfl, submitIds_getElem?, submitIds_getElem?,
    Nat.zero_add, Nat.zero_add, List.getElem?_eq_getElem hj,
    List.getElem?_eq_getElem (hij.trans hj), Option.map_some, Option.map_some, Ne,
    Option.some_inj, Option.some_inj, ← result_eq_iff, ← not_and]
  apply not_congr
  constructor
  · exact hgen gid _ _ _ _
  · rintro ⟨htime, hnumber⟩
    rw [htime, hnumber]

/-- Every reading of the clock is seen in one stretch. -/
def Stretches (times : List Clock) : Prop :=
  ∀ i j k, i ≤ k → k ≤ j → j < times.length → times[i]? = times[j]? → times[k]? = times[i]?

theorem count_of_stretches {times : List Clock} (hstretch : Stretches times) {i j : Nat}
    (hij : i ≤ j) (hj : j < times.length) (heq : times[i]? = times[j]?) :
    ∃ now, j - i + 1 ≤ times.count now := by
  have hi : i < times.length := lt_of_le_of_lt hij hj
  refine ⟨times[i], ?_⟩
  have hstretched : (times.drop i).take (j - i + 1) = List.replicate (j - i + 1) times[i] := by
    apply List.ext_getElem
    · simp only [List.length_take, List.length_drop, List.length_replicate]
      omega
    · intro k hk hk'
      rw [List.length_replicate] at hk'
      have hkept := hstretch i j (i + k) (by omega) (by omega) hj heq
      rw [List.getElem?_eq_getElem (by omega), List.getElem?_eq_getElem hi] at hkept
      rw [List.getElem_take, List.getElem_drop, List.getElem_replicate]
      exact Option.some_inj.mp hkept
  have hsub : List.Sublist ((times.drop i).take (j - i + 1)) times :=
    (List.take_sublist _ _).trans (List.drop_sublist _ _)
  have hcount := hsub.count_le times[i]
  rwa [hstretched, List.count_replicate_self] at hcount

/-- Where no reading of the clock comes back and none is seen more than 65534 times, the only
repetition is that of the restart, within one second. -/
theorem apart_iff_of_stretches {times : List Clock} (hstretch : Stretches times)
    (hcount : ∀ now, times.count now ≤ 65534) :
    Apart times ↔
      ∀ i, i % 65535 = 65534 → i + 1 < times.length → times[i]? ≠ times[i + 1]? := by
  constructor
  · intro h i hi hlt heq
    apply h i (i + 1) (Nat.lt_succ_self i) hlt heq
    unfold SameNumber
    omega
  · intro h i j hij hj heq hsame
    obtain ⟨now, hnow⟩ := count_of_stretches hstretch hij.le hj heq
    have hle := hcount now
    unfold SameNumber at hsame
    have hnext : j = i + 1 ∧ i % 65535 = 65534 := by omega
    obtain ⟨rfl, hi⟩ := hnext
    exact h i hi hj heq

/-- A window of 65534 results of `lamb_sequence` is free of repetitions exactly if it begins at
one of the first two calls of a cycle, and the ids of a session are distinct exactly if no two
submits with the same reading of the clock get the same number. -/
theorem session_ids_distinct_iff
    (hgen : ∀ gid now now' s s', cmppGenMsgid now gid s = cmppGenMsgid now' gid s' →
      now = now' ∧ s = s') :
    (∀ k, ((List.range 65534).map fun i => result (k + i)).Nodup ↔ k % 65535 ≤ 1) ∧
    (∀ gid times, (submitIds cmppGenMsgid gid 1 times).Nodup ↔ Apart times) :=
  ⟨window_nodup_iff, submitIds_distinct_iff hgen⟩

end

/-- The layout of an id: 26 bits for the clock, 22 for the process, 16 for the number. -/
private def packedMsgid (now : Clock) (gid : Int32) (sequenceId : UInt16) : UInt64 :=
  UInt64.ofNat
    ((((((now.mon.val + 1) * 32 + now.mday) * 32 + now.hour) * 64 + now.min) * 64 + now.sec) *
        2 ^ 38 + gid.toUInt32.toNat % 2 ^ 22 * 2 ^ 16 + sequenceId.toNat)

private theorem packedMsgid_injective (gid : Int32) (now now' : Clock) (s s' : UInt16)
    (h : packedMsgid now gid s = packedMsgid now' gid s') : now = now' ∧ s = s' := by
  obtain ⟨mon, mday, hour, min, sec⟩ := now
  obtain ⟨mon', mday', hour', min', sec'⟩ := now'
  have hnat := congrArg UInt64.toNat h
  simp only [packedMsgid, UInt64.toNat_ofNat'] at hnat
  have hs := s.toNat_lt
  have hs' := s'.toNat_lt
  have hparts : mon.val = mon'.val ∧ mday.val = mday'.val ∧ hour.val = hour'.val ∧
      min.val = min'.val ∧ sec.val = sec'.val ∧ s.toNat = s'.toNat := by
    omega
  obtain ⟨hmon, hmday, hhour, hmin, hsec, hnumber⟩ := hparts
  refine ⟨?_, UInt16.toNat_inj.mp hnumber⟩
  rw [Fin.ext hmon, Fin.ext hmday, Fin.ext hhour, Fin.ext hmin, Fin.ext hsec]

theorem session_ids_distinct_iff_packed :
    (submitIds packedMsgid 4711 1 [⟨11, 31, 23, 59, 59⟩, ⟨11, 31, 23, 59, 59⟩]).Nodup := by
  apply ((session_ids_distinct_iff packedMsgid_injective).2 _ _).mpr
  intro i j hij hj _
  have hpair : i = 0 ∧ j = 1 := by
    simp only [List.length_cons, List.length_nil] at hj
    omega
  unfold SameNumber
  omega

/-- 65534 submits in one second and two in the next one: the last two have one id. -/
theorem restart_repeats_id :
    (∃ times : List Clock, (∀ now, times.count now ≤ 65534) ∧
      ∀ cmppGenMsgid gid, ¬ (submitIds cmppGenMsgid gid 1 times).Nodup) ∧
    ∃ k, ¬ ((List.range 65534).map fun i => result (k + i)).Nodup := by
  let first : Clock := ⟨0, 1, 12, 0, 0⟩
  let second : Clock := ⟨0, 1, 12, 0, 1⟩
  refine ⟨⟨List.replicate 65534 first ++ [second, second], ?_, ?_⟩, 2, ?_⟩
  · intro now
    have hne : first ≠ second := by decide
    rw [List.count_append, List.count_replicate]
    by_cases hfirst : first = now
    · subst hfirst
      simp [Ne.symm hne]
    · have hle := List.count_le_length (a := now) (l := [second, second])
      simp only [List.length_cons, List.length_nil] at hle
      simp only [beq_iff_eq, hfirst, if_false]
      omega
  · intro cmppGenMsgid gid hnodup
    have hdistinct := List.nodup_iff_getElem?_ne_getElem?.mp hnodup 65534 65535 (by omega)
      (by rw [submitIds_length, List.length_append, List.length_replicate]; decide)
    apply hdistinct
    have hsame : result 65534 = result 65535 := by
      rw [result_eq_iff]
      unfold SameNumber
      omega
    rw [show (1 : UInt16) = counter 0 from rfl, submitIds_getElem?, submitIds_getElem?,
      List.getElem?_append_right (by rw [List.length_replicate]),
      List.getElem?_append_right (by rw [List.length_replicate]; omega), List.length_replicate,
      Nat.zero_add, Nat.zero_add, hsame]
    rfl
  · rw [window_nodup_iff]
    decide

end LambGateway.Ismg
