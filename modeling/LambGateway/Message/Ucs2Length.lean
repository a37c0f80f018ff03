import LambGateway.Framework.CText
import Mathlib.Tactic.ByContra

/-!
# The length of a text in UCS-2

A text in UCS-2 ends at a unit of two zero bytes, or after the 140 bytes of a short message. The
function looks at the sum of the two bytes of a unit.
-/

namespace LambGateway.Message

open Framework

/-- `str[i]`. A plain char is signed, and promoted to an int. Outside the buffer there is none. -/
def charAt (str : Bytes) (i : Nat) : Option Int := str[i]?.map fun b => b.toInt8.toInt

/-- The loop of `lamb_ucs2_strlen`, from `i` on. -/
def lambUcs2StrlenLoop (str : Bytes) (i : Nat) : Option Nat :=
  if i < 140 then do
    let first ← charAt str i
    let second ← charAt str (i + 1)
    if first + second ≠ 0 then lambUcs2StrlenLoop str (i + 2)
    else some i
  else some i
termination_by 140 - i

def lambUcs2Strlen (str : Bytes) : Option Nat := lambUcs2StrlenLoop str 0

/-- The bytes `first` and `second` at `i` and behind it. -/
def UnitAt (str : Bytes) (i : Nat) (first second : UInt8) : Prop :=
  str[i]? = some first ∧ str[i + 1]? = some second

/-- `n` is the offset of the first unit of two zero bytes, or 140 if there is none. -/
structure TextLength (str : Bytes) (n : Nat) : Prop where
  even : n % 2 = 0
  le : n ≤ 140
  before : ∀ i < n, i % 2 = 0 → ¬ UnitAt str i 0 0
  terminator : n < 140 → UnitAt str n 0 0

/-- Two bytes that are not zero and whose sum as signed chars is. -/
def Cancel (first second : UInt8) : Prop :=
  first.toNat + second.toNat = 256 ∧ first.toNat ≠ 128

theorem toInt_toInt8 (b : UInt8) :
    b.toInt8.toInt = if b.toNat < 128 then (b.toNat : Int) else b.toNat - 256 := by
  change b.toBitVec.toInt = _
  rw [BitVec.toInt_eq_toNat_cond]
  change (if 2 * b.toNat < 256 then (b.toNat : Int) else b.toNat - (256 : Nat)) = _
  split <;> split <;> omega

/-- The loop's test, in terms of the bytes. -/
theorem sum_eq_zero_iff (first second : UInt8) :
    first.toInt8.toInt + second.toInt8.toInt = 0 ↔
      (first = 0 ∧ second = 0) ∨ Cancel first second := by
  have hfirst := first.toNat_lt
  have hsecond := second.toNat_lt
  rw [toInt_toInt8, toInt_toInt8, Cancel, ← UInt8.toNat_inj, ← UInt8.toNat_inj]
  change _ ↔ (first.toNat = 0 ∧ second.toNat = 0) ∨ _
  split <;> split <;> omega

theorem not_cancel_zero : ¬ Cancel 0 0 := fun h => absurd h.1 (by decide)

section Loop

variable {str : Bytes}

theorem exists_unitAt (hlen : 140 ≤ str.length) {i : Nat} (hi : i < 140) (heven : i % 2 = 0) :
    ∃ first second, UnitAt str i first second := by
  have hfirst : i < str.length := by omega
  have hsecond : i + 1 < str.length := by omega
  exact ⟨_, _, List.getElem?_eq_getElem hfirst, List.getElem?_eq_getElem hsecond⟩

theorem UnitAt.unique {i : Nat} {a b c d : UInt8} (h : UnitAt str i a b) (h' : UnitAt str i c d) :
    a = c ∧ b = d :=
  ⟨Option.some.inj (h.1.symm.trans h'.1), Option.some.inj (h.2.symm.trans h'.2)⟩

/-- The unit at `i` stops the loop. -/
def Stops (str : Bytes) (i : Nat) : Prop :=
  UnitAt str i 0 0 ∨ ∃ first second, UnitAt str i first second ∧ Cancel first second

theorem loop_step {i : Nat} (hi : i < 140) {first second : UInt8}
    (hunit : UnitAt str i first second) :
    (Stops str i ∧ lambUcs2StrlenLoop str i = some i) ∨
      (¬ Stops str i ∧ lambUcs2StrlenLoop str i = lambUcs2StrlenLoop str (i + 2)) := by
  have hloop : lambUcs2StrlenLoop str i =
      if first.toInt8.toInt + second.toInt8.toInt ≠ 0 then lambUcs2StrlenLoop str (i + 2)
      else some i := by
    rw [lambUcs2StrlenLoop, if_pos hi, charAt, charAt, hunit.1, hunit.2]
    rfl
  rw [hloop]
  by_cases hsum : first.toInt8.toInt + second.toInt8.toInt = 0
  · left
    refine ⟨?_, if_neg (not_not.mpr hsum)⟩
    rcases (sum_eq_zero_iff first second).mp hsum with ⟨rfl, rfl⟩ | hcancel
    · exact Or.inl hunit
    · exact Or.inr ⟨first, second, hunit, hcancel⟩
  · right
    refine ⟨?_, if_pos hsum⟩
    rintro (hzero | ⟨a, b, hab, hcancel⟩)
    · obtain ⟨rfl, rfl⟩ := hunit.unique hzero
      exact hsum rfl
    · obtain ⟨rfl, rfl⟩ := hunit.unique hab
      exact hsum ((sum_eq_zero_iff first second).mpr (Or.inr hcancel))

/-- The loop ends at the first unit that stops it, or at 140. By induction on the number of units
that are left. -/
theorem loop_spec (hlen : 140 ≤ str.length) (units : Nat) {i : Nat} (hi : i + 2 * units = 140) :
    ∃ n, lambUcs2StrlenLoop str i = some n ∧ i ≤ n ∧ n ≤ 140 ∧ n % 2 = 0 ∧
      (∀ j, i ≤ j → j < n → j % 2 = 0 → ¬ Stops str j) ∧ (n < 140 → Stops str n) := by
  induction units generalizing i with
  | zero =>
    have hend : i = 140 := by omega
    subst hend
    refine ⟨140, ?_, le_rfl, le_rfl, rfl, ?_, fun h => absurd h (by omega)⟩
    · rw [lambUcs2StrlenLoop, if_neg (by omega)]
    · intro j hge hlt
      omega
  | succ units ih =>
    have hlt : i < 140 := by omega
    obtain ⟨first, second, hunit⟩ := exists_unitAt hlen hlt (by omega)
    rcases loop_step hlt hunit with ⟨hstop, hloop⟩ | ⟨hgo, hloop⟩
    · refine ⟨i, hloop, le_rfl, hlt.le, by omega, ?_, fun _ => hstop⟩
      intro j hge hltj
      omega
    · obtain ⟨n, hn, hge, hle, heven, hbefore, hat⟩ := ih (i := i + 2) (by omega)
      refine ⟨n, hloop.trans hn, by omega, hle, heven, ?_, hat⟩
      intro j hj hjn hjeven
      by_cases hji : j = i
      · rwa [hji]
      · exact hbefore j (by omega) hjn hjeven

end Loop

/-- The result is the length of the text if and only if every unit whose bytes cancel stands behind
the terminator. -/
theorem ucs2_strlen_iff {str : Bytes} (hlen : 140 ≤ str.length) :
    (∃ n, lambUcs2Strlen str = some n ∧ TextLength str n) ↔
      ∀ i < 140, i % 2 = 0 → ∀ first second, UnitAt str i first second → Cancel first second →
        ∃ j < i, j % 2 = 0 ∧ UnitAt str j 0 0 := by
  obtain ⟨n, hn, -, hle, heven, hbefore, hat⟩ := loop_spec hlen 70 (i := 0) rfl
  constructor
  · rintro ⟨m, hm, htext⟩ i hi hieven first second hunit hcancel
    obtain rfl : n = m := Option.some.inj (hn.symm.trans hm)
    have hni : n ≤ i := by
      by_contra hlt
      exact hbefore i (Nat.zero_le i) (by omega) hieven (Or.inr ⟨first, second, hunit, hcancel⟩)
    have hzero := htext.terminator (by omega)
    have hne : n ≠ i := by
      rintro rfl
      obtain ⟨rfl, rfl⟩ := hunit.unique hzero
      exact not_cancel_zero hcancel
    exact ⟨n, by omega, heven, hzero⟩
  · intro h
    refine ⟨n, hn, heven, hle, ?_, ?_⟩
    · intro i hi hieven hzero
      exact hbefore i (Nat.zero_le i) hi hieven (Or.inl hzero)
    · intro hlt
      rcases hat hlt with hzero | ⟨first, second, hunit, hcancel⟩
      · exact hzero
      · obtain ⟨j, hj, hjeven, hzero⟩ := h n hlt heven first second hunit hcancel
        exact absurd (Or.inl hzero) (hbefore j (Nat.zero_le j) hj hjeven)

theorem unitAt_zeros {first second a b : UInt8} {zeros i : Nat} (hi : i ≠ 0) (heven : i % 2 = 0)
    (hunit : UnitAt (first :: second :: List.replicate zeros 0) i a b) : a = 0 ∧ b = 0 := by
  obtain ⟨k, rfl⟩ : ∃ k, i = k + 2 := ⟨i - 2, by omega⟩
  obtain ⟨ha, hb⟩ := hunit
  rw [List.getElem?_cons_succ, List.getElem?_cons_succ] at ha hb
  exact ⟨List.eq_of_mem_replicate (List.mem_of_getElem? ha),
    List.eq_of_mem_replicate (List.mem_of_getElem? hb)⟩

/-- A text of one letter, with zeros behind it. -/
theorem ucs2_strlen_letter :
    ∃ n, lambUcs2Strlen (0x4E :: 0x2D :: List.replicate 139 0) = some n ∧
      TextLength (0x4E :: 0x2D :: List.replicate 139 0) n := by
  have hlen : 140 ≤ (0x4E :: 0x2D :: List.replicate 139 (0 : UInt8)).length := by
    rw [List.length_cons, List.length_cons, List.length_replicate]
    omega
  refine (ucs2_strlen_iff hlen).mpr ?_
  intro i _ heven first second hunit hcancel
  exfalso
  by_cases hi : i = 0
  · subst hi
    obtain ⟨rfl, rfl⟩ := hunit.unique ⟨rfl, rfl⟩
    exact absurd hcancel.1 (by decide)
  · obtain ⟨rfl, rfl⟩ := unitAt_zeros hi heven hunit
    exact not_cancel_zero hcancel

/-- A letter whose bytes cancel, U+01FF, with zeros behind it: the text ends at 2, the result is
0. -/
theorem ucs2_strlen_cut :
    let str : Bytes := 0x01 :: 0xFF :: List.replicate 139 0
    lambUcs2Strlen str = some 0 ∧ TextLength str 2 ∧ ¬ TextLength str 0 := by
  refine ⟨?_, ⟨rfl, by omega, ?_, fun _ => ⟨rfl, rfl⟩⟩, ?_⟩
  · rw [lambUcs2Strlen, lambUcs2StrlenLoop]
    rfl
  · intro i hi heven hzero
    obtain rfl : i = 0 := by omega
    exact absurd hzero.1 (by decide)
  · intro htext
    exact absurd (htext.terminator (by omega)).1 (by decide)

end LambGateway.Message
