import LambGateway.Framework.CText
import Mathlib.Algebra.Group.Int.Defs
import Mathlib.Algebra.Group.Nat.Defs

/-!
# Decimal text

The conversions `%llu`, `%lld` and `%d` of the printing functions, and `strtoull` and `atoi`
that read such text back.
-/

namespace Framework

/-- `%llu` and `%u`. -/
def decimal (n : Nat) : Bytes := (Nat.toDigits 10 n).map fun c => c.toNat.toUInt8

/-- `%lld` and `%d`. -/
def decimalInt : Int → Bytes
  | .ofNat n => decimal n
  | .negSucc n => 45 :: decimal (n + 1)

def isDigit (b : UInt8) : Bool := 48 ≤ b && b ≤ 57

def isSpace (b : UInt8) : Bool := b == 32 || (9 ≤ b && b ≤ 13)

/-- The value of the digits that start the text. -/
def digitsValue (text : Bytes) : Nat :=
  (text.takeWhile isDigit).foldl (fun n b => 10 * n + (b.toNat - 48)) 0

/-- The number that starts the text: white space, an optional sign, digits. -/
def scanInt (text : Bytes) : Int :=
  match text.dropWhile isSpace with
  | [] => 0
  | b :: rest =>
    if b = 45 then -(digitsValue rest : Int)
    else if b = 43 then digitsValue rest
    else digitsValue (b :: rest)

/-- `strtoull(text, NULL, 10)`: out of range gives `ULLONG_MAX`. -/
def strtoull (text : Bytes) : UInt64 :=
  let v := scanInt text
  if 2 ^ 64 ≤ v.natAbs then ⟨BitVec.allOnes 64⟩ else ⟨BitVec.ofInt 64 v⟩

/-- `atoi`: `strtol`, which stays within a `long`, cut to an `int`. -/
def atoi (text : Bytes) : Int32 :=
  Int32.ofInt (max (-2 ^ 63) (min (2 ^ 63 - 1) (scanInt text)))

/-- `atol`: `strtol`, which stays within a `long`. -/
def atol (text : Bytes) : Int64 :=
  Int64.ofInt (max (-2 ^ 63) (min (2 ^ 63 - 1) (scanInt text)))

theorem digit_byte {c : Char} (h : c.isDigit = true) :
    isDigit c.toNat.toUInt8 = true ∧ c.toNat.toUInt8.toNat = c.toNat := by
  have hc : 48 ≤ c.toNat ∧ c.toNat ≤ 57 := by
    simp only [Char.isDigit, Bool.and_eq_true, decide_eq_true_eq] at h
    exact ⟨h.1, h.2⟩
  have hb : c.toNat.toUInt8.toNat = c.toNat := by
    rw [Nat.toUInt8_eq, UInt8.toNat_ofNat', Nat.mod_eq_of_lt (by omega)]
  refine ⟨?_, hb⟩
  simp only [isDigit, Bool.and_eq_true, decide_eq_true_eq, UInt8.le_iff_toNat_le, hb]
  exact hc

theorem decimal_isDigit {n : Nat} {b : UInt8} (h : b ∈ decimal n) : isDigit b = true := by
  obtain ⟨c, hc, rfl⟩ := List.mem_map.mp h
  exact (digit_byte (Nat.isDigit_of_mem_toDigits (by decide) (by decide) hc)).1

@[simp] theorem decimal_ne_nil (n : Nat) : decimal n ≠ [] := by
  simp [decimal]

/-- A number below `10 ^ k` takes at most `k` digits. -/
theorem decimal_length_le {n k : Nat} (hk : 0 < k) (h : n < 10 ^ k) :
    (decimal n).length ≤ k := by
  rw [decimal, List.length_map]
  exact (Nat.length_toDigits_le_iff (by decide) hk).mpr h

theorem decimalInt_length_pos (i : Int) : 0 < (decimalInt i).length := by
  cases i with
  | ofNat n => exact List.length_pos_iff.mpr (decimal_ne_nil n)
  | negSucc n => exact Nat.succ_pos _

theorem digitsValue_decimal (n : Nat) : digitsValue (decimal n) = n := by
  have hall : ∀ b ∈ decimal n, isDigit b = true := fun b => decimal_isDigit
  have hfold (cs : List Char) (hcs : ∀ c ∈ cs, c.isDigit = true) (acc : Nat) :
      (cs.map fun c => c.toNat.toUInt8).foldl (fun n b => 10 * n + (b.toNat - 48)) acc =
        Nat.ofDigitChars 10 cs acc := by
    induction cs generalizing acc with
    | nil => simp
    | cons c cs ih =>
      have hc := (digit_byte (hcs c (by simp))).2
      rw [Nat.ofDigitChars_cons, List.map_cons, List.foldl_cons, hc,
        ih (fun d hd => hcs d (by simp [hd]))]
      rfl
  rw [digitsValue, List.takeWhile_eq_self_iff.mpr hall, decimal, hfold]
  · exact Nat.ofDigitChars_ten_toDigits
  · intro c hc
    exact Nat.isDigit_of_mem_toDigits (by decide) (by decide) hc

theorem digitsValue_lt (text : Bytes) : digitsValue text < 10 ^ text.length := by
  have hfold (digits : Bytes) (hdigits : ∀ b ∈ digits, isDigit b = true) (n : Nat) :
      digits.foldl (fun n b => 10 * n + (b.toNat - 48)) n < (n + 1) * 10 ^ digits.length := by
    induction digits generalizing n with
    | nil => simp
    | cons b digits ih =>
      have hb := hdigits b List.mem_cons_self
      simp only [isDigit, Bool.and_eq_true, decide_eq_true_eq, UInt8.le_iff_toNat_le] at hb
      have hvalue : b.toNat - 48 ≤ 9 := Nat.sub_le_of_le_add hb.2
      rw [List.foldl_cons, List.length_cons, pow_succ']
      calc _ < (10 * n + (b.toNat - 48) + 1) * 10 ^ digits.length :=
            ih (fun c hc => hdigits c (List.mem_cons_of_mem b hc)) _
        _ ≤ ((n + 1) * 10) * 10 ^ digits.length := Nat.mul_le_mul_right _ (by omega)
        _ = (n + 1) * (10 * 10 ^ digits.length) := Nat.mul_assoc _ _ _
  have hlt := hfold (text.takeWhile isDigit) (fun b hb => List.mem_takeWhile_imp hb) 0
  rw [Nat.zero_add, Nat.one_mul] at hlt
  exact hlt.trans_le (Nat.pow_le_pow_right (by decide) (List.takeWhile_prefix _).length_le)

theorem decimal_injective : Function.Injective decimal :=
  Function.LeftInverse.injective digitsValue_decimal

/-- A digit is no white space and no sign. -/
theorem isDigit_other {b : UInt8} (hb : isDigit b = true) :
    isSpace b = false ∧ b ≠ 45 ∧ b ≠ 43 := by
  simp only [isDigit, Bool.and_eq_true, decide_eq_true_eq, UInt8.le_iff_toNat_le] at hb
  have hspace : isSpace b = false := by
    simp only [isSpace, Bool.or_eq_false_iff, beq_eq_false_iff_ne, ne_eq, Bool.and_eq_false_iff,
      decide_eq_false_iff_not, UInt8.le_iff_toNat_le, ← UInt8.toNat_inj]
    simp only [UInt8.reduceToNat] at hb ⊢
    omega
  have hminus : b ≠ 45 := by
    intro h
    subst h
    simp at hb
  have hplus : b ≠ 43 := by
    intro h
    subst h
    simp at hb
  exact ⟨hspace, hminus, hplus⟩

theorem scanInt_of_isDigit {b : UInt8} (rest : Bytes) (hb : isDigit b = true) :
    scanInt (b :: rest) = digitsValue (b :: rest) := by
  obtain ⟨hspace, hminus, hplus⟩ := isDigit_other hb
  rw [scanInt, List.dropWhile_cons_of_neg (by simp [hspace])]
  simp only [hminus, hplus, if_false]

theorem scanInt_decimal (n : Nat) : scanInt (decimal n) = n := by
  cases h : decimal n with
  | nil => exact absurd h (decimal_ne_nil n)
  | cons b rest =>
    have hb : isDigit b = true := decimal_isDigit (n := n) (by simp [h])
    rw [scanInt_of_isDigit rest hb, ← h, digitsValue_decimal]

theorem scanInt_decimalInt (i : Int) : scanInt (decimalInt i) = i := by
  cases i with
  | ofNat n => exact scanInt_decimal n
  | negSucc n =>
    rw [decimalInt, scanInt, List.dropWhile_cons_of_neg (by decide)]
    simp only [if_true, digitsValue_decimal]
    omega

theorem decimalInt_injective : Function.Injective decimalInt :=
  Function.LeftInverse.injective scanInt_decimalInt

/-- A key that ends in an `int` tells the `int`. -/
theorem append_decimalInt_injective (front : Bytes) :
    Function.Injective fun i : Int32 => front ++ decimalInt i.toInt := by
  intro x y h
  exact Int32.toInt_inj.mp (decimalInt_injective (List.append_cancel_left h))

theorem strtoull_decimal (n : UInt64) : strtoull (decimal n.toNat) = n := by
  have hn := n.toNat_lt
  simp only [strtoull, scanInt_decimal, Int.natAbs_natCast]
  rw [if_neg (by omega)]
  apply UInt64.toBitVec_inj.mp
  rw [BitVec.ofInt_natCast]
  exact BitVec.ofNat_toNat ..

theorem atoi_decimalInt (i : Int32) : atoi (decimalInt i.toInt) = i := by
  have hlo := i.le_toInt
  have hhi := i.toInt_lt
  have hrange : max (-2 ^ 63) (min (2 ^ 63 - 1) i.toInt) = i.toInt := by omega
  rw [atoi, scanInt_decimalInt, hrange, Int32.ofInt_toInt]

theorem atol_decimalInt (i : Int64) : atol (decimalInt i.toInt) = i := by
  have hlo := i.le_toInt
  have hhi := i.toInt_lt
  have hrange : max (-2 ^ 63) (min (2 ^ 63 - 1) i.toInt) = i.toInt := by omega
  rw [atol, scanInt_decimalInt, hrange, Int64.ofInt_toInt]

theorem atol_decimalInt_int32 (i : Int32) : atol (decimalInt i.toInt) = i.toInt64 := by
  rw [← Int32.toInt_toInt64, atol_decimalInt]

end Framework
