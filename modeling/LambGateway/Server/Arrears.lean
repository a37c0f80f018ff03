import LambGateway.Framework.HashCounter

/-!
# Arrears

The balance of a company is a number in a hash, which recharges and the billing increment. The
server stops a company's traffic when the number is not positive; it reads it as an `int`.
-/

namespace LambGateway.Server

open Framework

/-- `company.%d` -/
def companyKey (company : Int32) : Bytes := ascii "company." ++ decimalInt company.toInt

/-- What comes back for `HGET`: no reply, a string, or a reply of another type, as for a field
that is not there. -/
inductive HgetReply where
  | none
  | string (str : Bytes)
  | other

def hgetReply (value : Option Bytes) : HgetReply := value.elim .other .string

/-- `lamb_check_arrears`, from the reply on. -/
def arrearsOf : HgetReply → Bool
  | .string str => if 0 < str.length then !decide (0 < atoi str) else true
  | .none | .other => true

/-- `lamb_check_arrears` -/
def lambCheckArrears (rdb : RedisNode) (company : Int32) (answered : Bool) : Bool :=
  arrearsOf (if answered then hgetReply (hget (rdb (companyKey company)) (ascii "money")) else .none)

/-- `HINCRBY company.%d money` -/
def addMoney (rdb : RedisNode) (company : Int32) (money : Int64) : RedisNode :=
  Function.update rdb (companyKey company)
    (some (hincrby (rdb (companyKey company)) (ascii "money") money))

/-- `lamb_company_billing`: the command takes the amount as an `int`. -/
def lambCompanyBilling (cache : RedisNode) (company : Int32) (money : Int64) : RedisNode :=
  addMoney cache company money.toInt32.toInt64

/-- `recharge` in the web interface; `exist` is what `isExist` says of the company. -/
def recharge (rdb : RedisNode) (exist : Bool) (id : Int32) (money : Int64) : RedisNode :=
  if money = 0 then rdb else if exist then addMoney rdb id money else rdb

def HasBalance (rdb : RedisNode) (company : Int32) (b : Int64) : Prop :=
  hget (rdb (companyKey company)) (ascii "money") = some (decimalInt b.toInt)

/-! ## Balances -/

theorem companyKey_injective : Function.Injective companyKey :=
  append_decimalInt_injective (ascii "company.")

theorem HasBalance.add {rdb : RedisNode} {company : Int32} {b : Int64}
    (h : HasBalance rdb company b) (money : Int64) :
    HasBalance (addMoney rdb company money) company (counterAdd b money) := by
  unfold HasBalance addMoney
  rw [Function.update_self]
  exact hincrby_eq h money

theorem HasBalance.add_other {rdb : RedisNode} {company other : Int32} {b : Int64}
    (h : HasBalance rdb company b) (hne : other ≠ company) (money : Int64) :
    HasBalance (addMoney rdb other money) company b := by
  have hkey : companyKey company ≠ companyKey other := fun he => hne (companyKey_injective he).symm
  unfold HasBalance addMoney
  rw [Function.update_of_ne hkey]
  exact h

theorem hasBalance_addMoney_new {rdb : RedisNode} {company : Int32}
    (h : hget (rdb (companyKey company)) (ascii "money") = none) (money : Int64) :
    HasBalance (addMoney rdb company money) company money := by
  unfold HasBalance addMoney
  rw [Function.update_self]
  exact hincrby_new h money

inductive MoneyAction where
  | recharge (exist : Bool) (id : Int32) (money : Int64)
  | bill (company : Int32) (money : Int64)

def moneyStep (rdb : RedisNode) : MoneyAction → RedisNode
  | .recharge exist id money => recharge rdb exist id money
  | .bill company money => lambCompanyBilling rdb company money

/-- A company that has a balance, or no field yet. -/
def Recorded (rdb : RedisNode) (company : Int32) : Prop :=
  hget (rdb (companyKey company)) (ascii "money") = none ∨ ∃ b, HasBalance rdb company b

theorem recorded_addMoney {rdb : RedisNode} {company : Int32} (h : Recorded rdb company)
    (other : Int32) (money : Int64) : Recorded (addMoney rdb other money) company := by
  by_cases hsame : other = company
  · subst hsame
    rcases h with hnone | ⟨b, hb⟩
    · exact .inr ⟨money, hasBalance_addMoney_new hnone money⟩
    · exact .inr ⟨_, hb.add money⟩
  · rcases h with hnone | ⟨b, hb⟩
    · have hkey : companyKey company ≠ companyKey other :=
        fun he => hsame (companyKey_injective he).symm
      left
      rw [addMoney, Function.update_of_ne hkey]
      exact hnone
    · exact .inr ⟨b, hb.add_other hsame money⟩

theorem recorded_moneyStep {rdb : RedisNode} {company : Int32} (h : Recorded rdb company)
    (a : MoneyAction) : Recorded (moneyStep rdb a) company := by
  cases a with
  | recharge exist id money =>
    change Recorded (recharge rdb exist id money) company
    unfold recharge
    split
    · exact h
    · split
      · exact recorded_addMoney h id money
      · exact h
  | bill other money => exact recorded_addMoney h other _

/-- Recharges and the billing keep a number of 64 bits in the field. -/
theorem recorded_foldl (as : List MoneyAction) {rdb : RedisNode} {company : Int32}
    (h : Recorded rdb company) : Recorded (as.foldl moneyStep rdb) company := by
  induction as generalizing rdb with
  | nil => exact h
  | cons a as ih => exact ih (recorded_moneyStep h a)

/-- Any number of 64 bits can be the balance. -/
theorem exists_balance (company : Int32) (b : Int64) :
    ∃ as : List MoneyAction, HasBalance (as.foldl moneyStep fun _ => none) company b := by
  by_cases hzero : b = 0
  · subst hzero
    refine ⟨[.recharge true company 1, .bill company (-1)], ?_⟩
    have hone : HasBalance (addMoney (fun _ => none) company 1) company 1 :=
      hasBalance_addMoney_new rfl 1
    exact hone.add (-1)
  · refine ⟨[.recharge true company b], ?_⟩
    change HasBalance (recharge _ true company b) company b
    rw [recharge, if_neg hzero, if_pos rfl]
    exact hasBalance_addMoney_new rfl b

/-! ## The check -/

theorem lambCheckArrears_eq {rdb : RedisNode} {company : Int32} {b : Int64}
    (h : HasBalance rdb company b) :
    lambCheckArrears rdb company true = !decide (0 < Int32.ofInt b.toInt) := by
  have hlo := b.le_toInt
  have hhi := b.toInt_lt
  have hrange : max (-2 ^ 63) (min (2 ^ 63 - 1) b.toInt) = b.toInt := by omega
  have hlen : 0 < (decimalInt b.toInt).length := decimalInt_length_pos _
  unfold lambCheckArrears
  rw [if_pos rfl, h]
  change (if 0 < (decimalInt b.toInt).length then !decide (0 < atoi (decimalInt b.toInt))
    else true) = _
  rw [if_pos hlen, atoi, scanInt_decimalInt, hrange]

theorem int_pos_iff (b : Int64) :
    0 < Int32.ofInt b.toInt ↔ 0 < b.toInt % 2 ^ 32 ∧ b.toInt % 2 ^ 32 < 2 ^ 31 := by
  rw [Int32.lt_iff_toInt_lt, Int32.toInt_ofInt]
  simp only [Int32.toInt_zero, Int.bmod_def, Int32.size]
  omega

/-- Arrears are reported for the balances that are not positive, of just those balances that are
positive if and only if their low 32 bits are as an `int`. -/
theorem arrears_iff (rdb : RedisNode) (company : Int32) (b : Int64)
    (hb : HasBalance rdb company b) :
    (lambCheckArrears rdb company true = true ↔ b ≤ 0) ↔
      (0 < b ↔ 0 < b.toInt % 2 ^ 32 ∧ b.toInt % 2 ^ 32 < 2 ^ 31) := by
  rw [lambCheckArrears_eq hb, ← int_pos_iff, Bool.not_eq_true', decide_eq_false_iff_not,
    ← Int64.not_lt]
  exact not_iff_not.trans Iff.comm

theorem arrears_iff_recharged :
    let rdb := recharge (fun _ => none) true 4 7
    lambCheckArrears rdb 4 true = true ↔ (7 : Int64) ≤ 0 := by
  intro rdb
  have hb : HasBalance rdb 4 7 := hasBalance_addMoney_new rfl 7
  exact (arrears_iff rdb 4 7 hb).mpr (by decide)

/-- A balance that an `int` holds is judged by its sign. -/
theorem arrears_iff_of_int {rdb : RedisNode} {company : Int32} {b : Int64}
    (hb : HasBalance rdb company b) (hlo : -2 ^ 31 ≤ b.toInt) (hhi : b.toInt < 2 ^ 31) :
    lambCheckArrears rdb company true = true ↔ b ≤ 0 := by
  have hlow : 0 < Int32.ofInt b.toInt ↔ 0 < b := by
    rw [int_pos_iff, Int64.lt_iff_toInt_lt, Int64.toInt_zero]
    omega
  rw [lambCheckArrears_eq hb, Bool.not_eq_true', decide_eq_false_iff_not, ← Int64.not_lt, hlow]

/-- Somebody pays 2147483648: the balance is below zero as an `int`. -/
theorem arrears_with_balance :
    ¬ ∀ (rdb : RedisNode) (company : Int32) (b : Int64), HasBalance rdb company b →
      (lambCheckArrears rdb company true = true ↔ b ≤ 0) := by
  intro h
  have hb : HasBalance (addMoney (fun _ => none) 4 2147483648) 4 2147483648 :=
    hasBalance_addMoney_new rfl 2147483648
  have hcheck := h _ 4 2147483648 hb
  rw [lambCheckArrears_eq hb] at hcheck
  exact absurd hcheck (by decide)

end LambGateway.Server
