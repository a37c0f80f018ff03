import LambGateway.Framework.SqlText

/-!
# `INSERT` statements

What a statement `INSERT INTO table(columns) VALUES(values)` reads as: its numbers stand in the
text outside the literals, its strings are the literals.
-/

namespace Framework

inductive SqlValue where
  | number (i : Int)
  | literal (v : Bytes)
  deriving DecidableEq

/-- How the list of values reads, with the comma before each further value and the bracket that
closes the list. -/
def readValues : List SqlValue → SqlText
  | [] => ⟨ascii ")", []⟩
  | v :: vs =>
    let sep := if vs.isEmpty then [] else ascii ", "
    let t := readValues vs
    match v with
    | .number i => ⟨decimalInt i ++ (sep ++ t.head), t.rest⟩
    | .literal v => ⟨[], (v, sep ++ t.head) :: t.rest⟩

structure Insert where
  table : Bytes
  columns : Bytes
  values : List SqlValue
  deriving DecidableEq

def Insert.read (s : Insert) : SqlText where
  head := ascii "INSERT INTO " ++ s.table ++ ascii "(" ++ s.columns ++ ascii ") VALUES(" ++
    (readValues s.values).head
  rest := (readValues s.values).rest

theorem quote_not_mem_decimal (n : Nat) : quote ∉ decimal n := by
  intro h
  have hq := decimal_isDigit h
  revert hq
  decide

theorem quote_not_mem_decimalInt (i : Int) : quote ∉ decimalInt i := by
  cases i with
  | ofNat n => exact quote_not_mem_decimal n
  | negSucc n =>
    rw [decimalInt, List.mem_cons, not_or]
    exact ⟨by decide, quote_not_mem_decimal _⟩

private theorem quote_not_mem_separator (vs : List SqlValue) :
    quote ∉ (if vs.isEmpty then [] else ascii ", ") := by
  split <;> decide

theorem readValues_wellFormed (vs : List SqlValue) : (readValues vs).WellFormed := by
  induction vs with
  | nil =>
    refine ⟨?_, ?_, ?_⟩ <;> simp [readValues, ascii, quote]
  | cons v vs ih =>
    have hhead : quote ∉ (if vs.isEmpty then [] else ascii ", ") ++ (readValues vs).head := by
      rw [List.mem_append, not_or]
      exact ⟨quote_not_mem_separator vs, ih.head⟩
    cases v with
    | number i =>
      refine ⟨?_, ih.rest, ih.apart⟩
      simp only [readValues]
      rw [List.mem_append, not_or]
      exact ⟨quote_not_mem_decimalInt i, hhead⟩
    | literal v =>
      refine ⟨by simp [readValues], ?_, ?_⟩
      · simp only [readValues, List.forall_mem_cons]
        exact ⟨hhead, ih.rest⟩
      · simp only [readValues, List.forall_mem_cons]
        refine ⟨?_, ih.apart⟩
        cases vs with
        | nil => simp [readValues, ascii]
        | cons w ws => simp [ascii]

theorem Insert.read_wellFormed {s : Insert} (htable : quote ∉ s.table)
    (hcolumns : quote ∉ s.columns) : s.read.WellFormed := by
  have h := readValues_wellFormed s.values
  refine ⟨?_, h.rest, h.apart⟩
  simp only [Insert.read, List.mem_append, not_or]
  exact ⟨⟨⟨⟨⟨by decide, htable⟩, by decide⟩, hcolumns⟩, by decide⟩, h.head⟩

theorem decimalInt_length_le {i : Int} {k : Nat} (hk : 0 < k) (h : i.natAbs < 10 ^ k) :
    (decimalInt i).length ≤ k + 1 := by
  cases i with
  | ofNat n => exact (decimal_length_le hk h).trans (Nat.le_succ k)
  | negSucc n => exact Nat.succ_le_succ (decimal_length_le hk h)

theorem decimalInt_int32_length_le (i : Int32) : (decimalInt i.toInt).length ≤ 11 := by
  have hlo := i.le_toInt
  have hhi := i.toInt_lt
  exact decimalInt_length_le (by decide) (by omega)

theorem decimalInt_int64_length_le (i : Int64) : (decimalInt i.toInt).length ≤ 20 := by
  have hlo := i.le_toInt
  have hhi := i.toInt_lt
  exact decimalInt_length_le (by decide) (by omega)

end Framework
