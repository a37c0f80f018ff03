import LambGateway.Framework.LineReader
import LambGateway.Web.Filter
import Mathlib.Data.List.Basic

/-!
# Import of number lists

An uploaded file has one telephone number of 11 digits on a line. The script reads it with a buffer
of 12 bytes and takes every piece of 11 bytes for a number.
-/

namespace LambGateway.Web

open Framework

/-- The tables that a file may be for. -/
inductive ListType where
  | blacklist
  | whitelist
deriving DecidableEq

def ListType.table : ListType → Bytes
  | blacklist => ascii "blacklist"
  | whitelist => ascii "whitelist"

/-! ## `intval` -/

/-- What a text adds to the power of ten, if it starts with an exponent. -/
def exponent : Bytes → Int
  | [] => 0
  | e :: text =>
    if e = 101 ∨ e = 69 then
      if text.head? = some 45 then -(digitsValue text.tail : Int)
      else if text.head? = some 43 then digitsValue text.tail
      else digitsValue text
    else 0

/-- The number that starts the text, without its fraction. A text of 11 bytes has too few digits for
a `double` to round it. -/
def magnitude (text : Bytes) : Nat :=
  let whole := text.takeWhile isDigit
  let behind := text.dropWhile isDigit
  let point : Bool := behind.head? = some 46
  let fraction := if point then behind.tail.takeWhile isDigit else []
  let behind := if point then behind.tail.dropWhile isDigit else behind
  if whole = [] ∧ fraction = [] then 0
  else
    let power := exponent behind - fraction.length
    digitsValue (whole ++ fraction) * 10 ^ power.toNat / 10 ^ (-power).toNat

/-- Out of range it gives the nearest integer of 64 bits. -/
def intval (text : Bytes) : Int :=
  match text.dropWhile isSpace with
  | [] => 0
  | b :: rest =>
    if b = 45 then max (-phpIntMax - 1) (-(magnitude rest : Int))
    else if b = 43 then min phpIntMax (magnitude rest)
    else min phpIntMax (magnitude (b :: rest))

/-! ## The loop -/

def insertInto (type : ListType) (n : Int) : Bytes :=
  ascii "INSERT INTO " ++ type.table ++ ascii " VALUES(" ++ decimalInt n ++ ascii ")"

/-- What a piece of the file gives. -/
def insertPhone (type : ListType) (phone : Bytes) : List Bytes :=
  if phone.length = 11 then [insertInto type (intval phone)] else []

/-- The statements that are sent while the file is read. -/
def importLoop (type : ListType) (stream : Bytes) : List Bytes :=
  match _h : fgets 12 stream with
  | some (phone, rest) => insertPhone type phone ++ importLoop type rest
  | none => []
termination_by stream.length
decreasing_by exact fgets_shorter (by decide) _h

/-- A line with a number. -/
def IsNumber (line : Bytes) : Prop := line.length = 11 ∧ ∀ b ∈ line, isDigit b = true

instance (line : Bytes) : Decidable (IsNumber line) := inferInstanceAs (Decidable (_ ∧ _))

/-- The statements for the numbers that the lines of the file give. -/
def insertNumbers (type : ListType) (file : Bytes) : List Bytes :=
  (((rawLines file).map content).filter fun line => IsNumber line).map fun line =>
    insertInto type (digitsValue line)

theorem importLoop_of_fgets {type : ListType} {stream phone rest : Bytes}
    (h : fgets 12 stream = some (phone, rest)) :
    importLoop type stream = insertPhone type phone ++ importLoop type rest := by
  rw [importLoop]
  split
  · rename_i hsome
    rw [h] at hsome
    cases hsome
    rfl
  · rename_i hnone
    rw [h] at hnone
    exact nomatch hnone

@[simp] theorem importLoop_nil (type : ListType) : importLoop type [] = [] := by
  rw [importLoop]
  split
  · rename_i hsome
    exact nomatch hsome
  · rfl

/-! ## Lines and pieces -/

/-- A line that is over is read without what stands behind it. -/
theorem importLoop_append (type : ListType) {raw : Bytes} (hshape : LineShaped raw)
    (hclosed : Closed raw) (rest : Bytes) :
    importLoop type (raw ++ rest) = importLoop type raw ++ importLoop type rest := by
  by_cases hne : raw = []
  · rw [hne, importLoop_nil]
    rfl
  · have hboth := fgets_line hne hshape (Or.inr hclosed : rest = [] ∨ Closed raw) 12
    have halone := fgets_line hne hshape (Or.inl rfl : ([] : Bytes) = [] ∨ Closed raw) 12
    rw [List.append_nil, List.append_nil] at halone
    have hlen : (raw.drop 11).length < raw.length := fgets_shorter (by decide) halone
    rw [importLoop_of_fgets hboth, importLoop_of_fgets halone,
      importLoop_append type (hshape.drop 11) (hclosed.drop 11) rest, List.append_assoc]
termination_by raw.length

/-- No piece of a short text has 11 bytes. -/
theorem importLoop_short (type : ListType) {stream : Bytes} (h : stream.length ≤ 10) :
    importLoop type stream = [] := by
  cases hget : fgets 12 stream with
  | none =>
    rw [importLoop]
    split
    · rename_i hsome
      exact nomatch hget.symm.trans hsome
    · rfl
  | some chunk =>
    obtain ⟨phone, rest⟩ := chunk
    have hless : rest.length < stream.length := fgets_shorter (by decide) hget
    have hlen := congrArg List.length (fgets_append hget)
    rw [List.length_append] at hlen
    rw [importLoop_of_fgets hget, importLoop_short type (by omega : rest.length ≤ 10),
      List.append_nil, insertPhone, if_neg (by omega)]
termination_by stream.length

/-- The first piece of a line of 11 bytes or more is inserted. -/
theorem importLoop_line (type : ListType) {raw : Bytes} (hshape : LineShaped raw)
    (hlen : 11 ≤ raw.length) :
    importLoop type raw =
      insertInto type (intval (raw.take 11)) :: importLoop type (raw.drop 11) := by
  have hne : raw ≠ [] := List.ne_nil_of_length_pos (by omega)
  have hget := fgets_line hne hshape (Or.inl rfl : ([] : Bytes) = [] ∨ Closed raw) 12
  rw [List.append_nil, List.append_nil] at hget
  rw [importLoop_of_fgets hget, insertPhone, if_pos (List.length_take_of_le hlen)]
  rfl

/-- The file is read line by line. -/
theorem importLoop_lines (type : ListType) (file : Bytes) :
    importLoop type file = (rawLines file).flatMap (importLoop type) := by
  induction file using lines_induction with
  | nil => exact importLoop_nil type
  | last text hne hmem => rw [rawLines_of_not_mem hmem hne, List.flatMap_singleton]
  | line raw rest hshape hlast ih =>
    have hclosed : Closed raw := fun b hb => Option.some.inj (hb.symm.trans hlast)
    rw [importLoop_append type hshape hclosed, rawLines_append hshape hlast, List.flatMap_cons,
      ih]

/-! ## Numbers -/

theorem magnitude_of_isDigit {line : Bytes} (hne : line ≠ [])
    (hdigits : ∀ b ∈ line, isDigit b = true) : magnitude line = digitsValue line := by
  have hwhole : line.takeWhile isDigit = line := List.takeWhile_eq_self_iff.mpr hdigits
  have hbehind : line.dropWhile isDigit = [] := List.dropWhile_eq_nil_iff.mpr hdigits
  simp [magnitude, hwhole, hbehind, hne, exponent]

/-- `intval` reads a line of 11 digits as its number. -/
theorem intval_of_isNumber {line : Bytes} (h : IsNumber line) :
    intval line = digitsValue line := by
  have hlt := digitsValue_lt line
  rw [h.1] at hlt
  cases line with
  | nil => exact absurd h.1 (by decide)
  | cons b rest =>
    have hb := h.2 b List.mem_cons_self
    obtain ⟨hspace, hminus, hplus⟩ := isDigit_other hb
    rw [intval, List.dropWhile_cons_of_neg (by simp [hspace])]
    simp only [hminus, hplus, if_false]
    rw [magnitude_of_isDigit (List.cons_ne_nil b rest) h.2]
    have hmax : (digitsValue (b :: rest) : Int) ≤ phpIntMax := by
      simp only [phpIntMax]
      omega
    exact Int.min_eq_right hmax

/-- A line with a number gives its statement, and its end gives nothing. -/
theorem importLoop_number (type : ListType) {raw : Bytes} (hshape : LineShaped raw)
    (hnumber : IsNumber (content raw)) :
    importLoop type raw = [insertInto type (digitsValue (content raw))] := by
  obtain ⟨ending, hending, hraw⟩ := content_append raw
  have hlen : raw.length = 11 + ending.length := by
    rw [← hnumber.1, ← List.length_append, ← hraw]
  have hshort : ending.length ≤ 2 := by
    simp only [List.mem_cons, List.not_mem_nil, or_false] at hending
    rcases hending with rfl | rfl | rfl <;> decide
  have htake : (content raw ++ ending).take 11 = content raw := List.take_left' hnumber.1
  rw [← hraw] at htake
  have hdrop : (raw.drop 11).length ≤ 10 := by
    rw [List.length_drop]
    omega
  rw [importLoop_line type hshape (by omega), htake, intval_of_isNumber hnumber,
    importLoop_short type hdrop]

/-! ## Other lines -/

/-- The numbers line by line. -/
theorem insertNumbers_lines (type : ListType) (file : Bytes) :
    insertNumbers type file = (rawLines file).flatMap fun raw =>
      if IsNumber (content raw) then [insertInto type (digitsValue (content raw))] else [] := by
  rw [insertNumbers]
  induction rawLines file with
  | nil => rfl
  | cons raw raws ih =>
    rw [List.map_cons, List.filter_cons, List.flatMap_cons, ← ih]
    by_cases h : IsNumber (content raw)
    · simp [h]
    · simp [h]

theorem length_flatMap_le {α β : Type} {f g : α → List β} {xs : List α}
    (hle : ∀ x ∈ xs, (g x).length ≤ (f x).length) :
    (xs.flatMap g).length ≤ (xs.flatMap f).length := by
  induction xs with
  | nil => exact Nat.le_refl 0
  | cons x xs ih =>
    rw [List.flatMap_cons, List.flatMap_cons, List.length_append, List.length_append]
    exact Nat.add_le_add (hle x List.mem_cons_self)
      (ih fun y hy => hle y (List.mem_cons_of_mem x hy))

/-- Where no part of the second list is longer than that of the first one, the lists are equal only
part by part. -/
theorem flatMap_eq_iff {α β : Type} {f g : α → List β} {xs : List α}
    (hle : ∀ x ∈ xs, (g x).length ≤ (f x).length) :
    xs.flatMap f = xs.flatMap g ↔ ∀ x ∈ xs, f x = g x := by
  refine ⟨fun h => ?_, List.flatMap_congr⟩
  induction xs with
  | nil => exact fun x hx => nomatch hx
  | cons x xs ih =>
    have hrest : ∀ y ∈ xs, (g y).length ≤ (f y).length := fun y hy =>
      hle y (List.mem_cons_of_mem x hy)
    rw [List.flatMap_cons, List.flatMap_cons] at h
    have hlen := congrArg List.length h
    rw [List.length_append, List.length_append] at hlen
    have hhead := hle x List.mem_cons_self
    have htail := length_flatMap_le hrest
    obtain ⟨hx, hxs⟩ := List.append_inj h (by omega)
    intro y hy
    rcases List.mem_cons.mp hy with rfl | hmem
    · exact hx
    · exact ih hrest hxs y hmem

/-- The numbers of the file are what is inserted if and only if no other line is longer than 10
bytes, with its end. -/
theorem importLoop_iff (type : ListType) (file : Bytes) :
    importLoop type file = insertNumbers type file ↔
      ∀ raw ∈ rawLines file, ¬ IsNumber (content raw) → raw.length ≤ 10 := by
  have hpart (raw : Bytes) (hraw : raw ∈ rawLines file) :
      importLoop type raw =
        (if IsNumber (content raw) then [insertInto type (digitsValue (content raw))] else []) ↔
          (¬ IsNumber (content raw) → raw.length ≤ 10) := by
    obtain ⟨hshape, -⟩ := rawLines_shape file raw hraw
    by_cases hnumber : IsNumber (content raw)
    · rw [if_pos hnumber]
      exact iff_of_true (importLoop_number type hshape hnumber) (absurd hnumber)
    · rw [if_neg hnumber]
      refine ⟨fun h _ => ?_, fun h => importLoop_short type (h hnumber)⟩
      by_contra hlong
      rw [importLoop_line type hshape (by omega)] at h
      exact nomatch h
  rw [importLoop_lines, insertNumbers_lines, flatMap_eq_iff]
  · exact forall₂_congr hpart
  · intro raw hraw
    obtain ⟨hshape, -⟩ := rawLines_shape file raw hraw
    split
    · rename_i hnumber
      rw [importLoop_number type hshape hnumber]
    · exact Nat.zero_le _

/-- A line of 10 digits and its line feed are 11 bytes, and of a line of 22 digits both halves are
inserted. -/
theorem importLoop_other_lines :
    (importLoop .blacklist (ascii "1380013800\n") =
        [ascii "INSERT INTO blacklist VALUES(1380013800)"] ∧
      insertNumbers .blacklist (ascii "1380013800\n") = []) ∧
    (importLoop .whitelist (ascii "1380013800013900139000\n") =
        [ascii "INSERT INTO whitelist VALUES(13800138000)",
          ascii "INSERT INTO whitelist VALUES(13900139000)"] ∧
      insertNumbers .whitelist (ascii "1380013800013900139000\n") = []) := by
  refine ⟨⟨?_, by decide⟩, ⟨?_, by decide⟩⟩
  · rw [importLoop_line _ (by unfold LineShaped; decide) (by decide),
      importLoop_short _ (by decide)]
    decide
  · rw [importLoop_line _ (by unfold LineShaped; decide) (by decide),
      importLoop_line _ (by unfold LineShaped; decide) (by decide),
      importLoop_short _ (by decide)]
    decide

end LambGateway.Web
