import Mathlib.Data.List.TakeWhile

/-!
# C text

Memory is a list of bytes, and a string is what stands before the first zero byte. The library
calls that copy and print such strings are given by the bytes they leave behind.
-/

namespace Framework

abbrev Bytes := List UInt8

def ascii (s : String) : Bytes := s.toList.map fun c => c.toNat.toUInt8

theorem ascii_append (s t : String) : ascii (s ++ t) = ascii s ++ ascii t := by
  rw [ascii, String.toList_append, List.map_append, ascii, ascii]

/-- The string that starts a region of memory: `%s` and `strlen` stop at the first zero byte. -/
def cstr (memory : Bytes) : Bytes := memory.takeWhile (· != 0)

theorem cstr_no_nul (memory : Bytes) : 0 ∉ cstr memory := by
  intro h
  have hb := List.mem_takeWhile_imp h
  simp at hb

theorem cstr_of_no_nul {text : Bytes} (h : 0 ∉ text) (rest : Bytes) :
    cstr (text ++ 0 :: rest) = text := by
  have htext : ∀ b ∈ text, (b != 0) = true := by
    intro b hb
    simpa using fun he : b = 0 => h (he ▸ hb)
  rw [cstr, List.takeWhile_append_of_pos htext]
  simp

/-- A region without a zero byte is read to its end and on into whatever follows it. -/
theorem cstr_append_of_no_nul {text : Bytes} (h : 0 ∉ text) (rest : Bytes) :
    cstr (text ++ rest) = text ++ cstr rest := by
  have htext : ∀ b ∈ text, (b != 0) = true := by
    intro b hb
    simpa using fun he : b = 0 => h (he ▸ hb)
  rw [cstr, List.takeWhile_append_of_pos htext, cstr]

theorem cstr_append_of_nul {text : Bytes} (h : 0 ∈ text) (rest : Bytes) :
    cstr (text ++ rest) = cstr text := by
  obtain ⟨front, behind, rfl, hfront⟩ := List.eq_append_cons_of_mem h
  rw [List.append_assoc, List.cons_append, cstr_of_no_nul hfront, cstr_of_no_nul hfront]

theorem cstr_isPrefix (memory : Bytes) : cstr memory <+: memory := List.takeWhile_prefix _

theorem cstr_eq_self {text : Bytes} (h : 0 ∉ text) : cstr text = text := by
  have happ := cstr_append_of_no_nul h []
  rwa [List.append_nil, show cstr [] = [] from rfl, List.append_nil] at happ

/-- A string held by a zeroed array: at most `n` bytes, none of them zero. -/
@[ext]
structure CString (n : Nat) where
  text : Bytes
  length_le : text.length ≤ n
  no_nul : 0 ∉ text
  deriving DecidableEq

/-- `strncpy` into a zeroed array of more than `n` bytes. -/
def strncpy (src : Bytes) (n : Nat) : CString n where
  text := (cstr src).take n
  length_le := List.length_take_le _ _
  no_nul h := cstr_no_nul src (List.mem_of_mem_take h)

theorem strncpy_text {src : Bytes} {n : Nat} (hlen : src.length ≤ n) (hnul : 0 ∉ src) :
    (strncpy src n).text = src := by
  change (cstr src).take n = src
  rw [cstr_eq_self hnul, List.take_of_length_le hlen]

theorem CString.cstr_text {m : Nat} (s : CString m) : cstr s.text = s.text :=
  cstr_eq_self s.no_nul

theorem cstr_take_cstr (memory : Bytes) (n : Nat) :
    cstr ((cstr memory).take n) = (cstr memory).take n :=
  (strncpy memory n).cstr_text

@[simp] theorem strncpy_cstring {m : Nat} (s : CString m) (n : Nat) :
    (strncpy s.text n).text = s.text.take n :=
  congrArg (List.take n) s.cstr_text

def CString.widen {m : Nat} (s : CString m) (n : Nat) (h : m ≤ n) : CString n where
  text := s.text
  length_le := s.length_le.trans h
  no_nul := s.no_nul

@[simp] theorem CString.widen_text {m : Nat} (s : CString m) (n : Nat) (h : m ≤ n) :
    (s.widen n h).text = s.text :=
  rfl

def strstr : Bytes → Bytes → Bool
  | [], needle => needle.isEmpty
  | b :: text, needle => needle.isPrefixOf (b :: text) || strstr text needle

theorem strstr_iff (text needle : Bytes) : strstr text needle = true ↔ needle <:+: text := by
  induction text with
  | nil => rw [strstr, List.isEmpty_iff, List.infix_nil]
  | cons b text ih => rw [strstr, Bool.or_eq_true, List.isPrefixOf_iff_prefix, ih, List.infix_cons_iff]

/-- `snprintf` into a buffer of `size` bytes keeps the last byte for the terminator. -/
def snprintf (size : Nat) (output : Bytes) : Bytes := output.take (size - 1)

theorem snprintf_of_length_lt {size : Nat} {output : Bytes} (h : output.length < size) :
    snprintf size output = output :=
  List.take_of_length_le (by omega)

/-- What is printed is the whole output if and only if the output fits. -/
theorem snprintf_eq_self_iff {size : Nat} (hsize : 0 < size) (output : Bytes) :
    snprintf size output = output ↔ output.length < size := by
  constructor
  · intro h
    have hlen := congrArg List.length h
    rw [snprintf, List.length_take] at hlen
    omega
  · exact snprintf_of_length_lt

theorem snprintf_append_drop (size : Nat) (output : Bytes) :
    snprintf size output ++ output.drop (size - 1) = output :=
  List.take_append_drop _ _

end Framework
