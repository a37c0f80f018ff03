import LambGateway.Framework.CText
import Mathlib.Algebra.GroupWithZero.Nat

/-!
# Character sets and `iconv`

A coded character set reads one character off the front of a text and writes one character.
`iconv` converts character by character and stops at the first one that is invalid or
incomplete, that the target cannot represent, or that no longer fits the output.
-/

namespace Framework

structure Charset where
  /-- The first character of a text: its code point and the number of bytes it takes. -/
  decode : Bytes → Option (Nat × Nat)
  encode : Nat → Option Bytes
  decode_size : ∀ {text c k}, decode text = some (c, k) → 0 < k ∧ k ≤ text.length

/-- What a call of `iconv` leaves: the bytes written, and the input not yet converted. -/
structure Conversion where
  output : Bytes
  rest : Bytes
  deriving DecidableEq

private def iconvLoop (src dst : Charset) : Nat → Bytes → Nat → Conversion
  | 0, input, _ => ⟨[], input⟩
  | n + 1, input, left =>
    match src.decode input with
    | none => ⟨[], input⟩
    | some (c, k) =>
      match dst.encode c with
      | none => ⟨[], input⟩
      | some bytes =>
        if bytes.length ≤ left then
          let next := iconvLoop src dst n (input.drop k) (left - bytes.length)
          ⟨bytes ++ next.output, next.rest⟩
        else ⟨[], input⟩

example (src dst : Charset) (input : Bytes) (left : Nat) :
    iconvLoop src dst 0 input left = ⟨[], input⟩ := by
  rw [iconvLoop]

/-- Convert `input` into an output of at most `size` bytes. Every character takes at least one
byte, so the length of the input bounds the number of rounds. -/
def iconv (src dst : Charset) (input : Bytes) (size : Nat) : Conversion :=
  iconvLoop src dst input.length input size

theorem Charset.decode_nil (cs : Charset) : cs.decode [] = none := by
  cases h : cs.decode [] with
  | none => rfl
  | some p =>
    have hsize := cs.decode_size h
    simp only [List.length_nil] at hsize
    omega

private theorem iconvLoop_fuel (src dst : Charset) {n m : Nat} {input : Bytes} (left : Nat)
    (hn : input.length ≤ n) (hm : input.length ≤ m) :
    iconvLoop src dst n input left = iconvLoop src dst m input left := by
  induction n generalizing m input left with
  | zero =>
    obtain rfl := List.length_eq_zero_iff.mp (Nat.le_zero.mp hn)
    cases m with
    | zero => rfl
    | succ m => simp [iconvLoop, src.decode_nil]
  | succ n ih =>
    cases m with
    | zero =>
      obtain rfl := List.length_eq_zero_iff.mp (Nat.le_zero.mp hm)
      simp [iconvLoop, src.decode_nil]
    | succ m =>
      rw [iconvLoop, iconvLoop]
      cases hd : src.decode input with
      | none => rfl
      | some p =>
        obtain ⟨c, k⟩ := p
        have hsize := src.decode_size hd
        have hdrop : (input.drop k).length = input.length - k := List.length_drop
        cases he : dst.encode c with
        | none => simp only [he]
        | some bytes =>
          simp only [he]
          rw [ih (m := m) _ (by omega) (by omega)]

/-- One round of the conversion. -/
theorem iconv_eq (src dst : Charset) (input : Bytes) (size : Nat) :
    iconv src dst input size =
      match src.decode input with
      | none => ⟨[], input⟩
      | some (c, k) =>
        match dst.encode c with
        | none => ⟨[], input⟩
        | some bytes =>
          if bytes.length ≤ size then
            let next := iconv src dst (input.drop k) (size - bytes.length)
            ⟨bytes ++ next.output, next.rest⟩
          else ⟨[], input⟩ := by
  rw [iconv]
  cases hlen : input.length with
  | zero =>
    obtain rfl := List.length_eq_zero_iff.mp hlen
    rw [src.decode_nil]
    rfl
  | succ n =>
    rw [iconvLoop]
    cases hd : src.decode input with
    | none => rfl
    | some p =>
      obtain ⟨c, k⟩ := p
      have hsize := src.decode_size hd
      have hdrop : (input.drop k).length = input.length - k := List.length_drop
      cases he : dst.encode c with
      | none => simp only [he]
      | some bytes =>
        simp only [he]
        rw [iconvLoop_fuel src dst (m := (input.drop k).length) _ (by omega) (Nat.le_refl _)]
        rfl

private def convertibleLoop (src dst : Charset) : Nat → Bytes → List Nat
  | 0, _ => []
  | n + 1, input =>
    match src.decode input with
    | none => []
    | some (c, k) =>
      match dst.encode c with
      | none => []
      | some _ => c :: convertibleLoop src dst n (input.drop k)

def convertible (src dst : Charset) (input : Bytes) : List Nat :=
  convertibleLoop src dst input.length input

def encodeAll (dst : Charset) (cs : List Nat) : Bytes := cs.flatMap fun c => (dst.encode c).getD []

theorem encodeAll_cons {dst : Charset} {c : Nat} {bytes : Bytes} (h : dst.encode c = some bytes)
    (cs : List Nat) : encodeAll dst (c :: cs) = bytes ++ encodeAll dst cs := by
  rw [encodeAll, List.flatMap_cons, h, Option.getD_some, encodeAll]

def convertedSize (src dst : Charset) (input : Bytes) : Nat :=
  (encodeAll dst (convertible src dst input)).length

private theorem convertibleLoop_mem {src dst : Charset} {n : Nat} {input : Bytes} {c : Nat}
    (h : c ∈ convertibleLoop src dst n input) : ∃ bytes, dst.encode c = some bytes := by
  induction n generalizing input with
  | zero => cases h
  | succ n ih =>
    rw [convertibleLoop] at h
    cases hd : src.decode input with
    | none => simp [hd] at h
    | some p =>
      obtain ⟨d, k⟩ := p
      cases he : dst.encode d with
      | none => simp [hd, he] at h
      | some bytes =>
        simp only [hd, he, List.mem_cons] at h
        rcases h with rfl | h
        · exact ⟨bytes, he⟩
        · exact ih h

theorem encode_of_mem_convertible {src dst : Charset} {input : Bytes} {c : Nat}
    (h : c ∈ convertible src dst input) : ∃ bytes, dst.encode c = some bytes :=
  convertibleLoop_mem h

private theorem iconvLoop_output (src dst : Charset) (n : Nat) (input : Bytes) (left : Nat)
    (h : (encodeAll dst (convertibleLoop src dst n input)).length ≤ left) :
    (iconvLoop src dst n input left).output = encodeAll dst (convertibleLoop src dst n input) := by
  induction n generalizing input left with
  | zero => rfl
  | succ n ih =>
    rw [iconvLoop, convertibleLoop] at *
    cases hd : src.decode input with
    | none => rfl
    | some p =>
      obtain ⟨c, k⟩ := p
      cases he : dst.encode c with
      | none =>
        simp only [he]
        rfl
      | some bytes =>
        simp only [hd, he, encodeAll_cons he, List.length_append] at h ⊢
        rw [if_pos (by omega)]
        simp only
        rw [ih _ _ (by omega)]

/-- An output that is large enough receives the whole convertible part of the text. -/
theorem iconv_output {src dst : Charset} {input : Bytes} {size : Nat}
    (h : convertedSize src dst input ≤ size) :
    (iconv src dst input size).output = encodeAll dst (convertible src dst input) :=
  iconvLoop_output src dst input.length input size h

private theorem iconvLoop_length_le (src dst : Charset) (n : Nat) (input : Bytes) (left : Nat) :
    (iconvLoop src dst n input left).output.length ≤ left := by
  induction n generalizing input left with
  | zero => exact Nat.zero_le _
  | succ n ih =>
    rw [iconvLoop]
    cases src.decode input with
    | none => exact Nat.zero_le _
    | some p =>
      obtain ⟨c, k⟩ := p
      cases he : dst.encode c with
      | none => simp [he]
      | some bytes =>
        simp only [he]
        split
        · have h := ih (input.drop k) (left - bytes.length)
          simp only [List.length_append]
          omega
        · exact Nat.zero_le _

theorem iconv_length_le (src dst : Charset) (input : Bytes) (size : Nat) :
    (iconv src dst input size).output.length ≤ size :=
  iconvLoop_length_le src dst input.length input size

private theorem convertibleLoop_size_le {src dst : Charset} {w d : Nat}
    (hw : ∀ text c k bytes, src.decode text = some (c, k) → dst.encode c = some bytes →
      d * bytes.length ≤ w * k) (n : Nat) (input : Bytes) :
    d * (encodeAll dst (convertibleLoop src dst n input)).length ≤ w * input.length := by
  induction n generalizing input with
  | zero => exact Nat.zero_le _
  | succ n ih =>
    rw [convertibleLoop]
    cases hd : src.decode input with
    | none => exact Nat.zero_le _
    | some p =>
      obtain ⟨c, k⟩ := p
      cases he : dst.encode c with
      | none =>
        simp only [he]
        exact Nat.zero_le _
      | some bytes =>
        simp only [he, encodeAll_cons he, List.length_append]
        have hbytes := hw input c k bytes hd he
        have hrest := ih (input.drop k)
        have hk := (src.decode_size hd).2
        rw [List.length_drop, Nat.mul_sub] at hrest
        have hle := Nat.mul_le_mul_left w hk
        rw [Nat.mul_add]
        omega

/-- If no character grows by more than `w` bytes for `d`, no text does. -/
theorem convertedSize_le {src dst : Charset} {w d : Nat}
    (hw : ∀ text c k bytes, src.decode text = some (c, k) → dst.encode c = some bytes →
      d * bytes.length ≤ w * k) (input : Bytes) :
    d * convertedSize src dst input ≤ w * input.length :=
  convertibleLoop_size_le hw input.length input

/-! ## Encodings -/

/-- The code points reserved for UTF-16, which no encoding here accepts. -/
def isSurrogate (c : Nat) : Bool := 0xD800 ≤ c && c < 0xE000

def asciiDecode : Bytes → Option (Nat × Nat)
  | a :: _ => if a < 0x80 then some (a.toNat, 1) else none
  | [] => none

def asciiCharset : Charset where
  decode := asciiDecode
  encode c := if c < 0x80 then some [c.toUInt8] else none
  decode_size := by
    intro text c k h
    unfold asciiDecode at h
    split at h <;> simp_all
    omega

def ucs2beDecode : Bytes → Option (Nat × Nat)
  | a :: b :: _ =>
    let c := 256 * a.toNat + b.toNat
    if isSurrogate c then none else some (c, 2)
  | _ => none

/-- UCS-2, high byte first. -/
def ucs2beCharset : Charset where
  decode := ucs2beDecode
  encode c :=
    if c < 0x10000 && !isSurrogate c then some [(c / 256).toUInt8, (c % 256).toUInt8] else none
  decode_size := by
    intro text c k h
    unfold ucs2beDecode at h
    split at h <;> simp_all
    omega

def utf8Encode (c : Nat) : Option Bytes :=
  if c < 0x80 then some [c.toUInt8]
  else if c < 0x800 then some [(0xC0 + c / 64).toUInt8, (0x80 + c % 64).toUInt8]
  else if isSurrogate c then none
  else if c < 0x10000 then
    some [(0xE0 + c / 4096).toUInt8, (0x80 + c / 64 % 64).toUInt8, (0x80 + c % 64).toUInt8]
  else if c < 0x110000 then
    some [(0xF0 + c / 262144).toUInt8, (0x80 + c / 4096 % 64).toUInt8,
      (0x80 + c / 64 % 64).toUInt8, (0x80 + c % 64).toUInt8]
  else none

/-- A continuation byte, as the six bits it carries. -/
def utf8Tail (b : UInt8) : Option Nat :=
  if 0x80 ≤ b && b < 0xC0 then some (b.toNat - 0x80) else none

/-- The first character of a UTF-8 text: longer forms than needed and surrogates are invalid. -/
def utf8Decode : Bytes → Option (Nat × Nat)
  | [] => none
  | a :: rest =>
    if a < 0x80 then some (a.toNat, 1)
    else if a < 0xC2 then none
    else if a < 0xE0 then
      match rest with
      | b :: _ => (utf8Tail b).map fun y => ((a.toNat - 0xC0) * 64 + y, 2)
      | _ => none
    else if a < 0xF0 then
      match rest with
      | b :: d :: _ =>
        match utf8Tail b, utf8Tail d with
        | some y, some z =>
          let c := (a.toNat - 0xE0) * 4096 + y * 64 + z
          if c < 0x800 || isSurrogate c then none else some (c, 3)
        | _, _ => none
      | _ => none
    else if a < 0xF5 then
      match rest with
      | b :: d :: e :: _ =>
        match utf8Tail b, utf8Tail d, utf8Tail e with
        | some y, some z, some w =>
          let c := (a.toNat - 0xF0) * 262144 + y * 4096 + z * 64 + w
          if c < 0x10000 || 0x110000 ≤ c then none else some (c, 4)
        | _, _, _ => none
      | _ => none
    else none

def utf8Charset : Charset where
  decode := utf8Decode
  encode := utf8Encode
  decode_size := by
    intro text c k h
    unfold utf8Decode at h
    (repeat' split at h) <;> simp_all <;> omega

/-- The double-byte part of GBK: a table over the lead and the trail byte, whose characters all
lie in the basic plane. -/
structure GbkTable where
  toUcs : UInt8 → UInt8 → Option Nat
  ofUcs : Nat → Option (UInt8 × UInt8)
  toUcs_lt : ∀ {a b c}, toUcs a b = some c → c < 0x10000

def gbkDecode (table : GbkTable) : Bytes → Option (Nat × Nat)
  | [] => none
  | a :: rest =>
    if a < 0x80 then some (a.toNat, 1)
    else match rest with
      | b :: _ => (table.toUcs a b).map fun c => (c, 2)
      | [] => none

/-- GBK: ASCII and the table. -/
def gbkCharset (table : GbkTable) : Charset where
  decode := gbkDecode table
  encode c :=
    if c < 0x80 then some [c.toUInt8] else (table.ofUcs c).map fun p => [p.1, p.2]
  decode_size := by
    intro text c k h
    unfold gbkDecode at h
    (repeat' split at h) <;> simp_all <;> omega

theorem utf8Encode_length_le {c : Nat} {bytes : Bytes} (hc : c < 0x10000)
    (h : utf8Encode c = some bytes) : bytes.length ≤ 3 ∧ (c < 0x80 → bytes.length = 1) := by
  unfold utf8Encode at h
  (repeat' split at h) <;> cases h <;> simp <;> omega

theorem utf8Encode_ne_nil {c : Nat} {bytes : Bytes} (h : utf8Encode c = some bytes) :
    bytes ≠ [] := by
  unfold utf8Encode at h
  (repeat' split at h) <;> cases h <;> simp

def utf8Width (c : Nat) : Nat :=
  if c < 0x80 then 1 else if c < 0x800 then 2 else if c < 0x10000 then 3 else 4

theorem utf8Encode_length {c : Nat} {bytes : Bytes} (h : utf8Encode c = some bytes) :
    bytes.length = utf8Width c := by
  unfold utf8Encode at h
  (repeat' split at h) <;> cases h <;> simp [utf8Width, *]

/-- An ASCII byte of a UTF-8 text is that character and never a part of another one. -/
theorem mem_utf8Encode_iff {c : Nat} {bytes : Bytes} (h : utf8Encode c = some bytes) {b : UInt8}
    (hb : b < 0x80) : b ∈ bytes ↔ c = b.toNat := by
  have hb : b.toNat < 128 := UInt8.lt_iff_toNat_lt.mp hb
  unfold utf8Encode at h
  (repeat' split at h) <;> cases h <;>
    simp only [List.mem_cons, List.not_mem_nil, or_false, ← UInt8.toNat_inj, Nat.toUInt8_eq,
      UInt8.toNat_ofNat'] <;> omega

theorem mem_encodeAll_utf8_iff {cs : List Nat} (hcs : ∀ c ∈ cs, ∃ bytes, utf8Encode c = some bytes)
    {b : UInt8} (hb : b < 0x80) : b ∈ encodeAll utf8Charset cs ↔ b.toNat ∈ cs := by
  simp only [encodeAll, List.mem_flatMap]
  constructor
  · rintro ⟨c, hc, hbc⟩
    obtain ⟨bytes, he⟩ := hcs c hc
    change b ∈ (utf8Encode c).getD [] at hbc
    rw [he, Option.getD_some, mem_utf8Encode_iff he hb] at hbc
    exact hbc ▸ hc
  · intro hc
    obtain ⟨bytes, he⟩ := hcs _ hc
    refine ⟨b.toNat, hc, ?_⟩
    change b ∈ (utf8Encode b.toNat).getD []
    rw [he, Option.getD_some, mem_utf8Encode_iff he hb]

theorem encodeAll_utf8_length {cs : List Nat}
    (hcs : ∀ c ∈ cs, ∃ bytes, utf8Encode c = some bytes) :
    (encodeAll utf8Charset cs).length = (cs.map utf8Width).sum := by
  induction cs with
  | nil => rfl
  | cons c cs ih =>
    obtain ⟨bytes, he⟩ := hcs c (by simp)
    rw [encodeAll_cons he, List.length_append, utf8Encode_length he, List.map_cons, List.sum_cons,
      ih fun d hd => hcs d (by simp [hd])]

theorem encodeAll_utf8_eq_nil_iff {cs : List Nat}
    (hcs : ∀ c ∈ cs, ∃ bytes, utf8Encode c = some bytes) :
    encodeAll utf8Charset cs = [] ↔ cs = [] := by
  constructor
  · intro h
    cases cs with
    | nil => rfl
    | cons c cs =>
      obtain ⟨bytes, he⟩ := hcs c (by simp)
      rw [encodeAll_cons he, List.append_eq_nil_iff] at h
      exact absurd h.1 (utf8Encode_ne_nil he)
  · rintro rfl
    rfl

/-! ## Growth in UTF-8 -/

/-- Single bytes carry ASCII, and the other characters are two bytes of the basic plane. -/
def Charset.DoubleByte (cs : Charset) : Prop :=
  ∀ text c k, cs.decode text = some (c, k) → (c < 0x80 ∧ k = 1) ∨ (c < 0x10000 ∧ k = 2)

theorem asciiDecode_eq_some {text : Bytes} {c k : Nat} (h : asciiDecode text = some (c, k)) :
    c < 0x80 ∧ k = 1 := by
  unfold asciiDecode at h
  split at h
  · split at h
    · next hlt =>
      simp only [Option.some.injEq, Prod.mk.injEq] at h
      rw [UInt8.lt_iff_toNat_lt] at hlt
      exact ⟨h.1 ▸ hlt, h.2.symm⟩
    · cases h
  · cases h

theorem asciiCharset_doubleByte : asciiCharset.DoubleByte :=
  fun _ _ _ h => .inl (asciiDecode_eq_some h)

theorem ucs2beCharset_doubleByte : ucs2beCharset.DoubleByte := by
  intro text c k h
  change ucs2beDecode text = some (c, k) at h
  unfold ucs2beDecode at h
  split at h
  · next a b _ =>
    have ha := a.toNat_lt
    have hb := b.toNat_lt
    dsimp only at h
    split at h
    · cases h
    · simp only [Option.some.injEq, Prod.mk.injEq] at h
      omega
  · cases h

theorem gbkCharset_doubleByte (table : GbkTable) : (gbkCharset table).DoubleByte := by
  intro text c k h
  change gbkDecode table text = some (c, k) at h
  unfold gbkDecode at h
  split at h
  · cases h
  · next a _ =>
    split at h
    · next hlt =>
      simp only [Option.some.injEq, Prod.mk.injEq] at h
      rw [UInt8.lt_iff_toNat_lt] at hlt
      exact .inl ⟨h.1 ▸ hlt, h.2.symm⟩
    · split at h
      · obtain ⟨d, hd, he⟩ := Option.map_eq_some_iff.mp h
        simp only [Prod.mk.injEq] at he
        exact .inr ⟨he.1 ▸ table.toUcs_lt hd, he.2.symm⟩
      · cases h

/-- A double-byte text takes at most three bytes of UTF-8 for two of its own. -/
theorem convertedSize_utf8_le {src : Charset} (hsrc : src.DoubleByte) (input : Bytes) :
    2 * convertedSize src utf8Charset input ≤ 3 * input.length := by
  apply convertedSize_le
  intro text c k bytes hd he
  change utf8Encode c = some bytes at he
  rcases hsrc text c k hd with ⟨hc, rfl⟩ | ⟨hc, rfl⟩
  · have hone := (utf8Encode_length_le (by omega) he).2 hc
    omega
  · have hthree := (utf8Encode_length_le hc he).1
    omega

end Framework
