import LambGateway.Framework.Charset

/-!
# Converting whole texts

A text decodes if it consists of characters alone. Its conversion writes the characters that the
target can represent and the output can hold, up to the first that fails; whether this is the
whole text is decided by the characters themselves.
-/

namespace Framework

private def decodeLoop (cs : Charset) : Nat → Bytes → Option (List Nat)
  | _, [] => some []
  | 0, _ :: _ => none
  | n + 1, b :: input =>
    match cs.decode (b :: input) with
    | none => none
    | some (c, k) => (decodeLoop cs n ((b :: input).drop k)).map (c :: ·)

def decodeAll (cs : Charset) (input : Bytes) : Option (List Nat) :=
  decodeLoop cs input.length input

private theorem decodeLoop_fuel (cs : Charset) {n m : Nat} {input : Bytes}
    (hn : input.length ≤ n) (hm : input.length ≤ m) :
    decodeLoop cs n input = decodeLoop cs m input := by
  induction n generalizing m input with
  | zero =>
    obtain rfl := List.length_eq_zero_iff.mp (Nat.le_zero.mp hn)
    simp only [decodeLoop]
  | succ n ih =>
    cases input with
    | nil => simp only [decodeLoop]
    | cons b input =>
      cases m with
      | zero => cases hm
      | succ m =>
        rw [decodeLoop, decodeLoop]
        cases hd : cs.decode (b :: input) with
        | none => rfl
        | some p =>
          obtain ⟨c, k⟩ := p
          have hsize := cs.decode_size hd
          have hdrop : ((b :: input).drop k).length = (b :: input).length - k := List.length_drop
          simp only
          rw [ih (m := m) (by omega) (by omega)]

@[simp] theorem decodeAll_nil (cs : Charset) : decodeAll cs [] = some [] := rfl

theorem decodeAll_of_ne_nil (cs : Charset) {input : Bytes} (h : input ≠ []) :
    decodeAll cs input =
      (cs.decode input).bind fun p => (decodeAll cs (input.drop p.2)).map (p.1 :: ·) := by
  cases input with
  | nil => exact absurd rfl h
  | cons b input =>
    rw [decodeAll, List.length_cons, decodeLoop]
    cases hd : cs.decode (b :: input) with
    | none => rfl
    | some p =>
      obtain ⟨c, k⟩ := p
      have hsize := cs.decode_size hd
      have hdrop : ((b :: input).drop k).length = (b :: input).length - k := List.length_drop
      rw [List.length_cons] at hdrop
      simp only [Option.bind_some]
      rw [decodeAll, decodeLoop_fuel cs (m := ((b :: input).drop k).length) (by omega)
        (Nat.le_refl _)]

theorem decodeAll_eq_some_nil {cs : Charset} {input : Bytes} :
    decodeAll cs input = some [] ↔ input = [] := by
  constructor
  · intro h
    by_contra hne
    rw [decodeAll_of_ne_nil cs hne] at h
    obtain ⟨p, -, hp⟩ := Option.bind_eq_some_iff.mp h
    obtain ⟨chars, -, hchars⟩ := Option.map_eq_some_iff.mp hp
    cases hchars
  · rintro rfl
    rfl

theorem decodeAll_eq_some_cons {cs : Charset} {input : Bytes} {c : Nat} {chars : List Nat} :
    decodeAll cs input = some (c :: chars) ↔
      ∃ k, cs.decode input = some (c, k) ∧ decodeAll cs (input.drop k) = some chars := by
  have hne (k : Nat) (h : cs.decode input = some (c, k)) : input ≠ [] := by
    rintro rfl
    rw [cs.decode_nil] at h
    cases h
  constructor
  · intro h
    have hinput : input ≠ [] := by
      rintro rfl
      cases h
    rw [decodeAll_of_ne_nil cs hinput] at h
    obtain ⟨⟨d, k⟩, hd, hp⟩ := Option.bind_eq_some_iff.mp h
    obtain ⟨rest, hrest, heq⟩ := Option.map_eq_some_iff.mp hp
    cases heq
    exact ⟨k, hd, hrest⟩
  · rintro ⟨k, hd, hrest⟩
    rw [decodeAll_of_ne_nil cs (hne k hd), hd, Option.bind_some, hrest, Option.map_some]

/-! ## What a conversion writes -/

/-- The characters written into an output of `size` bytes. -/
def fitting (dst : Charset) : Nat → List Nat → List Nat
  | _, [] => []
  | size, c :: chars =>
    match dst.encode c with
    | none => []
    | some bytes =>
      if bytes.length ≤ size then c :: fitting dst (size - bytes.length) chars else []

/-- The target represents all the characters, in at most `size` bytes. -/
def Fits (dst : Charset) (size : Nat) (chars : List Nat) : Prop :=
  (∀ c ∈ chars, (dst.encode c).isSome = true) ∧ (encodeAll dst chars).length ≤ size

instance (dst : Charset) (size : Nat) (chars : List Nat) : Decidable (Fits dst size chars) :=
  inferInstanceAs (Decidable (_ ∧ _))

theorem fits_nil (dst : Charset) (size : Nat) : Fits dst size [] :=
  ⟨List.forall_mem_nil _, Nat.zero_le _⟩

theorem fits_cons {dst : Charset} {size : Nat} {c : Nat} {chars : List Nat} {bytes : Bytes}
    (h : dst.encode c = some bytes) :
    Fits dst size (c :: chars) ↔
      bytes.length ≤ size ∧ Fits dst (size - bytes.length) chars := by
  simp only [Fits, List.forall_mem_cons, h, Option.isSome_some, true_and, encodeAll_cons h,
    List.length_append]
  constructor
  · rintro ⟨hchars, hsize⟩
    exact ⟨by omega, hchars, by omega⟩
  · rintro ⟨hbytes, hchars, hsize⟩
    exact ⟨hchars, by omega⟩

theorem not_fits_cons {dst : Charset} {size : Nat} {c : Nat} {chars : List Nat}
    (h : dst.encode c = none) : ¬Fits dst size (c :: chars) := by
  intro hfits
  have hc := hfits.1 c List.mem_cons_self
  rw [h] at hc
  cases hc

theorem fitting_prefix (dst : Charset) (size : Nat) (chars : List Nat) :
    fitting dst size chars <+: chars := by
  induction chars generalizing size with
  | nil => exact List.prefix_rfl
  | cons c chars ih =>
    rw [fitting]
    cases dst.encode c with
    | none => exact List.nil_prefix
    | some bytes =>
      simp only
      split
      · exact List.cons_prefix_cons.mpr ⟨rfl, ih _⟩
      · exact List.nil_prefix

theorem fits_fitting (dst : Charset) (size : Nat) (chars : List Nat) :
    Fits dst size (fitting dst size chars) := by
  induction chars generalizing size with
  | nil => exact fits_nil dst size
  | cons c chars ih =>
    rw [fitting]
    cases he : dst.encode c with
    | none => exact fits_nil dst size
    | some bytes =>
      simp only
      split
      · next hle => exact (fits_cons he).mpr ⟨hle, ih _⟩
      · exact fits_nil dst size

theorem fitting_eq_self_iff {dst : Charset} {size : Nat} {chars : List Nat} :
    fitting dst size chars = chars ↔ Fits dst size chars := by
  constructor
  · intro h
    rw [← h]
    exact fits_fitting dst size chars
  · intro h
    induction chars generalizing size with
    | nil => rfl
    | cons c chars ih =>
      cases he : dst.encode c with
      | none => exact absurd h (not_fits_cons he)
      | some bytes =>
        obtain ⟨hle, hrest⟩ := (fits_cons he).mp h
        simp only [fitting, he, if_pos hle, ih hrest]

theorem iconv_output_of_decodeAll {src dst : Charset} {input : Bytes} {chars : List Nat}
    (h : decodeAll src input = some chars) (size : Nat) :
    (iconv src dst input size).output = encodeAll dst (fitting dst size chars) := by
  induction chars generalizing input size with
  | nil =>
    obtain rfl := decodeAll_eq_some_nil.mp h
    rfl
  | cons c chars ih =>
    obtain ⟨k, hd, hrest⟩ := decodeAll_eq_some_cons.mp h
    rw [iconv_eq, hd, fitting]
    cases he : dst.encode c with
    | none => simp only [he]; rfl
    | some bytes =>
      simp only [he]
      split
      · rw [encodeAll_cons he, ← ih hrest]
      · rfl

/-! ## Nothing, or everything -/

/-- Every character takes from one to `n` bytes. -/
def Charset.Width (cs : Charset) (n : Nat) : Prop :=
  ∀ c bytes, cs.encode c = some bytes → 0 < bytes.length ∧ bytes.length ≤ n

/-- The first character of the text has a counterpart in the target, for which there is room. -/
def firstConverts (src dst : Charset) (size : Nat) (input : Bytes) : Bool :=
  ((src.decode input).bind fun p => dst.encode p.1).any fun bytes => bytes.length ≤ size

theorem firstConverts_iff {src dst : Charset} {size : Nat} {input : Bytes} :
    firstConverts src dst size input = true ↔
      ∃ c k bytes, src.decode input = some (c, k) ∧ dst.encode c = some bytes ∧
        bytes.length ≤ size := by
  rw [firstConverts]
  cases hd : src.decode input with
  | none => simp
  | some p =>
    obtain ⟨c, k⟩ := p
    cases he : dst.encode c with
    | none => simp [he]
    | some bytes => simp [he]

theorem iconv_output_ne_nil_iff (src : Charset) {dst : Charset} {n : Nat} (hdst : dst.Width n)
    (size : Nat) (input : Bytes) :
    (iconv src dst input size).output ≠ [] ↔ firstConverts src dst size input = true := by
  rw [iconv_eq, firstConverts]
  cases hd : src.decode input with
  | none => simp
  | some p =>
    obtain ⟨c, k⟩ := p
    cases he : dst.encode c with
    | none => simp [he]
    | some bytes =>
      have hne : bytes ≠ [] := List.length_pos_iff.mp (hdst c bytes he).1
      by_cases hle : bytes.length ≤ size <;> simp [he, hle, hne]

/-- The bytes are the conversion of the text from its first to its last character. -/
def WholeConversion (src dst : Charset) (input output : Bytes) : Prop :=
  ∃ chars, decodeAll src input = some chars ∧
    (∀ c ∈ chars, (dst.encode c).isSome = true) ∧ output = encodeAll dst chars

/-- The text decodes, and the target and the output take all of it. -/
def ConvertsWhole (src dst : Charset) (input : Bytes) (size : Nat) : Prop :=
  ∃ chars, decodeAll src input = some chars ∧ Fits dst size chars

theorem iconv_whole_iff (src dst : Charset) (input : Bytes) (size : Nat) :
    WholeConversion src dst input (iconv src dst input size).output ↔
      ConvertsWhole src dst input size := by
  constructor
  · rintro ⟨chars, hchars, hsome, hout⟩
    have hlen := iconv_length_le src dst input size
    rw [hout] at hlen
    exact ⟨chars, hchars, hsome, hlen⟩
  · rintro ⟨chars, hchars, hfits⟩
    refine ⟨chars, hchars, hfits.1, ?_⟩
    rw [iconv_output_of_decodeAll hchars, fitting_eq_self_iff.mpr hfits]

/-! ## Reading back -/

/-- What the set writes for a character it reads as this character, whatever follows. -/
def Charset.RoundTrip (cs : Charset) : Prop :=
  ∀ c bytes rest, cs.encode c = some bytes → cs.decode (bytes ++ rest) = some (c, bytes.length)

theorem decodeAll_encodeAll {cs : Charset} (hcs : cs.RoundTrip) {chars : List Nat}
    (h : ∀ c ∈ chars, (cs.encode c).isSome = true) :
    decodeAll cs (encodeAll cs chars) = some chars := by
  induction chars with
  | nil => rfl
  | cons c chars ih =>
    obtain ⟨hc, hrest⟩ := List.forall_mem_cons.mp h
    obtain ⟨bytes, he⟩ := Option.isSome_iff_exists.mp hc
    rw [encodeAll_cons he, decodeAll_eq_some_cons]
    refine ⟨bytes.length, hcs c bytes _ he, ?_⟩
    rw [List.drop_left]
    exact ih hrest

theorem decodeAll_iconv {src dst : Charset} (hdst : dst.RoundTrip) {input : Bytes}
    {chars : List Nat} (h : decodeAll src input = some chars) (size : Nat) :
    decodeAll dst (iconv src dst input size).output = some (fitting dst size chars) := by
  rw [iconv_output_of_decodeAll h]
  exact decodeAll_encodeAll hdst (fits_fitting dst size chars).1

/-- What is written is read back from its first character on. -/
theorem decode_iconv_output {src dst : Charset} (hdst : dst.RoundTrip) {input : Bytes} {c k : Nat}
    {bytes : Bytes} {size : Nat} (hd : src.decode input = some (c, k))
    (he : dst.encode c = some bytes) (hle : bytes.length ≤ size) :
    dst.decode (iconv src dst input size).output = some (c, bytes.length) := by
  rw [iconv_eq, hd]
  simp only [he, if_pos hle]
  exact hdst c bytes _ he

private theorem toNat_toUInt8 {n : Nat} (h : n < 256) : n.toUInt8.toNat = n :=
  UInt8.toNat_ofNat_of_lt' h

private theorem toUInt8_lt {n : Nat} (h : n < 0x80) : n.toUInt8 < 0x80 := by
  rw [UInt8.lt_iff_toNat_lt, toNat_toUInt8 (Nat.lt_trans h (by decide))]
  exact h

theorem asciiCharset_roundTrip : asciiCharset.RoundTrip := by
  intro c bytes rest h
  change (if c < 0x80 then some [c.toUInt8] else none) = some bytes at h
  split at h
  · next hc =>
    cases h
    have hbyte : c.toUInt8.toNat = c := toNat_toUInt8 (by omega)
    have hlt : c.toUInt8 < 0x80 := toUInt8_lt hc
    change asciiDecode (c.toUInt8 :: rest) = some (c, 1)
    rw [asciiDecode, if_pos hlt, hbyte]
  · cases h

theorem ucs2beCharset_roundTrip : ucs2beCharset.RoundTrip := by
  intro c bytes rest h
  change (if c < 0x10000 && !isSurrogate c then
    some [(c / 256).toUInt8, (c % 256).toUInt8] else none) = some bytes at h
  split at h
  · next hc =>
    cases h
    simp only [Bool.and_eq_true, decide_eq_true_eq, Bool.not_eq_true'] at hc
    have hhigh : (c / 256).toUInt8.toNat = c / 256 := toNat_toUInt8 (by omega)
    have hlow : (c % 256).toUInt8.toNat = c % 256 := toNat_toUInt8 (by omega)
    have hc' : 256 * (c / 256) + c % 256 = c := Nat.div_add_mod c 256
    change ucs2beDecode ((c / 256).toUInt8 :: (c % 256).toUInt8 :: rest) = some (c, 2)
    simp only [ucs2beDecode, hhigh, hlow, hc', hc.2, Bool.false_eq_true, if_false]
  · cases h

/-- A table whose double bytes are read back as the characters they are written for. -/
def GbkTable.RoundTrip (table : GbkTable) : Prop :=
  ∀ c a b, table.ofUcs c = some (a, b) → 0x80 ≤ a ∧ table.toUcs a b = some c

theorem gbkCharset_roundTrip {table : GbkTable} (htable : table.RoundTrip) :
    (gbkCharset table).RoundTrip := by
  intro c bytes rest h
  change (if c < 0x80 then some [c.toUInt8] else (table.ofUcs c).map fun p => [p.1, p.2]) =
    some bytes at h
  split at h
  · next hc =>
    cases h
    have hbyte : c.toUInt8.toNat = c := toNat_toUInt8 (by omega)
    have hlt : c.toUInt8 < 0x80 := toUInt8_lt hc
    change gbkDecode table (c.toUInt8 :: rest) = some (c, 1)
    simp only [gbkDecode, hlt, if_true, hbyte]
  · obtain ⟨⟨a, b⟩, hp, rfl⟩ := Option.map_eq_some_iff.mp h
    obtain ⟨ha, hread⟩ := htable c a b hp
    have hnot : ¬a < 0x80 := UInt8.not_lt.mpr ha
    change gbkDecode table (a :: b :: rest) = some (c, 2)
    simp only [gbkDecode, hnot, if_false, hread, Option.map_some]

private theorem utf8Tail_add {y : Nat} (h : y < 64) : utf8Tail (0x80 + y).toUInt8 = some y := by
  have hbyte : (0x80 + y).toUInt8.toNat = 0x80 + y := toNat_toUInt8 (by omega)
  have hrange : (0x80 ≤ (0x80 + y).toUInt8 && (0x80 + y).toUInt8 < 0xC0) = true := by
    simp only [Bool.and_eq_true, decide_eq_true_eq, UInt8.le_iff_toNat_le, UInt8.lt_iff_toNat_lt,
      hbyte]
    change 128 ≤ 0x80 + y ∧ 0x80 + y < 192
    omega
  rw [utf8Tail, if_pos hrange, hbyte]
  simp

private theorem utf8Decode_two {a b : UInt8} {y : Nat} (hlow : 0xC2 ≤ a.toNat)
    (hhigh : a.toNat < 0xE0) (hb : utf8Tail b = some y) (rest : Bytes) :
    utf8Decode (a :: b :: rest) = some ((a.toNat - 0xC0) * 64 + y, 2) := by
  have h80 : ¬a.toNat < (0x80 : UInt8).toNat := Nat.not_lt.mpr (Nat.le_trans (by decide) hlow)
  have hC2 : ¬a.toNat < (0xC2 : UInt8).toNat := Nat.not_lt.mpr hlow
  have hE0 : a.toNat < (0xE0 : UInt8).toNat := hhigh
  simp only [utf8Decode, UInt8.lt_iff_toNat_lt, h80, hC2, hE0, if_true, if_false, hb,
    Option.map_some]

private theorem utf8Decode_three {a b d : UInt8} {c y z : Nat} (hlow : 0xE0 ≤ a.toNat)
    (hhigh : a.toNat < 0xF0) (hb : utf8Tail b = some y) (hd : utf8Tail d = some z)
    (hc : (a.toNat - 0xE0) * 4096 + y * 64 + z = c) (hlong : ¬c < 0x800)
    (hvalid : isSurrogate c = false) (rest : Bytes) :
    utf8Decode (a :: b :: d :: rest) = some (c, 3) := by
  have h80 : ¬a.toNat < (0x80 : UInt8).toNat := Nat.not_lt.mpr (Nat.le_trans (by decide) hlow)
  have hC2 : ¬a.toNat < (0xC2 : UInt8).toNat := Nat.not_lt.mpr (Nat.le_trans (by decide) hlow)
  have hE0 : ¬a.toNat < (0xE0 : UInt8).toNat := Nat.not_lt.mpr hlow
  have hF0 : a.toNat < (0xF0 : UInt8).toNat := hhigh
  simp only [utf8Decode, UInt8.lt_iff_toNat_lt, h80, hC2, hE0, hF0, if_true, if_false, hb, hd, hc,
    hlong, hvalid, decide_false, Bool.or_false, Bool.false_eq_true]

private theorem utf8Decode_four {a b d e : UInt8} {c y z w : Nat} (hlow : 0xF0 ≤ a.toNat)
    (hhigh : a.toNat < 0xF5) (hb : utf8Tail b = some y) (hd : utf8Tail d = some z)
    (he : utf8Tail e = some w)
    (hc : (a.toNat - 0xF0) * 262144 + y * 4096 + z * 64 + w = c) (hlong : ¬c < 0x10000)
    (hvalid : ¬0x110000 ≤ c) (rest : Bytes) :
    utf8Decode (a :: b :: d :: e :: rest) = some (c, 4) := by
  have h80 : ¬a.toNat < (0x80 : UInt8).toNat := Nat.not_lt.mpr (Nat.le_trans (by decide) hlow)
  have hC2 : ¬a.toNat < (0xC2 : UInt8).toNat := Nat.not_lt.mpr (Nat.le_trans (by decide) hlow)
  have hE0 : ¬a.toNat < (0xE0 : UInt8).toNat := Nat.not_lt.mpr (Nat.le_trans (by decide) hlow)
  have hF0 : ¬a.toNat < (0xF0 : UInt8).toNat := Nat.not_lt.mpr hlow
  have hF5 : a.toNat < (0xF5 : UInt8).toNat := hhigh
  simp only [utf8Decode, UInt8.lt_iff_toNat_lt, h80, hC2, hE0, hF0, hF5, if_true, if_false, hb, hd,
    he, hc, hlong, hvalid, decide_false, Bool.or_false, Bool.false_eq_true]

theorem utf8Charset_roundTrip : utf8Charset.RoundTrip := by
  intro c bytes rest h
  change utf8Encode c = some bytes at h
  change utf8Decode (bytes ++ rest) = some (c, bytes.length)
  have htail (n : Nat) : utf8Tail (0x80 + n % 64).toUInt8 = some (n % 64) :=
    utf8Tail_add (Nat.mod_lt n (by decide))
  unfold utf8Encode at h
  split at h
  · next hc =>
    cases h
    have hbyte : c.toUInt8.toNat = c := toNat_toUInt8 (by omega)
    have hlt : c.toUInt8 < 0x80 := toUInt8_lt hc
    simp [utf8Decode, hlt, hbyte]
  split at h
  · cases h
    have hlead : (0xC0 + c / 64).toUInt8.toNat = 0xC0 + c / 64 := toNat_toUInt8 (by omega)
    change utf8Decode ((0xC0 + c / 64).toUInt8 :: (0x80 + c % 64).toUInt8 :: rest) = some (c, 2)
    rw [utf8Decode_two (by omega) (by omega) (htail c), hlead]
    congr 2
    omega
  split at h
  · cases h
  next hvalid =>
  split at h
  · cases h
    have hlead : (0xE0 + c / 4096).toUInt8.toNat = 0xE0 + c / 4096 := toNat_toUInt8 (by omega)
    change utf8Decode ((0xE0 + c / 4096).toUInt8 :: (0x80 + c / 64 % 64).toUInt8 ::
      (0x80 + c % 64).toUInt8 :: rest) = some (c, 3)
    apply utf8Decode_three (by omega) (by omega) (htail (c / 64)) (htail c)
    · omega
    · omega
    · simpa using hvalid
  split at h
  · cases h
    have hlead : (0xF0 + c / 262144).toUInt8.toNat = 0xF0 + c / 262144 := toNat_toUInt8 (by omega)
    change utf8Decode ((0xF0 + c / 262144).toUInt8 :: (0x80 + c / 4096 % 64).toUInt8 ::
      (0x80 + c / 64 % 64).toUInt8 :: (0x80 + c % 64).toUInt8 :: rest) = some (c, 4)
    apply utf8Decode_four (by omega) (by omega) (htail (c / 4096)) (htail (c / 64)) (htail c)
    · omega
    · omega
    · omega
  · cases h

private theorem utf8Tail_lt {b : UInt8} {y : Nat} (h : utf8Tail b = some y) : y < 64 := by
  unfold utf8Tail at h
  split at h
  · next hb =>
    simp only [Bool.and_eq_true, decide_eq_true_eq, UInt8.lt_iff_toNat_lt] at hb
    have hlt : b.toNat < 192 := hb.2
    have hy := Option.some.inj h
    omega
  · cases h

private theorem utf8Encode_isSome {c : Nat} (h : c < 0x110000) (hvalid : isSurrogate c = false) :
    (utf8Encode c).isSome = true := by
  simp only [utf8Encode, hvalid, h, if_true, Bool.false_eq_true, if_false]
  (repeat' split) <;> exact Option.isSome_some

private theorem isSurrogate_outside {c : Nat} (h : c < 0xD800 ∨ 0xE000 ≤ c) :
    isSurrogate c = false := by
  rw [isSurrogate, Bool.and_eq_false_iff, decide_eq_false_iff_not, decide_eq_false_iff_not]
  omega

/-- What UTF-8 reads it can also write. -/
theorem utf8Decode_encodes {text : Bytes} {c k : Nat} (h : utf8Decode text = some (c, k)) :
    (utf8Encode c).isSome = true := by
  cases text with
  | nil => cases h
  | cons a rest =>
    rw [utf8Decode.eq_def] at h
    dsimp only at h
    split at h
    · next ha =>
      cases h
      have hlt : a.toNat < 0x80 := UInt8.lt_iff_toNat_lt.mp ha
      exact utf8Encode_isSome (by omega) (isSurrogate_outside (by omega))
    split at h
    · cases h
    split at h
    · next ha =>
      have hlt : a.toNat < 0xE0 := UInt8.lt_iff_toNat_lt.mp ha
      split at h
      · obtain ⟨y, hy, heq⟩ := Option.map_eq_some_iff.mp h
        cases heq
        have hy := utf8Tail_lt hy
        exact utf8Encode_isSome (by omega) (isSurrogate_outside (by omega))
      · cases h
    split at h
    · next ha =>
      have hlt : a.toNat < 0xF0 := UInt8.lt_iff_toNat_lt.mp ha
      split at h
      · split at h
        · next y z hy hz =>
          have hy := utf8Tail_lt hy
          have hz := utf8Tail_lt hz
          split at h
          · cases h
          · next hvalid =>
            cases h
            simp only [Bool.or_eq_true, not_or, Bool.not_eq_true] at hvalid
            exact utf8Encode_isSome (by omega) hvalid.2
        · cases h
      · cases h
    split at h
    · split at h
      · split at h
        · next y z w hy hz hw =>
          split at h
          · cases h
          · next hvalid =>
            cases h
            simp only [Bool.or_eq_true, decide_eq_true_eq, not_or, Nat.not_lt, Nat.not_le]
              at hvalid
            exact utf8Encode_isSome hvalid.2 (isSurrogate_outside (by omega))
        · cases h
      · cases h
    · cases h

theorem decodeAll_utf8_encodes {input : Bytes} {chars : List Nat}
    (h : decodeAll utf8Charset input = some chars) :
    ∀ c ∈ chars, (utf8Encode c).isSome = true := by
  induction chars generalizing input with
  | nil => exact List.forall_mem_nil _
  | cons c chars ih =>
    obtain ⟨k, hd, hrest⟩ := decodeAll_eq_some_cons.mp h
    exact List.forall_mem_cons.mpr ⟨utf8Decode_encodes hd, ih hrest⟩

/-! ## Widths -/

theorem asciiCharset_width : asciiCharset.Width 4 := by
  intro c bytes h
  change (if c < 0x80 then some [c.toUInt8] else none) = some bytes at h
  split at h <;> cases h
  exact ⟨Nat.succ_pos _, Nat.le_add_left 1 3⟩

theorem ucs2beCharset_width : ucs2beCharset.Width 4 := by
  intro c bytes h
  change (if c < 0x10000 && !isSurrogate c then
    some [(c / 256).toUInt8, (c % 256).toUInt8] else none) = some bytes at h
  split at h <;> cases h
  exact ⟨Nat.succ_pos _, Nat.le_add_left 2 2⟩

theorem utf8Charset_width : utf8Charset.Width 4 := by
  intro c bytes h
  rw [utf8Encode_length h, utf8Width]
  (repeat' split) <;> omega

theorem gbkCharset_width (table : GbkTable) : (gbkCharset table).Width 4 := by
  intro c bytes h
  change (if c < 0x80 then some [c.toUInt8] else (table.ofUcs c).map fun p => [p.1, p.2]) =
    some bytes at h
  split at h
  · cases h
    exact ⟨Nat.succ_pos _, Nat.le_add_left 1 3⟩
  · obtain ⟨p, -, rfl⟩ := Option.map_eq_some_iff.mp h
    exact ⟨Nat.succ_pos _, Nat.le_add_left 2 2⟩

/-- A double-byte text as a whole takes at most three bytes of UTF-8 for two of its own. -/
theorem encodeAll_utf8_length_le {src : Charset} (hsrc : src.DoubleByte) {input : Bytes}
    {chars : List Nat} (h : decodeAll src input = some chars)
    (hchars : ∀ c ∈ chars, (utf8Encode c).isSome = true) :
    2 * (encodeAll utf8Charset chars).length ≤ 3 * input.length := by
  induction chars generalizing input with
  | nil => exact Nat.zero_le _
  | cons c chars ih =>
    obtain ⟨k, hd, hrest⟩ := decodeAll_eq_some_cons.mp h
    obtain ⟨hc, hchars⟩ := List.forall_mem_cons.mp hchars
    obtain ⟨bytes, he⟩ := Option.isSome_iff_exists.mp hc
    have htail := ih hrest hchars
    have hsize := src.decode_size hd
    rw [List.length_drop] at htail
    rw [encodeAll_cons he, List.length_append]
    rcases hsrc input c k hd with ⟨hlt, rfl⟩ | ⟨hlt, rfl⟩
    · have hone := (utf8Encode_length_le (by omega) he).2 hlt
      omega
    · have hthree := (utf8Encode_length_le hlt he).1
      omega

end Framework
