import LambGateway.Content.Copies
import LambGateway.Sp.Sender

/-!
# The text that the carrier receives

A client's text is converted to UTF-8 by the server and into the gateway's encoding by sp. Both
conversions stop at the first character that does not fit, and neither program notices. The
bytes are followed as the copies move them.
-/

namespace LambGateway

open Framework Sp.Sender

def AcceptedSubmit.coding (m : AcceptedSubmit) : Coding :=
  match fromcodeOf m.msgfmt with
  | .convert fromcode => fromcode
  | _ => .utf8

/-- The content that sp passes to `cmpp_submit` for a text that no filter stops; `none` if one
of the conversions leaves nothing. -/
def submittedContent (lib : IconvLibrary) (gateway : Gateway) (behind : Nat → UInt8)
    (m : AcceptedSubmit) : Option Bytes :=
  let pulled := fetchContent behind (storeContent ⟨m.content.length, m.content⟩)
  match Server.convertContent lib m.msgfmt pulled with
  | none => none
  | some converted =>
    let scheduled := fetchContent behind (storeContent converted)
    convertContent lib gateway (scheduled.content.take scheduled.length)

/-- The content decodes to the client's full text. -/
def Intact (lib : IconvLibrary) (gateway : Gateway) (m : AcceptedSubmit) (out : Bytes) : Prop :=
  ∃ chars, decodeAll (lib.charset m.coding) m.content = some chars ∧
    decodeAll (lib.charset gateway.tocode) out = some chars

/-- The codings are known, and the first character exists in all of them. -/
def Started (lib : IconvLibrary) (gateway : Gateway) (m : AcceptedSubmit) : Prop :=
  (lib.knows .utf8 && lib.knows m.coding && lib.knows gateway.tocode) = true ∧
    ∃ c k, (lib.charset m.coding).decode m.content = some (c, k) ∧
      (utf8Encode c).isSome = true ∧ ((lib.charset gateway.tocode).encode c).isSome = true

/-- The text decodes, all its characters exist in UTF-8 and in the gateway's encoding, and there
they take at most 256 bytes. -/
def Representable (lib : IconvLibrary) (gateway : Gateway) (m : AcceptedSubmit) : Prop :=
  ∃ chars, decodeAll (lib.charset m.coding) m.content = some chars ∧
    (∀ c ∈ chars, (utf8Encode c).isSome = true) ∧
    Fits (lib.charset gateway.tocode) 256 chars

/-! ## One conversion -/

theorem lambEncodedConvert_whole_iff (lib : IconvLibrary) (src : Bytes) (dlen : Nat)
    (fromcode tocode : Coding) :
    (∀ out ∈ lambEncodedConvert lib src dlen fromcode tocode, 1 ≤ out.length →
        WholeConversion (lib.charset fromcode) (lib.charset tocode) src out) ↔
      ((lib.knows tocode && lib.knows fromcode) = true →
        firstConverts (lib.charset fromcode) (lib.charset tocode) dlen src = true →
        ConvertsWhole (lib.charset fromcode) (lib.charset tocode) src dlen) := by
  have hne := iconv_output_ne_nil_iff (lib.charset fromcode) (charset_width lib tocode) dlen src
  rw [lambEncodedConvert, IconvLibrary.iconvOpen, ← hne, ← iconv_whole_iff]
  cases lib.knows tocode && lib.knows fromcode with
  | false => simp
  | true =>
    simp only [if_true, Option.map_some, Option.mem_some_iff, forall_eq', forall_const,
      Nat.one_le_iff_ne_zero, ne_eq, List.length_eq_zero_iff]

/-! ## The text in UTF-8 -/

/-- What the server hands to the scheduler for a text that it does not turn away. -/
def utf8Text (lib : IconvLibrary) (m : AcceptedSubmit) : Bytes :=
  match fromcodeOf m.msgfmt with
  | .convert fromcode => (iconv (lib.charset fromcode) utf8Charset m.content 512).output
  | _ => m.content

theorem fromcodeOf_accepted (m : AcceptedSubmit) : fromcodeOf m.msgfmt ≠ .unknown := by
  have h := m.format_known
  simp only [List.mem_cons, List.not_mem_nil, or_false] at h
  rcases h with h | h | h | h <;> rw [h] <;> decide

/-- A text with a known coding and a first character that exists in UTF-8 passes the server. -/
def Passes (lib : IconvLibrary) (m : AcceptedSubmit) : Prop :=
  match fromcodeOf m.msgfmt with
  | .convert fromcode => (lib.knows .utf8 && lib.knows fromcode) = true ∧
      firstConverts (lib.charset fromcode) utf8Charset 512 m.content = true
  | _ => True

theorem convertContent_server (lib : IconvLibrary) (m : AcceptedSubmit) (p : Payload) :
    Server.convertContent lib m.msgfmt ⟨m.content.length, m.content⟩ = some p ↔
      Passes lib m ∧ p = ⟨(utf8Text lib m).length, utf8Text lib m⟩ := by
  have hknown := fromcodeOf_accepted m
  unfold Server.convertContent Passes utf8Text
  cases hfrom : fromcodeOf m.msgfmt with
  | unknown => exact absurd hfrom hknown
  | asIs => simp [eq_comm]
  | convert fromcode =>
    have hne := iconv_output_ne_nil_iff (lib.charset fromcode) utf8Charset_width 512 m.content
    simp only [List.take_length, lambEncodedConvert, IconvLibrary.iconvOpen, ← hne]
    cases lib.knows .utf8 && lib.knows fromcode with
    | false => simp
    | true =>
      change (if (iconv (lib.charset fromcode) utf8Charset m.content 512).output.length < 1
        then none else some _) = some p ↔ _
      simp only [Nat.lt_one_iff, List.length_eq_zero_iff]
      split
      · next hnil => simp [hnil]
      · next hcons => simp [hcons, eq_comm]; rfl

theorem submittedContent_eq_some_iff {lib : IconvLibrary} {gateway : Gateway}
    {behind : Nat → UInt8} {m : AcceptedSubmit} {out : Bytes} :
    submittedContent lib gateway behind m = some out ↔
      (Passes lib m ∧ Convertible lib gateway (utf8Text lib m)) ∧
        out = (iconv utf8Charset (lib.charset gateway.tocode) (utf8Text lib m) 256).output := by
  have hpulled : fetchContent behind (storeContent ⟨m.content.length, m.content⟩) =
      ⟨m.content.length, m.content⟩ := fetchContent_of_le rfl
  have hscheduled (text : Bytes) :
      fetchContent behind (storeContent ⟨text.length, text⟩) = ⟨text.length, text⟩ :=
    fetchContent_of_le rfl
  rw [submittedContent, hpulled, and_assoc, ← convertContent_eq_some_iff]
  cases hserver : Server.convertContent lib m.msgfmt ⟨m.content.length, m.content⟩ with
  | none =>
    have hpasses : ¬Passes lib m := by
      intro hpasses
      rw [(convertContent_server lib m _).mpr ⟨hpasses, rfl⟩] at hserver
      cases hserver
    simp [hpasses]
  | some converted =>
    obtain ⟨hpasses, rfl⟩ := (convertContent_server lib m converted).mp hserver
    simp only [hscheduled, List.take_length, hpasses, true_and]

theorem charset_coding_doubleByte {lib : IconvLibrary} {m : AcceptedSubmit} {fromcode : Coding}
    (h : fromcodeOf m.msgfmt = .convert fromcode) : (lib.charset fromcode).DoubleByte :=
  charset_doubleByte lib (ne_utf8_of_fromcodeOf h)

/-- A text that decodes is cut to an initial part of its characters, and kept if UTF-8 has all of
them. -/
theorem decodeAll_utf8Text {lib : IconvLibrary} {m : AcceptedSubmit} {chars : List Nat}
    (h : decodeAll (lib.charset m.coding) m.content = some chars) :
    ∃ p, p <+: chars ∧ decodeAll utf8Charset (utf8Text lib m) = some p ∧
      (p = chars ↔ ∀ c ∈ chars, (utf8Encode c).isSome = true) := by
  unfold AcceptedSubmit.coding at h
  unfold utf8Text
  cases hfrom : fromcodeOf m.msgfmt with
  | unknown => exact absurd hfrom (fromcodeOf_accepted m)
  | asIs =>
    rw [hfrom] at h
    refine ⟨chars, List.prefix_rfl, h, iff_of_true rfl ?_⟩
    exact decodeAll_utf8_encodes h
  | convert fromcode =>
    rw [hfrom] at h
    refine ⟨fitting utf8Charset 512 chars, fitting_prefix _ _ _,
      decodeAll_iconv utf8Charset_roundTrip h 512, ?_⟩
    rw [fitting_eq_self_iff]
    refine ⟨fun hfits => hfits.1, fun hchars => ⟨hchars, ?_⟩⟩
    have hsize := encodeAll_utf8_length_le (charset_coding_doubleByte hfrom) h hchars
    have hlen := m.length_le
    omega

/-- Something is submitted exactly if the first character survives both conversions. -/
theorem started_iff (lib : IconvLibrary) (gateway : Gateway) (m : AcceptedSubmit) :
    Passes lib m ∧ Convertible lib gateway (utf8Text lib m) ↔ Started lib gateway m := by
  unfold Passes Started AcceptedSubmit.coding utf8Text Convertible
  cases hfrom : fromcodeOf m.msgfmt with
  | unknown => exact absurd hfrom (fromcodeOf_accepted m)
  | asIs =>
    simp only [true_and, firstConverts_iff]
    constructor
    · rintro ⟨hknown, c, k, bytes, hd, he, -⟩
      simp only [Bool.and_eq_true] at hknown ⊢
      exact ⟨⟨⟨hknown.2, hknown.2⟩, hknown.1⟩, c, k, hd, utf8Decode_encodes hd,
        Option.isSome_iff_exists.mpr ⟨bytes, he⟩⟩
    · rintro ⟨hknown, c, k, hd, -, hsome⟩
      obtain ⟨bytes, he⟩ := Option.isSome_iff_exists.mp hsome
      simp only [Bool.and_eq_true] at hknown ⊢
      have hlen := (charset_width lib gateway.tocode c bytes he).2
      exact ⟨⟨hknown.2, hknown.1.1⟩, c, k, bytes, hd, he, by omega⟩
  | convert fromcode =>
    simp only [firstConverts_iff]
    constructor
    · rintro ⟨⟨hknown, c, k, bytes, hd, he, hle⟩, hknown', c', k', bytes', hd', he', -⟩
      rw [decode_iconv_output utf8Charset_roundTrip hd he hle] at hd'
      obtain ⟨rfl, -⟩ := Prod.mk.inj (Option.some.inj hd')
      simp only [Bool.and_eq_true] at hknown hknown' ⊢
      exact ⟨⟨hknown, hknown'.1⟩, c, k, hd, Option.isSome_iff_exists.mpr ⟨bytes, he⟩,
        Option.isSome_iff_exists.mpr ⟨bytes', he'⟩⟩
    · rintro ⟨hknown, c, k, hd, hutf8, hsome⟩
      obtain ⟨bytes, he⟩ := Option.isSome_iff_exists.mp hutf8
      obtain ⟨bytes', he'⟩ := Option.isSome_iff_exists.mp hsome
      have hlen := (utf8Charset_width c bytes he).2
      have hlen' := (charset_width lib gateway.tocode c bytes' he').2
      simp only [Bool.and_eq_true] at hknown ⊢
      exact ⟨⟨hknown.1, c, k, bytes, hd, he, by omega⟩, ⟨hknown.2, hknown.1.1⟩, c, bytes.length,
        bytes', decode_iconv_output utf8Charset_roundTrip hd he (by omega), he', by omega⟩

/-! ## Both conversions -/

theorem intact_iff_representable {lib : IconvLibrary} (htable : lib.table.RoundTrip)
    (gateway : Gateway) (m : AcceptedSubmit) :
    Intact lib gateway m
        (iconv utf8Charset (lib.charset gateway.tocode) (utf8Text lib m) 256).output ↔
      Representable lib gateway m := by
  constructor
  · rintro ⟨chars, hchars, hout⟩
    obtain ⟨p, hprefix, hp, hwhole⟩ := decodeAll_utf8Text hchars
    rw [decodeAll_iconv (charset_roundTrip htable gateway.tocode) hp] at hout
    have hfitting := fitting_prefix (lib.charset gateway.tocode) 256 p
    rw [Option.some.inj hout] at hfitting
    have heq : p = chars := hprefix.eq_of_length_le hfitting.length_le
    rw [heq] at hout
    exact ⟨chars, hchars, hwhole.mp heq, fitting_eq_self_iff.mp (Option.some.inj hout)⟩
  · rintro ⟨chars, hchars, hutf8, hfits⟩
    obtain ⟨p, -, hp, hwhole⟩ := decodeAll_utf8Text hchars
    rw [hwhole.mpr hutf8] at hp
    refine ⟨chars, hchars, ?_⟩
    rw [decodeAll_iconv (charset_roundTrip htable gateway.tocode) hp,
      fitting_eq_self_iff.mpr hfits]

/-- A conversion is whole exactly if it leaves nothing, or the source decodes and the target and
the buffer take all of it. What sp submits is the client's full text exactly if all its characters
exist in UTF-8 and in the gateway's encoding and take at most 256 bytes there, unless the first
character is already missing and nothing is submitted. -/
theorem reencoding_whole_iff {lib : IconvLibrary} (htable : lib.table.RoundTrip) :
    (∀ (src : Bytes) (dlen : Nat) (fromcode tocode : Coding),
      (∀ out ∈ lambEncodedConvert lib src dlen fromcode tocode, 1 ≤ out.length →
        WholeConversion (lib.charset fromcode) (lib.charset tocode) src out) ↔
      ((lib.knows tocode && lib.knows fromcode) = true →
        firstConverts (lib.charset fromcode) (lib.charset tocode) dlen src = true →
        ConvertsWhole (lib.charset fromcode) (lib.charset tocode) src dlen)) ∧
    ∀ (gateway : Gateway) (behind : Nat → UInt8) (m : AcceptedSubmit),
      (∀ out ∈ submittedContent lib gateway behind m, Intact lib gateway m out) ↔
      (Started lib gateway m → Representable lib gateway m) := by
  refine ⟨lambEncodedConvert_whole_iff lib, fun gateway behind m => ?_⟩
  rw [← started_iff, ← intact_iff_representable htable]
  constructor
  · intro h hstarted
    exact h _ (submittedContent_eq_some_iff.mpr ⟨hstarted, rfl⟩)
  · intro h out hout
    obtain ⟨hstarted, rfl⟩ := submittedContent_eq_some_iff.mp hout
    exact h hstarted

theorem reencoding_whole_iff_without_table :
    let lib : IconvLibrary := ⟨⟨fun _ _ => none, fun _ => none, by simp⟩, fun _ => true⟩
    let gateway : Gateway := ⟨strncpy (ascii "901234") 7, strncpy (ascii "1069") 20, 0, false⟩
    let m : AcceptedSubmit := ⟨11, ascii "hi", by decide, by decide, by decide⟩
    (∀ out ∈ submittedContent lib gateway (fun _ => 0) m, Intact lib gateway m out) ↔
      (Started lib gateway m → Representable lib gateway m) := by
  intro lib gateway m
  have htable : lib.table.RoundTrip := fun c a b h => by cases h
  exact (reencoding_whole_iff htable).2 gateway (fun _ => 0) m

/-- An English word with a Chinese character behind it, for a gateway that takes ASCII: the word
is submitted alone. -/
theorem chinese_cut_off :
    let lib : IconvLibrary := ⟨⟨fun _ _ => none, fun _ => none, by simp⟩, fun _ => true⟩
    let gateway : Gateway := ⟨strncpy (ascii "901234") 7, strncpy (ascii "1069") 20, 0, false⟩
    let m : AcceptedSubmit :=
      ⟨11, ascii "hi" ++ [0xE4, 0xB8, 0xAD], by decide, by decide, by decide⟩
    submittedContent lib gateway (fun _ => 0) m = some (ascii "hi") ∧
      lambEncodedConvert lib m.content 256 .utf8 gateway.tocode = some (ascii "hi") ∧
      ¬WholeConversion utf8Charset asciiCharset m.content (ascii "hi") ∧
      ¬Intact lib gateway m (ascii "hi") := by
  intro lib gateway m
  have hchars : decodeAll utf8Charset m.content = some [104, 105, 0x4E2D] := by decide
  refine ⟨by decide, by decide, ?_, ?_⟩
  · rintro ⟨chars, h, hsome, -⟩
    obtain rfl := Option.some.inj (hchars.symm.trans h)
    exact absurd (hsome 0x4E2D (by decide)) (by decide)
  · rintro ⟨chars, h, hout⟩
    obtain rfl := Option.some.inj (hchars.symm.trans h)
    exact absurd hout (by decide)

end LambGateway
