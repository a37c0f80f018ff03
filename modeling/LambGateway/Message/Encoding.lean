import LambGateway.Framework.Recode
import LambGateway.Message.Records

/-!
# Message encodings

The encodings that the message format numbers name, and the conversion of `common.c`.
-/

namespace LambGateway

open Framework

inductive Coding where
  | ascii
  | ucs2be
  | utf8
  | gbk
  deriving DecidableEq

/-- The installed `iconv`: its double-byte table, and the codings it knows. -/
structure IconvLibrary where
  table : GbkTable
  knows : Coding → Bool

namespace IconvLibrary

def charset (lib : IconvLibrary) : Coding → Charset
  | .ascii => asciiCharset
  | .ucs2be => ucs2beCharset
  | .utf8 => utf8Charset
  | .gbk => gbkCharset lib.table

/-- `iconv_open`: no descriptor if one of the codings is unknown. -/
def iconvOpen (lib : IconvLibrary) (tocode fromcode : Coding) : Option (Charset × Charset) :=
  if lib.knows tocode && lib.knows fromcode then some (lib.charset tocode, lib.charset fromcode)
  else none

end IconvLibrary

/-- `lamb_encoded_convert`: the bytes it leaves in `dst`, whose number goes to `length`; `none`
is its result -1. What `iconv` itself returns is not looked at. -/
def lambEncodedConvert (lib : IconvLibrary) (src : Bytes) (dlen : Nat)
    (fromcode tocode : Coding) : Option Bytes :=
  (lib.iconvOpen tocode fromcode).map fun cd => (iconv cd.2 cd.1 src dlen).output

theorem lambEncodedConvert_length_le {lib : IconvLibrary} {src out : Bytes} {dlen : Nat}
    {fromcode tocode : Coding} (h : lambEncodedConvert lib src dlen fromcode tocode = some out) :
    out.length ≤ dlen := by
  obtain ⟨cd, -, rfl⟩ := Option.map_eq_some_iff.mp h
  exact iconv_length_le ..

theorem charset_doubleByte (lib : IconvLibrary) {fromcode : Coding} (h : fromcode ≠ .utf8) :
    (lib.charset fromcode).DoubleByte := by
  cases fromcode with
  | ascii => exact asciiCharset_doubleByte
  | ucs2be => exact ucs2beCharset_doubleByte
  | utf8 => exact absurd rfl h
  | gbk => exact gbkCharset_doubleByte lib.table

theorem charset_width (lib : IconvLibrary) (coding : Coding) : (lib.charset coding).Width 4 := by
  cases coding with
  | ascii => exact asciiCharset_width
  | ucs2be => exact ucs2beCharset_width
  | utf8 => exact utf8Charset_width
  | gbk => exact gbkCharset_width lib.table

theorem charset_roundTrip {lib : IconvLibrary} (htable : lib.table.RoundTrip) (coding : Coding) :
    (lib.charset coding).RoundTrip := by
  cases coding with
  | ascii => exact asciiCharset_roundTrip
  | ucs2be => exact ucs2beCharset_roundTrip
  | utf8 => exact utf8Charset_roundTrip
  | gbk => exact gbkCharset_roundTrip htable

def convertedChars (lib : IconvLibrary) (fromcode : Coding) (src : Bytes) : List Nat :=
  convertible (lib.charset fromcode) utf8Charset src

theorem encode_of_mem_convertedChars {lib : IconvLibrary} {fromcode : Coding} {src : Bytes} :
    ∀ c ∈ convertedChars lib fromcode src, ∃ bytes, utf8Encode c = some bytes :=
  fun _ hc => encode_of_mem_convertible hc

/-- Outside UTF-8 a text grows by half at most. -/
theorem convertedChars_size_le (lib : IconvLibrary) {fromcode : Coding} (h : fromcode ≠ .utf8)
    (src : Bytes) :
    2 * (encodeAll utf8Charset (convertedChars lib fromcode src)).length ≤ 3 * src.length :=
  convertedSize_utf8_le (charset_doubleByte lib h) src

/-- Into a buffer that is large enough the conversion to UTF-8 writes all these characters. -/
theorem lambEncodedConvert_utf8 (lib : IconvLibrary) {src : Bytes} {dlen : Nat}
    {fromcode : Coding}
    (h : (encodeAll utf8Charset (convertedChars lib fromcode src)).length ≤ dlen) :
    lambEncodedConvert lib src dlen fromcode .utf8 =
      if lib.knows .utf8 && lib.knows fromcode then
        some (encodeAll utf8Charset (convertedChars lib fromcode src))
      else none := by
  rw [lambEncodedConvert, IconvLibrary.iconvOpen]
  split
  · exact congrArg some (iconv_output h)
  · rfl

inductive Fromcode where
  | unknown
  /-- The content is UTF-8 already: `fromcode` is `NULL`. -/
  | asIs
  | convert (fromcode : Coding)
  deriving DecidableEq

/-- The choice that the server's work loop and the delivery program make by `msgfmt`. -/
def fromcodeOf (msgfmt : Int32) : Fromcode :=
  if msgfmt = 0 then .convert .ascii
  else if msgfmt = 8 then .convert .ucs2be
  else if msgfmt = 11 then .asIs
  else if msgfmt = 15 then .convert .gbk
  else .unknown

theorem ne_utf8_of_fromcodeOf {msgfmt : Int32} {fromcode : Coding}
    (h : fromcodeOf msgfmt = .convert fromcode) : fromcode ≠ .utf8 := by
  unfold fromcodeOf at h
  (repeat' split at h) <;> cases h <;> decide

end LambGateway
