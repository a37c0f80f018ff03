import LambGateway.Framework.SqlInsert
import LambGateway.Message.Encoding

/-!
# The stored statements

The `INSERT` statements that the server and the delivery program print into a buffer of 512
bytes, and what a SQL reader makes of them. `behind` is the memory that follows the last array
a statement prints.
-/

namespace LambGateway

open Framework

/-- The record of a submitted message as a statement, `content` being the value of its text. -/
def messageInsert (m : LambSubmit) (content : Bytes) : Insert where
  table := ascii "message"
  columns := ascii "id, spid, spcode, phone, content, status, account, company"
  values := [.number m.id.toInt64.toInt, .literal m.spid.text, .literal m.spcode.text,
    .literal m.phone.text, .literal content, .number 0, .number m.account.toInt,
    .number m.company.toInt]

def deliverInsert (m : LambDeliver) (content : Bytes) : Insert where
  table := ascii "delivery"
  columns := ascii "id, spcode, phone, content, account, company"
  values := [.number m.id.toInt64.toInt, .literal m.spcode.text, .literal m.phone.text,
    .literal content, .number m.account.toInt, .number m.company.toInt]

namespace Server

/-- `lamb_write_message`: the text it hands to `PQexec`. -/
def lambWriteMessage (m : LambSubmit) (behind : Bytes) : Bytes :=
  let column := ascii "id, spid, spcode, phone, content, status, account, company"
  snprintf 512 (ascii "INSERT INTO message(" ++ column ++ ascii ") VALUES(" ++
    decimalInt m.id.toInt64.toInt ++ ascii ", '" ++ m.spid.text ++ ascii "', '" ++
    m.spcode.text ++ ascii "', '" ++ m.phone.text ++ ascii "', '" ++
    cstr (m.content.array ++ behind) ++ ascii "', " ++ decimalInt 0 ++ ascii ", " ++
    decimalInt m.account.toInt ++ ascii ", " ++ decimalInt m.company.toInt ++ ascii ")")

/-- The statement that both functions `lamb_write_deliver` print. -/
def deliverSql (m : LambDeliver) (content : Bytes) : Bytes :=
  let column := ascii "id, spcode, phone, content, account, company"
  snprintf 512 (ascii "INSERT INTO delivery(" ++ column ++ ascii ") VALUES(" ++
    decimalInt m.id.toInt64.toInt ++ ascii ", '" ++ m.spcode.text ++ ascii "', '" ++
    m.phone.text ++ ascii "', '" ++ content ++ ascii "', " ++ decimalInt m.account.toInt ++
    ascii ", " ++ decimalInt m.company.toInt ++ ascii ")")

/-- `lamb_write_deliver` of the server. -/
def lambWriteDeliver (m : LambDeliver) (behind : Bytes) : Bytes :=
  deliverSql m (cstr (m.content.array ++ behind))

end Server

namespace Delivery

/-- `lamb_write_deliver` of the delivery program: `none` where it returns -1 before it prints.
The converted text stands in a zeroed buffer of 512 bytes. -/
def lambWriteDeliver (lib : IconvLibrary) (m : LambDeliver) (behind : Bytes) : Option Bytes :=
  match fromcodeOf m.msgfmt with
  | .unknown => none
  | .asIs => some (Server.deliverSql m (cstr (m.content.array ++ behind)))
  | .convert fromcode =>
    match lambEncodedConvert lib m.content.bytes 512 fromcode .utf8 with
    | none => none
    | some out =>
      if out.length < 1 then none
      else some (Server.deliverSql m (cstr (out ++ List.replicate (512 - out.length) 0 ++ behind)))

end Delivery

/-! ## Printed statements -/

/-- The quotes of a literal are printed with the comma before it and the one behind it. -/
theorem ascii_open : ascii ", '" = ascii ", " ++ [quote] := rfl

theorem ascii_between : ascii "', '" = quote :: (ascii ", " ++ [quote]) := rfl

theorem ascii_close : ascii "', " = quote :: ascii ", " := rfl

theorem messageInsert_read (m : LambSubmit) (content : Bytes) :
    (messageInsert m content).read =
      ⟨ascii "INSERT INTO message(id, spid, spcode, phone, content, status, account, company) VALUES("
          ++ decimalInt m.id.toInt64.toInt ++ ascii ", ",
        [(m.spid.text, ascii ", "), (m.spcode.text, ascii ", "), (m.phone.text, ascii ", ")] ++
          [(content, ascii ", " ++ decimalInt 0 ++ ascii ", " ++ decimalInt m.account.toInt ++
            ascii ", " ++ decimalInt m.company.toInt ++ ascii ")")]⟩ := by
  simp [Insert.read, messageInsert, readValues, ← ascii_append, ← List.append_assoc]

theorem lambWriteMessage_eq (m : LambSubmit) (behind : Bytes) :
    Server.lambWriteMessage m behind =
      snprintf 512 (messageInsert m (cstr (m.content.array ++ behind))).read.splice := by
  rw [messageInsert_read]
  simp [Server.lambWriteMessage, SqlText.splice, renderRest, ascii_open, ascii_between,
    ascii_close, ← ascii_append]

theorem deliverInsert_read (m : LambDeliver) (content : Bytes) :
    (deliverInsert m content).read =
      ⟨ascii "INSERT INTO delivery(id, spcode, phone, content, account, company) VALUES(" ++
          decimalInt m.id.toInt64.toInt ++ ascii ", ",
        [(m.spcode.text, ascii ", "), (m.phone.text, ascii ", ")] ++
          [(content, ascii ", " ++ decimalInt m.account.toInt ++ ascii ", " ++
            decimalInt m.company.toInt ++ ascii ")")]⟩ := by
  simp [Insert.read, deliverInsert, readValues, ← ascii_append, ← List.append_assoc]

theorem deliverSql_eq (m : LambDeliver) (content : Bytes) :
    Server.deliverSql m content = snprintf 512 (deliverInsert m content).read.splice := by
  rw [deliverInsert_read]
  simp [Server.deliverSql, SqlText.splice, renderRest, ascii_open, ascii_between, ascii_close,
    ← ascii_append]

theorem messageInsert_length_le (m : LambSubmit) (content : Bytes) :
    (messageInsert m content).read.splice.length ≤ 204 + content.length := by
  have hid := decimalInt_int64_length_le m.id.toInt64
  have haccount := decimalInt_int32_length_le m.account
  have hcompany := decimalInt_int32_length_le m.company
  have hspid := m.spid.length_le
  have hspcode := m.spcode.length_le
  have hphone := m.phone.length_le
  have hstatus : (decimalInt 0).length = 1 := by decide
  have hhead : (ascii "INSERT INTO message(id, spid, spcode, phone, content, status, account, company) VALUES(").length = 87 := rfl
  have hcomma : (ascii ", ").length = 2 := rfl
  have hend : (ascii ")").length = 1 := rfl
  rw [messageInsert_read]
  simp [SqlText.splice, renderRest, hstatus, hhead, hcomma, hend]
  omega

theorem deliverInsert_length_le (m : LambDeliver) (content : Bytes) :
    (deliverInsert m content).read.splice.length ≤ 177 + content.length := by
  have hid := decimalInt_int64_length_le m.id.toInt64
  have haccount := decimalInt_int32_length_le m.account
  have hcompany := decimalInt_int32_length_le m.company
  have hspcode := m.spcode.length_le
  have hphone := m.phone.length_le
  have hhead : (ascii "INSERT INTO delivery(id, spcode, phone, content, account, company) VALUES(").length = 74 := rfl
  have hcomma : (ascii ", ").length = 2 := rfl
  have hend : (ascii ")").length = 1 := rfl
  rw [deliverInsert_read]
  simp [SqlText.splice, renderRest, hhead, hcomma, hend]
  omega

theorem messageInsert_wellFormed (m : LambSubmit) (content : Bytes) :
    (messageInsert m content).read.WellFormed := by
  apply Insert.read_wellFormed
  · dsimp only [messageInsert]
    decide
  · dsimp only [messageInsert]
    decide

theorem deliverInsert_wellFormed (m : LambDeliver) (content : Bytes) :
    (deliverInsert m content).read.WellFormed := by
  apply Insert.read_wellFormed
  · dsimp only [deliverInsert]
    decide
  · dsimp only [deliverInsert]
    decide

/-! ## What a reader makes of them -/

/-- The printed content brings in no quotes, as long as the memory behind it has none. -/
theorem count_printed_content (c : Content) :
    (cstr (c.array ++ [1])).count quote ≤ c.bytes.count quote := by
  have hsub := (List.takeWhile_sublist (l := c.array ++ [1]) (· != 0)).count_le quote
  have hpad : (List.replicate (160 - c.bytes.length) (0 : UInt8) ++ [1]).count quote = 0 := by
    simp [List.count_append, List.count_replicate, quote]
  rw [Content.array, List.append_assoc, List.count_append, hpad] at hsub
  simpa [cstr, Content.array] using hsub

/-- A content array is printed as the text it holds, whatever stands behind it, exactly if the
text has no zero byte and leaves room for one. -/
theorem printed_content_eq {c : Content} (hnul : 0 ∉ c.bytes) (hlen : c.bytes.length < 160)
    (behind : Bytes) : cstr (c.array ++ behind) = c.bytes := by
  have hpad : 160 - c.bytes.length = (159 - c.bytes.length) + 1 := by omega
  rw [Content.array, hpad, List.replicate_succ, List.append_assoc, List.cons_append]
  exact cstr_of_no_nul hnul _

theorem of_printed_content_eq {c : Content} (h : cstr (c.array ++ [1]) = c.bytes) :
    0 ∉ c.bytes ∧ c.bytes.length < 160 := by
  have hnul : 0 ∉ c.bytes := h ▸ cstr_no_nul _
  refine ⟨hnul, ?_⟩
  by_contra hlen
  have hfull : 160 - c.bytes.length = 0 := by omega
  rw [Content.array, hfull, List.replicate_zero, List.append_nil,
    cstr_append_of_no_nul hnul] at h
  simp [cstr] at h

/-- A statement whose last literal is a content array reads as intended, whatever stands behind
the array, exactly if no value has a quote and the content is printed as it is. -/
theorem content_statement_iff {stmt : Bytes → Insert} {head c : Bytes}
    {fields : List (Bytes × Bytes)}
    (hread : ∀ v, (stmt v).read = ⟨head, fields ++ [(v, c)]⟩)
    (hwf : ∀ v, (stmt v).read.WellFormed)
    (hfit : ∀ v, v.length < 160 → (stmt v).read.splice.length < 512) (content : Content) :
    (∀ behind, lexSql (snprintf 512 (stmt (cstr (content.array ++ behind))).read.splice) =
        some (stmt content.bytes).read) ↔
      (∀ f ∈ fields, quote ∉ f.1) ∧ quote ∉ content.bytes ∧ 0 ∉ content.bytes ∧
        content.bytes.length < 160 := by
  have hwf := hwf content.bytes
  rw [hread] at hwf
  constructor
  · intro h
    have h1 := h [1]
    rw [hread, hread, lexSql_snprintf_iff hwf (count_printed_content content) (by decide)] at h1
    obtain ⟨hfields, hquote, hprinted, -⟩ := h1
    exact ⟨hfields, hquote, of_printed_content_eq hprinted⟩
  · rintro ⟨hfields, hquote, hnul, hlen⟩ behind
    have hprinted := printed_content_eq hnul hlen behind
    have hfit := hfit _ hlen
    rw [hprinted]
    rw [hread] at hfit ⊢
    rw [lexSql_snprintf_iff hwf (Nat.le_refl _) (by decide)]
    exact ⟨hfields, hquote, rfl, hfit⟩

structure Content.Storable (c : Content) : Prop where
  no_quote : quote ∉ c.bytes
  no_nul : 0 ∉ c.bytes
  room : c.bytes.length < 160

instance (c : Content) : Decidable c.Storable :=
  decidable_of_iff (quote ∉ c.bytes ∧ 0 ∉ c.bytes ∧ c.bytes.length < 160)
    ⟨fun ⟨h₁, h₂, h₃⟩ => ⟨h₁, h₂, h₃⟩, fun ⟨h₁, h₂, h₃⟩ => ⟨h₁, h₂, h₃⟩⟩

namespace Server

/-- Whatever stands behind the record, the statement reads as the record. -/
def MessageFaithful (m : LambSubmit) : Prop :=
  ∀ behind, lexSql (lambWriteMessage m behind) = some (messageInsert m m.content.bytes).read

def DeliverFaithful (m : LambDeliver) : Prop :=
  ∀ behind, lexSql (lambWriteDeliver m behind) = some (deliverInsert m m.content.bytes).read

theorem messageFaithful_iff (m : LambSubmit) : MessageFaithful m ↔
    quote ∉ m.spid.text ∧ quote ∉ m.spcode.text ∧ quote ∉ m.phone.text ∧ m.content.Storable := by
  have h := content_statement_iff (messageInsert_read m) (messageInsert_wellFormed m)
    (fun v hv => by have hle := messageInsert_length_le m v; omega) m.content
  simp only [← lambWriteMessage_eq] at h
  rw [MessageFaithful, h]
  constructor
  · rintro ⟨hfields, hquote, hnul, hlen⟩
    exact ⟨hfields (m.spid.text, ascii ", ") (by simp),
      hfields (m.spcode.text, ascii ", ") (by simp),
      hfields (m.phone.text, ascii ", ") (by simp), hquote, hnul, hlen⟩
  · rintro ⟨hspid, hspcode, hphone, hcontent⟩
    refine ⟨?_, hcontent.no_quote, hcontent.no_nul, hcontent.room⟩
    simp only [List.forall_mem_cons]
    exact ⟨hspid, hspcode, hphone, by simp⟩

theorem deliverSql_array_iff (m : LambDeliver) :
    (∀ behind, lexSql (deliverSql m (cstr (m.content.array ++ behind))) =
        some (deliverInsert m m.content.bytes).read) ↔
      quote ∉ m.spcode.text ∧ quote ∉ m.phone.text ∧ m.content.Storable := by
  have h := content_statement_iff (deliverInsert_read m) (deliverInsert_wellFormed m)
    (fun v hv => by have hle := deliverInsert_length_le m v; omega) m.content
  simp only [← deliverSql_eq] at h
  rw [h]
  constructor
  · rintro ⟨hfields, hquote, hnul, hlen⟩
    exact ⟨hfields (m.spcode.text, ascii ", ") (by simp),
      hfields (m.phone.text, ascii ", ") (by simp), hquote, hnul, hlen⟩
  · rintro ⟨hspcode, hphone, hcontent⟩
    refine ⟨?_, hcontent.no_quote, hcontent.no_nul, hcontent.room⟩
    simp only [List.forall_mem_cons]
    exact ⟨hspcode, hphone, by simp⟩

end Server

namespace Delivery

def utf8Content (lib : IconvLibrary) (m : LambDeliver) : Option Bytes :=
  match fromcodeOf m.msgfmt with
  | .unknown => none
  | .asIs => some m.content.bytes
  | .convert fromcode =>
    some (encodeAll utf8Charset (convertedChars lib fromcode m.content.bytes))

/-- If a statement is printed, it reads as the record with its content in UTF-8. -/
def DeliverFaithful (lib : IconvLibrary) (m : LambDeliver) : Prop :=
  ∀ behind text, lambWriteDeliver lib m behind = some text →
    ∃ content ∈ utf8Content lib m, lexSql text = some (deliverInsert m content).read

/-- A statement is printed: the format is known, and a text to be converted has a converter and
a first character that it converts. -/
def Printed (lib : IconvLibrary) (m : LambDeliver) : Prop :=
  match fromcodeOf m.msgfmt with
  | .unknown => False
  | .asIs => True
  | .convert fromcode =>
    (lib.knows .utf8 && lib.knows fromcode) = true ∧
      convertedChars lib fromcode m.content.bytes ≠ []

def ContentStorable (lib : IconvLibrary) (m : LambDeliver) : Prop :=
  match fromcodeOf m.msgfmt with
  | .unknown => True
  | .asIs => m.content.Storable
  | .convert fromcode =>
    39 ∉ convertedChars lib fromcode m.content.bytes ∧
      0 ∉ convertedChars lib fromcode m.content.bytes

theorem deliverSql_buffer_iff (m : LambDeliver) {out : Bytes} (hout : out.length ≤ 240) :
    (∀ behind, lexSql (Server.deliverSql m
        (cstr (out ++ List.replicate (512 - out.length) 0 ++ behind))) =
        some (deliverInsert m out).read) ↔
      quote ∉ m.spcode.text ∧ quote ∉ m.phone.text ∧ quote ∉ out ∧ 0 ∉ out := by
  have hwf := deliverInsert_wellFormed m out
  have hfit := deliverInsert_length_le m out
  have hpad : 512 - out.length = (511 - out.length) + 1 := by omega
  constructor
  · intro h
    have h0 := h []
    set p := cstr (out ++ List.replicate (512 - out.length) 0 ++ []) with hp
    have hcount : p.count quote ≤ out.count quote := by
      have hsub := (List.takeWhile_sublist (l := out ++ List.replicate (512 - out.length) 0)
        (· != 0)).count_le quote
      rw [List.count_append, List.count_replicate] at hsub
      rw [hp, List.append_nil, cstr]
      simpa [quote] using hsub
    rw [deliverSql_eq, deliverInsert_read, deliverInsert_read] at h0
    rw [deliverInsert_read] at hwf
    obtain ⟨hfields, hquote, hprinted, -⟩ := (lexSql_snprintf_iff hwf hcount (by decide)).mp h0
    exact ⟨hfields (m.spcode.text, ascii ", ") (by simp),
      hfields (m.phone.text, ascii ", ") (by simp), hquote, hprinted ▸ cstr_no_nul _⟩
  · rintro ⟨hspcode, hphone, hquote, hnul⟩ behind
    rw [hpad, List.replicate_succ, List.append_assoc, List.cons_append, cstr_of_no_nul hnul,
      deliverSql_eq]
    rw [deliverInsert_read] at hwf hfit ⊢
    rw [lexSql_snprintf_iff hwf (Nat.le_refl _) (by decide)]
    refine ⟨?_, hquote, rfl, by omega⟩
    simp only [List.forall_mem_cons]
    exact ⟨hspcode, hphone, by simp⟩

theorem deliverFaithful_iff (lib : IconvLibrary) (m : LambDeliver) : DeliverFaithful lib m ↔
    (Printed lib m → quote ∉ m.spcode.text ∧ quote ∉ m.phone.text ∧ ContentStorable lib m) := by
  cases hfrom : fromcodeOf m.msgfmt with
  | unknown => simp [DeliverFaithful, Printed, lambWriteDeliver, hfrom]
  | asIs =>
    have h := Server.deliverSql_array_iff m
    simpa [DeliverFaithful, Printed, ContentStorable, lambWriteDeliver, utf8Content, hfrom] using h
  | convert fromcode =>
    have hne := ne_utf8_of_fromcodeOf hfrom
    set cs := convertedChars lib fromcode m.content.bytes with hcs
    have hencode : ∀ c ∈ cs, ∃ bytes, utf8Encode c = some bytes := encode_of_mem_convertedChars
    have hsize := convertedChars_size_le lib hne m.content.bytes
    have hlen := m.content.length_le
    rw [← hcs] at hsize
    have hconvert := @lambEncodedConvert_utf8 lib m.content.bytes 512 fromcode
      (by rw [← hcs]; omega)
    rw [← hcs] at hconvert
    have hnil := encodeAll_utf8_eq_nil_iff hencode
    have hquote : quote ∈ encodeAll utf8Charset cs ↔ 39 ∈ cs :=
      mem_encodeAll_utf8_iff hencode (by decide)
    have hnul : 0 ∈ encodeAll utf8Charset cs ↔ 0 ∈ cs :=
      mem_encodeAll_utf8_iff hencode (by decide)
    have hout : (encodeAll utf8Charset cs).length ≤ 240 := by omega
    have hbuffer := deliverSql_buffer_iff m hout
    by_cases hknows : (lib.knows .utf8 && lib.knows fromcode) = true
    · rw [if_pos hknows] at hconvert
      by_cases hempty : cs = []
      · have hnone (behind : Bytes) : lambWriteDeliver lib m behind = none := by
          simp [lambWriteDeliver, hfrom, hconvert, hnil.mpr hempty]
        have hnot : ¬Printed lib m := by
          simp [Printed, hfrom, ← hcs, hempty]
        simp [DeliverFaithful, hnone, hnot]
      · have hout : ¬(encodeAll utf8Charset cs).length < 1 := by
          have hne := mt hnil.mp hempty
          have hpos := List.length_pos_iff.mpr hne
          omega
        rw [hquote, hnul] at hbuffer
        simpa [DeliverFaithful, Printed, ContentStorable, lambWriteDeliver, utf8Content, hfrom,
          hconvert, hout, ← hcs, hempty, hknows] using hbuffer
    · rw [if_neg hknows] at hconvert
      simp [DeliverFaithful, Printed, lambWriteDeliver, hfrom, hconvert, hknows]

end Delivery

end LambGateway
