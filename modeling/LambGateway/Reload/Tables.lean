import LambGateway.Framework.Decimal
import LambGateway.Framework.RowTable
import LambGateway.Message.Records
import LambGateway.Relay.Downlink
import LambGateway.Server.WorkLoop

/-!
# Reloading the tables

On a signal the delivery program renews its routing table, and the server its account and the
account's templates and keywords. Each table is emptied before the database is asked, and a fetch
that fails leaves it so.
-/

namespace LambGateway.Reload

open Framework

/-! ## Rows and entries -/

/-- A row of `SELECT id, rexp, target FROM delivery`. -/
@[ext]
structure DeliveryRow where
  id : Int32
  rexp : ColumnText
  target : Int32
  deriving DecidableEq

def DeliveryRow.entry (r : DeliveryRow) : LambDelivery where
  id := atoi (decimalInt r.id.toInt)
  rexp := strncpy r.rexp.text 127
  target := atoi (decimalInt r.target.toInt)

def deliveryRow (d : LambDelivery) : DeliveryRow := ⟨d.id, d.rexp.column, d.target⟩

@[ext]
structure TemplateRow where
  id : Int32
  acc : Int32
  name : ColumnText
  content : ColumnText
  deriving DecidableEq

/-- `lamb_template_t` with its numbers. -/
structure LoadedTemplate extends Server.LambTemplate where
  id : Int32
  acc : Int32

def TemplateRow.entry (r : TemplateRow) : LoadedTemplate where
  id := atoi (decimalInt r.id.toInt)
  acc := atoi (decimalInt r.acc.toInt)
  name := strncpy r.name.text 63
  content := strncpy r.content.text 511

def templateRow (t : LoadedTemplate) : TemplateRow := ⟨t.id, t.acc, t.name.column, t.content.column⟩

/-- A row of `SELECT id, val FROM keyword`. -/
@[ext]
structure KeywordRow where
  id : Int32
  val : ColumnText
  deriving DecidableEq

/-- `lamb_keyword_t`: the text is a copy of the column's. -/
structure LambKeyword where
  id : Int32
  val : ColumnText

def KeywordRow.entry (r : KeywordRow) : LambKeyword := ⟨atoi (decimalInt r.id.toInt), r.val⟩

def keywordRow (k : LambKeyword) : KeywordRow := ⟨k.id, k.val⟩

structure AccountRow where
  id : Int32
  username : ColumnText
  spcode : ColumnText
  company : Int32
  address : ColumnText
  concurrent : Int32
  options : Int32

/-- `lamb_account_t`, as far as the server loads it. -/
structure LoadedAccount extends LambAccount where
  address : CString 15
  concurrent : Int32
  options : Int32

def AccountRow.entry (r : AccountRow) : LoadedAccount where
  id := atoi (decimalInt r.id.toInt)
  username := strncpy r.username.text 7
  spcode := strncpy r.spcode.text 20
  company := atoi (decimalInt r.company.toInt)
  address := strncpy r.address.text 15
  concurrent := atoi (decimalInt r.concurrent.toInt)
  options := atoi (decimalInt r.options.toInt)

theorem deliveryRow_entry_iff (r : DeliveryRow) :
    deliveryRow r.entry = r ↔ r.rexp.text.length ≤ 127 := by
  rw [← strncpy_column_iff]
  constructor
  · exact congrArg DeliveryRow.rexp
  · intro hrexp
    apply DeliveryRow.ext
    · exact atoi_decimalInt r.id
    · exact hrexp
    · exact atoi_decimalInt r.target

theorem templateRow_entry_iff (r : TemplateRow) :
    templateRow r.entry = r ↔ r.name.text.length ≤ 63 ∧ r.content.text.length ≤ 511 := by
  rw [← strncpy_column_iff, ← strncpy_column_iff]
  constructor
  · exact fun h => ⟨congrArg TemplateRow.name h, congrArg TemplateRow.content h⟩
  · rintro ⟨hname, hcontent⟩
    apply TemplateRow.ext
    · exact atoi_decimalInt r.id
    · exact atoi_decimalInt r.acc
    · exact hname
    · exact hcontent

theorem keywordRow_entry (r : KeywordRow) : keywordRow r.entry = r := by
  apply KeywordRow.ext
  · exact atoi_decimalInt r.id
  · rfl

/-! ## The fetches and the reloads -/

/-- `lamb_get_delivery`: no rows are an error. -/
def lambGetDelivery (alloc : Nat → Bool) (deliverys : List LambDelivery) :
    QueryResult DeliveryRow → Int32 × List LambDelivery :=
  fetchRows 1 DeliveryRow.entry alloc deliverys

/-- `lamb_get_template`: `result` is the account's templates. -/
def lambGetTemplate (alloc : Nat → Bool) (templates : List LoadedTemplate) :
    QueryResult TemplateRow → Int32 × List LoadedTemplate :=
  fetchRows 0 TemplateRow.entry alloc templates

def lambKeywordGetAll (alloc : Nat → Bool) (keys : List LambKeyword) :
    QueryResult KeywordRow → Int32 × List LambKeyword :=
  fetchRows 0 KeywordRow.entry alloc keys

/-- `lamb_account_fetch`: the account is left as it is unless there is a row. -/
def lambAccountFetch (account : LoadedAccount) : QueryResult AccountRow → Int32 × LoadedAccount
  | none => (-1, account)
  | some [] => (1, account)
  | some (r :: _) => (0, r.entry)

/-- `lamb_reload` of the delivery program, with what the fetch has reported. -/
def Delivery.lambReload (alloc : Nat → Bool) (delivery : List LambDelivery)
    (result : QueryResult DeliveryRow) : Int32 × List LambDelivery :=
  lambGetDelivery alloc (clear delivery) result

/-- What the server has loaded. -/
structure Tables where
  account : LoadedAccount
  templates : List LoadedTemplate
  keywords : List LambKeyword

def LoadedAccount.hasOption (account : LoadedAccount) (bit : Int32) : Bool :=
  account.options &&& (1 <<< bit) != 0

/-- What the database answers the server. -/
structure Answers where
  account : QueryResult AccountRow
  templates : QueryResult TemplateRow
  keywords : QueryResult KeywordRow

/-- The tables after a reload, with what the fetches have reported; 0 stands for no fetch. -/
structure Reloaded extends Tables where
  accountErr : Int32
  templatesErr : Int32
  keywordsErr : Int32

/-- `lamb_reload` of the server. The options are the reloaded account's. -/
def Server.lambReload (allocTemplate allocKeyword : Nat → Bool) (tables : Tables)
    (answers : Answers) : Reloaded :=
  let (accountErr, account) := lambAccountFetch tables.account answers.account
  let (templatesErr, templates) :=
    if account.hasOption 0 then
      lambGetTemplate allocTemplate (clear tables.templates) answers.templates
    else (0, tables.templates)
  let (keywordsErr, keywords) :=
    if account.hasOption 1 then
      lambKeywordGetAll allocKeyword (clear tables.keywords) answers.keywords
    else (0, tables.keywords)
  { account, templates, keywords, accountErr, templatesErr, keywordsErr }

/-! ## When a reload is atomic -/

/-- There was no route to lose if the query fails or has no rows, and each pattern fits. -/
def DeliverySafe (alloc : Nat → Bool) (delivery : List LambDelivery)
    (result : QueryResult DeliveryRow) : Prop :=
  (result = none ∨ result = some [] → delivery = []) ∧
    ∀ rows, result = some rows → Allocated alloc rows → ∀ r ∈ rows, r.rexp.text.length ≤ 127

/-- There was no template to lose if the query fails, and each name and content fits. -/
def TemplatesSafe (alloc : Nat → Bool) (templates : List LoadedTemplate)
    (result : QueryResult TemplateRow) : Prop :=
  (result = none → templates = []) ∧
    ∀ rows, result = some rows → Allocated alloc rows →
      ∀ r ∈ rows, r.name.text.length ≤ 63 ∧ r.content.text.length ≤ 511

/-- There was no keyword to lose if the query fails. -/
def KeywordsSafe (keywords : List LambKeyword) (result : QueryResult KeywordRow) : Prop :=
  result = none → keywords = []

theorem fails_zero_iff {ρ : Type} (result : QueryResult ρ) : Fails 0 result ↔ result = none := by
  cases result with
  | none => exact iff_of_true (fun _ h => by cases h) rfl
  | some rows => exact iff_of_false (fun h => Nat.not_lt_zero _ (h rows rfl)) (fun h => by cases h)

theorem fails_one_iff {ρ : Type} (result : QueryResult ρ) :
    Fails 1 result ↔ result = none ∨ result = some [] := by
  cases result with
  | none => exact iff_of_true (fun _ h => by cases h) (.inl rfl)
  | some rows =>
    constructor
    · intro h
      have hlen := h rows rfl
      rw [List.length_eq_zero_iff.mp (Nat.lt_one_iff.mp hlen)]
      exact .inr rfl
    · rintro (h | h)
      · cases h
      · cases h
        intro rows hrows
        cases hrows
        exact Nat.one_pos

theorem delivery_atomic_iff (alloc : Nat → Bool) (delivery : List LambDelivery)
    (result : QueryResult DeliveryRow) :
    Atomic deliveryRow alloc delivery result (Delivery.lambReload alloc delivery result) ↔
      DeliverySafe alloc delivery result := by
  have h := atomic_renew_iff 1 DeliveryRow.entry deliveryRow alloc delivery result
  simp only [fails_one_iff, deliveryRow_entry_iff] at h
  apply h.trans
  apply and_congr_right
  intro hold
  constructor
  · intro hrows rows hresult halloc r hr
    exact hrows rows hresult (List.length_pos_of_mem hr) halloc r hr
  · exact fun hrows rows hresult _ => hrows rows hresult

theorem templates_atomic_iff (alloc : Nat → Bool) (templates : List LoadedTemplate)
    (result : QueryResult TemplateRow) :
    Atomic templateRow alloc templates result (lambGetTemplate alloc (clear templates) result) ↔
      TemplatesSafe alloc templates result := by
  have h := atomic_renew_iff 0 TemplateRow.entry templateRow alloc templates result
  simp only [fails_zero_iff, templateRow_entry_iff, Nat.zero_le, true_imp_iff] at h
  exact h

theorem keywords_atomic_iff (alloc : Nat → Bool) (keywords : List LambKeyword)
    (result : QueryResult KeywordRow) :
    Atomic keywordRow alloc keywords result (lambKeywordGetAll alloc (clear keywords) result) ↔
      KeywordsSafe keywords result := by
  have h := atomic_renew_iff 0 KeywordRow.entry keywordRow alloc keywords result
  simp only [fails_zero_iff, keywordRow_entry, implies_true, and_true] at h
  exact h

theorem lambReload_templates (allocTemplate allocKeyword : Nat → Bool) (tables : Tables)
    (answers : Answers) (loaded : Reloaded)
    (h : loaded = Server.lambReload allocTemplate allocKeyword tables answers)
    (hoption : loaded.account.hasOption 0 = true) :
    (loaded.templatesErr, loaded.templates) =
      lambGetTemplate allocTemplate (clear tables.templates) answers.templates := by
  subst h
  have hoption : (lambAccountFetch tables.account answers.account).2.hasOption 0 = true := hoption
  simp only [Server.lambReload, hoption, if_true]

theorem lambReload_keywords (allocTemplate allocKeyword : Nat → Bool) (tables : Tables)
    (answers : Answers) (loaded : Reloaded)
    (h : loaded = Server.lambReload allocTemplate allocKeyword tables answers)
    (hoption : loaded.account.hasOption 1 = true) :
    (loaded.keywordsErr, loaded.keywords) =
      lambKeywordGetAll allocKeyword (clear tables.keywords) answers.keywords := by
  subst h
  have hoption : (lambAccountFetch tables.account answers.account).2.hasOption 1 = true := hoption
  simp only [Server.lambReload, hoption, if_true]

/-- A reload leaves, for each table that it renews, the old table after an error and the rows
otherwise, if and only if the table was empty where a fetch reports an error and what the rows
hold fits into the entries. -/
theorem reload_atomic_iff (allocDelivery allocTemplate allocKeyword : Nat → Bool)
    (delivery : List LambDelivery) (result : QueryResult DeliveryRow) (tables : Tables)
    (answers : Answers) :
    let loaded := Server.lambReload allocTemplate allocKeyword tables answers
    (Atomic deliveryRow allocDelivery delivery result
        (Delivery.lambReload allocDelivery delivery result) ↔
      DeliverySafe allocDelivery delivery result) ∧
    (loaded.account.hasOption 0 = true →
      (Atomic templateRow allocTemplate tables.templates answers.templates
          (loaded.templatesErr, loaded.templates) ↔
        TemplatesSafe allocTemplate tables.templates answers.templates)) ∧
    (loaded.account.hasOption 1 = true →
      (Atomic keywordRow allocKeyword tables.keywords answers.keywords
          (loaded.keywordsErr, loaded.keywords) ↔
        KeywordsSafe tables.keywords answers.keywords)) := by
  intro loaded
  refine ⟨delivery_atomic_iff allocDelivery delivery result, ?_, ?_⟩
  · intro hoption
    rw [lambReload_templates allocTemplate allocKeyword tables answers loaded rfl hoption]
    exact templates_atomic_iff allocTemplate tables.templates answers.templates
  · intro hoption
    rw [lambReload_keywords allocTemplate allocKeyword tables answers loaded rfl hoption]
    exact keywords_atomic_iff allocKeyword tables.keywords answers.keywords

/-- The query for the routes fails: the one route is gone. -/
theorem outage_empties :
    let route : LambDelivery := { id := 1, rexp := strncpy (ascii "^1069") 127, target := 9 }
    Delivery.lambReload (fun _ => true) [route] none = (-1, []) ∧
      ¬Atomic deliveryRow (fun _ => true) [route] none
        (Delivery.lambReload (fun _ => true) [route] none) := by
  refine ⟨rfl, fun h => ?_⟩
  have hkept := h.failed (by decide)
  cases hkept

/-! ## What an outage does to the messages -/

/-- After an outage no subscriber's message finds an account. -/
theorem target_after_outage (pcre : Bytes → Bytes → Bool) (alloc : Nat → Bool)
    (delivery : List LambDelivery) (spcode : Bytes) :
    Relay.Delivery.target pcre (Delivery.lambReload alloc delivery none).2 spcode = 0 := by
  rw [Delivery.lambReload, clear_eq_nil]
  rfl

/-- After an outage the work loop of an account that has its templates checked turns every
message away. -/
theorem checkText_after_outage (allocTemplate allocKeyword : Nat → Bool) (tables : Tables)
    (answers : Answers) (loaded : Reloaded)
    (hloaded : loaded = Server.lambReload allocTemplate allocKeyword tables answers)
    (hoption : loaded.account.hasOption 0 = true) (houtage : answers.templates = none)
    (env : Server.Env) (hoptions : env.options = loaded.account.options)
    (htemplates : env.templates = loaded.templates.map LoadedTemplate.toLambTemplate)
    (alloc : Server.Allocation) (message : Submit) :
    Server.checkText env alloc message = .error ⟨some .tmp, 7⟩ := by
  have hempty : loaded.templates = [] := by
    have hfetch := lambReload_templates allocTemplate allocKeyword tables answers loaded hloaded
      hoption
    rw [houtage, clear_eq_nil] at hfetch
    exact congrArg Prod.snd hfetch
  have hbit : env.hasOption 0 = true := by
    rw [Server.Env.hasOption, hoptions]
    exact hoption
  have hnone : env.templates = [] := by rw [htemplates, hempty, List.map_nil]
  rw [Server.checkText, hbit, hnone]
  rfl

end LambGateway.Reload
