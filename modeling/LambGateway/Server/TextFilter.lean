import LambGateway.Reload.Tables

/-!
# Templates and keywords

The two checks of the server's work loop that look into the text of a message. A template is
printed into a buffer of 512 bytes before it is compiled; a keyword is searched for with `strstr`
in memory that nobody has terminated behind the text.
-/

namespace LambGateway.Server

open Framework
open Reload (LambKeyword TemplateRow)

/-- An account with these options and lists, whose engine matches nothing. -/
def textEnv (options : Int32) (templates : List LambTemplate) (keywords : List Bytes) : Env where
  account := 1
  company := 1
  options := options
  blacklist _ := false
  unsubscribe _ := false
  frequency _ := false
  iconv := Relay.plainIconv
  templates := templates
  keywords := keywords
  pcre _ _ := false
  behind := []

theorem hasOption_templates (templates : List LambTemplate) (keywords : List Bytes) :
    (textEnv 1 templates keywords).hasOption 0 = true := by
  change ((1 : Int32) &&& ((1 : Int32) <<< (0 : Int32)) != 0) = true
  decide

theorem hasOption_keywords (templates : List LambTemplate) (keywords : List Bytes) :
    (textEnv 2 templates keywords).hasOption 1 = true := by
  change ((2 : Int32) &&& ((1 : Int32) <<< (1 : Int32)) != 0) = true
  decide

/-! ## The template stage -/

/-- `^【name】content$` -/
def fullPattern (template : LambTemplate) : Bytes :=
  ascii "^" ++ [0xE3, 0x80, 0x90] ++ template.name.text ++ [0xE3, 0x80, 0x91] ++
    template.content.text ++ ascii "$"

/-- The pattern that `lamb_check_content` compiles. -/
def compiledPattern (template : LambTemplate) : Bytes := snprintf 512 (fullPattern template)

theorem lambCheckContent_eq (pcre : Bytes → Bytes → Bool) (template : LambTemplate)
    (content : Bytes) :
    lambCheckContent pcre template content = pcre (compiledPattern template) content :=
  rfl

/-- Every template record is loaded from some row. -/
theorem exists_templateRow (template : LambTemplate) :
    ∃ row : TemplateRow, row.entry.toLambTemplate = template := by
  refine ⟨⟨0, 0, template.name.column, template.content.column⟩, ?_⟩
  have hname : strncpy template.name.text 63 = template.name :=
    CString.ext (strncpy_text template.name.length_le template.name.no_nul)
  have hcontent : strncpy template.content.text 511 = template.content :=
    CString.ext (strncpy_text template.content.length_le template.content.no_nul)
  change LambTemplate.mk (strncpy template.name.text 63) (strncpy template.content.text 511) = _
  rw [hname, hcontent]

theorem fullPattern_length (template : LambTemplate) :
    (fullPattern template).length =
      template.name.text.length + template.content.text.length + 8 := by
  have hfirst : (ascii "^").length = 1 := by decide
  have hlast : (ascii "$").length = 1 := by decide
  simp only [fullPattern, List.length_append, List.length_cons, List.length_nil, hfirst, hlast]
  omega

/-- The name and the content leave room for the rest of the pattern. -/
def LambTemplate.Fits (template : LambTemplate) : Prop :=
  template.name.text.length + template.content.text.length ≤ 503

theorem compiledPattern_eq_iff (template : LambTemplate) :
    compiledPattern template = fullPattern template ↔ template.Fits := by
  rw [compiledPattern, snprintf_eq_self_iff (by decide), fullPattern_length, LambTemplate.Fits]
  omega

theorem passes_template_iff (env : Env) (hoption : env.hasOption 0 = true) (alloc : Allocation)
    (message : Submit) :
    checkText env alloc message ≠ .error ⟨some .tmp, 7⟩ ↔
      ∃ template ∈ env.templates, env.pcre (compiledPattern template) message.content = true := by
  have hany : (∃ template ∈ env.templates,
      env.pcre (compiledPattern template) message.content = true) ↔
      env.templates.any (lambCheckContent env.pcre · message.content) = true := by
    simp only [List.any_eq_true, lambCheckContent_eq]
  rw [hany, checkText, hoption]
  cases env.templates.any (lambCheckContent env.pcre · message.content) with
  | false => simp
  | true =>
    simp only [Bool.not_true, Bool.and_false, Bool.false_eq_true, if_false]
    apply iff_of_true _ trivial
    (repeat' split) <;> (intro h; cases h)

/-- With any regular expression engine a message passes the stage if and only if a template of the
account matches it with its complete pattern. -/
def StageExact (env : Env) : Prop :=
  ∀ (pcre : Bytes → Bytes → Bool) (alloc : Allocation) (message : Submit),
    checkText { env with pcre := pcre } alloc message ≠ .error ⟨some .tmp, 7⟩ ↔
      ∃ template ∈ env.templates, pcre (fullPattern template) message.content = true

theorem stageExact_of_fits {env : Env} (hoption : env.hasOption 0 = true)
    (hfits : ∀ template ∈ env.templates, template.Fits) : StageExact env := by
  intro pcre alloc message
  rw [passes_template_iff { env with pcre := pcre } hoption alloc message]
  apply exists_congr
  intro template
  apply and_congr_right
  intro hmem
  rw [(compiledPattern_eq_iff template).mpr (hfits template hmem)]

/-- An engine that matches one complete pattern only: if the template does not fit, the pattern is
compiled from none. -/
theorem fits_of_stageExact {env : Env} (hoption : env.hasOption 0 = true) (h : StageExact env) :
    ∀ template ∈ env.templates, template.Fits := by
  intro template hmem
  let pcre (pattern _ : Bytes) : Bool := pattern == fullPattern template
  let alloc : Allocation := ⟨true, true, true, true, true, true⟩
  let message : Submit := ⟨0, 0, 0, [], [], [], 0, 0, []⟩
  have hpasses := (h pcre alloc message).mpr ⟨template, hmem, beq_self_eq_true _⟩
  obtain ⟨other, -, hother⟩ :=
    (passes_template_iff { env with pcre := pcre } hoption alloc message).mp hpasses
  have hcompiled : compiledPattern other = fullPattern template := eq_of_beq hother
  have hlen : (compiledPattern other).length ≤ 511 := List.length_take_le _ _
  rw [hcompiled, fullPattern_length] at hlen
  rw [LambTemplate.Fits]
  omega

/-- What is compiled for the templates of an account is their complete patterns, and the stage
asks for a match with one of these, if and only if each name and content take 503 bytes at
most. -/
theorem templates_exact_iff (env : Env) (hoption : env.hasOption 0 = true) :
    (∀ template ∈ env.templates, compiledPattern template = fullPattern template) ∧
        StageExact env ↔
      ∀ template ∈ env.templates, template.Fits := by
  constructor
  · exact fun h => fits_of_stageExact hoption h.2
  · intro hfits
    constructor
    · exact fun template hmem => (compiledPattern_eq_iff template).mpr (hfits template hmem)
    · exact stageExact_of_fits hoption hfits

theorem templates_exact_short :
    StageExact (textEnv 1 [⟨strncpy (ascii "shop") 63, strncpy (ascii "code [0-9]+") 511⟩] []) := by
  have hfits : ∀ template ∈ [LambTemplate.mk (strncpy (ascii "shop") 63)
      (strncpy (ascii "code [0-9]+") 511)], template.Fits := by
    intro template hmem
    obtain rfl := List.mem_singleton.mp hmem
    exact (by decide : 4 + 11 ≤ 503)
  exact ((templates_exact_iff _ (hasOption_templates _ _)).mpr hfits).2

/-- A content of 511 bytes: the pattern ends with the content's 504th byte. -/
theorem long_template_cut :
    ¬ ∀ env : Env, env.hasOption 0 = true →
      (∀ template ∈ env.templates, compiledPattern template = fullPattern template) ∧
        StageExact env := by
  intro h
  have hnul : 0 ∉ List.replicate 511 (97 : UInt8) :=
    fun hmem => nomatch List.eq_of_mem_replicate hmem
  let long : LambTemplate :=
    ⟨strncpy [] 63, ⟨List.replicate 511 97, List.length_replicate.le, hnul⟩⟩
  have hpattern := (h (textEnv 1 [long] []) (hasOption_templates _ _)).1 long
    (List.mem_singleton_self long)
  have hfits : 0 + (List.replicate 511 (97 : UInt8)).length ≤ 503 :=
    (compiledPattern_eq_iff long).mp hpattern
  rw [List.length_replicate] at hfits
  exact absurd hfits (by decide)

/-! ## The keyword stage -/

/-- A keyword occurs in the text. -/
def Occurs (keywords : List Bytes) (text : Bytes) : Prop := ∃ key ∈ keywords, key <:+: text

/-- The template stage lets the message through. -/
def ReachesKeywords (env : Env) (message : Submit) : Prop :=
  env.hasOption 0 = true →
    env.templates.any (lambCheckContent env.pcre · message.content) = true

theorem rejected_for_keyword_iff (env : Env) (hoption : env.hasOption 1 = true)
    (alloc : Allocation) {message : Submit} (hreach : ReachesKeywords env message) :
    checkText env alloc message = .error ⟨some .key, 7⟩ ↔
      Occurs env.keywords (cstr (message.content ++ env.behind)) := by
  have hany : Occurs env.keywords (cstr (message.content ++ env.behind)) ↔
      env.keywords.any (lambCheckKeyword · (message.content ++ env.behind)) = true := by
    rw [List.any_eq_true]
    apply exists_congr
    intro key
    rw [lambCheckKeyword, strstr_iff]
  have htemplate : (env.hasOption 0 &&
      !env.templates.any (lambCheckContent env.pcre · message.content)) = false := by
    cases h : env.hasOption 0 with
    | false => rfl
    | true => rw [hreach h]; rfl
  rw [hany, checkText, htemplate, hoption]
  cases env.keywords.any (lambCheckKeyword · (message.content ++ env.behind)) with
  | true => simp
  | false =>
    simp only [Bool.and_false, Bool.false_eq_true, if_false, iff_false]
    (repeat' split) <;> (intro h; cases h)

theorem reachesKeywords_textEnv (keywords : List Bytes) (message : Submit) :
    ReachesKeywords (textEnv 2 [] keywords) message := by
  have hoption : (textEnv 2 [] keywords).hasOption 0 = false := by
    change ((2 : Int32) &&& ((1 : Int32) <<< (0 : Int32)) != 0) = false
    decide
  intro h
  exact absurd (hoption.symm.trans h) Bool.false_ne_true

theorem Occurs.mono {keywords : List Bytes} {text text' : Bytes} (h : Occurs keywords text)
    (hfront : text <+: text') : Occurs keywords text' := by
  obtain ⟨key, hmem, hkey⟩ := h
  exact ⟨key, hmem, hkey.trans hfront.isInfix⟩

/-- Behind a zero byte of the text nothing is searched; without one the search goes on into what
follows in memory. -/
theorem rejected_behind_iff {keywords : List Bytes} {text : Bytes} (behind : Bytes) :
    (Occurs keywords (cstr (text ++ behind)) ↔ Occurs keywords text) ↔
      if 0 ∈ text then Occurs keywords text → Occurs keywords (cstr text)
      else Occurs keywords (text ++ cstr behind) → Occurs keywords text := by
  split
  · next hnul =>
    rw [cstr_append_of_nul hnul]
    constructor
    · exact Iff.mpr
    · exact fun h => ⟨fun hfound => hfound.mono (cstr_isPrefix text), h⟩
  · next hnul =>
    rw [cstr_append_of_no_nul hnul]
    constructor
    · exact Iff.mp
    · exact fun h => ⟨h, fun hfound => hfound.mono (List.prefix_append text _)⟩

/-- What follows in memory completes no keyword only if there is one in the text, or none at
all: a keyword may itself be what follows. -/
theorem never_completed_iff (keys : List LambKeyword) (text : Bytes) :
    (∀ behind, Occurs (keys.map (·.val.text)) (text ++ cstr behind) →
        Occurs (keys.map (·.val.text)) text) ↔
      Occurs (keys.map (·.val.text)) text ∨ keys = [] := by
  constructor
  · intro h
    cases keys with
    | nil => exact .inr rfl
    | cons key keys =>
      refine .inl (h key.val.text ?_)
      rw [cstr_eq_self key.val.no_nul]
      exact ⟨key.val.text, List.mem_cons_self, (List.suffix_append _ _).isInfix⟩
  · rintro (hfound | rfl) behind hbehind
    · exact hfound
    · obtain ⟨key, hmem, -⟩ := hbehind
      exact absurd hmem List.not_mem_nil

/-- Whatever follows the text in memory, the message is rejected if and only if a keyword occurs
in the text: this is so if and only if a keyword occurs before the first zero byte, or none
occurs at all and a zero byte ends the search in the text. -/
theorem keyword_verdict_iff (env : Env) (alloc : Allocation) (message : Submit)
    (keys : List LambKeyword) (hoption : env.hasOption 1 = true)
    (hreach : ReachesKeywords env message) :
    let keywords := keys.map (·.val.text)
    (∀ behind, checkText { env with keywords := keywords, behind := behind } alloc message =
        .error ⟨some .key, 7⟩ ↔ Occurs keywords message.content) ↔
      Occurs keywords (cstr message.content) ∨
        ¬ Occurs keywords message.content ∧ (0 ∈ message.content ∨ keys = []) := by
  intro keywords
  have hverdict (behind : Bytes) := rejected_for_keyword_iff
    { env with keywords := keywords, behind := behind } hoption alloc hreach
  simp only [hverdict, rejected_behind_iff]
  by_cases hnul : 0 ∈ message.content
  · simp only [hnul, if_true, forall_const, true_or, and_true]
    rw [imp_iff_or_not]
  · simp only [hnul, if_false, false_or]
    rw [cstr_eq_self hnul, or_and_left, and_iff_right (Classical.em _)]
    exact never_completed_iff keys message.content

theorem keyword_verdict_found :
    checkText { textEnv 2 [] [ascii "prize"] with behind := ascii "?" }
        ⟨true, true, true, true, true, true⟩ ⟨1, 1, 1, [], [], [], 11, 11, ascii "your prize!"⟩ =
      .error ⟨some .key, 7⟩ := by
  have hnul : 0 ∉ ascii "prize" := by decide
  have hoccurs : Occurs [ascii "prize"] (ascii "your prize!") :=
    ⟨ascii "prize", List.mem_singleton_self _, ascii "your ", ascii "!", by decide⟩
  have hcstr : cstr (ascii "your prize!") = ascii "your prize!" := by decide
  have hverdict := keyword_verdict_iff (textEnv 2 [] []) ⟨true, true, true, true, true, true⟩
    ⟨1, 1, 1, [], [], [], 11, 11, ascii "your prize!"⟩ [⟨1, ⟨ascii "prize", hnul⟩⟩]
    (hasOption_keywords [] []) (reachesKeywords_textEnv [] _)
  exact (hverdict.mpr (.inl (hcstr.symm ▸ hoccurs)) (ascii "?")).mpr hoccurs

/-- A keyword behind a zero byte is not found. -/
theorem keyword_behind_zero :
    ¬ ∀ (env : Env) (alloc : Allocation) (message : Submit) (keys : List LambKeyword),
      (∀ key ∈ keys, key.val.text ≠ []) → env.hasOption 1 = true → ReachesKeywords env message →
        ∀ behind, checkText
            { env with keywords := keys.map (·.val.text), behind := behind } alloc message =
          .error ⟨some .key, 7⟩ ↔ Occurs (keys.map (·.val.text)) message.content := by
  intro h
  have hnul : 0 ∉ ascii "prize" := by decide
  let message : Submit := ⟨1, 1, 1, [], [], [], 11, 6, 0 :: ascii "prize"⟩
  let alloc : Allocation := ⟨true, true, true, true, true, true⟩
  have hne : ∀ key ∈ [LambKeyword.mk 1 ⟨ascii "prize", hnul⟩], key.val.text ≠ [] := by
    intro key hkey
    obtain rfl := List.mem_singleton.mp hkey
    exact (by decide : ascii "prize" ≠ [])
  have hverdict := h (textEnv 2 [] []) alloc message [⟨1, ⟨ascii "prize", hnul⟩⟩] hne
    (hasOption_keywords [] []) (reachesKeywords_textEnv [] message) []
  have hoccurs : Occurs [ascii "prize"] (0 :: ascii "prize") :=
    ⟨ascii "prize", List.mem_singleton_self _, (List.suffix_cons _ _).isInfix⟩
  have hsearched := (rejected_for_keyword_iff (textEnv 2 [] [ascii "prize"])
    (hasOption_keywords _ _) alloc (reachesKeywords_textEnv _ message)).mp (hverdict.mpr hoccurs)
  obtain ⟨key, hkey, hfound⟩ := hsearched
  obtain rfl := List.mem_singleton.mp hkey
  have hempty := List.infix_nil.mp (show ascii "prize" <:+: [] from hfound)
  exact absurd hempty (by decide)

end LambGateway.Server
