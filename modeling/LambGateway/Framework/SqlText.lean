import LambGateway.Framework.Decimal
import Mathlib.Data.List.Basic

/-!
# SQL text and its quoted literals

The standard lexical rule for single-quoted literals: inside a literal two quotes denote one
quote, and the first lone quote ends it. A statement is read into the text outside its literals
and the values the literals denote. Writing a value between quotes without doubling its own
quotes is compared with writing it escaped.
-/

namespace Framework

def quote : UInt8 := 39

/-- A statement read to its end: the text before the first literal, then the value of each
literal with the text that follows it. -/
structure SqlText where
  head : Bytes
  rest : List (Bytes × Bytes)
  deriving DecidableEq

/-- Where the reader stands: outside literals, inside one, or just behind a quote inside one. -/
inductive SqlMode where
  | code
  | literal
  | closing
  deriving DecidableEq

private def pushLiteral (b : UInt8) : List (Bytes × Bytes) → List (Bytes × Bytes)
  | [] => []
  | (v, c) :: rest => (b :: v, c) :: rest

private def pushCode (b : UInt8) : List (Bytes × Bytes) → List (Bytes × Bytes)
  | [] => []
  | (v, c) :: rest => (v, b :: c) :: rest

/-- The literals still to be read, each with the text behind it; the first pair continues what
the mode is in the middle of. An open literal at the end of the text is no statement. -/
def lexFrom : SqlMode → Bytes → Option (List (Bytes × Bytes))
  | .code, [] => some [([], [])]
  | .literal, [] => none
  | .closing, [] => some [([], [])]
  | .code, b :: bs =>
    if b = quote then (lexFrom .literal bs).map (([], []) :: ·)
    else (lexFrom .code bs).map (pushCode b)
  | .literal, b :: bs =>
    if b = quote then lexFrom .closing bs else (lexFrom .literal bs).map (pushLiteral b)
  | .closing, b :: bs =>
    if b = quote then (lexFrom .literal bs).map (pushLiteral quote)
    else (lexFrom .code bs).map (pushCode b)

example (b : UInt8) (bs : Bytes) (h : b ≠ quote) :
    lexFrom .code (b :: bs) = (lexFrom .code bs).map (pushCode b) := by
  rw [lexFrom, if_neg h]

def lexSql (text : Bytes) : Option SqlText :=
  (lexFrom .code text).bind fun
    | [] => none
    | (_, head) :: rest => some ⟨head, rest⟩

def escape (v : Bytes) : Bytes := v.flatMap fun b => if b = quote then [quote, quote] else [b]

@[simp] theorem escape_nil : escape [] = [] := rfl

theorem escape_cons (b : UInt8) (v : Bytes) :
    escape (b :: v) = (if b = quote then [quote, quote] else [b]) ++ escape v := rfl

theorem escape_of_not_mem {v : Bytes} (h : quote ∉ v) : escape v = v := by
  induction v with
  | nil => rfl
  | cons b v ih =>
    simp only [List.mem_cons, not_or] at h
    rw [escape_cons, if_neg (Ne.symm h.1), ih h.2, List.singleton_append]

theorem count_escape (v : Bytes) : (escape v).count quote = 2 * v.count quote := by
  induction v with
  | nil => rfl
  | cons b v ih =>
    rw [escape_cons, List.count_append, ih]
    by_cases hb : b = quote
    · subst hb
      simp only [if_true, List.count_cons_self, List.count_nil]
      omega
    · rw [if_neg hb, List.count_singleton, List.count_cons_of_ne hb, beq_eq_false_iff_ne.mpr hb]
      simp

/-- The literals with the text behind them, every value escaped by `enc`. -/
def renderRest (enc : Bytes → Bytes) (rest : List (Bytes × Bytes)) : Bytes :=
  rest.flatMap fun p => quote :: enc p.1 ++ quote :: p.2

theorem renderRest_cons (enc : Bytes → Bytes) (v c : Bytes) (rest : List (Bytes × Bytes)) :
    renderRest enc ((v, c) :: rest) = quote :: (enc v ++ quote :: (c ++ renderRest enc rest)) := by
  simp [renderRest]

theorem renderRest_singleton (enc : Bytes → Bytes) (v c : Bytes) :
    renderRest enc [(v, c)] = quote :: (enc v ++ quote :: c) := by
  simp [renderRest]

theorem renderRest_append (enc : Bytes → Bytes) (rest more : List (Bytes × Bytes)) :
    renderRest enc (rest ++ more) = renderRest enc rest ++ renderRest enc more := by
  simp [renderRest]

namespace SqlText

/-- The statement written with every value escaped. -/
def render (t : SqlText) : Bytes := t.head ++ renderRest escape t.rest

/-- The statement written with every value copied between quotes as it is. -/
def splice (t : SqlText) : Bytes := t.head ++ renderRest id t.rest

/-- Text outside literals has no quotes, and two literals never touch. -/
structure WellFormed (t : SqlText) : Prop where
  head : quote ∉ t.head
  rest : ∀ p ∈ t.rest, quote ∉ p.2
  apart : ∀ p ∈ t.rest, p.2 ≠ []

end SqlText

private theorem lexFrom_sound (text : Bytes) : ∀ (mode : SqlMode) (ps : List (Bytes × Bytes)),
    lexFrom mode text = some ps → ∃ v c rest, ps = (v, c) :: rest ∧
      match mode with
      | .code => v = [] ∧ text = c ++ renderRest escape rest
      | .literal => text = escape v ++ quote :: (c ++ renderRest escape rest)
      | .closing => quote :: text = escape v ++ quote :: (c ++ renderRest escape rest) := by
  induction text with
  | nil =>
    intro mode ps h
    cases mode with
    | code =>
      cases h
      exact ⟨[], [], [], rfl, rfl, rfl⟩
    | literal => cases h
    | closing =>
      cases h
      exact ⟨[], [], [], rfl, rfl⟩
  | cons b bs ih =>
    intro mode ps h
    cases mode with
    | code =>
      rw [lexFrom] at h
      split at h
      · next hb =>
        obtain ⟨qs, hqs, rfl⟩ := Option.map_eq_some_iff.mp h
        obtain ⟨v, c, rest, rfl, htext⟩ := ih .literal qs hqs
        refine ⟨[], [], (v, c) :: rest, rfl, rfl, ?_⟩
        rw [renderRest_cons, List.nil_append, hb, htext]
      · obtain ⟨qs, hqs, rfl⟩ := Option.map_eq_some_iff.mp h
        obtain ⟨v, c, rest, rfl, hv, htext⟩ := ih .code qs hqs
        exact ⟨v, b :: c, rest, rfl, hv, by rw [htext, List.cons_append]⟩
    | literal =>
      rw [lexFrom] at h
      split at h
      · next hb =>
        obtain ⟨v, c, rest, rfl, htext⟩ := ih .closing ps h
        exact ⟨v, c, rest, rfl, by rw [hb]; exact htext⟩
      · next hb =>
        obtain ⟨qs, hqs, rfl⟩ := Option.map_eq_some_iff.mp h
        obtain ⟨v, c, rest, rfl, htext⟩ := ih .literal qs hqs
        refine ⟨b :: v, c, rest, rfl, ?_⟩
        rw [escape_cons, if_neg hb, htext]
        rfl
    | closing =>
      rw [lexFrom] at h
      split at h
      · next hb =>
        obtain ⟨qs, hqs, rfl⟩ := Option.map_eq_some_iff.mp h
        obtain ⟨v, c, rest, rfl, htext⟩ := ih .literal qs hqs
        refine ⟨quote :: v, c, rest, rfl, ?_⟩
        rw [escape_cons, if_pos rfl, hb, htext]
        rfl
      · obtain ⟨qs, hqs, rfl⟩ := Option.map_eq_some_iff.mp h
        obtain ⟨v, c, rest, rfl, hv, htext⟩ := ih .code qs hqs
        refine ⟨v, b :: c, rest, rfl, ?_⟩
        rw [hv, htext]
        rfl

/-- A text that reads as a statement is that statement, written with its values escaped. -/
theorem eq_render_of_lexSql {text : Bytes} {t : SqlText} (h : lexSql text = some t) :
    text = t.render := by
  obtain ⟨ps, hps, ht⟩ := Option.bind_eq_some_iff.mp h
  obtain ⟨v, c, rest, rfl, -, htext⟩ := lexFrom_sound text .code ps hps
  cases ht
  exact htext

private theorem lexFrom_code_append {c : Bytes} (hc : quote ∉ c) (text : Bytes) :
    lexFrom .code (c ++ text) = (lexFrom .code text).map fun ps => c.foldr pushCode ps := by
  induction c with
  | nil => simp
  | cons b c ih =>
    simp only [List.mem_cons, not_or] at hc
    rw [List.cons_append, lexFrom, if_neg (Ne.symm hc.1), ih hc.2, Option.map_map]
    rfl

private theorem lexFrom_literal_escape (v text : Bytes) :
    lexFrom .literal (escape v ++ quote :: text) =
      (lexFrom .closing text).map fun ps => v.foldr pushLiteral ps := by
  induction v with
  | nil => simp [lexFrom]
  | cons b v ih =>
    rw [escape_cons]
    by_cases hb : b = quote
    · rw [if_pos hb, hb]
      simp only [List.cons_append, List.nil_append, lexFrom, if_true, ih, Option.map_map]
      rfl
    · rw [if_neg hb]
      simp only [List.cons_append, List.nil_append, lexFrom, if_neg hb, ih, Option.map_map]
      rfl

private theorem foldr_pushCode (c v d : Bytes) (rest : List (Bytes × Bytes)) :
    c.foldr pushCode ((v, d) :: rest) = (v, c ++ d) :: rest := by
  induction c with
  | nil => rfl
  | cons b c ih => rw [List.foldr_cons, ih]; rfl

private theorem foldr_pushLiteral (v w c : Bytes) (rest : List (Bytes × Bytes)) :
    v.foldr pushLiteral ((w, c) :: rest) = (v ++ w, c) :: rest := by
  induction v with
  | nil => rfl
  | cons b v ih => rw [List.foldr_cons, ih]; rfl

private theorem lexFrom_renderRest (rest : List (Bytes × Bytes))
    (hquote : ∀ p ∈ rest, quote ∉ p.2) (hapart : ∀ p ∈ rest, p.2 ≠ []) :
    lexFrom .code (renderRest escape rest) = some (([], []) :: rest) := by
  induction rest with
  | nil => rfl
  | cons p rest ih =>
    obtain ⟨v, c⟩ := p
    have hc : quote ∉ c := hquote (v, c) (by simp)
    have hbehind : lexFrom .code (c ++ renderRest escape rest) = some (([], c) :: rest) := by
      rw [lexFrom_code_append hc, ih (fun p hp => hquote p (by simp [hp]))
        (fun p hp => hapart p (by simp [hp])), Option.map_some, foldr_pushCode, List.append_nil]
    have hclosing : lexFrom .closing (c ++ renderRest escape rest) = some (([], c) :: rest) := by
      cases c with
      | nil => exact absurd rfl (hapart (v, []) (by simp))
      | cons b c =>
        have hb : b ≠ quote := fun h => hc (by simp [h])
        simp only [List.cons_append, lexFrom, if_neg hb] at hbehind ⊢
        exact hbehind
    rw [renderRest_cons, lexFrom, if_pos rfl, lexFrom_literal_escape, hclosing, Option.map_some,
      foldr_pushLiteral, List.append_nil]
    rfl

/-- A well-formed statement written with its values escaped reads as itself. -/
theorem lexSql_render {t : SqlText} (h : t.WellFormed) : lexSql t.render = some t := by
  rw [lexSql, SqlText.render, lexFrom_code_append h.head, lexFrom_renderRest _ h.rest h.apart,
    Option.map_some, foldr_pushCode, List.append_nil]
  rfl

/-- Once the escaped text is a quote ahead it stays ahead, so the end of the literal that was
copied as it is meets a quote where text outside the literal should stand. -/
private theorem escape_ahead (w : Bytes) : ∀ (j : Nat) {b : UInt8} {xs ys : Bytes}, b ≠ quote →
    w ++ quote :: b :: xs ≠ List.replicate (j + 1) quote ++ (escape w ++ quote :: ys) := by
  induction w with
  | nil =>
    intro j b xs ys hb h
    cases j with
    | zero => simp_all
    | succ j => simp_all [List.replicate_succ]
  | cons a w ih =>
    intro j b xs ys hb h
    rw [List.replicate_succ, List.cons_append, List.cons_append, List.cons.injEq] at h
    obtain ⟨ha, h⟩ := h
    subst ha
    apply @ih (j + 1) b xs ys hb
    rw [h, escape_cons, if_pos rfl, List.replicate_succ', List.replicate_succ']
    simp

/-- A value copied as it is and followed by text that is no quote reads as itself only if it
has no quotes. -/
theorem not_mem_of_escape_append_eq {v : Bytes} {b : UInt8} {xs ys : Bytes} (hb : b ≠ quote)
    (h : v ++ quote :: b :: xs = escape v ++ quote :: ys) : quote ∉ v := by
  induction v with
  | nil => simp
  | cons a v ih =>
    rw [escape_cons] at h
    by_cases ha : a = quote
    · subst ha
      simp only [if_true, List.cons_append, List.nil_append, List.cons.injEq, true_and] at h
      exact absurd (by simpa using h) (escape_ahead v 0 hb)
    · simp only [if_neg ha, List.cons_append, List.nil_append, List.cons.injEq, true_and] at h
      simp only [List.mem_cons, not_or]
      exact ⟨Ne.symm ha, ih h⟩

/-- The last literal is printed as `p` and is to be read as `v`, where `p` has no more quotes
than `v`: nothing but the value itself will do. -/
private theorem last_literal {v p c extra : Bytes} (hcount : p.count quote ≤ v.count quote)
    (hc : quote ∉ c) (h : p ++ quote :: c = escape v ++ quote :: (c ++ extra)) :
    quote ∉ v ∧ p = v ∧ extra = [] := by
  have hquotes := congrArg (List.count quote) h
  simp only [List.count_append, List.count_cons_self, count_escape,
    List.count_eq_zero_of_not_mem hc] at hquotes
  have hv : quote ∉ v := List.count_eq_zero.mp (by omega)
  have hp : quote ∉ p := List.count_eq_zero.mp (by omega)
  rw [escape_of_not_mem hv] at h
  obtain ⟨hpv, -, hextra⟩ := (List.append_cons_inj_of_notMem hp hc).mp h
  refine ⟨hv, hpv, ?_⟩
  simpa using hextra

private theorem splice_fields {fields : List (Bytes × Bytes)} {v p c extra : Bytes}
    (hquote : ∀ f ∈ fields, quote ∉ f.2) (hapart : ∀ f ∈ fields, f.2 ≠ [])
    (hcount : p.count quote ≤ v.count quote) (hc : quote ∉ c)
    (h : renderRest id fields ++ (quote :: (p ++ quote :: c)) =
      renderRest escape fields ++ (quote :: (escape v ++ quote :: (c ++ extra)))) :
    (∀ f ∈ fields, quote ∉ f.1) ∧ quote ∉ v ∧ p = v ∧ extra = [] := by
  induction fields with
  | nil =>
    simp only [renderRest, List.flatMap_nil, List.nil_append, List.cons.injEq, true_and] at h
    exact ⟨by simp, last_literal hcount hc h⟩
  | cons f fields ih =>
    obtain ⟨w, d⟩ := f
    have hd : quote ∉ d := hquote (w, d) (by simp)
    rw [renderRest_cons, renderRest_cons] at h
    simp only [id_eq, List.cons_append, List.append_assoc, List.cons.injEq, true_and] at h
    have hw : quote ∉ w := by
      cases d with
      | nil => exact absurd rfl (hapart (w, []) (by simp))
      | cons b d =>
        have hb : b ≠ quote := fun hb => hd (by simp [hb])
        exact not_mem_of_escape_append_eq hb h
    rw [escape_of_not_mem hw] at h
    have htail := List.append_cancel_left (List.cons.inj (List.append_cancel_left h)).2
    obtain ⟨hfields, hlast⟩ := ih (fun f hf => hquote f (by simp [hf]))
      (fun f hf => hapart f (by simp [hf])) htail
    refine ⟨?_, hlast⟩
    intro f hf
    rcases List.mem_cons.mp hf with rfl | hf
    · exact hw
    · exact hfields f hf

/-- A statement printed into a buffer with its values copied between quotes as they are, the
last one as `p` (which brings in no quotes of its own): it reads as the intended statement
exactly if no value has a quote, `p` is the intended value, and the buffer holds it all. -/
theorem lexSql_snprintf_iff {size : Nat} {head v p c : Bytes} {fields : List (Bytes × Bytes)}
    (hwf : (SqlText.mk head (fields ++ [(v, c)])).WellFormed)
    (hcount : p.count quote ≤ v.count quote) (hsize : 0 < size) :
    lexSql (snprintf size (SqlText.mk head (fields ++ [(p, c)])).splice) =
        some ⟨head, fields ++ [(v, c)]⟩ ↔
      (∀ f ∈ fields, quote ∉ f.1) ∧ quote ∉ v ∧ p = v ∧
        (SqlText.mk head (fields ++ [(p, c)])).splice.length < size := by
  have hc : quote ∉ c := hwf.rest (v, c) (by simp)
  constructor
  · intro h
    have htext := eq_render_of_lexSql h
    -- what the buffer cut off, appended again to the escaped statement
    set out := (SqlText.mk head (fields ++ [(p, c)])).splice with hout
    have hall := snprintf_append_drop size out
    rw [htext, SqlText.render] at hall
    conv at hall => rhs; rw [hout, SqlText.splice]
    simp only [renderRest_append, renderRest_singleton, List.append_assoc, List.cons_append,
      id_eq] at hall
    have hrest := splice_fields (fun f hf => hwf.rest f (List.mem_append_left _ hf))
      (fun f hf => hwf.apart f (List.mem_append_left _ hf)) hcount hc
      (List.append_cancel_left hall).symm
    refine ⟨hrest.1, hrest.2.1, hrest.2.2.1, ?_⟩
    have hlen := List.drop_eq_nil_iff.mp hrest.2.2.2
    omega
  · rintro ⟨hfields, hv, rfl, hlen⟩
    have henc : renderRest id (fields ++ [(p, c)]) = renderRest escape (fields ++ [(p, c)]) := by
      apply List.flatMap_congr
      intro f hf
      have hf : quote ∉ f.1 := by
        rcases List.mem_append.mp hf with hf | hf
        · exact hfields f hf
        · rw [List.mem_singleton.mp hf]
          exact hv
      rw [escape_of_not_mem hf, id]
    rw [snprintf_of_length_lt hlen, SqlText.splice, henc]
    exact lexSql_render hwf

end Framework
