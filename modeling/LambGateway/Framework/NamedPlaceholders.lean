import LambGateway.Framework.CText
import Mathlib.Data.List.Basic

/-!
# Named placeholders in SQL text

A placeholder is a colon with the letters, digits and underscores behind it. The texts that are
read here have no literals and no comments, so that every colon counts. Texts that are put
together have the placeholders of their parts, where the boundary is not inside a name.
-/

namespace Framework

/-- `[a-zA-Z0-9_]` -/
def isWord (b : UInt8) : Bool :=
  (97 ≤ b && b ≤ 122) || (65 ≤ b && b ≤ 90) || (48 ≤ b && b ≤ 57) || b == 95

def colon : UInt8 := 58

/-- The names of the placeholders of a text, in order. -/
def placeholders : Bytes → List Bytes
  | [] => []
  | b :: text =>
    if b = colon ∧ text.takeWhile isWord ≠ [] then text.takeWhile isWord :: placeholders text
    else placeholders text

theorem takeWhile_append_of_head {p : UInt8 → Bool} {text rest : Bytes}
    (hrest : ∀ b ∈ rest.head?, p b = false) :
    (text ++ rest).takeWhile p = text.takeWhile p := by
  induction text with
  | nil =>
    cases rest with
    | nil => rfl
    | cons b rest =>
      rw [List.nil_append, List.takeWhile_cons, hrest b rfl]
      rfl
  | cons b text ih => rw [List.cons_append, List.takeWhile_cons, List.takeWhile_cons, ih]

/-- A text that does not go on with a name. -/
def OutsideAtHead (text : Bytes) : Prop := ∀ b ∈ text.head?, isWord b = false

/-- A text that ends with a byte that is neither part of a name nor a colon. -/
def OutsideAtLast (text : Bytes) : Prop := ∀ b ∈ text.getLast?, isWord b = false ∧ b ≠ colon

instance (text : Bytes) : Decidable (OutsideAtHead text) :=
  decidable_of_iff ((text.head?.all fun b => !isWord b) = true) (by
    rw [OutsideAtHead]
    cases text.head? <;> simp)

instance (text : Bytes) : Decidable (OutsideAtLast text) :=
  decidable_of_iff ((text.getLast?.all fun b => !isWord b && b != colon) = true) (by
    rw [OutsideAtLast]
    cases text.getLast? <;> simp)

theorem placeholders_append {text rest : Bytes} (hrest : OutsideAtHead rest) :
    placeholders (text ++ rest) = placeholders text ++ placeholders rest := by
  induction text with
  | nil => rfl
  | cons b text ih =>
    rw [List.cons_append, placeholders, placeholders, takeWhile_append_of_head hrest, ih]
    split <;> rfl

theorem placeholders_append_of_last {text : Bytes} (htext : OutsideAtLast text) (rest : Bytes) :
    placeholders (text ++ rest) = placeholders text ++ placeholders rest := by
  rcases List.eq_nil_or_concat' text with rfl | ⟨front, b, rfl⟩
  · rfl
  · obtain ⟨hword, hcolon⟩ := htext b List.getLast?_concat
    have hskip (tail : Bytes) : placeholders (b :: tail) = placeholders tail := by
      rw [placeholders, if_neg fun h => hcolon h.1]
    have hhead (tail : Bytes) : OutsideAtHead (b :: tail) := by
      intro c hc
      exact Option.some.inj hc ▸ hword
    have happend (tail : Bytes) :
        placeholders (front ++ b :: tail) = placeholders front ++ placeholders tail := by
      rw [placeholders_append (hhead tail), hskip]
    have hfront : placeholders (front ++ [b]) = placeholders front := by
      rw [happend, placeholders, List.append_nil]
    rw [hfront, List.append_assoc, List.singleton_append, happend]

theorem placeholders_of_not_mem {text : Bytes} (h : colon ∉ text) : placeholders text = [] := by
  induction text with
  | nil => rfl
  | cons b text ih =>
    have hb : b ≠ colon := by
      rintro rfl
      exact h List.mem_cons_self
    rw [placeholders, if_neg fun hcolon => hb hcolon.1]
    exact ih fun hmem => h (List.mem_cons_of_mem b hmem)

theorem colon_not_mem_name {name : Bytes} (hword : ∀ b ∈ name, isWord b = true) :
    colon ∉ name := by
  intro h
  exact absurd (hword colon h) (by decide)

/-- A name behind a colon, at the end of a text without another one. -/
theorem placeholders_name {text name : Bytes} (htext : colon ∉ text) (hne : name ≠ [])
    (hword : ∀ b ∈ name, isWord b = true) : placeholders (text ++ colon :: name) = [name] := by
  have hhead : OutsideAtHead (colon :: name) := by
    intro b hb
    obtain rfl := Option.some.inj hb
    decide
  have hname : name.takeWhile isWord = name := List.takeWhile_eq_self_iff.mpr hword
  rw [placeholders_append hhead, placeholders_of_not_mem htext, List.nil_append, placeholders,
    hname, if_pos ⟨rfl, hne⟩, placeholders_of_not_mem (colon_not_mem_name hword)]

end Framework
