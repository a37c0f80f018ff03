import LambGateway.Framework.CText

/-!
# Tables filled from query results

A program keeps the rows of a database table in a list. To renew the list it removes every node
from it, walking from the tail, then asks the database and appends an entry for each row. What
such a renewal leaves is compared here with what an atomic one would leave.
-/

namespace Framework

variable {ε ρ : Type}

/-- The text of a column, as `PQgetvalue` gives it. -/
@[ext]
structure ColumnText where
  text : Bytes
  no_nul : 0 ∉ text

instance : DecidableEq ColumnText := fun _ _ => decidable_of_iff _ ColumnText.ext_iff.symm

def CString.column {n : Nat} (s : CString n) : ColumnText := ⟨s.text, s.no_nul⟩

theorem strncpy_column_iff (c : ColumnText) (n : Nat) :
    (strncpy c.text n).column = c ↔ c.text.length ≤ n := by
  constructor
  · intro h
    have htext : (strncpy c.text n).text = c.text := congrArg ColumnText.text h
    rw [← htext]
    exact (strncpy c.text n).length_le
  · intro hlen
    apply ColumnText.ext
    exact strncpy_text hlen c.no_nul

/-! ## Emptying and filling -/

/-- The loop of an iterator that starts at the tail and removes each node that it comes to. It
has `k` nodes before it; it has moved on before the node is removed. -/
def removeFromTail : Nat → List ε → List ε
  | 0, table => table
  | k + 1, table => removeFromTail k (table.eraseIdx k)

theorem removeFromTail_eq_drop (k : Nat) (table : List ε) :
    removeFromTail k table = table.drop k := by
  induction k generalizing table with
  | zero => rfl
  | succ k ih =>
    rw [removeFromTail, ih]
    apply List.ext_getElem?
    intro i
    have hge : k ≤ k + i := Nat.le_add_right k i
    rw [List.getElem?_drop, List.getElem?_eraseIdx_of_ge hge, List.getElem?_drop,
      Nat.add_right_comm]

def clear (table : List ε) : List ε := removeFromTail table.length table

@[simp] theorem clear_eq_nil (table : List ε) : clear table = [] := by
  rw [clear, removeFromTail_eq_drop]
  exact List.drop_length

/-- An entry is appended for each row, unless it cannot be allocated. -/
def pushRows (entry : ρ → ε) (alloc : Nat → Bool) (table : List ε) : List ρ → List ε
  | [] => table
  | row :: rows =>
    pushRows entry (fun i => alloc (i + 1)) (if alloc 0 then table ++ [entry row] else table) rows

def Allocated (alloc : Nat → Bool) (rows : List ρ) : Prop := ∀ i < rows.length, alloc i = true

theorem pushRows_of_allocated (entry : ρ → ε) {alloc : Nat → Bool} (table : List ε)
    {rows : List ρ} (halloc : Allocated alloc rows) :
    pushRows entry alloc table rows = table ++ rows.map entry := by
  induction rows generalizing alloc table with
  | nil => exact (List.append_nil table).symm
  | cons row rows ih =>
    have hhead : alloc 0 = true := halloc 0 (Nat.succ_pos _)
    have htail : Allocated (fun i => alloc (i + 1)) rows :=
      fun i hi => halloc (i + 1) (Nat.succ_lt_succ hi)
    rw [pushRows, if_pos hhead, ih _ htail, List.append_assoc, List.map_cons]
    rfl

/-- What the database answers: `none` if the status is not `PGRES_TUPLES_OK`. -/
abbrev QueryResult (ρ : Type) := Option (List ρ)

/-- A fetch reports an error, and leaves the list as it is, if the query has failed or has given
fewer than `least` rows. -/
def fetchRows (least : Nat) (entry : ρ → ε) (alloc : Nat → Bool) (table : List ε) :
    QueryResult ρ → Int32 × List ε
  | none => (-1, table)
  | some rows => if rows.length < least then (-1, table) else (0, pushRows entry alloc table rows)

def renew (least : Nat) (entry : ρ → ε) (alloc : Nat → Bool) (table : List ε)
    (result : QueryResult ρ) : Int32 × List ε :=
  fetchRows least entry alloc (clear table) result

def Fails (least : Nat) (result : QueryResult ρ) : Prop := ∀ rows ∈ result, rows.length < least

/-! ## Atomic renewals -/

/-- After an error the table is the old one, and otherwise it is the rows, as far as the entries
could be allocated; `row` is the row that an entry stands for. -/
structure Atomic (row : ε → ρ) (alloc : Nat → Bool) (old : List ε) (result : QueryResult ρ)
    (outcome : Int32 × List ε) : Prop where
  failed : outcome.1 ≠ 0 → outcome.2 = old
  fetched : outcome.1 = 0 →
    ∃ rows, result = some rows ∧ (Allocated alloc rows → outcome.2.map row = rows)

theorem renew_of_fails {least : Nat} {result : QueryResult ρ} (h : Fails least result)
    (entry : ρ → ε) (alloc : Nat → Bool) (old : List ε) :
    renew least entry alloc old result = (-1, []) := by
  rw [renew, clear_eq_nil]
  cases result with
  | none => rfl
  | some rows => exact if_pos (h rows rfl)

theorem renew_of_rows {least : Nat} {rows : List ρ} (h : least ≤ rows.length) (entry : ρ → ε)
    (alloc : Nat → Bool) (old : List ε) :
    renew least entry alloc old (some rows) = (0, pushRows entry alloc [] rows) := by
  rw [renew, clear_eq_nil]
  exact if_neg (Nat.not_lt.mpr h)

theorem fails_iff {least : Nat} {result : QueryResult ρ} :
    Fails least result ↔ ¬∃ rows, result = some rows ∧ least ≤ rows.length := by
  constructor
  · rintro h ⟨rows, hrows, hle⟩
    exact absurd (h rows hrows) (Nat.not_lt.mpr hle)
  · intro h rows hrows
    apply Nat.lt_of_not_le
    exact fun hle => h ⟨rows, hrows, hle⟩

/-- A renewal is atomic if and only if the table was empty before a failure, and every row fits
into an entry. -/
theorem atomic_renew_iff (least : Nat) (entry : ρ → ε) (row : ε → ρ) (alloc : Nat → Bool)
    (old : List ε) (result : QueryResult ρ) :
    Atomic row alloc old result (renew least entry alloc old result) ↔
      (Fails least result → old = []) ∧
        ∀ rows, result = some rows → least ≤ rows.length → Allocated alloc rows →
          ∀ r ∈ rows, row (entry r) = r := by
  have hfits (rows : List ρ) (halloc : Allocated alloc rows) :
      (pushRows entry alloc [] rows).map row = rows ↔ ∀ r ∈ rows, row (entry r) = r := by
    rw [pushRows_of_allocated entry [] halloc, List.nil_append, List.map_map]
    exact ⟨fun h r hr => List.map_inj_left.mp (h.trans (List.map_id rows).symm) r hr,
      fun h => (List.map_inj_left.mpr h).trans (List.map_id rows)⟩
  have herr : (-1 : Int32) ≠ 0 := by decide
  constructor
  · intro h
    constructor
    · intro hfails
      have hkept := h.failed (by rw [renew_of_fails hfails]; exact herr)
      rw [renew_of_fails hfails] at hkept
      exact hkept.symm
    · rintro rows rfl hle halloc
      have houtcome := renew_of_rows hle entry alloc old
      obtain ⟨rows', hrows', hmap⟩ := h.fetched (by rw [houtcome])
      obtain rfl := Option.some.inj hrows'
      rw [houtcome] at hmap
      exact (hfits rows halloc).mp (hmap halloc)
  · rintro ⟨hold, hrows⟩
    by_cases hfails : Fails least result
    · rw [renew_of_fails hfails]
      exact ⟨fun _ => (hold hfails).symm, fun hzero => absurd hzero herr⟩
    · rw [fails_iff, Classical.not_not] at hfails
      obtain ⟨rows, rfl, hle⟩ := hfails
      rw [renew_of_rows hle]
      refine ⟨fun hne => absurd rfl hne, fun _ => ⟨rows, rfl, fun halloc => ?_⟩⟩
      exact (hfits rows halloc).mpr (hrows rows rfl hle halloc)

/-! ## The order of the rows -/

/-- What is taken from the first row that matches is the same in every order of the rows if and
only if it is the same for all rows that match. -/
theorem find?_bind_perm_iff {β : Type} (p : ρ → Bool) (f : ρ → Option β) (rows : List ρ) :
    (∀ xs ys : List ρ, xs.Perm rows → ys.Perm rows →
        (xs.find? p).bind f = (ys.find? p).bind f) ↔
      ∀ x ∈ rows, ∀ y ∈ rows, p x = true → p y = true → f x = f y := by
  constructor
  · have hfront (x : ρ) (hx : x ∈ rows) (hpx : p x = true) :
        ∃ xs : List ρ, xs.Perm rows ∧ (xs.find? p).bind f = f x := by
      obtain ⟨before, after, rfl⟩ := List.append_of_mem hx
      refine ⟨x :: (before ++ after), List.perm_middle.symm, ?_⟩
      rw [List.find?_cons_of_pos hpx]
      rfl
    intro h x hx y hy hpx hpy
    obtain ⟨xs, hxs, hfx⟩ := hfront x hx hpx
    obtain ⟨ys, hys, hfy⟩ := hfront y hy hpy
    rw [← hfx, ← hfy, h xs ys hxs hys]
  · intro h xs ys hxs hys
    have hmem (zs : List ρ) (hzs : zs.Perm rows) (z : ρ) (hz : zs.find? p = some z) :
        z ∈ rows ∧ p z = true :=
      ⟨hzs.mem_iff.mp (List.mem_of_find?_eq_some hz), List.find?_some hz⟩
    cases hx : xs.find? p with
    | none =>
      have hnone : ys.find? p = none := by
        rw [List.find?_eq_none] at hx ⊢
        exact fun z hz => hx z (hxs.mem_iff.mpr (hys.mem_iff.mp hz))
      rw [hnone]
    | some x =>
      cases hy : ys.find? p with
      | none =>
        have hxrows := (hmem xs hxs x hx).1
        exact absurd (hmem xs hxs x hx).2
          (List.find?_eq_none.mp hy x (hys.mem_iff.mpr hxrows))
      | some y =>
        obtain ⟨hxrows, hpx⟩ := hmem xs hxs x hx
        obtain ⟨hyrows, hpy⟩ := hmem ys hys y hy
        exact h x hxrows y hyrows hpx hpy

end Framework
