import Mathlib.Data.List.Nodup

/-!
# Keyed lists

The rows of a table have keys that no two of them share, so that a key finds its row. Requests in
progress stand in a list in the order in which they have begun: one of them takes a step, which
puts another request into its place, or it is finished and leaves the list.
-/

namespace Framework

variable {ρ : Type*} {l : List ρ} {i : Nat} {x : ρ}

theorem getElem?_split (h : l[i]? = some x) :
    ∃ front behind, l = front ++ x :: behind ∧ (∀ y, l.set i y = front ++ y :: behind) ∧
      l.eraseIdx i = front ++ behind := by
  obtain ⟨hlt, hget⟩ := List.getElem?_eq_some_iff.mp h
  refine ⟨l.take i, l.drop (i + 1), ?_, fun y => ?_, List.eraseIdx_eq_take_drop_succ ..⟩
  · rw [← hget, List.getElem_cons_drop, List.take_append_drop]
  · rw [List.set_eq_take_append_cons_drop, if_pos hlt]

/-- Where no two rows have one key, a search by key finds the row that has it. -/
theorem find?_key_iff {κ : Type*} [DecidableEq κ] {key : ρ → κ} (h : (l.map key).Nodup) {k : κ} :
    l.find? (fun y => key y = k) = some x ↔ x ∈ l ∧ key x = k := by
  constructor
  · intro hfind
    exact ⟨List.mem_of_find?_eq_some hfind, by simpa using List.find?_some hfind⟩
  · rintro ⟨hx, hk⟩
    cases hfind : l.find? (fun y => key y = k) with
    | none =>
      have hnone := List.find?_eq_none.mp hfind x hx
      simp [hk] at hnone
    | some y =>
      have hy : key y = k := by simpa using List.find?_some hfind
      rw [List.inj_on_of_nodup_map h (List.mem_of_find?_eq_some hfind) hx (hy.trans hk.symm)]

/-- A search by key depends on the rows that have the key. -/
theorem find?_key_congr {κ : Type*} [DecidableEq κ] {key : ρ → κ} {l' : List ρ}
    (h : (l.map key).Nodup) (h' : (l'.map key).Nodup) {k : κ}
    (hsame : ∀ x, key x = k → (x ∈ l' ↔ x ∈ l)) :
    l'.find? (fun y => key y = k) = l.find? fun y => key y = k := by
  apply Option.ext
  intro x
  rw [find?_key_iff h, find?_key_iff h']
  exact and_congr_left (hsame x)

theorem map_set_of_key {κ : Type*} {key : ρ → κ} (h : l[i]? = some x) {y : ρ} (hy : key y = key x) :
    (l.set i y).map key = l.map key := by
  obtain ⟨front, behind, hsplit, hset, -⟩ := getElem?_split h
  rw [hset, hsplit, List.map_append, List.map_append, List.map_cons, List.map_cons, hy]

/-- Where no two requests have one key, each of the others has another key than `x`. -/
theorem key_ne_of_split {κ : Type*} {key : ρ → κ} {front behind : List ρ}
    (h : ((front ++ x :: behind).map key).Nodup) {y : ρ} (hy : y ∈ front ++ behind) :
    key y ≠ key x := by
  rw [List.map_append, List.map_cons] at h
  have hx := (List.nodup_middle.mp h).notMem
  rw [← List.map_append] at hx
  exact fun he => hx (he ▸ List.mem_map_of_mem hy)

end Framework
