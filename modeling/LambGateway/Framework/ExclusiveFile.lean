import Mathlib.Logic.Function.Basic

/-!
# Files that are created exclusively

A process that creates a file with exclusive creation owns it until it removes it. The files that
exist are then the owned ones, and no file has two owners.
-/

namespace Framework

variable {ι κ : Type} [DecidableEq ι] [DecidableEq κ] {files : κ → Bool} {owns : ι → Option κ}

/-- Every file that exists has an owner, who is the only one, and every owned file exists. -/
structure Owned (files : κ → Bool) (owns : ι → Option κ) : Prop where
  exists_iff : ∀ k, files k = true ↔ ∃ i, owns i = some k
  unique : ∀ {i j k}, owns i = some k → owns j = some k → i = j

omit [DecidableEq ι] [DecidableEq κ] in
theorem owned_empty : Owned (fun _ : κ => false) (fun _ : ι => none) where
  exists_iff _ := ⟨fun h => absurd h Bool.false_ne_true, fun ⟨_, h⟩ => nomatch h⟩
  unique h := nomatch h

/-- A file that did not exist is created. -/
theorem Owned.create (h : Owned files owns) {i : ι} {k : κ} (hi : owns i = none)
    (hk : files k = false) :
    Owned (Function.update files k true) (Function.update owns i (some k)) where
  exists_iff l := by
    by_cases hlk : l = k
    · subst hlk
      exact ⟨fun _ => ⟨i, Function.update_self _ _ _⟩, fun _ => Function.update_self _ _ _⟩
    · rw [Function.update_of_ne hlk, h.exists_iff]
      constructor
      · rintro ⟨j, hj⟩
        have hji : j ≠ i := by
          rintro rfl
          exact nomatch hi.symm.trans hj
        exact ⟨j, by rw [Function.update_of_ne hji, hj]⟩
      · rintro ⟨j, hj⟩
        by_cases hji : j = i
        · subst hji
          rw [Function.update_self] at hj
          exact absurd (Option.some.inj hj).symm hlk
        · rw [Function.update_of_ne hji] at hj
          exact ⟨j, hj⟩
  unique {a b l} ha hb := by
    have hnew {c : ι} (hc : Function.update owns i (some k) c = some l) (hci : c ≠ i) :
        owns c = some l ∧ l ≠ k := by
      rw [Function.update_of_ne hci] at hc
      refine ⟨hc, ?_⟩
      rintro rfl
      exact absurd ((h.exists_iff l).mpr ⟨c, hc⟩) (by rw [hk]; exact Bool.false_ne_true)
    by_cases hai : a = i <;> by_cases hbi : b = i
    · rw [hai, hbi]
    · subst hai
      rw [Function.update_self] at ha
      exact absurd (Option.some.inj ha).symm (hnew hb hbi).2
    · subst hbi
      rw [Function.update_self] at hb
      exact absurd (Option.some.inj hb).symm (hnew ha hai).2
    · exact h.unique (hnew ha hai).1 (hnew hb hbi).1

/-- An owned file is removed by its owner. -/
theorem Owned.remove (h : Owned files owns) {i : ι} {k : κ} (hi : owns i = some k) :
    Owned (Function.update files k false) (Function.update owns i none) where
  exists_iff l := by
    by_cases hlk : l = k
    · subst hlk
      rw [Function.update_self]
      refine ⟨fun hf => absurd hf Bool.false_ne_true, ?_⟩
      rintro ⟨j, hj⟩
      by_cases hji : j = i
      · subst hji
        rw [Function.update_self] at hj
        exact nomatch hj
      · rw [Function.update_of_ne hji] at hj
        exact absurd (h.unique hj hi) hji
    · rw [Function.update_of_ne hlk, h.exists_iff]
      constructor
      · rintro ⟨j, hj⟩
        have hji : j ≠ i := by
          rintro rfl
          exact hlk (Option.some.inj (hj.symm.trans hi))
        exact ⟨j, by rw [Function.update_of_ne hji, hj]⟩
      · rintro ⟨j, hj⟩
        by_cases hji : j = i
        · subst hji
          rw [Function.update_self] at hj
          exact nomatch hj
        · rw [Function.update_of_ne hji] at hj
          exact ⟨j, hj⟩
  unique {a b l} ha hb := by
    have hold {c : ι} (hc : Function.update owns i none c = some l) : owns c = some l := by
      by_cases hci : c = i
      · subst hci
        rw [Function.update_self] at hc
        exact nomatch hc
      · rwa [Function.update_of_ne hci] at hc
    exact h.unique (hold ha) (hold hb)

end Framework
