import Mathlib.Data.List.Perm.Subperm

/-!
# Stations that keep no copies

A station has several counters. At each of them entries come in, are held, and go out, at the same
counter; an entry may also get lost. The books of a station are balanced if at every counter no
entry has gone out, or is held, more often than it has come in.
-/

namespace Framework

open scoped List

variable {ι τ : Type*} [BEq ι] [BEq τ]

def Balanced (incoming : List (ι × τ)) (held : ι → List τ) (outgoing : List (ι × τ)) : Prop :=
  ∀ i t, (held i).count t + outgoing.count (i, t) ≤ incoming.count (i, t)

theorem count_entry (i j : ι) (t u : τ) :
    [(i, t)].count (j, u) = if i == j && t == u then 1 else 0 :=
  List.count_singleton

namespace Balanced

variable {incoming outgoing : List (ι × τ)} {held held' : ι → List τ}

theorem empty (held : ι → List τ) (h : ∀ i, held i = []) : Balanced [] held [] := by
  intro i t
  simp [h i]

/-- Entries get lost, or change places at their counter. -/
theorem keep (h : Balanced incoming held outgoing) (hheld : ∀ i, held' i <+~ held i) :
    Balanced incoming held' outgoing := by
  intro i t
  have hcount := (hheld i).count_le t
  have hi := h i t
  omega

variable [LawfulBEq ι]

theorem enter (h : Balanced incoming held outgoing) (i : ι) (t : τ)
    (hi : held' i <+~ t :: held i) (hother : ∀ j, j ≠ i → held' j <+~ held j) :
    Balanced (incoming ++ [(i, t)]) held' outgoing := by
  intro j u
  have hj := h j u
  rw [List.count_append, count_entry]
  by_cases hji : j = i
  · subst hji
    have hcount := hi.count_le u
    rw [List.count_cons] at hcount
    grind
  · have hcount := (hother j hji).count_le u
    omega

theorem leave (h : Balanced incoming held outgoing) (i : ι) (t : τ)
    (hi : t :: held' i <+~ held i) (hother : ∀ j, j ≠ i → held' j <+~ held j) :
    Balanced incoming held' (outgoing ++ [(i, t)]) := by
  intro j u
  have hj := h j u
  rw [List.count_append, count_entry]
  by_cases hji : j = i
  · subst hji
    have hcount := hi.count_le u
    rw [List.count_cons] at hcount
    grind
  · have hcount := (hother j hji).count_le u
    have hpair : (i == j) = false := beq_eq_false_iff_ne.mpr (Ne.symm hji)
    simp only [hpair, Bool.false_and, Bool.false_eq_true, if_false]
    omega

variable [LawfulBEq τ]

/-- Over all the counters, no entry goes out more often than it comes in. -/
theorem total (h : Balanced incoming held outgoing) (t : τ) :
    (outgoing.map Prod.snd).count t ≤ (incoming.map Prod.snd).count t := by
  have hsub : outgoing <+~ incoming := by
    rw [List.subperm_ext_iff]
    rintro ⟨i, u⟩ -
    have hi := h i u
    omega
  obtain ⟨kept, hperm, hkept⟩ := hsub
  have hcount := (hperm.map Prod.snd).count_eq t
  rw [← hcount]
  exact (hkept.map Prod.snd).count_le t

end Balanced

end Framework
