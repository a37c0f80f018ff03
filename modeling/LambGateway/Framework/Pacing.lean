import Mathlib.Data.List.Pairwise

/-!
# Paced events

Events at times that keep a distance of at least `p`. In a window there are no more of them than
the distances between them have room for.
-/

namespace Framework

/-- Each event comes at least `p` after every earlier one. -/
def Spaced (p : Nat) (times : List Nat) : Prop := times.Pairwise fun a b => a + p ≤ b

theorem spaced_cons {p t : Nat} {times : List Nat} (hfirst : ∀ u ∈ times, t + p ≤ u)
    (h : Spaced p times) : Spaced p (t :: times) :=
  List.Pairwise.cons hfirst h

/-- The events in the window `[lo, lo + width)`. -/
def during (lo width : Nat) (times : List Nat) : List Nat :=
  times.filter fun t => lo ≤ t && t < lo + width

theorem Spaced.span {p lo hi : Nat} {times : List Nat} (h : Spaced p times)
    (hlo : ∀ t ∈ times, lo ≤ t) (hhi : ∀ t ∈ times, t < hi) (hne : times ≠ []) :
    lo + (times.length - 1) * p < hi := by
  induction times generalizing lo with
  | nil => exact absurd rfl hne
  | cons t times ih =>
    have ht : lo ≤ t := hlo t List.mem_cons_self
    obtain ⟨hfirst, hrest⟩ := List.pairwise_cons.mp h
    cases times with
    | nil =>
      have htop := hhi t List.mem_cons_self
      simp only [List.length_cons, List.length_nil]
      omega
    | cons u times =>
      have hspan := ih hrest hfirst (fun v hv => hhi v (List.mem_cons_of_mem t hv))
        (List.cons_ne_nil u times)
      simp only [List.length_cons, Nat.add_sub_cancel] at hspan ⊢
      rw [Nat.add_mul, Nat.one_mul]
      omega

/-- If `n` distances fill the window, at most `n` events are in it. -/
theorem Spaced.during_length_le {p n width : Nat} {times : List Nat} (h : Spaced p times)
    (hwidth : width ≤ n * p) (lo : Nat) : (during lo width times).length ≤ n := by
  have hin (t : Nat) (ht : t ∈ during lo width times) : lo ≤ t ∧ t < lo + width := by
    simpa using (List.mem_filter.mp ht).2
  by_cases hnil : during lo width times = []
  · rw [hnil]
    exact Nat.zero_le n
  · have hsub : Spaced p (during lo width times) := List.Pairwise.filter _ h
    have hspan := hsub.span (fun t ht => (hin t ht).1) (fun t ht => (hin t ht).2) hnil
    have hprod : ((during lo width times).length - 1) * p < n * p := by omega
    have hlt := Nat.lt_of_mul_lt_mul_right hprod
    omega

end Framework
