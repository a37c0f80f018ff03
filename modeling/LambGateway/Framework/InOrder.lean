import Mathlib.Data.List.Basic
import Mathlib.Data.List.Pairwise

/-!
# In order, with omissions and repetitions

A chain of queues in which entries get lost, and in which the last one taken may be taken again,
delivers what it was given in the same order. `InOrder l m` says that `m` can be read off `l` from
left to right, where an entry may be passed over or read several times before going on.

The queues are places that hold entries, and a chain of them is a path, the place that was reached
last first. An entry moves from the head of one place to the end of another.
-/

namespace Framework

open scoped List

variable {τ : Type*}

inductive InOrder : List τ → List τ → Prop
  | nil (l : List τ) : InOrder l []
  | skip (x : τ) {l m : List τ} : InOrder l m → InOrder (x :: l) m
  | read {x : τ} {l m : List τ} : InOrder (x :: l) m → InOrder (x :: l) (x :: m)

namespace InOrder

variable {l l' m m' : List τ}

theorem of_sublist (h : m <+ l) : InOrder l m := by
  induction h with
  | slnil => exact .nil []
  | cons x _ ih => exact .skip x ih
  | cons_cons x _ ih => exact .read (.skip x ih)

theorem refl (l : List τ) : InOrder l l := of_sublist (List.Sublist.refl l)

/-- What has been given grows. -/
theorem mono_left (h : InOrder l m) (hl : l <+ l') : InOrder l' m := by
  induction hl generalizing m with
  | slnil => exact h
  | cons x _ ih => exact .skip x (ih h)
  | cons_cons x _ ih =>
    induction m with
    | nil => exact .nil _
    | cons y m ihm =>
      cases h with
      | skip _ h => exact .skip x (ih h)
      | read h => exact .read (ihm h)

/-- Something is lost. -/
theorem mono_right (h : InOrder l m) (hm : m' <+ m) : InOrder l m' := by
  induction h generalizing m' with
  | nil l =>
    obtain rfl := List.sublist_nil.mp hm
    exact .nil l
  | skip x _ ih => exact .skip x (ih hm)
  | read _ ih =>
    rcases List.sublist_cons_iff.mp hm with hm | ⟨r, rfl, hr⟩
    · exact ih hm
    · exact .read (ih hr)

theorem append (h : InOrder l m) (h' : InOrder l' m') : InOrder (l ++ l') (m ++ m') := by
  induction h with
  | nil l => exact h'.mono_left (List.sublist_append_right l l')
  | skip x _ ih => exact .skip x ih
  | read _ ih => exact .read ih

/-- An entry is taken once more. -/
theorem again {front behind : List τ} {x : τ} (h : InOrder l (front ++ x :: behind)) :
    InOrder l (front ++ x :: x :: behind) := by
  induction l generalizing front with
  | nil =>
    cases hm : front ++ x :: behind with
    | nil => simp at hm
    | cons y m =>
      rw [hm] at h
      cases h
  | cons y l ih =>
    induction front with
    | nil =>
      cases h with
      | skip _ h => exact .skip y (@ih [] h)
      | read h => exact .read (.read h)
    | cons z front ihf =>
      cases h with
      | skip _ h => exact .skip y (@ih (z :: front) h)
      | read h => exact .read (ihf h)

theorem subset (h : InOrder l m) : m ⊆ l := by
  induction h with
  | nil l => exact List.nil_subset l
  | skip x _ ih => exact List.subset_cons_of_subset x ih
  | read _ ih => exact List.cons_subset.mpr ⟨List.mem_cons_self, ih⟩

/-- An order that holds along what was given holds along what is read, repetitions apart. -/
theorem pairwise {R : τ → τ → Prop} (h : InOrder l m) (hl : l.Pairwise R) :
    m.Pairwise fun x y => x = y ∨ R x y := by
  induction h with
  | nil l => exact List.Pairwise.nil
  | skip x _ ih => exact ih hl.of_cons
  | read hm ih =>
    refine List.Pairwise.cons ?_ (ih hl)
    intro y hy
    rcases List.mem_cons.mp (hm.subset hy) with rfl | hy
    · exact .inl rfl
    · exact .inr (List.rel_of_pairwise_cons hl hy)

/-- Where no entry was given twice, the places of the entries read never go down. -/
theorem monotone_idxOf [BEq τ] [LawfulBEq τ] (h : InOrder l m) (hl : l.Nodup) :
    m.Pairwise fun x y => l.idxOf x ≤ l.idxOf y := by
  have hplaces : l.Pairwise fun x y => l.idxOf x < l.idxOf y := by
    rw [List.pairwise_iff_getElem]
    intro i j hi hj hij
    rwa [hl.idxOf_getElem i hi, hl.idxOf_getElem j hj]
  refine (h.pairwise hplaces).imp ?_
  rintro x y (rfl | hlt)
  · exact Nat.le_refl _
  · exact Nat.le_of_lt hlt

end InOrder

/-! ## Places -/

variable {π : Type*} {f f' : π → List τ} {p q : π} {x : τ}

/-- The head of `p` has moved to the end of `q`. -/
structure Moved (f f' : π → List τ) (p q : π) (x : τ) : Prop where
  head : f p = x :: f' p
  last : f' q = f q ++ [x]
  other : ∀ r, r ≠ p → r ≠ q → f' r = f r

/-- The head of `p` has been copied to the end of `q`. -/
structure Copied (f f' : π → List τ) (p q : π) (x : τ) : Prop where
  head : ∃ rest, f p = x :: rest ∧ f' p = x :: rest
  last : f' q = f q ++ [x]
  other : ∀ r, r ≠ p → r ≠ q → f' r = f r

theorem flatMap_sublist {path : List π} (h : ∀ r ∈ path, f' r <+ f r) :
    path.flatMap f' <+ path.flatMap f := by
  induction path with
  | nil => exact .refl _
  | cons r path ih =>
    obtain ⟨hr, hpath⟩ := List.forall_mem_cons.mp h
    exact hr.append (ih hpath)

namespace Moved

theorem flatMap_eq (h : Moved f f' p q x) {path : List π} (hp : p ∉ path) (hq : q ∉ path) :
    path.flatMap f' = path.flatMap f := by
  apply List.flatMap_congr
  intro r hr
  exact h.other r (fun he => hp (he ▸ hr)) (fun he => hq (he ▸ hr))

/-- On a path with neither the one place nor the other, or where the entry leaves it. -/
theorem sublist_of_leave (h : Moved f f' p q x) {path : List π} (hq : q ∉ path) :
    path.flatMap f' <+ path.flatMap f := by
  apply flatMap_sublist
  intro r hr
  by_cases hp : r = p
  · rw [hp, h.head]
    exact List.sublist_cons_self x _
  · rw [h.other r hp fun he => hq (he ▸ hr)]

/-- Along a path the entry stays where it is among the others. -/
theorem eq_of_along (h : Moved f f' p q x) (front behind : List π)
    (hnodup : (front ++ q :: p :: behind).Nodup) :
    (front ++ q :: p :: behind).flatMap f' = (front ++ q :: p :: behind).flatMap f := by
  obtain ⟨-, hback, hdisjoint⟩ := List.nodup_append.mp hnodup
  simp only [List.nodup_cons, List.mem_cons, not_or] at hback
  have hfront : front.flatMap f' = front.flatMap f := by
    apply h.flatMap_eq
    · exact fun hp => hdisjoint p hp p (by simp) rfl
    · exact fun hq => hdisjoint q hq q (by simp) rfl
  have hbehind := h.flatMap_eq hback.2.1 hback.1.2
  simp only [List.flatMap_append, List.flatMap_cons, hfront, hbehind, h.last, h.head,
    List.append_assoc, List.cons_append, List.nil_append]

/-- An entry joins a path from another one that agrees with it behind the places in the middle,
where nothing stands in the middle of the path it joins. -/
theorem sublist_of_join (h : Moved f f' p q x) (front middle middle' behind : List π)
    (hfront : p ∉ front ∧ q ∉ front) (hmiddle : p ∉ middle ∧ q ∉ middle)
    (hbehind : p ∉ behind ∧ q ∉ behind)
    (hempty : middle.flatMap f = []) :
    (front ++ q :: (middle ++ behind)).flatMap f' <+
      (front ++ q :: p :: (middle' ++ behind)).flatMap f := by
  simp only [List.flatMap_append, List.flatMap_cons, h.flatMap_eq hfront.1 hfront.2,
    h.flatMap_eq hmiddle.1 hmiddle.2, h.flatMap_eq hbehind.1 hbehind.2, hempty, h.last, h.head,
    List.append_assoc, List.cons_append, List.nil_append]
  refine (List.Sublist.refl _).append ((List.Sublist.refl _).append (.cons_cons x ?_))
  exact (List.sublist_append_right _ _).trans (List.sublist_append_right _ _)

end Moved

namespace Copied

theorem flatMap_eq (h : Copied f f' p q x) {path : List π} (hq : q ∉ path) :
    path.flatMap f' = path.flatMap f := by
  apply List.flatMap_congr
  intro r hr
  by_cases hp : r = p
  · obtain ⟨rest, hold, hnew⟩ := h.head
    rw [hp, hold, hnew]
  · exact h.other r hp fun he => hq (he ▸ hr)

/-- Along a path the entry is repeated. -/
theorem inOrder (h : Copied f f' p q x) (front behind : List π)
    (hnodup : (front ++ q :: p :: behind).Nodup) {l : List τ}
    (hl : InOrder l ((front ++ q :: p :: behind).flatMap f)) :
    InOrder l ((front ++ q :: p :: behind).flatMap f') := by
  obtain ⟨-, hback, hdisjoint⟩ := List.nodup_append.mp hnodup
  simp only [List.nodup_cons, List.mem_cons, not_or] at hback
  have hfront : front.flatMap f' = front.flatMap f :=
    h.flatMap_eq fun hq => hdisjoint q hq q (by simp) rfl
  have hbehind := h.flatMap_eq hback.1.2
  obtain ⟨rest, hold, hnew⟩ := h.head
  simp only [List.flatMap_append, List.flatMap_cons, hfront, hbehind, h.last, hold, hnew,
    List.append_assoc, List.cons_append, List.nil_append] at hl ⊢
  rw [← List.append_assoc] at hl ⊢
  exact hl.again

end Copied

end Framework
