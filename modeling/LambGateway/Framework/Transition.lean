import Mathlib.Data.List.Basic

/-!
# Labelled partial transitions

A system is a partial step function: `none` marks an action that is not enabled in a state.
Finite runs, invariants along them, and runs whose actions all meet a condition on the state
in which they are taken are developed here for arbitrary states and actions.
-/

namespace Framework

variable {σ α : Type*}

/-- Take the actions in order. The run fails as soon as one of them is not enabled. -/
def exec (step : σ → α → Option σ) : σ → List α → Option σ
  | s, [] => some s
  | s, a :: as => (step s a).bind fun t => exec step t as

@[simp] theorem exec_nil (step : σ → α → Option σ) (s : σ) : exec step s [] = some s := rfl

theorem exec_cons (step : σ → α → Option σ) (s : σ) (a : α) (as : List α) :
    exec step s (a :: as) = (step s a).bind fun t => exec step t as := rfl

theorem exec_cons_eq_some {step : σ → α → Option σ} {s u : σ} {a : α} {as : List α} :
    exec step s (a :: as) = some u ↔ ∃ t, step s a = some t ∧ exec step t as = some u := by
  rw [exec_cons, Option.bind_eq_some_iff]

/-- Every action of the run meets `guard` in the state in which it is taken. -/
def Guarded (step : σ → α → Option σ) (guard : σ → α → Prop) : σ → List α → Prop
  | _, [] => True
  | s, a :: as => guard s a ∧ ∀ t ∈ step s a, Guarded step guard t as

instance Guarded.decidable (step : σ → α → Option σ) (guard : σ → α → Prop)
    [∀ s a, Decidable (guard s a)] : ∀ (s : σ) (as : List α), Decidable (Guarded step guard s as)
  | _, [] => isTrue trivial
  | s, a :: as =>
    have (t : σ) : Decidable (Guarded step guard t as) := Guarded.decidable step guard t as
    inferInstanceAs (Decidable (guard s a ∧ ∀ t ∈ step s a, Guarded step guard t as))

theorem guarded_congr {step : σ → α → Option σ} {guard guard' : σ → α → Prop}
    (h : ∀ s a, guard s a ↔ guard' s a) (s : σ) (as : List α) :
    Guarded step guard s as ↔ Guarded step guard' s as := by
  induction as generalizing s with
  | nil => rfl
  | cons a as ih => exact and_congr (h s a) (forall₂_congr fun t _ => ih t)

/-- What every step preserves, every run preserves. -/
theorem exec_invariant {step : σ → α → Option σ} {Inv : σ → Prop}
    (hstep : ∀ s a t, Inv s → step s a = some t → Inv t) {s u : σ} {as : List α} (hs : Inv s)
    (he : exec step s as = some u) : Inv u := by
  induction as generalizing s with
  | nil =>
    cases he
    exact hs
  | cons a as ih =>
    obtain ⟨t, hst, htu⟩ := exec_cons_eq_some.mp he
    exact ih (hstep s a t hs hst) htu

/-- What every guarded step preserves, every guarded run preserves. -/
theorem exec_invariant_of_guarded {step : σ → α → Option σ} {guard : σ → α → Prop}
    {Inv : σ → Prop} (hstep : ∀ s a t, Inv s → guard s a → step s a = some t → Inv t)
    {s u : σ} {as : List α} (hs : Inv s) (hg : Guarded step guard s as)
    (he : exec step s as = some u) : Inv u := by
  induction as generalizing s with
  | nil =>
    cases he
    exact hs
  | cons a as ih =>
    obtain ⟨t, hst, htu⟩ := exec_cons_eq_some.mp he
    exact ih (hstep s a t hs hg.1 hst) (hg.2 t hst) htu

/-- Where one condition keeps an invariant that implies another condition, runs that meet the
first meet the second. -/
theorem guarded_of_invariant {step : σ → α → Option σ} {guard guard' : σ → α → Prop}
    {Inv : σ → Prop} (hstep : ∀ s a t, Inv s → guard s a → step s a = some t → Inv t)
    (himp : ∀ s a, Inv s → guard s a → guard' s a) {s : σ} {as : List α} (hs : Inv s)
    (hg : Guarded step guard s as) : Guarded step guard' s as := by
  induction as generalizing s with
  | nil => trivial
  | cons a as ih =>
    refine ⟨himp s a hs hg.1, fun t hst => ?_⟩
    exact ih (hstep s a t hs hg.1 hst) (hg.2 t hst)

/-- Two conditions that agree where an invariant holds that the first one keeps. -/
theorem guarded_iff_of_invariant {step : σ → α → Option σ} {guard guard' : σ → α → Prop}
    {Inv : σ → Prop} (hstep : ∀ s a t, Inv s → guard s a → step s a = some t → Inv t)
    (hiff : ∀ s a, Inv s → (guard s a ↔ guard' s a)) {s : σ} {as : List α} (hs : Inv s) :
    Guarded step guard s as ↔ Guarded step guard' s as := by
  refine ⟨guarded_of_invariant hstep (fun s a hi => (hiff s a hi).mp) hs, ?_⟩
  intro hg'
  refine guarded_of_invariant ?_ (fun s a hi => (hiff s a hi).mpr) hs hg'
  exact fun s a t hi hg' => hstep s a t hi ((hiff s a hi).mpr hg')

theorem forall_states_iff_guarded {step : σ → α → Option σ} {P : σ → Prop} {s : σ}
    {as : List α} (hs : P s) :
    (∀ bs, bs <+: as → ∀ t, exec step s bs = some t → P t) ↔
      Guarded step (fun s a => ∀ t, step s a = some t → P t) s as := by
  induction as generalizing s with
  | nil =>
    refine ⟨fun _ => trivial, fun _ bs hbs t ht => ?_⟩
    rw [List.prefix_nil.mp hbs] at ht
    cases ht
    exact hs
  | cons a as ih =>
    constructor
    · intro h
      have hstep (t : σ) (ht : step s a = some t) : P t :=
        h [a] ⟨as, rfl⟩ t (exec_cons_eq_some.mpr ⟨t, ht, rfl⟩)
      refine ⟨hstep, fun t ht => (ih (hstep t ht)).mp fun bs hbs u hu => ?_⟩
      obtain ⟨cs, rfl⟩ := hbs
      exact h (a :: bs) ⟨cs, rfl⟩ u (exec_cons_eq_some.mpr ⟨t, ht, hu⟩)
    · rintro ⟨hstep, hrest⟩ bs hbs u hu
      cases bs with
      | nil =>
        cases hu
        exact hs
      | cons b bs =>
        obtain ⟨rfl, htail⟩ := List.cons_prefix_cons.mp hbs
        obtain ⟨t, ht, htu⟩ := exec_cons_eq_some.mp hu
        exact (ih (hstep t ht)).mpr (hrest t ht) bs htail u htu

/-- Where an invariant holds, `guard` tells which steps keep `P`: the runs through states that all
have `P` are the runs whose steps all meet `guard`. -/
theorem forall_states_iff_guarded_of_invariant {step : σ → α → Option σ}
    {guard : σ → α → Prop} {Inv P : σ → Prop}
    (hinv : ∀ {s a t}, Inv s → step s a = some t → P t → Inv t)
    (hguard : ∀ {s}, Inv s → P s → ∀ a, (∀ t, step s a = some t → P t) ↔ guard s a)
    {s : σ} (hs : Inv s) (hp : P s) (as : List α) :
    (∀ bs, bs <+: as → ∀ t, exec step s bs = some t → P t) ↔ Guarded step guard s as := by
  rw [forall_states_iff_guarded hp]
  have hstep (s : σ) (a : α) (t : σ) (hs : Inv s ∧ P s)
      (hkeep : ∀ t, step s a = some t → P t) (ht : step s a = some t) : Inv t ∧ P t :=
    ⟨hinv hs.1 ht (hkeep t ht), hkeep t ht⟩
  apply guarded_iff_of_invariant hstep
  · exact fun s a hs => hguard hs.1 hs.2 a
  · exact ⟨hs, hp⟩

end Framework
